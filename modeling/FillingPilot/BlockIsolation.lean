/-
The fields of a block apart from each other.

A value decides the bytes of the properties of its name, and the bytes of a property decide its
entry.  Encoding keeps to this.  Decoding does too, but for one codec: a time before 1970 that is no
whole second makes it panic, and then no property of the block has an entry.

Main definitions:

* `FillingPilot.UnreadableTime` — a property holds such a time;
* `FillingPilot.entryRead` — the entry of a property, if it has one;
* `FillingPilot.EncodesApart` — a value decides nothing but the places of its name.

Main results:

* `FillingPilot.entryRead_congr` — the bytes of a property decide its entry;
* `FillingPilot.decodeProperties_spec` — what decoding finds, property by property;
* `FillingPilot.encodesApart` — **encoding keeps the fields apart**.
-/

import FillingPilot.BlockWrites
import FillingPilot.DecodePanic

set_option relaxedAutoImplicit false
set_option autoImplicit false

namespace FillingPilot

open Json Rust

variable {host : Host}

/-! ### The entry of a property -/

/-- The property holds, in one of its elements, a time before 1970 that is no whole second. -/
def UnreadableTime (p : DataBlockPropertyDefinition) (data : List UInt8) : Prop :=
  p.propertyType = "longAsDateTime" ∧
    ∃ i < p.count, OddMillis (data.slice (p.offset + i * p.elementSize) p.elementSize)

instance (p : DataBlockPropertyDefinition) (data : List UInt8) :
    Decidable (UnreadableTime p data) := by
  unfold UnreadableTime
  infer_instance

/-- The entry of a property, if it has one. -/
def entryRead (host : Host) (data : List UInt8) (p : DataBlockPropertyDefinition) :
    Outcome (Option Value) :=
  if data.length ≤ p.offset then .ok none
  else if p.count = 1 then do
    let propBytes ← slice p.offset (min (p.offset + p.elementSize * p.count) data.length) data
    readElement host p.propertyType propBytes
  else do
    let arr ← readElements host p data p.count 0
    return if arr.isEmpty then none else some (.array arr)

/-- A property puts its entry into the map. -/
theorem decodeProperty_eq (data : List UInt8) (map : AList fun _ : String => Value)
    (p : DataBlockPropertyDefinition) :
    decodeProperty host data map p = (do
      match ← entryRead host data p with
      | some value => return map.insert p.name value
      | none => return map) := by
  unfold decodeProperty entryRead
  dsimp only
  split_ifs with hstart hcount
  · rfl
  · exact (bind_assoc _ _ _).symm
  · rw [bind_assoc]
    congr 1
    funext arr
    cases arr.isEmpty <;> rfl

theorem readElement_panicsIff (type : String) (bytes : List UInt8) :
    (readElement host type bytes).PanicsIff (type = "longAsDateTime" ∧ OddMillis bytes) := by
  unfold readElement
  cases hcodec : getCodec host type with
  | none =>
      refine Or.inr ⟨?_, _, rfl⟩
      rintro ⟨rfl, -⟩
      cases hcodec
  | some codec =>
      rw [← decode_panics_iff hcodec bytes]
      dsimp only
      cases hdecode : codec.decode bytes with
      | ok value => exact Or.inr ⟨(nomatch ·), _, rfl⟩
      | err message => exact Or.inr ⟨(nomatch ·), _, rfl⟩
      | panic => exact Or.inl ⟨rfl, rfl⟩

/-- What is cut off by the end of the data is not there in a part either. -/
theorem slice_min (start size : ℕ) (data : List UInt8) :
    data.slice start (min (start + size) data.length - start) = data.slice start size := by
  refine List.ext_getElem? fun i => ?_
  rw [List.getElem?_slice, List.getElem?_slice]
  split_ifs with h1 h2 h2
  · rfl
  · omega
  · rw [List.getElem?_eq_none]
    omega
  · rfl

/-- Nothing is read behind the data, so no time either. -/
theorem not_oddMillis_of_length_le {start size : ℕ} {data : List UInt8}
    (h : data.length ≤ start) : ¬ OddMillis (data.slice start size) := by
  rintro ⟨hlen, -⟩
  rw [List.slice, List.length_take, List.length_drop] at hlen
  omega

theorem readElements_panicsIff (p : DataBlockPropertyDefinition) (data : List UInt8) (n : ℕ) :
    ∀ i, (readElements host p data n i).PanicsIff (p.propertyType = "longAsDateTime" ∧
      ∃ j, i ≤ j ∧ j < i + n ∧
        OddMillis (data.slice (p.offset + j * p.elementSize) p.elementSize)) := by
  induction n with
  | zero =>
      intro i
      refine Or.inr ⟨?_, _, rfl⟩
      rintro ⟨-, j, hle, hlt, -⟩
      omega
  | succ n ih =>
      intro i
      rw [readElements]
      split_ifs with hbehind
      · -- nothing begins in the data from this element on
        refine Or.inr ⟨?_, _, rfl⟩
        rintro ⟨-, j, hle, -, hodd⟩
        refine not_oddMillis_of_length_le ?_ hodd
        have hmul : i * p.elementSize ≤ j * p.elementSize := Nat.mul_le_mul_right _ hle
        omega
      · have hslice : slice (p.offset + i * p.elementSize)
            (min (p.offset + i * p.elementSize + p.elementSize) data.length) data =
              .ok (data.slice (p.offset + i * p.elementSize) p.elementSize) := by
          rw [slice, if_pos (by omega), slice_min]
        rw [hslice, Outcome.ok_bind]
        have hrest : ∀ value : Option Value, (do
            let arr ← readElements host p data n (i + 1)
            return value.toList ++ arr : Outcome (List Value)).PanicsIff
              (p.propertyType = "longAsDateTime" ∧ ∃ j, i + 1 ≤ j ∧ j < i + 1 + n ∧
                OddMillis (data.slice (p.offset + j * p.elementSize) p.elementSize)) := by
          intro value
          refine ((ih (i + 1)).bind fun arr => Outcome.panicsIff_ok _).congr ?_
          rw [or_false]
        refine ((readElement_panicsIff _ _).bind hrest).congr ?_
        -- the first element, or one behind it
        constructor
        · rintro (⟨htype, hodd⟩ | ⟨htype, j, hle, hlt, hodd⟩)
          · exact ⟨htype, i, le_rfl, by omega, hodd⟩
          · exact ⟨htype, j, by omega, by omega, hodd⟩
        · rintro ⟨htype, j, hle, hlt, hodd⟩
          rcases Nat.eq_or_lt_of_le hle with rfl | hlt'
          · exact Or.inl ⟨htype, hodd⟩
          · exact Or.inr ⟨htype, j, hlt', by omega, hodd⟩

/-- **A property is read**, with an entry or without, unless it holds an unreadable time. -/
theorem entryRead_panicsIff (host : Host) (data : List UInt8) (p : DataBlockPropertyDefinition) :
    (entryRead host data p).PanicsIff (UnreadableTime p data) := by
  unfold entryRead UnreadableTime
  split_ifs with hstart hcount
  · refine Or.inr ⟨?_, _, rfl⟩
    rintro ⟨-, i, -, hodd⟩
    exact not_oddMillis_of_length_le (by omega) hodd
  · have hslice : slice p.offset (min (p.offset + p.elementSize * p.count) data.length) data =
        .ok (data.slice p.offset p.elementSize) := by
      rw [slice, if_pos (by omega), hcount, Nat.mul_one, slice_min]
    rw [hslice, Outcome.ok_bind]
    refine (readElement_panicsIff _ _).congr ?_
    rw [hcount]
    constructor
    · rintro ⟨htype, hodd⟩
      refine ⟨htype, 0, Nat.one_pos, ?_⟩
      rwa [Nat.zero_mul, Nat.add_zero]
    · rintro ⟨htype, i, hi, hodd⟩
      obtain rfl : i = 0 := by omega
      rw [Nat.zero_mul, Nat.add_zero] at hodd
      exact ⟨htype, hodd⟩
  · refine ((readElements_panicsIff p data p.count 0).bind
      fun arr => Outcome.panicsIff_ok _).congr ?_
    simp only [Nat.zero_le, true_and, Nat.zero_add, or_false]

/-- **The bytes of a property decide its entry.** -/
theorem entryRead_congr (host : Host) {data data' : List UInt8} {p : DataBlockPropertyDefinition}
    (hlen : data.length = data'.length)
    (h : ∀ i, p.offset ≤ i → i < p.stop → data[i]? = data'[i]?) :
    entryRead host data p = entryRead host data' p := by
  have helements : ∀ n i, i + n ≤ p.count →
      readElements host p data n i = readElements host p data' n i := by
    intro n
    induction n with
    | zero => intro i _; rfl
    | succ n ih =>
        intro i hi
        have hplace := element_inside p (show i < p.count by omega)
        have hslice : slice (p.offset + i * p.elementSize)
            (min (p.offset + i * p.elementSize + p.elementSize) data'.length) data =
              slice (p.offset + i * p.elementSize)
                (min (p.offset + i * p.elementSize + p.elementSize) data'.length) data' :=
          slice_congr hlen fun j hj hj' => h j (hplace.1.trans hj) (by omega)
        rw [readElements, readElements, hlen, ih (i + 1) (by omega), hslice]
  unfold entryRead
  rw [hlen, helements p.count 0 (by omega)]
  split_ifs with hstart hcount
  · rfl
  · rw [slice_congr hlen fun j hj hj' => h j hj (by
      rw [DataBlockPropertyDefinition.stop]
      omega)]
  · rfl

/-! ### Whole blocks -/

/-- Some property holds an unreadable time. -/
def HasUnreadableTime (definition : DataBlockDefinition) (data : List UInt8) : Prop :=
  ∃ p ∈ definition.dataBlockPropertyDefinitionList, UnreadableTime p data

instance (definition : DataBlockDefinition) (data : List UInt8) :
    Decidable (HasUnreadableTime definition data) := by
  unfold HasUnreadableTime
  infer_instance

theorem decodeProperty_panicsIff (host : Host) (data : List UInt8)
    (map : AList fun _ : String => Value) (p : DataBlockPropertyDefinition) :
    (decodeProperty host data map p).PanicsIff (UnreadableTime p data) := by
  rw [decodeProperty_eq]
  refine ((entryRead_panicsIff host data p).bind fun entry => ?_).congr (iff_of_eq (or_false _))
  cases entry with
  | none => exact Outcome.panicsIff_ok map
  | some value => exact Outcome.panicsIff_ok (map.insert p.name value)

/-- A property puts its entry into the map, if it has one, and none of another name. -/
theorem decodeProperty_spec {data : List UInt8} {map map' : AList fun _ : String => Value}
    {p : DataBlockPropertyDefinition} (h : decodeProperty host data map p = .ok map') :
    ∃ entry, entryRead host data p = .ok entry ∧
      map'.lookup p.name = entry.or (map.lookup p.name) ∧
      ∀ name ≠ p.name, map'.lookup name = map.lookup name := by
  rw [decodeProperty_eq] at h
  obtain ⟨entry, hentry, h⟩ := Outcome.bind_eq_ok.1 h
  refine ⟨entry, hentry, ?_⟩
  cases entry with
  | none =>
      cases h
      exact ⟨rfl, fun _ _ => rfl⟩
  | some value =>
      cases h
      exact ⟨AList.lookup_insert map, fun name hname => AList.lookup_insert_ne hname⟩

/-- **What decoding finds**: the entry of every property, when their names differ. -/
theorem decodeProperties_spec {data : List UInt8} {properties : List DataBlockPropertyDefinition}
    {map map' : AList fun _ : String => Value} (hnames : (properties.map fun p => p.name).Nodup)
    (h : properties.foldlM (decodeProperty host data) map = .ok map') :
    ∀ p ∈ properties, ∃ entry, entryRead host data p = .ok entry ∧
      map'.lookup p.name = entry.or (map.lookup p.name) := by
  have hframe : ∀ (map : AList fun _ : String => Value) p (map' : AList fun _ : String => Value),
      decodeProperty host data map p = .ok map' →
        ∀ name ≠ p.name, map'.lookup name = map.lookup name := by
    intro map p map' hstep
    obtain ⟨-, -, -, hother⟩ := decodeProperty_spec hstep
    exact hother
  intro p hp
  obtain ⟨hentries, -⟩ := Outcome.foldlM_cells DataBlockPropertyDefinition.name
    (fun map name => AList.lookup name map) hframe hnames h
  obtain ⟨before, after, hstep, hbefore, hfinal⟩ := hentries p hp
  obtain ⟨entry, hentry, hself, -⟩ := decodeProperty_spec hstep
  exact ⟨entry, hentry, hfinal.trans (hself.trans (congrArg entry.or hbefore))⟩

/-- What decoding a block gives for a name: a panic, or the entry, if there is one. -/
def entryOf (host : Host) (data : List UInt8) (javaType : String) (cache : MetaCache)
    (name : String) : Outcome (Option Value) := do
  let map ← decodeAsMap host data javaType cache
  return map.lookup name

/-- Decoding panics with an unreadable time, and gives every property its entry without one. -/
theorem entryOf_eq {definition : DataBlockDefinition} {javaType : String} {cache : MetaCache}
    (hcache : cache.lookup javaType = some definition)
    (hnames : (definition.dataBlockPropertyDefinitionList.map fun p => p.name).Nodup)
    {p : DataBlockPropertyDefinition} (hp : p ∈ definition.dataBlockPropertyDefinitionList)
    (data : List UInt8) :
    (HasUnreadableTime definition data ∧ entryOf host data javaType cache p.name = .panic) ∨
      (¬ HasUnreadableTime definition data ∧
        ∃ entry, entryOf host data javaType cache p.name = .ok entry ∧
          entryRead host data p = .ok entry) := by
  rcases Outcome.foldlM_panicsIff (decodeProperty_panicsIff host data)
    definition.dataBlockPropertyDefinitionList ∅ with ⟨hbad, hpanic⟩ | ⟨hgood, map, hfold⟩
  · refine Or.inl ⟨hbad, ?_⟩
    simp only [entryOf, decodeAsMap, hcache, hpanic, Outcome.panic_bind]
  · refine Or.inr ⟨hgood, ?_⟩
    obtain ⟨entry, hentry, hlookup⟩ := decodeProperties_spec hnames hfold p hp
    refine ⟨entry, ?_, hentry⟩
    rw [AList.lookup_empty, Option.or_none] at hlookup
    simp only [entryOf, decodeAsMap, hcache, hfold, Outcome.ok_bind, hlookup, Outcome.pure_eq]

/-! ### Fields apart -/

/-- Two contents that differ in one key give blocks that differ at most in the places of the
properties of that name, and a byte in no place is 0. -/
def EncodesApart (host : Host) (definition : DataBlockDefinition) (javaType : String)
    (cache : MetaCache) (contentMap contentMap' : List (String × Value)) (k : String) : Prop :=
  ∃ bytes bytes', encode host (.object contentMap) javaType cache = .ok bytes ∧
    encode host (.object contentMap') javaType cache = .ok bytes' ∧
    bytes.length = definition.blockSize ∧ bytes'.length = definition.blockSize ∧
    (∀ i, (∀ p ∈ definition.dataBlockPropertyDefinitionList, p.name = k →
      ¬ (p.offset ≤ i ∧ i < p.stop)) → bytes[i]? = bytes'[i]?) ∧
    ∀ i < definition.blockSize, (∀ p ∈ definition.dataBlockPropertyDefinitionList,
      ¬ (p.offset ≤ i ∧ i < p.stop)) → bytes[i]? = some 0

/-- The writes that reach a byte outside the places of a name do not depend on its value. -/
theorem filter_blockWrites_congr {properties : List DataBlockPropertyDefinition}
    {values values' : String → Option Value} {k : String} {i : ℕ}
    (hsize : ∀ p ∈ properties, FixedSize host p) (hvalues : ∀ name ≠ k, values name = values' name)
    (hi : ∀ p ∈ properties, p.name = k → ¬ (p.offset ≤ i ∧ i < p.stop)) :
    ((blockWrites host values properties).filter fun w => List.Covers i w) =
      (blockWrites host values' properties).filter fun w => List.Covers i w := by
  -- no write of a property with the name reaches the byte
  have hnone : ∀ p ∈ properties, p.name = k → ∀ value,
      ((propertyWrites host value p).filter fun w => List.Covers i w) = [] := by
    intro p hp hname value
    rw [List.filter_eq_nil_iff]
    intro w hw
    obtain ⟨hstart, hstop⟩ := propertyWrites_inside (hsize p hp) hw
    rw [decide_eq_true_eq]
    rintro ⟨hle, hlt⟩
    exact hi p hp hname ⟨by omega, by omega⟩
  rw [blockWrites, blockWrites, List.filter_flatMap, List.filter_flatMap]
  refine List.flatMap_congr fun p hp => ?_
  by_cases hname : p.name = k
  · rw [hnone p hp hname, hnone p hp hname]
  · rw [hvalues p.name hname]

/-- **Encoding keeps the fields apart.** -/
theorem encodesApart {definition : DataBlockDefinition} {javaType : String} {cache : MetaCache}
    (hcache : cache.lookup javaType = some definition)
    (hplaces : ∀ p ∈ definition.dataBlockPropertyDefinitionList,
      FixedSize host p ∧ p.stop ≤ definition.blockSize)
    {contentMap contentMap' : List (String × Value)} {k : String}
    (hcontents : ∀ name ≠ k, contentMap.lookup name = contentMap'.lookup name) :
    EncodesApart host definition javaType cache contentMap contentMap' k := by
  have hlen : (List.replicate definition.blockSize (0 : UInt8)).length = definition.blockSize :=
    List.length_replicate
  have hencode : ∀ contentMap : List (String × Value),
      encode host (.object contentMap) javaType cache =
        .ok (List.spliceAll (blockWrites host (fun name => contentMap.lookup name)
          definition.dataBlockPropertyDefinitionList) (List.replicate definition.blockSize 0)) := by
    intro contentMap
    refine encode_eq_spliceAll hcache fun p hp item hitem => ?_
    exact fillsPlace_of_fixedSize (hplaces p hp).1 (hplaces p hp).2 hitem
  have hinside : ∀ values : String → Option Value,
      ∀ w ∈ blockWrites host values definition.dataBlockPropertyDefinitionList,
        ∃ p ∈ definition.dataBlockPropertyDefinitionList, p.offset ≤ w.1 ∧
          w.1 + w.2.length ≤ p.stop := fun _ _ hw =>
    blockWrites_inside (fun p hp => (hplaces p hp).1) hw
  have hfit : ∀ values : String → Option Value,
      ∀ w ∈ blockWrites host values definition.dataBlockPropertyDefinitionList,
        w.1 + w.2.length ≤ (List.replicate definition.blockSize (0 : UInt8)).length := by
    intro values w hw
    obtain ⟨p, hp, -, hstop⟩ := hinside values w hw
    rw [hlen]
    exact hstop.trans (hplaces p hp).2
  refine ⟨_, _, hencode contentMap, hencode contentMap',
    (List.length_spliceAll (hfit _)).trans hlen, (List.length_spliceAll (hfit _)).trans hlen,
    ?_, ?_⟩
  · intro i hi
    rw [List.getElem?_spliceAll_filter (hfit _), List.getElem?_spliceAll_filter (hfit _),
      filter_blockWrites_congr (fun p hp => (hplaces p hp).1) hcontents hi]
  · intro i hsize hi
    have hzero : (List.replicate definition.blockSize (0 : UInt8))[i]? = some 0 := by
      rw [List.getElem?_replicate, if_pos hsize]
    rw [List.getElem?_spliceAll_of_notCovered (hfit _), hzero]
    intro w hw hcovers
    obtain ⟨p, hp, hstart, hstop⟩ := hinside _ w hw
    exact hi p hp ⟨hstart.trans hcovers.1, hcovers.2.trans_le hstop⟩

end FillingPilot
