/-
**The fields of a block apart from each other**, with the bounds of `usize`.

A value decides the bytes of the properties of its name, and the bytes of a property decide its
entry.  Decoding panics as a whole with a time before 1970 that is no whole second, and with a
property whose end is no `usize`; the second does not depend on the block.

Main definitions:

* `FillingPilot.Machine.entryOf` — the entry of a name in a build with overflow checks, if there is
  one;
* `FillingPilot.DecodesApart` — the bytes of a property decide its entry.

Main results:

* `FillingPilot.fields_apart_iff` — **the exact condition** under which the fields are apart.
-/

import FillingPilot.BlockFaults

set_option relaxedAutoImplicit false
set_option autoImplicit false

namespace FillingPilot

open Json Rust

variable {host : Host}

/-! ### Entries with the bounds of `usize` -/

/-- What decoding a block gives for a name in a build with overflow checks: a panic, or the entry,
if there is one. -/
def Machine.entryOf (host : Host) (data : List UInt8) (javaType : String) (cache : MetaCache)
    (name : String) : Outcome (Option Value) := do
  let map ← (Machine.decodeAsMap .checked host data javaType cache).outcome
  return map.lookup name

/-- Without the bounds, when all properties fit. -/
theorem Machine.entryOf_of_fits {definition : DataBlockDefinition} {javaType : String}
    {cache : MetaCache} (hcache : cache.lookup javaType = some definition)
    (hfits : definition.Fits) (data : List UInt8) (name : String) :
    Machine.entryOf host data javaType cache name =
      FillingPilot.entryOf host data javaType cache name := by
  unfold Machine.entryOf FillingPilot.entryOf
  rw [Machine.outcome_decodeAsMap fun definition' hcache' => ?_]
  obtain rfl : definition = definition' := Option.some.inj (hcache.symm.trans hcache')
  exact hfits

/-- A property that does not fit makes every block panic. -/
theorem Machine.entryOf_of_not_fits {definition : DataBlockDefinition} {javaType : String}
    {cache : MetaCache} (hcache : cache.lookup javaType = some definition)
    (hfits : ¬ definition.Fits) (data : List UInt8) (name : String) :
    Machine.entryOf host data javaType cache name = .panic := by
  unfold Machine.entryOf
  rw [(Machine.noErr_decodeAsMap hcache data).outcome_eq_panic fun map hmap => ?_]
  · rfl
  · exact hfits ((Machine.decodeAsMap_eq_ok_iff hcache).1 hmap).1

/-! ### Fields apart -/

/-- Two blocks that agree in the place of a property give it the same entry. -/
def DecodesApart (host : Host) (javaType : String) (cache : MetaCache)
    (p : DataBlockPropertyDefinition) (data data' : List UInt8) : Prop :=
  Machine.entryOf host data javaType cache p.name =
    Machine.entryOf host data' javaType cache p.name

/-- **Decoding keeps the fields apart** exactly when both blocks hold an unreadable time, or
neither, or some property does not fit. -/
theorem decodesApart_iff {definition : DataBlockDefinition} {javaType : String}
    {cache : MetaCache} (hcache : cache.lookup javaType = some definition)
    (hnames : (definition.dataBlockPropertyDefinitionList.map fun p => p.name).Nodup)
    {p : DataBlockPropertyDefinition} (hp : p ∈ definition.dataBlockPropertyDefinitionList)
    {data data' : List UInt8} (hlen : data.length = data'.length)
    (hplace : ∀ i, p.offset ≤ i → i < p.stop → data[i]? = data'[i]?) :
    DecodesApart host javaType cache p data data' ↔
      (definition.Fits →
        (HasUnreadableTime definition data ↔ HasUnreadableTime definition data')) := by
  have hsame := entryRead_congr host hlen hplace
  unfold DecodesApart
  by_cases hfits : definition.Fits
  · rw [Machine.entryOf_of_fits hcache hfits, Machine.entryOf_of_fits hcache hfits,
      forall_prop_of_true hfits]
    rcases entryOf_eq hcache hnames hp data with ⟨hbad, heq⟩ | ⟨hgood, entry, heq, hread⟩ <;>
      rcases entryOf_eq hcache hnames hp data' with ⟨hbad', heq'⟩ | ⟨hgood', entry', heq', hread'⟩
    · exact iff_of_true (heq.trans heq'.symm) (iff_of_true hbad hbad')
    · refine iff_of_false ?_ fun h => hgood' (h.1 hbad)
      rw [heq, heq']
      exact fun h => by cases h
    · refine iff_of_false ?_ fun h => hgood (h.2 hbad')
      rw [heq, heq']
      exact fun h => by cases h
    · refine iff_of_true ?_ (iff_of_false hgood hgood')
      rw [hsame, hread'] at hread
      cases hread
      rw [heq, heq']
  · -- both blocks panic
    rw [Machine.entryOf_of_not_fits hcache hfits, Machine.entryOf_of_not_fits hcache hfits]
    exact iff_of_true rfl fun h => absurd h hfits

/-- **The fields of a block are apart**: always in encoding, and in decoding under the exact
condition. -/
theorem fields_apart_iff {definition : DataBlockDefinition} {javaType : String}
    {cache : MetaCache} (hcache : cache.lookup javaType = some definition) :
    (∀ contentMap contentMap' k,
      (∀ p ∈ definition.dataBlockPropertyDefinitionList,
        FixedSize host p ∧ p.stop ≤ definition.blockSize) →
      (∀ name ≠ k, contentMap.lookup name = contentMap'.lookup name) →
      EncodesApart host definition javaType cache contentMap contentMap' k) ∧
    ∀ p ∈ definition.dataBlockPropertyDefinitionList, ∀ data data' : List UInt8,
      (definition.dataBlockPropertyDefinitionList.map fun p => p.name).Nodup →
      data.length = data'.length →
      (∀ i, p.offset ≤ i → i < p.stop → data[i]? = data'[i]?) →
      (DecodesApart host javaType cache p data data' ↔
        (definition.Fits →
          (HasUnreadableTime definition data ↔ HasUnreadableTime definition data'))) :=
  ⟨fun _ _ _ hplaces hcontents => encodesApart hcache hplaces hcontents,
    fun _ hp _ _ hnames hlen hplace => decodesApart_iff hcache hnames hp hlen hplace⟩

/-- A flag, and a time behind it. -/
def stampBlock : DataBlockDefinition where
  javaType := "Stamp"
  blockSize := 9
  dataBlockPropertyDefinitionList :=
    [⟨"flag", "byte", 0, 1, none⟩, ⟨"time", "longAsDateTime", 1, 1, some 8⟩]

/-- The flag of `stampBlock`. -/
def flagProperty : DataBlockPropertyDefinition := ⟨"flag", "byte", 0, 1, none⟩

theorem fields_apart_stamp :
    EncodesApart bareHost stampBlock "Stamp" (AList.singleton "Stamp" stampBlock)
        [("flag", .ofInt 1)] [("flag", .string "7")] "flag" ∧
      DecodesApart bareHost "Stamp" (AList.singleton "Stamp" stampBlock) flagProperty
        (5 :: List.replicate 8 0) (5 :: List.replicate 8 1) := by
  have hcache : AList.lookup "Stamp" (AList.singleton "Stamp" stampBlock : MetaCache) =
      some stampBlock := rfl
  have htimes : HasUnreadableTime stampBlock (5 :: List.replicate 8 0) ↔
      HasUnreadableTime stampBlock (5 :: List.replicate 8 1) := by decide
  have hflag : flagProperty ∈ stampBlock.dataBlockPropertyDefinitionList := by decide
  refine ⟨(fields_apart_iff hcache).1 _ _ "flag" ?_ ?_,
    ((fields_apart_iff hcache).2 flagProperty hflag (5 :: List.replicate 8 0)
      (5 :: List.replicate 8 1) (by decide) rfl ?_).2 fun _ => htimes⟩
  · simp only [stampBlock, List.mem_cons, List.not_mem_nil, or_false, forall_eq_or_imp, forall_eq]
    refine ⟨⟨?_, by decide⟩, ?_, by decide⟩
    · intro codec value encoded hcodec hencode
      rw [length_of_encode hcodec hencode]
      cases value <;> rfl
    · intro codec value encoded hcodec hencode
      rw [length_of_encode hcodec hencode]
      cases value <;> rfl
  · intro name hname
    have hne : (name == "flag") = false := beq_eq_false_iff_ne.2 hname
    rw [List.lookup_cons, List.lookup_cons, hne]
  · intro i _ hi
    obtain rfl : i = 0 := Nat.lt_one_iff.1 hi
    rfl

/-- **A time takes the entry of a flag**: the blocks have the same flag, and the times are the epoch
and the millisecond before it. -/
theorem epoch_not_decodesApart :
    (stampBlock.dataBlockPropertyDefinitionList.map fun p => p.name).Nodup ∧
    flagProperty ∈ stampBlock.dataBlockPropertyDefinitionList ∧
    (∀ i, flagProperty.offset ≤ i → i < flagProperty.stop →
      (5 :: List.replicate 8 (0 : UInt8))[i]? = (5 :: List.replicate 8 (255 : UInt8))[i]?) ∧
    ¬ DecodesApart bareHost "Stamp" (AList.singleton "Stamp" stampBlock) flagProperty
        (5 :: List.replicate 8 0) (5 :: List.replicate 8 255) := by
  refine ⟨by decide, by decide, ?_, ?_⟩
  · intro i _ hi
    obtain rfl : i = 0 := Nat.lt_one_iff.1 hi
    rfl
  · intro h
    have hpanic : Machine.entryOf bareHost (5 :: List.replicate 8 255) "Stamp"
        (AList.singleton "Stamp" stampBlock) "flag" = .panic := rfl
    have hentry : Machine.entryOf bareHost (5 :: List.replicate 8 0) "Stamp"
        (AList.singleton "Stamp" stampBlock) "flag" = .ok (some (.ofInt 5)) := rfl
    rw [DecodesApart, flagProperty, hpanic, hentry] at h
    cases h

end FillingPilot
