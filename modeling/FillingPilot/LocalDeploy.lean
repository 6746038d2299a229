/-
**Definitions that are deployed by hand.**

The local interface takes the definition of a block as a document, computes the size of the block
and keeps the definition under its name.  Most of what a document may lack or get wrong is made up
for: a type that is unknown or missing is `byte`, a missing offset is 0 and a missing count is 1,
and a number of a block is taken modulo 65536.  The size is a `usize`, and its computation may
overflow.

Main definitions:

* `FillingPilot.DataBlock.PropertyType.fromStr` — the types by their names;
* `FillingPilot.DataBlock.parseDeployment` — a document as a definition;
* `FillingPilot.DataBlock.describe` — a definition as a document;
* `FillingPilot.DataBlock.deployHandler`, `FillingPilot.DataBlock.afterPosts` — the definitions that
  are kept.

Main results:

* `FillingPilot.DataBlock.parseDeployment_describe` — **a definition is read back**;
* `FillingPilot.DataBlock.deployable_iff` — **which definitions can be deployed**;
* `FillingPilot.DataBlock.deployments_follow` — **what is kept** after any bodies were posted.
-/

import FillingPilot.DataBlock
import FillingPilot.Faults
import FillingPilot.Replica
import FillingPilot.Serde

set_option relaxedAutoImplicit false
set_option autoImplicit false

namespace FillingPilot

namespace DataBlock

open Json Rust

/-! ### Documents -/

/-- `PropertyType::from_str`. -/
def PropertyType.fromStr (s : String) : PropertyType :=
  match toLowercase s with
  | "boolean" | "bool" => .boolean
  | "byte" => .byte
  | "integer" | "int" => .integer
  | "word" => .word
  | "dword" => .dword
  | "dint" => .dint
  | "lint" => .lint
  | "real" | "float" => .real
  | "string" => .string
  | "wstring" => .wstring
  | "datetime" | "date" => .dateTime
  | "bigdecimal" => .bigDecimal
  | "ip" | "ipaddress" => .ipAddress
  | "long" => .long
  | "longasint" => .longAsInt
  | "longasdatetime" => .longAsDateTime
  | "integerasbigdecimal" => .integerAsBigDecimal
  | _ => .byte

/-- The definition of a block, with its number, its name and the address of its PLC. -/
structure Deployed where
  dbNumber : UInt16
  name : String
  plcIp : Option String
  block : DataBlockDefinition
  deriving DecidableEq

/-- `ok_or`. -/
def okOr {α : Type} (message : String) : Option α → Faulty α
  | some a => .ok a
  | none => .err message

/-- The property at an index. -/
def parseProperty (i : ℕ) (prop : Value) : Faulty DataBlockProperty := do
  let name ← okOr ("Missing name at index " ++ toString i) ((prop.get "name").bind Value.asStr)
  return {
    name := name
    propertyType := .fromStr (((prop.get "type").bind Value.asStr).getD "byte")
    offset := (((prop.get "offset").bind Value.asU64).getD 0).toNat
    count := (((prop.get "count").bind Value.asU64).getD 1).toNat
    byteSize := none }

/-- The properties from an index on. -/
def parseProperties : ℕ → List Value → Faulty (List DataBlockProperty)
  | _, [] => .ok []
  | i, prop :: props => do
      let first ← parseProperty i prop
      let rest ← parseProperties (i + 1) props
      return first :: rest

section Builds

variable (build : Build)

/-- The bytes of a property are added, with the arithmetic of a `usize`. -/
def addBytes (total : ℕ) (prop : DataBlockProperty) : Faulty ℕ := do
  let bytes ← build.unsigned 64 (prop.elementSize * prop.count : ℕ)
  build.unsigned 64 (total + bytes : ℕ)

/-- `DataBlockDefinition::calculate_size`, as it is computed. -/
def totalSizeOf (properties : List DataBlockProperty) : Faulty ℕ :=
  properties.foldlM (addBytes build) 0

/-- `parse_deployment`. -/
def parseDeployment (json : Value) : Faulty Deployed := do
  let dbNumber ← okOr "Missing dbNumber" ((json.get "dbNumber").bind Value.asU64)
  let name ← okOr "Missing name" ((json.get "name").bind Value.asStr)
  let plcIp := (json.get "plcIp").bind Value.asStr
  let properties ← parseProperties 0 (((json.get "properties").bind Value.asArray).getD [])
  let totalSize ← totalSizeOf build properties
  return {
    dbNumber := UInt16.ofNat dbNumber.toNat
    name := name
    plcIp := plcIp
    block := ⟨properties, totalSize⟩ }

/-! ### The size -/

/-- The number of bytes of the properties. -/
def totalBytes (properties : List DataBlockProperty) : ℕ :=
  (properties.map fun prop => prop.elementSize * prop.count).sum

/-- The number fits a `usize`, or the program does not check. -/
def FitsUsize (n : ℕ) : Prop := build = .checked → n < 2 ^ 64

theorem unsigned_eq (n : ℕ) :
    (FitsUsize build n → build.unsigned 64 n = .ok (n % 2 ^ 64)) ∧
      (¬ FitsUsize build n → build.unsigned 64 n = .fault .overflow) := by
  by_cases hn : n < 2 ^ 64
  · refine ⟨fun _ => ?_, fun hnot => absurd (fun _ => hn) hnot⟩
    rw [build.unsigned_ok hn, Nat.mod_eq_of_lt hn]
  · have hwide : ¬ (0 ≤ (n : ℤ) ∧ (n : ℤ) < 2 ^ 64) := by
      rintro ⟨-, h⟩
      exact hn (by exact_mod_cast h)
    unfold Build.unsigned
    rw [if_neg hwide]
    cases build with
    | checked => exact ⟨fun hfits => absurd (hfits rfl) hn, fun _ => rfl⟩
    | wrapping =>
        refine ⟨fun _ => ?_, fun hnot => absurd nofun hnot⟩
        have hmod : ((n : ℤ) % 2 ^ 64).toNat = n % 2 ^ 64 := by omega
        rw [← hmod]

theorem sumFrom_eq (properties : List DataBlockProperty) {total : ℕ} (htotal : total < 2 ^ 64) :
    (FitsUsize build (total + totalBytes properties) →
        properties.foldlM (addBytes build) total =
          .ok ((total + totalBytes properties) % 2 ^ 64)) ∧
      (¬ FitsUsize build (total + totalBytes properties) →
        properties.foldlM (addBytes build) total = .fault .overflow) := by
  induction properties generalizing total with
  | nil =>
      have hzero : total + totalBytes [] = total := rfl
      rw [hzero, Nat.mod_eq_of_lt htotal]
      exact ⟨fun _ => rfl, fun hnot => absurd (fun _ => htotal) hnot⟩
  | cons prop properties ih =>
      have hsum : totalBytes (prop :: properties) =
          prop.elementSize * prop.count + totalBytes properties := rfl
      generalize hm : prop.elementSize * prop.count = m at hsum
      rw [hsum, ← Nat.add_assoc]
      obtain ⟨hok, hfault⟩ := unsigned_eq build m
      obtain ⟨hok', hfault'⟩ := unsigned_eq build (total + m % 2 ^ 64)
      by_cases hbytes : FitsUsize build m
      · by_cases hnext : FitsUsize build (total + m % 2 ^ 64)
        · have hstep : addBytes build total prop = .ok ((total + m % 2 ^ 64) % 2 ^ 64) := by
            rw [addBytes, hm, hok hbytes, Faulty.ok_bind, hok' hnext]
          obtain ⟨ihok, ihfault⟩ := ih (Nat.mod_lt (total + m % 2 ^ 64) (by norm_num))
          rw [List.foldlM_cons, hstep, Faulty.ok_bind]
          have hfits : FitsUsize build ((total + m % 2 ^ 64) % 2 ^ 64 + totalBytes properties) ↔
              FitsUsize build (total + m + totalBytes properties) := by
            refine forall_congr' fun hchecked => ?_
            have hm := hbytes hchecked
            have ht := hnext hchecked
            omega
          refine ⟨fun h => ?_, fun h => ihfault (mt hfits.1 h)⟩
          have hmod : ((total + m % 2 ^ 64) % 2 ^ 64 + totalBytes properties) % 2 ^ 64 =
              (total + m + totalBytes properties) % 2 ^ 64 := by omega
          rw [ihok (hfits.2 h), hmod]
        · have hstep : addBytes build total prop = .fault .overflow := by
            rw [addBytes, hm, hok hbytes, Faulty.ok_bind, hfault' hnext]
          rw [List.foldlM_cons, hstep, Faulty.fault_bind]
          refine ⟨fun h => absurd (fun hchecked => ?_) hnext, fun _ => rfl⟩
          have hall := h hchecked
          omega
      · have hstep : addBytes build total prop = .fault .overflow := by
          rw [addBytes, hm, hfault hbytes, Faulty.fault_bind]
        rw [List.foldlM_cons, hstep, Faulty.fault_bind]
        refine ⟨fun h => absurd (fun hchecked => ?_) hbytes, fun _ => rfl⟩
        have hall := h hchecked
        omega

/-- **The size of a block**: the number of its bytes modulo 2 ^ 64, and a fault where this is not
the number and the program checks. -/
theorem totalSizeOf_eq (properties : List DataBlockProperty) :
    (FitsUsize build (totalBytes properties) →
        totalSizeOf build properties = .ok (totalBytes properties % 2 ^ 64)) ∧
      (¬ FitsUsize build (totalBytes properties) →
        totalSizeOf build properties = .fault .overflow) := by
  have hzero : 0 < 2 ^ 64 := by norm_num
  have hsum := sumFrom_eq build properties hzero
  rwa [Nat.zero_add] at hsum

/-! ### Definitions as documents -/

/-- A property as a document. -/
def describeProperty (prop : DataBlockProperty) : Value :=
  .object [("name", .string prop.name), ("type", .string prop.propertyType.asStr),
    ("offset", .ofInt prop.offset), ("count", .ofInt prop.count)]

/-- A definition as a document of the kind that the local interface takes. -/
def describe (d : Deployed) : Value :=
  .object ([("dbNumber", .ofInt d.dbNumber.toNat), ("name", .string d.name),
    ("properties", .array (d.block.properties.map describeProperty))] ++
      writeOptional "plcIp" Value.string d.plcIp)

/-- A property that can be deployed: its numbers are `usize`s, and it has the size of its type. -/
structure DeployableProperty (prop : DataBlockProperty) : Prop where
  offset : prop.offset < 2 ^ 64
  count : prop.count < 2 ^ 64
  byteSize : prop.byteSize = none

/-- A definition that can be deployed: its properties can, and the size is that of the properties,
which fits where the program checks. -/
structure Deployable (d : Deployed) : Prop where
  properties : ∀ prop ∈ d.block.properties, DeployableProperty prop
  fits : FitsUsize build (totalBytes d.block.properties)
  totalSize : d.block.totalSize = totalBytes d.block.properties % 2 ^ 64

variable {build}

/-- **Every type is known by its name.** -/
theorem PropertyType.fromStr_asStr (t : PropertyType) : fromStr t.asStr = t := by
  cases t <;> rfl

theorem asU64_natCast {n : ℕ} (h : n < 2 ^ 64) : (Value.ofInt n).asU64 = some (n : ℤ) :=
  Value.asU64_ofInt (Int.natCast_nonneg n) (by exact_mod_cast h)

theorem parseProperty_describe {prop : DataBlockProperty} (h : DeployableProperty prop) (i : ℕ) :
    parseProperty i (describeProperty prop) = .ok prop := by
  have hname : (describeProperty prop).get "name" = some (.string prop.name) := rfl
  have htype : (describeProperty prop).get "type" = some (.string prop.propertyType.asStr) := rfl
  have hoffset : (describeProperty prop).get "offset" = some (.ofInt prop.offset) := rfl
  have hcount : (describeProperty prop).get "count" = some (.ofInt prop.count) := rfl
  have hoffset' := asU64_natCast h.offset
  have hcount' := asU64_natCast h.count
  rw [parseProperty, hname, htype, hoffset, hcount, Option.bind_some, Option.bind_some,
    Option.bind_some, Option.bind_some, hoffset', hcount']
  simp only [Value.asStr, okOr, Faulty.ok_bind, Option.getD_some, Faulty.pure_eq,
    PropertyType.fromStr_asStr]
  rw [Int.toNat_natCast, Int.toNat_natCast, ← h.byteSize]

theorem parseProperties_describe {properties : List DataBlockProperty}
    (h : ∀ prop ∈ properties, DeployableProperty prop) (i : ℕ) :
    parseProperties i (properties.map describeProperty) = .ok properties := by
  induction properties generalizing i with
  | nil => rfl
  | cons prop properties ih =>
      have hfirst := parseProperty_describe (h prop List.mem_cons_self) i
      have hrest := ih (fun p hp => h p (List.mem_cons_of_mem prop hp)) (i + 1)
      simp only [List.map_cons, parseProperties, hfirst, hrest, Faulty.ok_bind, Faulty.pure_eq]

/-- **A definition is read back** from its document. -/
theorem parseDeployment_describe {d : Deployed} (h : Deployable build d) :
    parseDeployment build (describe d) = .ok d := by
  have hdbNumber : (describe d).get "dbNumber" = some (.ofInt d.dbNumber.toNat) := rfl
  have hname : (describe d).get "name" = some (.string d.name) := rfl
  have hproperties : (describe d).get "properties" =
      some (.array (d.block.properties.map describeProperty)) := rfl
  have hplcIp : ((describe d).get "plcIp").bind Value.asStr = d.plcIp := by
    obtain ⟨dbNumber, name, plcIp, block⟩ := d
    cases plcIp <;> rfl
  have hnumber := asU64_natCast (d.dbNumber.toNat_lt.trans (by decide))
  have hsize := (totalSizeOf_eq build d.block.properties).1 h.fits
  rw [← h.totalSize] at hsize
  have hread := parseProperties_describe h.properties 0
  rw [parseDeployment, hdbNumber, hname, hproperties, hplcIp, Option.bind_some, Option.bind_some,
    Option.bind_some, hnumber]
  simp only [Value.asStr, Value.asArray, okOr, Option.getD_some, Faulty.ok_bind, hread, hsize,
    Faulty.pure_eq]
  rw [Int.toNat_natCast, UInt16.ofNat_toNat]

/-! ### Documents that are taken -/

theorem asU64_getD_lt (field : Option Value) {default : ℕ} (h : default < 2 ^ 64) :
    ((field.bind Value.asU64).getD default).toNat < 2 ^ 64 := by
  cases hfield : field.bind Value.asU64 with
  | none => exact h
  | some n =>
      obtain ⟨v, -, hv⟩ := Option.bind_eq_some_iff.1 hfield
      have hlt := Value.asU64_lt hv
      have hnonneg := Value.asU64_nonneg hv
      rw [Option.getD_some]
      omega

theorem deployableProperty_of_parse {i : ℕ} {json : Value} {prop : DataBlockProperty}
    (h : parseProperty i json = .ok prop) : DeployableProperty prop := by
  obtain ⟨name, -, h⟩ := Faulty.bind_eq_ok.1 h
  cases h
  exact ⟨asU64_getD_lt _ (by decide), asU64_getD_lt _ (by decide), rfl⟩

theorem deployableProperties_of_parse {i : ℕ} {items : List Value}
    {properties : List DataBlockProperty} (h : parseProperties i items = .ok properties) :
    ∀ prop ∈ properties, DeployableProperty prop := by
  induction items generalizing i properties with
  | nil =>
      cases h
      intro prop hprop
      cases hprop
  | cons item items ih =>
      obtain ⟨first, hfirst, h⟩ := Faulty.bind_eq_ok.1 h
      obtain ⟨rest, hrest, h⟩ := Faulty.bind_eq_ok.1 h
      cases h
      intro prop hprop
      rcases List.mem_cons.1 hprop with rfl | hprop
      · exact deployableProperty_of_parse hfirst
      · exact ih hrest prop hprop

/-- **What is taken can be deployed.** -/
theorem deployable_of_parse {json : Value} {d : Deployed}
    (h : parseDeployment build json = .ok d) : Deployable build d := by
  obtain ⟨dbNumber, -, h⟩ := Faulty.bind_eq_ok.1 h
  obtain ⟨name, -, h⟩ := Faulty.bind_eq_ok.1 h
  obtain ⟨properties, hproperties, h⟩ := Faulty.bind_eq_ok.1 h
  obtain ⟨totalSize, hsize, h⟩ := Faulty.bind_eq_ok.1 h
  cases h
  obtain ⟨hok, hfault⟩ := totalSizeOf_eq build properties
  have hfits : FitsUsize build (totalBytes properties) := by
    by_contra hnot
    rw [hfault hnot] at hsize
    cases hsize
  rw [hok hfits] at hsize
  cases hsize
  exact ⟨deployableProperties_of_parse hproperties, hfits, rfl⟩

/-- **Which definitions can be deployed**: those whose properties have the sizes of their types,
whose numbers are `usize`s, and whose size is that of the properties.  These are read back from
their own documents, where each type stands under its name. -/
theorem deployable_iff (build : Build) (d : Deployed) :
    ((∃ json, parseDeployment build json = .ok d) ↔ Deployable build d) ∧
      (Deployable build d ↔ parseDeployment build (describe d) = .ok d) ∧
      ∀ t : PropertyType, PropertyType.fromStr t.asStr = t := by
  have hback : Deployable build d ↔ parseDeployment build (describe d) = .ok d :=
    ⟨parseDeployment_describe, deployable_of_parse⟩
  refine ⟨⟨?_, fun hd => ⟨describe d, hback.1 hd⟩⟩, hback, PropertyType.fromStr_asStr⟩
  rintro ⟨json, hparse⟩
  exact deployable_of_parse hparse

/-- The document that the page shows. -/
def shownDocument : Value :=
  .object [("dbNumber", .ofInt 1), ("name", .string "FillStation"),
    ("plcIp", .string "192.168.1.10"),
    ("properties", .array [
      .object [("name", .string "temperature"), ("type", .string "real"), ("offset", .ofInt 0)],
      .object [("name", .string "pressure"), ("type", .string "real"), ("offset", .ofInt 4)]])]

example : parseDeployment .checked shownDocument =
    .ok ⟨1, "FillStation", some "192.168.1.10",
      [⟨"temperature", .real, 0, 1, none⟩, ⟨"pressure", .real, 4, 1, none⟩], 8⟩ := by decide
/-! ### Documents that are refused -/

/-- A field that is a text. -/
def HasText (json : Value) (field : String) : Prop :=
  ∃ text, (json.get field).bind Value.asStr = some text

/-- The properties of a document. -/
def propertiesOf (json : Value) : List Value :=
  ((json.get "properties").bind Value.asArray).getD []

/-- **What a document lacks first**, and what is said about it. -/
inductive Lacks (json : Value) : String → Prop
  | dbNumber (hdbNumber : (json.get "dbNumber").bind Value.asU64 = none) :
      Lacks json "Missing dbNumber"
  | name (hdbNumber : (json.get "dbNumber").bind Value.asU64 ≠ none)
      (hname : ¬ HasText json "name") : Lacks json "Missing name"
  | property (hdbNumber : (json.get "dbNumber").bind Value.asU64 ≠ none)
      (hname : HasText json "name") (before after : List Value) (prop : Value)
      (hproperties : propertiesOf json = before ++ prop :: after)
      (hbefore : ∀ p ∈ before, HasText p "name") (hprop : ¬ HasText prop "name") :
      Lacks json ("Missing name at index " ++ toString before.length)

theorem okOr_of_not_hasText {message field : String} {json : Value} (h : ¬ HasText json field) :
    okOr message ((json.get field).bind Value.asStr) = .err message := by
  cases htext : (json.get field).bind Value.asStr with
  | none => rfl
  | some text => exact absurd ⟨text, htext⟩ h

theorem parseProperty_of_hasText {prop : Value} (h : HasText prop "name") (i : ℕ) :
    ∃ property, parseProperty i prop = .ok property := by
  obtain ⟨name, hname⟩ := h
  rw [parseProperty, hname]
  exact ⟨_, rfl⟩

theorem parseProperties_of_all {items : List Value} (h : ∀ p ∈ items, HasText p "name") (i : ℕ) :
    ∃ properties, parseProperties i items = .ok properties := by
  induction items generalizing i with
  | nil => exact ⟨[], rfl⟩
  | cons item items ih =>
      obtain ⟨first, hfirst⟩ := parseProperty_of_hasText (h item List.mem_cons_self) i
      obtain ⟨rest, hrest⟩ := ih (fun p hp => h p (List.mem_cons_of_mem item hp)) (i + 1)
      exact ⟨first :: rest, by rw [parseProperties, hfirst, hrest]; rfl⟩

/-- The first property without a name is named by its index. -/
theorem parseProperties_of_first {before : List Value} (after : List Value) {prop : Value}
    (hbefore : ∀ p ∈ before, HasText p "name") (hprop : ¬ HasText prop "name") (i : ℕ) :
    parseProperties i (before ++ prop :: after) =
      .err ("Missing name at index " ++ toString (i + before.length)) := by
  induction before generalizing i with
  | nil =>
      rw [List.nil_append, parseProperties, parseProperty, okOr_of_not_hasText hprop]
      rfl
  | cons item before ih =>
      obtain ⟨first, hfirst⟩ := parseProperty_of_hasText (hbefore item List.mem_cons_self) i
      have hrest := ih (fun p hp => hbefore p (List.mem_cons_of_mem item hp)) (i + 1)
      have hindex : i + 1 + before.length = i + (item :: before).length := by
        rw [List.length_cons]
        omega
      rw [List.cons_append, parseProperties, hfirst, Faulty.ok_bind, hrest, Faulty.err_bind, hindex]

theorem all_or_first {α : Type} (P : α → Prop) (as : List α) :
    (∀ a ∈ as, P a) ∨
      ∃ before after a, as = before ++ a :: after ∧ (∀ b ∈ before, P b) ∧ ¬ P a := by
  induction as with
  | nil => exact Or.inl fun a ha => absurd ha List.not_mem_nil
  | cons a as ih =>
      by_cases ha : P a
      · rcases ih with hall | ⟨before, after, a', rfl, hbefore, ha'⟩
        · exact Or.inl (List.forall_mem_cons.2 ⟨ha, hall⟩)
        · exact Or.inr ⟨a :: before, after, a', rfl, List.forall_mem_cons.2 ⟨ha, hbefore⟩, ha'⟩
      · exact Or.inr ⟨[], as, a, rfl, fun b hb => absurd hb List.not_mem_nil, ha⟩

/-- **A refusal names what is missing first**, and nothing else is refused. -/
theorem parseDeployment_err_iff (build : Build) (json : Value) (message : String) :
    parseDeployment build json = .err message ↔ Lacks json message := by
  constructor
  · intro h
    unfold parseDeployment at h
    cases hdbNumber : (json.get "dbNumber").bind Value.asU64 with
    | none =>
        rw [hdbNumber] at h
        cases h
        exact .dbNumber hdbNumber
    | some dbNumber =>
        have hsome : (json.get "dbNumber").bind Value.asU64 ≠ none := by simp [hdbNumber]
        by_cases hname : HasText json "name"
        · obtain ⟨name, hname'⟩ := hname
          rw [hdbNumber, hname'] at h
          rcases all_or_first (fun p => HasText p "name") (propertiesOf json) with
            hall | ⟨before, after, prop, hproperties, hbefore, hprop⟩
          · -- every property has a name, and the size is a number or a fault
            obtain ⟨properties, hok⟩ := parseProperties_of_all hall 0
            obtain ⟨hsize, hfault⟩ := totalSizeOf_eq build properties
            rw [propertiesOf] at hok
            simp only [okOr, Faulty.ok_bind, hok] at h
            by_cases hfits : FitsUsize build (totalBytes properties)
            · rw [hsize hfits] at h
              cases h
            · rw [hfault hfits] at h
              cases h
          · have herr := parseProperties_of_first after hbefore hprop 0
            rw [← hproperties, propertiesOf, Nat.zero_add] at herr
            simp only [okOr, Faulty.ok_bind, herr, Faulty.err_bind, Faulty.err.injEq] at h
            subst h
            exact .property hsome ⟨name, hname'⟩ before after prop hproperties hbefore hprop
        · rw [hdbNumber, okOr_of_not_hasText hname] at h
          cases h
          exact .name hsome hname
  · intro h
    unfold parseDeployment
    cases h with
    | dbNumber hdbNumber =>
        rw [hdbNumber]
        rfl
    | name hdbNumber hname =>
        obtain ⟨dbNumber, hdbNumber⟩ := Option.ne_none_iff_exists'.1 hdbNumber
        rw [hdbNumber, okOr_of_not_hasText hname]
        rfl
    | property hdbNumber hname before after prop hproperties hbefore hprop =>
        obtain ⟨dbNumber, hdbNumber⟩ := Option.ne_none_iff_exists'.1 hdbNumber
        obtain ⟨name, hname⟩ := hname
        have herr := parseProperties_of_first after hbefore hprop 0
        rw [← hproperties, propertiesOf, Nat.zero_add] at herr
        rw [hdbNumber, hname]
        simp only [okOr, Faulty.ok_bind, herr, Faulty.err_bind]

end Builds

/-! ### The definitions that are kept -/

/-- The answer to a body. -/
structure DeploymentResponse where
  success : Bool
  message : Option String
  deriving DecidableEq

/-- The definitions that are kept, by name. -/
abbrev Deployments := AList fun _ : String => Deployed

section Posts

variable (build : Build)

/-- `deploy_handler`: a body, and its answer; a body that makes the handler panic has none. -/
def deployHandler (deployments : Deployments) (body : Value) :
    Deployments × Option DeploymentResponse :=
  match parseDeployment build body with
  | .ok d => (deployments.insert d.name d, some ⟨true, none⟩)
  | .err e => (deployments, some ⟨false, some e⟩)
  | .fault _ => (deployments, none)

/-- The definitions after any bodies were posted. -/
def afterPosts (bodies : List Value) : Deployments :=
  bodies.foldl (fun deployments body => (deployHandler build deployments body).1) ∅

/-- The definition of a body that is taken. -/
def accepted (body : Value) : Option (String × Deployed) :=
  match parseDeployment build body with
  | .ok d => some (d.name, d)
  | .err _ | .fault _ => none

theorem lookup_afterPosts (bodies : List Value) (name : String) :
    (afterPosts build bodies).lookup name =
      Replica.lastValue name (bodies.filterMap (accepted build)) := by
  induction bodies using List.reverseRecOn with
  | nil => rfl
  | append_singleton bodies body ih =>
      have hrun : afterPosts build (bodies ++ [body]) =
          (deployHandler build (afterPosts build bodies) body).1 := by simp [afterPosts]
      rw [hrun, List.filterMap_append, Replica.lastValue_append, ← ih]
      unfold deployHandler
      cases hparse : parseDeployment build body with
      | ok d =>
          have haccepted : [body].filterMap (accepted build) = [(d.name, d)] := by
            simp [accepted, hparse]
          rw [haccepted]
          by_cases hname : name = d.name
          · subst hname
            simp [Replica.lastValue]
          · simp [Replica.lastValue, hname, Ne.symm hname]
      | err e => simp [accepted, hparse, Replica.lastValue]
      | fault kind => simp [accepted, hparse, Replica.lastValue]

theorem deployable_of_accepted {body : Value} {name : String} {d : Deployed}
    (h : accepted build body = some (name, d)) : d.name = name ∧ Deployable build d := by
  unfold accepted at h
  split at h
  next d' hparse =>
    cases h
    exact ⟨rfl, deployable_of_parse hparse⟩
  next => cases h
  next => cases h

/-- **What is kept** under a name is the last definition of the name that was taken; a body that is
refused, or makes the handler panic, changes nothing.  What is kept can be read back from its
document. -/
theorem deployments_follow (bodies : List Value) (name : String) :
    (afterPosts build bodies).lookup name =
        Replica.lastValue name (bodies.filterMap (accepted build)) ∧
      ∀ d, (afterPosts build bodies).lookup name = some d →
        d.name = name ∧ parseDeployment build (describe d) = .ok d := by
  have hlookup := lookup_afterPosts build bodies name
  refine ⟨hlookup, fun d hd => ?_⟩
  rw [hlookup] at hd
  obtain ⟨body, -, hbody⟩ := List.mem_filterMap.1 (Replica.mem_of_lastValue hd)
  obtain ⟨hname, hdeployable⟩ := deployable_of_accepted build hbody
  exact ⟨hname, parseDeployment_describe hdeployable⟩

end Posts

end DataBlock

end FillingPilot
