/-
The local HTTP interface: reading and writing a place in a PLC.

A body names the place by its fields.  A field that is absent takes its default, and so does one
that is no text or no number; a number is cut to 16 bits.  Only content that is no hexadecimal text
is refused.

Main definitions:

* `FillingPilot.readHandler`, `FillingPilot.writeHandler` — the handlers, with the operations on the
  PLC that they perform;
* `FillingPilot.ReadValid`, `FillingPilot.WriteValid` — every field that is present is a value of
  its kind;
* `FillingPilot.ReadsAsGiven`, `FillingPilot.WritesAsGiven` — a handler uses every field as it is
  given, or refuses the body.

Main results:

* `FillingPilot.usesNumber_iff`, `FillingPilot.usesText_iff` — **one field** is used as it is given
  exactly when it is absent or a value of its kind;
* `FillingPilot.handlers_as_given_iff` — **the exact condition**, for both handlers.
-/

import FillingPilot.PlcCommands

set_option relaxedAutoImplicit false
set_option autoImplicit false

namespace FillingPilot

open Json Rust

/-! ### Fields of a body -/

/-- `request[name].as_str().unwrap_or(default)`. -/
def requestText (request : Value) (name default : String) : String :=
  ((request.get name).bind Value.asStr).getD default

/-- `request[name].as_u64().unwrap_or(default) as u16`. -/
def requestNumber (request : Value) (name : String) (default : ℤ) : UInt16 :=
  UInt16.ofNat (((request.get name).bind Value.asU64).getD default).toNat

/-- The field, if it is present, is the text. -/
def UsesText (request : Value) (name s : String) : Prop :=
  ∀ v, request.get name = some v → v = .string s

/-- The field, if it is present, is the number. -/
def UsesNumber (request : Value) (name : String) (n : UInt16) : Prop :=
  ∀ v, request.get name = some v → v.asU64 = some (n.toNat : ℤ)

/-- The field, if it is present, is a text. -/
def ValidText (request : Value) (name : String) : Prop :=
  ∀ v, request.get name = some v → ∃ s, v = .string s

/-- The field, if it is present, is an integer from 0 to 65535. -/
def ValidNumber (request : Value) (name : String) : Prop :=
  ∀ v, request.get name = some v → ∃ n, v.asU64 = some n ∧ n < 65536

/-- The field, if it is present, is a hexadecimal text. -/
def ValidHex (request : Value) (name : String) : Prop :=
  ∀ v, request.get name = some v → ∃ s, v = .string s ∧ (hexDecode s).isSome

/-- **A text** is used as it is given when it is absent or a text. -/
theorem usesText_iff (request : Value) (name default : String) :
    UsesText request name (requestText request name default) ↔ ValidText request name := by
  unfold UsesText ValidText requestText
  cases hfield : request.get name with
  | none => simp
  | some v =>
      simp only [Option.some.injEq, forall_eq', Option.bind_some]
      constructor
      · intro h
        exact ⟨_, h⟩
      · rintro ⟨s, rfl⟩
        rfl

/-- **A number** is used as it is given when it is absent or fits 16 bits. -/
theorem usesNumber_iff (request : Value) (name : String) (default : ℤ) :
    UsesNumber request name (requestNumber request name default) ↔ ValidNumber request name := by
  unfold UsesNumber ValidNumber requestNumber
  cases hfield : request.get name with
  | none => simp
  | some v =>
      simp only [Option.some.injEq, forall_eq', Option.bind_some]
      cases hnumber : v.asU64 with
      | none => simp
      | some n =>
          have hnonneg : 0 ≤ n := Value.asU64_nonneg hnumber
          simp only [Option.some.injEq, Option.getD_some, exists_eq_left', UInt16.toNat_ofNat']
          omega

/-! ### The handlers -/

/-- An answer, with the operations on the PLC. -/
abbrev HttpOutcome := Value × List PlcCall

/-- The answer of a failed request. -/
def errorAnswer (e : String) : Value :=
  .object [("success", .bool false), ("error", .string e)]

/-- The answer says that the request failed. -/
def IsError (answer : Value) : Prop := answer.get "success" = some (.bool false)

/-- `POST /read`. -/
def readHandler (plc : Plc) (request : Value) : HttpOutcome :=
  let ip := requestText request "ip" "127.0.0.1"
  let port := requestNumber request "port" 102
  let db := requestNumber request "db" 1
  let offset := requestNumber request "offset" 0
  let size := requestNumber request "size" 10
  let answer :=
    match plc.readBytes ip port db offset size with
    | .ok data =>
        .object [("success", .bool true), ("hex", .string (hexEncode data)),
          ("bytes", .ofInt data.length)]
    | .error e => errorAnswer e
  (answer, [.read ip port db offset size])

/-- `POST /write`. -/
def writeHandler (hexError : String → String) (plc : Plc) (request : Value) : HttpOutcome :=
  let ip := requestText request "ip" "127.0.0.1"
  let port := requestNumber request "port" 102
  let db := requestNumber request "db" 1
  let offset := requestNumber request "offset" 0
  let hexData := requestText request "hex" ""
  match hexDecode hexData with
  | none => (errorAnswer ("Invalid hex: " ++ hexError hexData), [])
  | some data =>
      let answer :=
        match plc.writeBytes ip port db offset data with
        | .ok () => .object [("success", .bool true), ("bytes", .ofInt data.length)]
        | .error e => errorAnswer e
      (answer, [.write ip port db offset data])

/-! ### Fields as they are given -/

/-- Every field of a `/read` body that is present is a value of its kind. -/
structure ReadValid (request : Value) : Prop where
  ip : ValidText request "ip"
  port : ValidNumber request "port"
  db : ValidNumber request "db"
  offset : ValidNumber request "offset"
  size : ValidNumber request "size"

/-- Every field of a `/write` body that is present is a value of its kind. -/
structure WriteValid (request : Value) : Prop where
  ip : ValidText request "ip"
  port : ValidNumber request "port"
  db : ValidNumber request "db"
  offset : ValidNumber request "offset"
  hex : ValidHex request "hex"

/-- A read uses every field that is present as it is given, and a field that is no value of its
kind leads to an error and no operation. -/
structure ReadsAsGiven (plc : Plc) (request : Value) : Prop where
  used : ∀ ip port db offset size,
    PlcCall.read ip port db offset size ∈ (readHandler plc request).2 →
      UsesText request "ip" ip ∧ UsesNumber request "port" port ∧ UsesNumber request "db" db ∧
        UsesNumber request "offset" offset ∧ UsesNumber request "size" size
  refused : ¬ ReadValid request →
    (readHandler plc request).2 = [] ∧ IsError (readHandler plc request).1

/-- A write uses every field that is present as it is given, and a field that is no value of its
kind leads to an error and no operation. -/
structure WritesAsGiven (hexError : String → String) (plc : Plc) (request : Value) : Prop where
  used : ∀ ip port db offset data,
    PlcCall.write ip port db offset data ∈ (writeHandler hexError plc request).2 →
      UsesText request "ip" ip ∧ UsesNumber request "port" port ∧ UsesNumber request "db" db ∧
        UsesNumber request "offset" offset ∧
        ∀ v, request.get "hex" = some v → ∃ s, v = .string s ∧ hexDecode s = some data
  refused : ¬ WriteValid request →
    (writeHandler hexError plc request).2 = [] ∧ IsError (writeHandler hexError plc request).1

/-- The content is a text, but no hexadecimal one. -/
def BadHex (request : Value) : Prop :=
  ∃ s, request.get "hex" = some (.string s) ∧ hexDecode s = none

/-- The `/read` handler always performs a read, so that it has to be with the fields given. -/
theorem readsAsGiven_iff (plc : Plc) (request : Value) :
    ReadsAsGiven plc request ↔ ReadValid request := by
  constructor
  · intro h
    obtain ⟨hip, hport, hdb, hoffset, hsize⟩ := h.used _ _ _ _ _ (List.mem_singleton.2 rfl)
    exact {
      ip := (usesText_iff _ _ _).1 hip
      port := (usesNumber_iff _ _ _).1 hport
      db := (usesNumber_iff _ _ _).1 hdb
      offset := (usesNumber_iff _ _ _).1 hoffset
      size := (usesNumber_iff _ _ _).1 hsize }
  · intro h
    refine ⟨?_, fun hnot => absurd h hnot⟩
    intro ip port db offset size hcall
    cases List.mem_singleton.1 hcall
    exact ⟨(usesText_iff _ _ _).2 h.ip, (usesNumber_iff _ _ _).2 h.port,
      (usesNumber_iff _ _ _).2 h.db, (usesNumber_iff _ _ _).2 h.offset,
      (usesNumber_iff _ _ _).2 h.size⟩

theorem hexDecode_requestText_eq_none_iff (request : Value) :
    hexDecode (requestText request "hex" "") = none ↔ BadHex request := by
  unfold requestText BadHex
  cases hfield : request.get "hex" with
  | none => simp [hexDecode, hexPairs]
  | some v =>
      cases v <;> simp [Value.asStr, hexDecode, hexPairs]

/-- **A content** is written as it is given when it is absent or a hexadecimal text. -/
theorem usesHex_iff {request : Value} {data : List UInt8}
    (hdecode : hexDecode (requestText request "hex" "") = some data) :
    (∀ v, request.get "hex" = some v → ∃ s, v = .string s ∧ hexDecode s = some data) ↔
      ValidHex request "hex" := by
  unfold ValidHex requestText at *
  cases hfield : request.get "hex" with
  | none => simp
  | some v =>
      simp only [hfield, Option.bind_some] at hdecode
      simp only [Option.some.injEq, forall_eq']
      constructor
      · rintro ⟨s, hs, hdata⟩
        exact ⟨s, hs, by simp [hdata]⟩
      · rintro ⟨s, rfl, -⟩
        exact ⟨s, rfl, hdecode⟩

/-- The `/write` handler performs a write unless it refuses the content. -/
theorem writesAsGiven_iff (hexError : String → String) (plc : Plc) (request : Value) :
    WritesAsGiven hexError plc request ↔ BadHex request ∨ WriteValid request := by
  cases hdecode : hexDecode (requestText request "hex" "") with
  | none =>
      have hbad : BadHex request := (hexDecode_requestText_eq_none_iff request).1 hdecode
      have hrun : writeHandler hexError plc request =
          (errorAnswer ("Invalid hex: " ++ hexError (requestText request "hex" "")), []) := by
        simp only [writeHandler, hdecode]
      refine iff_of_true ⟨?_, ?_⟩ (Or.inl hbad)
      · intro ip port db offset data hcall
        rw [hrun] at hcall
        exact absurd hcall List.not_mem_nil
      · intro _
        rw [hrun]
        exact ⟨rfl, rfl⟩
  | some data =>
      have hgood : ¬ BadHex request := by
        rw [← hexDecode_requestText_eq_none_iff, hdecode]
        exact Option.some_ne_none data
      have hrun : (writeHandler hexError plc request).2 =
          [.write (requestText request "ip" "127.0.0.1") (requestNumber request "port" 102)
            (requestNumber request "db" 1) (requestNumber request "offset" 0) data] := by
        simp only [writeHandler, hdecode]
      simp only [hgood, false_or]
      constructor
      · intro h
        obtain ⟨hip, hport, hdb, hoffset, hhex⟩ :=
          h.used _ _ _ _ _ (hrun ▸ List.mem_singleton.2 rfl)
        exact {
          ip := (usesText_iff _ _ _).1 hip
          port := (usesNumber_iff _ _ _).1 hport
          db := (usesNumber_iff _ _ _).1 hdb
          offset := (usesNumber_iff _ _ _).1 hoffset
          hex := (usesHex_iff hdecode).1 hhex }
      · intro h
        refine ⟨?_, fun hnot => absurd h hnot⟩
        intro ip port db offset data' hcall
        rw [hrun] at hcall
        cases List.mem_singleton.1 hcall
        exact ⟨(usesText_iff _ _ _).2 h.ip, (usesNumber_iff _ _ _).2 h.port,
          (usesNumber_iff _ _ _).2 h.db, (usesNumber_iff _ _ _).2 h.offset,
          (usesHex_iff hdecode).2 h.hex⟩

/-- **The handlers use the fields of a body as they are given** exactly when every one that is
present is a value of its kind, but for a write whose content is a text and no hexadecimal one: the
handler refuses it. -/
theorem handlers_as_given_iff (hexError : String → String) (plc : Plc) (request : Value) :
    (ReadsAsGiven plc request ↔ ReadValid request) ∧
      (WritesAsGiven hexError plc request ↔ BadHex request ∨ WriteValid request) :=
  ⟨readsAsGiven_iff plc request, writesAsGiven_iff hexError plc request⟩

/-- A write to data block 65537 is a write to data block 1. -/
theorem db_65537_not_writesAsGiven :
    ¬ WritesAsGiven (fun _ => "Odd number of digits")
      { readBytes := fun _ _ _ _ _ => .ok [], writeBytes := fun _ _ _ _ _ => .ok () }
      (.object [("db", .ofInt 65537), ("hex", .string "00")]) := by
  intro h
  obtain ⟨-, -, hdb, -⟩ := h.used "127.0.0.1" 102 1 0 [0] (List.mem_singleton.2 rfl)
  have hread : Value.asU64 (.ofInt 65537) = some 1 := hdb _ rfl
  exact absurd hread (by decide)

end FillingPilot
