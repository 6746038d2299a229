/-
Several `plcInfo` handlers at once.

The register stream and the heartbeat reply run the same handler on different tasks.  Between two
of its awaits a handler takes one step: it compares its detail with the stored one, stores it, and
updates the PLC list, the stations and the monitors, in this order.  Steps of different handlers may
come in any order.

Main definitions:

* `FillingPilot.Handler`, `FillingPilot.RaceState`, `FillingPilot.raceStep` — the handlers as a
  transition system;
* `FillingPilot.Agrees` — a store holds what the stored detail gives;
* `FillingPilot.UpdatesCurrent` — the step updates a store from the stored detail, or ahead of a
  handler that will.

Main results:

* `FillingPilot.Handler.step_cases` — what a step of a handler can do;
* `FillingPilot.raceStep_covered` — what one step keeps;
* `FillingPilot.handlers_agree` — **the stores agree** when no handler is in progress, in a run
  whose steps all update currently;
* `FillingPilot.late_update_disagrees` — a run that ends in disagreement.
-/

import FillingPilot.PlcInfo
import FillingPilot.Runs

set_option relaxedAutoImplicit false
set_option autoImplicit false

namespace FillingPilot

open Json

/-! ### Handlers -/

/-- The stores that a handler updates. -/
inductive Store
  | plcList
  | stations
  | monitors
  deriving DecidableEq

/-- The next step of a handler. -/
inductive HandlerPhase
  | compare
  | store
  | plcList
  | stations
  | monitors
  | done
  deriving DecidableEq

/-- The stores that a handler has still to update once it has stored its detail. -/
def HandlerPhase.pending : HandlerPhase → List Store
  | plcList => [.plcList, .stations, .monitors]
  | stations => [.stations, .monitors]
  | monitors => [.monitors]
  | _ => []

/-- A handler under way. -/
structure Handler where
  detail : String
  phase : HandlerPhase
  deriving DecidableEq

/-- The session and the handlers, finished ones included. -/
structure RaceState where
  session : Session
  handlers : List Handler

/-- A handler begins, or one takes a step. -/
inductive RaceEvent
  | start (detail : String)
  | advance (i : ℕ)

section Race

variable (fromStr : String → Option Value)

/-- The detail yields at least one PLC, one station and one monitor. -/
def YieldsAll (detail : String) : Prop :=
  parsePlcList fromStr detail ≠ [] ∧ stationsIn fromStr detail ≠ [] ∧ monitorsIn fromStr detail ≠ []

instance (detail : String) : Decidable (YieldsAll fromStr detail) :=
  inferInstanceAs (Decidable (_ ∧ _ ∧ _))

/-- One step of a handler. -/
def Handler.step (s : Session) (h : Handler) : Option (Session × Handler) :=
  match h.phase with
  | .compare =>
      some (s, { h with phase := if s.lastPlcDetail ≠ h.detail then .store else .done })
  | .store => some (s.storeDetail h.detail, { h with phase := .plcList })
  | .plcList =>
      some (s.updatePlcList (parsePlcList fromStr h.detail), { h with phase := .stations })
  | .stations =>
      some (s.updateStations (stationsIn fromStr h.detail), { h with phase := .monitors })
  | .monitors => some (s.updateMonitors (monitorsIn fromStr h.detail), { h with phase := .done })
  | .done => none

/-- One step of the system; only details that yield all three are considered. -/
def raceStep (st : RaceState) : RaceEvent → Option RaceState
  | .start detail =>
      if YieldsAll fromStr detail then
        some { st with handlers := st.handlers ++ [⟨detail, .compare⟩] }
      else none
  | .advance i => do
      let h ← st.handlers[i]?
      let (session, h') ← h.step fromStr st.session
      return { session, handlers := st.handlers.set i h' }

/-- A new session without handlers. -/
def raceStart : RaceState := ⟨freshSession, []⟩

/-! ### Agreement -/

/-- A store holds what the stored detail gives. -/
def Agrees (s : Session) : Store → Prop
  | .plcList => s.plcList = parsePlcList fromStr s.lastPlcDetail
  | .stations => ∀ f, f ∈ s.caches ↔ f ∈ stationsIn fromStr s.lastPlcDetail
  | .monitors => s.monitors.1 = (monitorsIn fromStr s.lastPlcDetail).toFinset

variable {fromStr}

/-- **What a step of a handler can do**: it compares, or stores its detail, or updates the first of
the stores it has still to update. -/
theorem Handler.step_cases {s s' : Session} {h h' : Handler} (hyields : YieldsAll fromStr h.detail)
    (hstep : h.step fromStr s = some (s', h')) :
    h'.detail = h.detail ∧
      ((h.phase.pending = [] ∧ s' = s) ∨
        (h.phase.pending = [] ∧ s'.lastPlcDetail = h.detail ∧ ∀ r, r ∈ h'.phase.pending) ∨
        ∃ r, h.phase.pending = r :: h'.phase.pending ∧ s'.lastPlcDetail = s.lastPlcDetail ∧
          (h.detail = s.lastPlcDetail → Agrees fromStr s' r) ∧
          ∀ r', r' ≠ r → (Agrees fromStr s' r' ↔ Agrees fromStr s r')) := by
  obtain ⟨detail, phase⟩ := h
  obtain ⟨-, hstations, hmonitors⟩ := hyields
  cases phase with
  | compare =>
      cases hstep
      exact ⟨rfl, Or.inl ⟨rfl, rfl⟩⟩
  | store =>
      cases hstep
      refine ⟨rfl, Or.inr (Or.inl ⟨rfl, rfl, fun r => ?_⟩)⟩
      cases r <;> simp [HandlerPhase.pending]
  | plcList =>
      cases hstep
      refine ⟨rfl, Or.inr (Or.inr ⟨.plcList, rfl, rfl, ?_, ?_⟩)⟩
      · rintro rfl
        rfl
      · intro r' hr'
        cases r' with
        | plcList => exact absurd rfl hr'
        | stations => exact Iff.rfl
        | monitors => exact Iff.rfl
  | stations =>
      cases hstep
      rw [Session.updateStations, if_neg (by rwa [List.isEmpty_iff])]
      refine ⟨rfl, Or.inr (Or.inr ⟨.stations, rfl, rfl, ?_, ?_⟩)⟩
      · rintro rfl f
        exact mem_updateFillStations
      · intro r' hr'
        cases r' with
        | plcList => exact Iff.rfl
        | stations => exact absurd rfl hr'
        | monitors => exact Iff.rfl
  | monitors =>
      cases hstep
      rw [Session.updateMonitors, if_neg (by rwa [List.isEmpty_iff])]
      refine ⟨rfl, Or.inr (Or.inr ⟨.monitors, rfl, rfl, ?_, ?_⟩)⟩
      · rintro rfl
        exact updateMonitors_fst _ _
      · intro r' hr'
        cases r' with
        | plcList => exact Iff.rfl
        | stations => exact Iff.rfl
        | monitors => exact absurd rfl hr'
  | done => cases hstep

/-! ### The invariant -/

/-- A handler other than number `i` that carries the stored detail has still to update a store. -/
def OtherUpdates (st : RaceState) (i : ℕ) (r : Store) : Prop :=
  ∃ (j : ℕ) (h : Handler), j ≠ i ∧ st.handlers[j]? = some h ∧
    h.detail = st.session.lastPlcDetail ∧ r ∈ h.phase.pending

/-- **The invariant of the race**: each store agrees with the stored detail, or a handler that
carries this detail has still to update it. -/
structure Covered (fromStr : String → Option Value) (st : RaceState) : Prop where
  yields : ∀ h ∈ st.handlers, YieldsAll fromStr h.detail
  covered : ∀ r, Agrees fromStr st.session r ∨
    ∃ (j : ℕ) (h : Handler), st.handlers[j]? = some h ∧
      h.detail = st.session.lastPlcDetail ∧ r ∈ h.phase.pending

/-- If the step updates a store, its handler carries the stored detail, or another handler that
carries it has still to update the same store. -/
def UpdatesCurrent (st : RaceState) : RaceEvent → Prop
  | .start _ => True
  | .advance i =>
      ∀ (h : Handler) (r : Store), st.handlers[i]? = some h → h.phase.pending.head? = some r →
        h.detail = st.session.lastPlcDetail ∨ OtherUpdates st i r

/-- **What one step keeps**, when it updates currently. -/
theorem raceStep_covered {st st' : RaceState} {e : RaceEvent} (hcurrent : UpdatesCurrent st e)
    (hst : Covered fromStr st) (hstep : raceStep fromStr st e = some st') :
    Covered fromStr st' := by
  cases e with
  | start detail =>
      simp only [raceStep, Option.ite_none_right_eq_some, Option.some.injEq] at hstep
      obtain ⟨hyields, rfl⟩ := hstep
      -- the new handler has nothing to update yet, and the old ones keep their numbers
      refine ⟨fun h hh => ?_, fun r => ?_⟩
      · rcases List.mem_append.1 hh with hold | hnew
        · exact hst.yields h hold
        · rw [List.mem_singleton] at hnew
          subst hnew
          exact hyields
      · rcases hst.covered r with hagrees | ⟨j, h, hj, hcarries⟩
        · exact Or.inl hagrees
        · refine Or.inr ⟨j, h, ?_, hcarries⟩
          rw [List.getElem?_append_left (List.getElem?_eq_some_iff.1 hj).1]
          exact hj
  | advance i =>
      simp only [raceStep, Option.bind_eq_bind, Option.bind_eq_some_iff, Option.pure_def,
        Option.some.injEq] at hstep
      obtain ⟨h, hi, ⟨session, h'⟩, hmove, rfl⟩ := hstep
      have hyields : YieldsAll fromStr h.detail := hst.yields h (List.mem_of_getElem? hi)
      obtain ⟨hdetail, hcases⟩ := Handler.step_cases hyields hmove
      have hself : (st.handlers.set i h')[i]? = some h' :=
        List.getElem?_set_self (List.getElem?_eq_some_iff.1 hi).1
      have hother : ∀ {j : ℕ}, j ≠ i → (st.handlers.set i h')[j]? = st.handlers[j]? :=
        fun hj => List.getElem?_set_ne (Ne.symm hj)
      refine ⟨fun g hg => ?_, fun r => ?_⟩
      · rcases List.mem_or_eq_of_mem_set hg with hold | rfl
        · exact hst.yields g hold
        · rwa [hdetail]
      · rcases hcases with ⟨hpending, rfl⟩ | ⟨-, hlast, hall⟩ | ⟨r₀, hpending, hlast, hnow, hrest⟩
        · -- the comparison: this handler covered nothing
          rcases hst.covered r with hagrees | ⟨j, g, hj, hcarries, hr⟩
          · exact Or.inl hagrees
          · have hji : j ≠ i := by
              rintro rfl
              obtain rfl : h = g := Option.some.inj (hi.symm.trans hj)
              rw [hpending] at hr
              cases hr
            exact Or.inr ⟨j, g, (hother hji).trans hj, hcarries, hr⟩
        · -- the detail is stored: this handler covers every store
          exact Or.inr ⟨i, h', hself, hdetail.trans hlast.symm, hall r⟩
        · by_cases hr₀ : r = r₀
          · -- the updated store
            subst hr₀
            have hhead : h.phase.pending.head? = some r := by rw [hpending, List.head?_cons]
            rcases hcurrent h r hi hhead with hmine | ⟨j, g, hji, hj, hcarries, hr⟩
            · exact Or.inl (hnow hmine)
            · exact Or.inr ⟨j, g, (hother hji).trans hj, hcarries.trans hlast.symm, hr⟩
          · rcases hst.covered r with hagrees | ⟨j, g, hj, hcarries, hr⟩
            · exact Or.inl ((hrest r hr₀).2 hagrees)
            · by_cases hji : j = i
              · subst hji
                obtain rfl : h = g := Option.some.inj (hi.symm.trans hj)
                rw [hpending, List.mem_cons] at hr
                refine Or.inr ⟨j, h', hself, ?_, hr.resolve_left hr₀⟩
                exact hdetail.trans (hcarries.trans hlast.symm)
              · exact Or.inr ⟨j, g, (hother hji).trans hj, hcarries.trans hlast.symm, hr⟩

/-- **The stores agree** in every state without a handler in progress, in a run whose steps all
update currently. -/
theorem handlers_agree (hempty : fromStr "" = none) {events : List RaceEvent} {st : RaceState}
    (hcurrent : Lts.Along (raceStep fromStr) UpdatesCurrent raceStart events)
    (hrun : Lts.run (raceStep fromStr) raceStart events = some st)
    (hdone : ∀ h ∈ st.handlers, h.phase = .done) :
    st.session.plcList = parsePlcList fromStr st.session.lastPlcDetail ∧
      (∀ f, f ∈ st.session.caches ↔ f ∈ stationsIn fromStr st.session.lastPlcDetail) ∧
      st.session.monitors.1 = (monitorsIn fromStr st.session.lastPlcDetail).toFinset := by
  have hstart : Covered fromStr raceStart := by
    -- a fresh session has the stores of the empty detail
    refine ⟨fun h hh => absurd hh List.not_mem_nil, fun r => Or.inl ?_⟩
    cases r with
    | plcList => simp [Agrees, raceStart, freshSession, parsePlcList, plcArray, hempty]
    | stations =>
        simp [Agrees, raceStart, freshSession, stationsIn, plcArray, hempty,
          FillStation.parseFromPlcInfo]
    | monitors =>
        simp [Agrees, raceStart, freshSession, monitorsIn, plcArray, hempty,
          Monitor.parseFromPlcInfo]
  have hcovered : Covered fromStr st :=
    Lts.run_invariant (fun _ _ _ hok hst hstep => raceStep_covered hok hst hstep) hstart hcurrent
      hrun
  -- no handler has an update left, so that none stands in for a store
  have hagrees : ∀ r, Agrees fromStr st.session r := by
    intro r
    rcases hcovered.covered r with hagrees | ⟨j, h, hj, -, hr⟩
    · exact hagrees
    · rw [hdone h (List.mem_of_getElem? hj)] at hr
      cases hr
  exact ⟨hagrees .plcList, hagrees .stations, hagrees .monitors⟩

end Race

/-- Handler 0 stores its detail and updates the PLC list; handler 1 then stores its own; handler 0
updates the stations and the monitors from its old detail, and handler 1 updates everything after
it. -/
def overlapping : List RaceEvent :=
  [.start (fullText "1"), .start (fullText "2"), .advance 0, .advance 0, .advance 0, .advance 1,
    .advance 1, .advance 0, .advance 0, .advance 1, .advance 1, .advance 1]

/-- The updates of handler 0 that come late are made again by handler 1. -/
theorem handlers_agree_overlapping :
    ∃ st, Lts.run (raceStep sampleFromStr) raceStart overlapping = some st ∧
      st.session.plcList = parsePlcList sampleFromStr st.session.lastPlcDetail ∧
      (∀ f, f ∈ st.session.caches ↔ f ∈ stationsIn sampleFromStr st.session.lastPlcDetail) ∧
      st.session.monitors.1 = (monitorsIn sampleFromStr st.session.lastPlcDetail).toFinset := by
  have hempty : sampleFromStr "" = none := by rfl
  have hcurrent : Lts.Along (raceStep sampleFromStr) UpdatesCurrent raceStart overlapping := by
    refine .of_step trivial rfl <| .of_step trivial rfl <| .of_step ?_ rfl <| .of_step ?_ rfl <|
      .of_step ?_ rfl <| .of_step ?_ rfl <| .of_step ?_ rfl <| .of_step ?_ rfl <|
        .of_step ?_ rfl <| .of_step ?_ rfl <| .of_step ?_ rfl <| .of_step ?_ rfl trivial
    -- handler 0 compares, stores, and updates the PLC list
    · rintro h r ⟨⟩ ⟨⟩
    · rintro h r ⟨⟩ ⟨⟩
    · rintro h r ⟨⟩ -
      exact Or.inl rfl
    -- handler 1 compares and stores
    · rintro h r ⟨⟩ ⟨⟩
    · rintro h r ⟨⟩ ⟨⟩
    -- the late updates of handler 0
    · rintro h r ⟨⟩ ⟨⟩
      exact Or.inr ⟨1, _, by decide, rfl, rfl, by decide⟩
    · rintro h r ⟨⟩ ⟨⟩
      exact Or.inr ⟨1, _, by decide, rfl, rfl, by decide⟩
    -- the updates of handler 1
    · rintro h r ⟨⟩ -
      exact Or.inl rfl
    · rintro h r ⟨⟩ -
      exact Or.inl rfl
    · rintro h r ⟨⟩ -
      exact Or.inl rfl
  exact ⟨_, rfl, handlers_agree hempty hcurrent rfl (by decide)⟩

/-- Handler 0 stores its detail, handler 1 then stores and updates everything, and handler 0
updates everything after it. -/
def lateUpdate : List RaceEvent :=
  [.start (fullText "1"), .start (fullText "2"), .advance 0, .advance 0] ++
    List.replicate 5 (.advance 1) ++ List.replicate 3 (.advance 0)

/-- **The stores disagree** with the stored detail after `lateUpdate`, and no handler is in
progress. -/
theorem late_update_disagrees :
    ∃ st, Lts.run (raceStep sampleFromStr) raceStart lateUpdate = some st ∧
      (∀ h ∈ st.handlers, h.phase = .done) ∧ st.session.lastPlcDetail = fullText "2" ∧
      st.session.plcList ≠ parsePlcList sampleFromStr (fullText "2") := by
  refine ⟨_, rfl, by decide, rfl, by decide⟩

end FillingPilot
