import Libcortex.NestedLoop

/-!
# Callbacks that are disabled

The loops for events and for timeouts pass over a callback that is not active. The loop for errors does not look.
-/

open Libcortex.Lib
open Libcortex.Epoll (EPOLLIN EPOLLHUP)

namespace Libcortex.EpollLoop

/-! ## Whose handler runs -/

/-- The callback whose event handler or error callback the step has entered. -/
def entered (s : State) (a : Action) (s' : State) : Option CallbackId :=
  match a, s.stack.head?.map Level.pc, s'.stack.head?.map Level.pc with
  | .advance, some (.walk _ _ _), some (.inCallback _ _ c) => some c
  | .timeout c, _, some .inTimeout => some c
  | _, _, _ => none

/-- `ran` is history: whose handler was entered, and was the callback active then? -/
structure Watched where
  state : State
  ran : List (CallbackId × Bool)

def watchStep (w : Watched) (a : Action) : Option Watched :=
  (step w.state a).map fun s =>
    { state := s
      ran := (entered w.state a s).toList.map (fun c => (c, (w.state.tables.cbs c).active)) ++ w.ran }

def watch (s : State) : Watched := ⟨s, []⟩

/-- No handler was entered whose callback was disabled. -/
def Watched.ActiveOnly (w : Watched) : Prop := ∀ e ∈ w.ran, e.2 = true

/-- Where the loop for errors comes to a callback with an error callback, it is active. -/
def ErrorsActive (s : State) (a : Action) : Prop :=
  ∀ t c, a = .advance → s.stack.head?.map Level.pc = some (.walk t true (some c)) → (s.tables.cbs c).error_cb = true →
    (s.tables.cbs c).active = true

/-! ## One step -/

theorem visit_entered {s : State} {lv : Level} {below : List Level} {t : Taken} {error : Bool} {c : CallbackId}
    (hstack : s.stack = lv :: below) (hpc : lv.pc = .walk t error (some c)) :
    ∀ c', entered s .advance (visit s lv below t error c) = some c' → c' = c ∧ called s.tables error c = true := by
  intro c' h
  unfold entered at h
  rw [hstack, List.head?_cons, Option.map_some, hpc] at h
  obtain ⟨-, hv⟩ | ⟨hc, hv | hv⟩ := visit_cases s lv below t error c
  · rw [hv] at h
    cases h
  · rw [hv] at h
    cases h
  · rw [hv] at h
    cases h
    exact ⟨rfl, hc⟩

theorem visit_error {s : State} {lv : Level} {below : List Level} {t : Taken} {c : CallbackId}
    (hstack : s.stack = lv :: below) (hpc : lv.pc = .walk t true (some c)) (hc : (s.tables.cbs c).error_cb = true) :
    entered s .advance (visit s lv below t true c) = some c := by
  unfold entered visit
  rw [hstack, List.head?_cons, Option.map_some, hpc, if_pos rfl, if_pos hc]
  rfl

theorem visit_activeOnly {s : State} {lv : Level} {below : List Level} {t : Taken} {error : Bool} {c : CallbackId}
    (hstack : s.stack = lv :: below) (hpc : lv.pc = .walk t error (some c)) :
    (∀ c', entered s .advance (visit s lv below t error c) = some c' → (s.tables.cbs c').active = true) ↔
      ErrorsActive s .advance := by
  have hhead : s.stack.head?.map Level.pc = some (.walk t error (some c)) := by
    rw [hstack, List.head?_cons, Option.map_some, hpc]
  constructor
  · rintro h t' c' - hpc' herr
    rw [hhead] at hpc'
    cases hpc'
    exact h c (visit_error hstack hpc herr)
  · intro h c' hc'
    obtain ⟨rfl, hcalled⟩ := visit_entered hstack hpc c' hc'
    cases error with
    | true => exact h t c' rfl hhead hcalled
    | false => exact hcalled

theorem advance_entered {s s' : State} {lv : Level} {below : List Level} (hstack : s.stack = lv :: below)
    (hs : advance s lv below = some s') :
    (∀ c, entered s .advance s' = some c → (s.tables.cbs c).active = true) ↔ ErrorsActive s .advance := by
  have hhead : s.stack.head?.map Level.pc = some lv.pc := by rw [hstack]; rfl
  cases hpc : lv.pc with
  | walk t error el_cb =>
    unfold advance at hs
    cases el_cb with
    | some c =>
      simp only [hpc, Option.some.injEq] at hs
      subst hs
      exact visit_activeOnly hstack hpc
    | none =>
      simp only [hpc, Option.some.injEq] at hs
      subst hs
      refine iff_of_true ?_ ?_
      · rintro c h
        simp [entered] at h
      · rintro t' c - h
        rw [hhead, hpc] at h
        cases h
  | _ =>
    refine iff_of_true ?_ ?_
    · rintro c h
      unfold entered at h
      rw [hhead, hpc] at h
      cases h
    · rintro t c - h
      rw [hhead, hpc] at h
      cases h

theorem step_entered {s s' : State} {a : Action} (hs : step s a = some s') :
    (∀ c, entered s a s' = some c → (s.tables.cbs c).active = true) ↔ ErrorsActive s a := by
  have hvacuous (h : a ≠ .advance) : ErrorsActive s a := fun _ _ ha => absurd ha h
  cases a with
  | advance =>
    cases hstack : s.stack with
    | nil => simp [step, hstack] at hs
    | cons lv below =>
      simp only [step, hstack] at hs
      exact advance_entered hstack hs
  | timeout c =>
    refine iff_of_true ?_ (hvacuous (by simp))
    intro c' h
    cases hstack : s.stack with
    | nil => simp [step, hstack] at hs
    | cons lv below =>
      simp only [step, hstack, Option.ite_none_right_eq_some] at hs
      unfold entered at h
      split at h
      · contradiction
      · rename_i hc _
        cases hc
        cases h
        exact hs.1.2
      · cases h
  | _ =>
    refine iff_of_true ?_ (hvacuous (by simp))
    rintro c h
    cases h

/-! ## Every run -/

theorem watchStep_ran {w w' : Watched} {a : Action} (hs : watchStep w a = some w') :
    w'.ActiveOnly ↔ w.ActiveOnly ∧ ErrorsActive w.state a := by
  unfold watchStep at hs
  obtain ⟨s, hstep, rfl⟩ := Option.map_eq_some_iff.mp hs
  rw [← step_entered hstep]
  unfold Watched.ActiveOnly
  cases entered w.state a s <;> simp [and_comm]

/-- No handler of a disabled callback runs for as long as the loop for errors only comes to callbacks that are active,
and no longer. -/
theorem disabled_not_run (n : Nat) (events : Nat → EpollEvent) (tables : Tables) (as : List Action) (w : Watched)
    (hr : run watchStep as (watch (init n events tables)) = some w) :
    w.ActiveOnly ↔ Meets watchStep (fun w a => ErrorsActive w.state a) as (watch (init n events tables)) := by
  have hstep : ∀ w a w', True → watchStep w a = some w' →
      True ∧ (w'.ActiveOnly ↔ w.ActiveOnly ∧ ErrorsActive w.state a) := fun _ _ _ _ hs => ⟨trivial, watchStep_ran hs⟩
  rw [run_iff_meets hstep as _ w trivial hr]
  exact and_iff_right fun e he => absurd he List.not_mem_nil

/-- The second callback of entry 0 is disabled. -/
def secondDisabled : Tables :=
  { threeCallbacks with
    cbs := Function.update threeCallbacks.cbs 1 { threeCallbacks.cbs 1 with active := false } }

/-- The handler of the first callback disables the second one. -/
def hangUp (events : BitVec 32) : List Action :=
  [.call false, .advance, .advance, .timeoutsDone, .advance, .wait [{ ptr := 0, events }], .advance, .advance, .advance,
    .edit secondDisabled, .handlerReturns, .advance]

/-- It is called all the same, for the hang-up. -/
theorem disabled_run_hang_up :
    ∃ w, run watchStep (hangUp EPOLLHUP) (watch (init 1 (fun _ => ⟨0, 0⟩) threeCallbacks)) = some w ∧
      (1, false) ∈ w.ran ∧ ¬ w.ActiveOnly := by
  have hrun : (run watchStep (hangUp EPOLLHUP) (watch (init 1 (fun _ => ⟨0, 0⟩) threeCallbacks))).map Watched.ran =
      some [(1, false), (0, true)] := by decide
  obtain ⟨w, hw, hran⟩ := Option.map_eq_some_iff.mp hrun
  have hmem : (1, false) ∈ w.ran := by simp [hran]
  exact ⟨w, hw, hmem, fun h => absurd (h _ hmem) (by decide)⟩

/-- For input it is passed over. -/
theorem disabled_not_run_input :
    ∃ w, run watchStep (hangUp EPOLLIN) (watch (init 1 (fun _ => ⟨0, 0⟩) threeCallbacks)) = some w ∧
      w.ran = [(0, true)] ∧
      Meets watchStep (fun w a => ErrorsActive w.state a) (hangUp EPOLLIN)
        (watch (init 1 (fun _ => ⟨0, 0⟩) threeCallbacks)) := by
  have hrun : (run watchStep (hangUp EPOLLIN) (watch (init 1 (fun _ => ⟨0, 0⟩) threeCallbacks))).map Watched.ran =
      some [(0, true)] := by decide
  obtain ⟨w, hw, hran⟩ := Option.map_eq_some_iff.mp hrun
  refine ⟨w, hw, hran, (disabled_not_run 1 _ threeCallbacks _ w hw).mp ?_⟩
  simp [Watched.ActiveOnly, hran]

end Libcortex.EpollLoop
