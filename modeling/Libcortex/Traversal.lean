import Libcortex.Dicts
import Libcortex.Lib.Run

/-!
# Walking through the tasks of a graph

`traverse_graph_r` of `core.c`: the handlers run on the way down the list, the cleanups on the way back. A task is
compared with the description of the event, and what its handler returns goes through a `char`.
-/

open Libcortex.Lib

namespace Libcortex.Traversal

open Dicts (CString keyA keyB)

variable {σ : Type}

/-! ## The traversal -/

/-- What the traversal reads of the event, and all that the handlers read and write besides. -/
structure World (σ : Type) where
  description : Option CString
  response_pointer : Option Nat
  response_dict : Option Nat
  rest : σ

/-- A handler gets the address of the session data, and returns an `int`. -/
structure Task (σ : Type) where
  id : TaskId
  event_type_match : Option CString
  handle : Option (Nat → World σ → World σ × BitVec 32)
  cleanup : Option (Nat → World σ → World σ)

inductive Call where
  | handle (task : TaskId) (sessiondata : Nat)
  | cleanup (task : TaskId) (sessiondata : Nat)
deriving DecidableEq, Repr

/-- A call of `traverse_graph_r`. `frame` is the address of its `sessiondata`, `description` what the event had when
the call began, `ret` what the handler returned if it ran, and `responded` whether there was a response then. -/
structure Visit (σ : Type) where
  task : Task σ
  frame : Nat
  description : Option CString
  ret : Option (BitVec 32)
  responded : Bool

/-- What a traversal has done. There is no `world` if it crashed. -/
structure Trace (σ : Type) where
  visits : List (Visit σ)
  calls : List Call
  world : Option (World σ)

def CRTX_GRAPH_KEEP_GOING : BitVec 8 := 1

def World.responded (w : World σ) : Bool := w.response_pointer.isSome || w.response_dict.isSome

/-- `none`: `strcmp` follows a NULL pointer. -/
def matchesEvent (ti : Task σ) (w : World σ) : Option Bool :=
  match ti.event_type_match with
  | none => some true
  | some m => w.description.map (m = ·)

def callHandle (frame : Nat) (ti : Task σ) (w : World σ) : Option (World σ × Option (BitVec 32)) :=
  match ti.handle with
  | none => some (w, none)
  | some handle =>
    (matchesEvent ti w).map fun m =>
      if m then ((handle frame w).1, some (handle frame w).2) else (w, none)

/-- The `char` takes the lower eight bits of an `int`. -/
def keepGoing : Option (BitVec 32) → BitVec 8
  | none => 1
  | some ret => ret.setWidth 8

def goesOn (flags : BitVec 8) (w : World σ) (keep_going : BitVec 8) : Bool :=
  !w.responded || keep_going ≠ 0 || flags &&& CRTX_GRAPH_KEEP_GOING ≠ 0

/-- The way back from what the tasks behind `v.task` have done. -/
def leave (v : Visit σ) (rest : Trace σ) : Trace σ :=
  let calls := if v.ret.isSome then .handle v.task.id v.frame :: rest.calls else rest.calls
  match rest.world, v.task.cleanup with
  | none, _ => ⟨v :: rest.visits, calls, none⟩
  | some w, none => ⟨v :: rest.visits, calls, some w⟩
  | some w, some cleanup => ⟨v :: rest.visits, calls ++ [.cleanup v.task.id v.frame], some (cleanup v.frame w)⟩

/-- `next` are the tasks behind `ti`. Each call has its own `sessiondata` on the stack. -/
def traverse_graph_r (flags : BitVec 8) (frame : Nat) (ti : Task σ) (next : List (Task σ)) (w : World σ) : Trace σ :=
  match callHandle frame ti w with
  | none => ⟨[⟨ti, frame, w.description, none, w.responded⟩], [], none⟩
  | some (w', ret) =>
    leave ⟨ti, frame, w.description, ret, w'.responded⟩ <|
      match next with
      | [] => ⟨[], [], some w'⟩
      | t :: next =>
        if goesOn flags w' (keepGoing ret) then traverse_graph_r flags (frame + 1) t next w' else ⟨[], [], some w'⟩

/-! ## What has to hold -/

/-- The handler of the task is for this event. -/
def Visit.Matches (v : Visit σ) : Prop :=
  v.task.handle.isSome ∧ (v.task.event_type_match = none ∨ v.task.event_type_match = v.description)

instance (v : Visit σ) : Decidable v.Matches := inferInstanceAs (Decidable (_ ∧ (_ ∨ _)))

def Visit.handlePart (v : Visit σ) : List Call := if v.Matches then [.handle v.task.id v.frame] else []

def Visit.cleanupPart (v : Visit σ) : List Call :=
  if v.task.cleanup.isSome then [.cleanup v.task.id v.frame] else []

/-- Some first part of the list is visited, with session data for each task. The handlers run in order, then the
cleanups of the same tasks in reverse order. -/
structure Structured (tasks : List (Task σ)) (tr : Trace σ) : Prop where
  returns : tr.world.isSome
  nonempty : tr.visits ≠ []
  visited : tr.visits.map (·.task) <+: tasks
  frames : tr.visits.map (·.frame) = List.range tr.visits.length
  calls : tr.calls = tr.visits.flatMap Visit.handlePart ++ tr.visits.reverse.flatMap Visit.cleanupPart

/-- There is no response, or the handler returned anything but zero, or the graph says so. -/
def Continues (flags : BitVec 8) (v : Visit σ) (ret : BitVec 32) : Prop :=
  v.responded = false ∨ ret ≠ 0 ∨ flags &&& CRTX_GRAPH_KEEP_GOING ≠ 0

/-- A task whose handler ran is followed by the next one if and only if it continues. -/
def StopRule (flags : BitVec 8) (tasks : List (Task σ)) (tr : Trace σ) : Prop :=
  ∀ i v ret, tr.visits[i]? = some v → v.ret = some ret → i + 1 < tasks.length →
    (i + 1 < tr.visits.length ↔ Continues flags v ret)

/-! ## Where it goes wrong -/

/-- The traversal gets past a task: the address for the next call, and what the handler has left. -/
def proceed (flags : BitVec 8) (s : Nat × World σ) (ti : Task σ) : Option (Nat × World σ) :=
  (callHandle s.1 ti s.2).bind fun (w, ret) => if goesOn flags w (keepGoing ret) then some (s.1 + 1, w) else none

/-- An event without a description comes to no handler for one description. -/
def Described (s : Nat × World σ) (ti : Task σ) : Prop :=
  ti.handle.isSome → ti.event_type_match.isSome → s.2.description.isSome

/-- With a response, and without the flag, what the handler returns is zero or no multiple of 256. -/
def Kept (flags : BitVec 8) (s : Nat × World σ) (ti : Task σ) : Prop :=
  ∀ w ret, callHandle s.1 ti s.2 = some (w, some ret) → w.responded → flags &&& CRTX_GRAPH_KEEP_GOING = 0 →
    ret ≠ 0 → ret.setWidth 8 ≠ (0 : BitVec 8)

/-! ## One call and the calls below it -/

theorem traverse_induct (f : BitVec 8) {P : Nat → Task σ → List (Task σ) → World σ → Trace σ → Prop}
    (crash : ∀ n ti next w, callHandle n ti w = none →
      P n ti next w ⟨[⟨ti, n, w.description, none, w.responded⟩], [], none⟩)
    (stop : ∀ n ti next w w' ret, callHandle n ti w = some (w', ret) →
      (next = [] ∨ goesOn f w' (keepGoing ret) = false) →
      P n ti next w (leave ⟨ti, n, w.description, ret, w'.responded⟩ ⟨[], [], some w'⟩))
    (go : ∀ n ti t next w w' ret, callHandle n ti w = some (w', ret) → goesOn f w' (keepGoing ret) = true →
      P (n + 1) t next w' (traverse_graph_r f (n + 1) t next w') →
      P n ti (t :: next) w
        (leave ⟨ti, n, w.description, ret, w'.responded⟩ (traverse_graph_r f (n + 1) t next w')))
    (n : Nat) (ti : Task σ) (next : List (Task σ)) (w : World σ) :
    P n ti next w (traverse_graph_r f n ti next w) := by
  induction next generalizing n ti w with
  | nil =>
    rw [traverse_graph_r]
    cases hc : callHandle n ti w with
    | none => exact crash n ti [] w hc
    | some r => exact stop n ti [] w r.1 r.2 hc (.inl rfl)
  | cons t next ih =>
    rw [traverse_graph_r]
    cases hc : callHandle n ti w with
    | none => exact crash n ti (t :: next) w hc
    | some r =>
      dsimp only
      split
      · rename_i hg
        exact go n ti t next w r.1 r.2 hc hg (ih (n + 1) t r.1)
      · rename_i hg
        exact stop n ti (t :: next) w r.1 r.2 hc (.inr (Bool.eq_false_iff.mpr hg))

@[simp] theorem leave_visits (v : Visit σ) (tr : Trace σ) : (leave v tr).visits = v :: tr.visits := by
  unfold leave
  cases tr.world <;> cases v.task.cleanup <;> rfl

@[simp] theorem leave_world (v : Visit σ) (tr : Trace σ) : (leave v tr).world.isSome = tr.world.isSome := by
  unfold leave
  cases tr.world <;> cases v.task.cleanup <;> rfl

theorem leave_calls {v : Visit σ} {tr : Trace σ} (h : tr.world.isSome) :
    (leave v tr).calls =
      (if v.ret.isSome then [.handle v.task.id v.frame] else []) ++ tr.calls ++ v.cleanupPart := by
  obtain ⟨w, hw⟩ := Option.isSome_iff_exists.mp h
  unfold leave Visit.cleanupPart
  rw [hw]
  cases v.task.cleanup <;> cases v.ret <;> simp

theorem callHandle_ran {n : Nat} {ti : Task σ} {w w' : World σ} {ret : Option (BitVec 32)} {responded : Bool}
    (h : callHandle n ti w = some (w', ret)) :
    ret.isSome ↔ Visit.Matches ⟨ti, n, w.description, ret, responded⟩ := by
  unfold callHandle matchesEvent at h
  unfold Visit.Matches
  cases hh : ti.handle with
  | none =>
    simp only [hh, Option.some.injEq, Prod.mk.injEq] at h
    simp [← h.2]
  | some handle =>
    cases hm : ti.event_type_match with
    | none =>
      simp only [hh, hm, Option.map_some, if_true, Option.some.injEq, Prod.mk.injEq] at h
      simp [← h.2]
    | some m =>
      simp only [hh, hm, Option.map_map, Option.map_eq_some_iff] at h
      obtain ⟨d, hd, hr⟩ := h
      by_cases hmd : m = d
      · simp only [Function.comp, hmd, decide_true, if_true, Prod.mk.injEq] at hr
        simp [← hr.2, hd, hmd]
      · simp only [Function.comp, hmd, decide_false, Bool.false_eq_true, if_false, Prod.mk.injEq] at hr
        simp [← hr.2, hd, hmd]

theorem callHandle_handlePart {n : Nat} {ti : Task σ} {w w' : World σ} {ret : Option (BitVec 32)} {responded : Bool}
    (h : callHandle n ti w = some (w', ret)) :
    Visit.handlePart ⟨ti, n, w.description, ret, responded⟩ = if ret.isSome then [.handle ti.id n] else [] :=
  if_congr (callHandle_ran h).symm rfl rfl

theorem visits_ne_nil (flags : BitVec 8) (n : Nat) (ti : Task σ) (next : List (Task σ)) (w : World σ) :
    (traverse_graph_r flags n ti next w).visits ≠ [] := by
  induction n, ti, next, w using traverse_induct (f := flags) with
  | crash n ti next w _ => simp
  | stop n ti next w w' ret _ _ => simp
  | go n ti t next w w' ret _ _ _ => simp

theorem visits_prefix (flags : BitVec 8) (n : Nat) (ti : Task σ) (next : List (Task σ)) (w : World σ) :
    (traverse_graph_r flags n ti next w).visits.map (·.task) <+: ti :: next := by
  induction n, ti, next, w using traverse_induct (f := flags) with
  | crash n ti next w _ => simp
  | stop n ti next w w' ret _ _ => simp
  | go n ti t next w w' ret _ _ ih =>
    rw [leave_visits, List.map_cons, List.cons_prefix_cons]
    exact ⟨rfl, ih⟩

theorem visits_frames (flags : BitVec 8) (n : Nat) (ti : Task σ) (next : List (Task σ)) (w : World σ) :
    (traverse_graph_r flags n ti next w).visits.map (·.frame) =
      List.range' n (traverse_graph_r flags n ti next w).visits.length := by
  induction n, ti, next, w using traverse_induct (f := flags) with
  | crash n ti next w _ => rfl
  | stop n ti next w w' ret _ _ => simp
  | go n ti t next w w' ret _ _ ih =>
    rw [leave_visits, List.map_cons, List.length_cons, List.range'_succ, ih]

theorem visits_calls (flags : BitVec 8) (n : Nat) (ti : Task σ) (next : List (Task σ)) (w : World σ) :
    (traverse_graph_r flags n ti next w).world.isSome →
      (traverse_graph_r flags n ti next w).calls =
        (traverse_graph_r flags n ti next w).visits.flatMap Visit.handlePart ++
          (traverse_graph_r flags n ti next w).visits.reverse.flatMap Visit.cleanupPart := by
  induction n, ti, next, w using traverse_induct (f := flags) with
  | crash n ti next w _ => simp
  | stop n ti next w w' ret hc _ =>
    intro hw
    rw [leave_calls rfl, leave_visits]
    simp [callHandle_handlePart hc]
  | go n ti t next w w' ret hc _ ih =>
    intro hw
    rw [leave_world] at hw
    rw [leave_calls hw, leave_visits, ih hw, List.flatMap_cons, List.reverse_cons, List.flatMap_append,
      callHandle_handlePart hc]
    simp

/-! ## The order of the calls -/

theorem callHandle_described {n : Nat} {ti : Task σ} {w : World σ} :
    (callHandle n ti w).isSome ↔ Described (n, w) ti := by
  unfold callHandle matchesEvent Described
  cases ti.handle with
  | none => simp
  | some handle => cases ti.event_type_match <;> simp

theorem meets_stop {P : Nat × World σ → Task σ → Prop} {flags : BitVec 8} {n : Nat} {ti : Task σ}
    {next : List (Task σ)} {w w' : World σ} {ret : Option (BitVec 32)} (hc : callHandle n ti w = some (w', ret))
    (hstop : next = [] ∨ goesOn flags w' (keepGoing ret) = false) :
    Meets (proceed flags) P (ti :: next) (n, w) ↔ P (n, w) ti := by
  refine and_iff_left ?_
  unfold proceed
  rw [hc]
  rcases hstop with rfl | hg
  · dsimp only [Option.bind]
    split <;> trivial
  · simp [hg]

theorem traverse_returns (flags : BitVec 8) (n : Nat) (ti : Task σ) (next : List (Task σ)) (w : World σ) :
    (traverse_graph_r flags n ti next w).world.isSome ↔ Meets (proceed flags) Described (ti :: next) (n, w) := by
  induction n, ti, next, w using traverse_induct (f := flags) with
  | crash n ti next w hc =>
    unfold Meets
    rw [← callHandle_described, hc]
    simp
  | stop n ti next w w' ret hc hstop =>
    rw [leave_world, meets_stop hc hstop]
    exact iff_of_true rfl (callHandle_described.mp (hc ▸ rfl))
  | go n ti t next w w' ret hc hg ih =>
    have hp : proceed flags (n, w) ti = some (n + 1, w') := by simp [proceed, hc, hg]
    rw [leave_world, ih, meets_cons hp, and_iff_right (callHandle_described.mp (hc ▸ rfl))]

/-- As `crtx_create_event` leaves it. -/
def World.fresh : World Unit := ⟨none, none, none, ()⟩

/-- The handler sets a response. -/
def answering (id : TaskId) (event_type_match : Option CString) (ret : BitVec 32) : Task Unit where
  id := id
  event_type_match := event_type_match
  handle := some fun _ w => ({ w with response_pointer := some id }, ret)
  cleanup := some fun _ w => w

theorem traverse_structured (flags : BitVec 8) (ti : Task σ) (next : List (Task σ)) (w : World σ) :
    Structured (ti :: next) (traverse_graph_r flags 0 ti next w) ↔
      Meets (proceed flags) Described (ti :: next) (0, w) := by
  rw [← traverse_returns]
  refine ⟨fun h => h.returns, fun h => ⟨h, visits_ne_nil _ _ _ _ _, visits_prefix .., ?_, visits_calls _ _ _ _ _ h⟩⟩
  rw [visits_frames, List.range_eq_range']

theorem traverse_structured_undescribed :
    ¬ Structured [answering 0 (some keyA) 0] (traverse_graph_r 0 0 (answering 0 (some keyA) 0) [] World.fresh) :=
  fun h => absurd h.returns (by decide)

example : (traverse_graph_r 0 0 (answering 5 none 1) [answering 6 none 0, answering 7 none 0] World.fresh).calls =
    [.handle 5 0, .handle 6 1, .cleanup 6 1, .cleanup 5 0] := by decide

/-! ## When to stop -/

theorem stopRule_leave {flags : BitVec 8} {ti : Task σ} {tasks : List (Task σ)} {v : Visit σ} {tr : Trace σ} :
    StopRule flags (ti :: tasks) (leave v tr) ↔
      (∀ ret, v.ret = some ret → tasks ≠ [] → (tr.visits ≠ [] ↔ Continues flags v ret)) ∧ StopRule flags tasks tr := by
  unfold StopRule
  rw [leave_visits]
  constructor
  · intro h
    refine ⟨fun ret hret hne => ?_, fun i u ret hu hret hi => ?_⟩
    · have h0 := h 0 v ret rfl hret (by simpa [List.length_pos_iff] using hne)
      simpa [List.length_pos_iff] using h0
    · have hs := h (i + 1) u ret hu hret (by simpa using hi)
      simpa using hs
  · rintro ⟨h0, hs⟩ i u ret hu hret hi
    cases i with
    | zero =>
      cases hu
      have h := h0 ret hret (by simpa [List.length_pos_iff] using hi)
      simpa [List.length_pos_iff] using h
    | succ i =>
      have h := hs i u ret hu hret (by simpa using hi)
      simpa using h

theorem stopRule_crash {flags : BitVec 8} {tasks : List (Task σ)} {v : Visit σ} {calls : List Call}
    {w : Option (World σ)} (hv : v.ret = none) : StopRule flags tasks ⟨[v], calls, w⟩ := by
  intro i u ret hu hret
  cases i with
  | zero =>
    cases hu
    rw [hv] at hret
    cases hret
  | succ i => simp at hu

theorem stopRule_nil {flags : BitVec 8} {tasks : List (Task σ)} {calls : List Call} {w : Option (World σ)} :
    StopRule flags tasks ⟨[], calls, w⟩ := by
  intro i v ret hv
  simp at hv

theorem kept_iff {flags : BitVec 8} {n : Nat} {ti : Task σ} {w w' : World σ} {ret : Option (BitVec 32)}
    (hc : callHandle n ti w = some (w', ret)) :
    Kept flags (n, w) ti ↔ ∀ r, ret = some r →
      (goesOn flags w' (keepGoing ret) = true ↔ Continues flags ⟨ti, n, w.description, ret, w'.responded⟩ r) := by
  unfold goesOn keepGoing Continues Kept
  rw [hc]
  simp only [Option.some.injEq, Prod.mk.injEq, and_imp]
  constructor
  · rintro h r rfl
    have hk := h w' r rfl rfl
    by_cases hr : r = 0
    · simp [hr]
    · cases hresp : w'.responded with
      | false => simp
      | true =>
        by_cases hf : flags &&& CRTX_GRAPH_KEEP_GOING = 0
        · exact iff_of_true (by simpa [hf] using hk hresp hf hr) (.inr (.inl hr))
        · exact iff_of_true (by simpa using .inr hf) (.inr (.inr hf))
  · rintro h _ r rfl rfl hresp hf hr
    have hk := h r rfl
    simp only [hresp, hf, Bool.not_true, Bool.false_or, decide_eq_true_eq, ne_eq, not_true, decide_false,
      Bool.or_false] at hk
    exact hk.mpr (.inr (.inl hr))

theorem traverse_stops (flags : BitVec 8) (n : Nat) (ti : Task σ) (next : List (Task σ)) (w : World σ) :
    StopRule flags (ti :: next) (traverse_graph_r flags n ti next w) ↔
      Meets (proceed flags) (Kept flags) (ti :: next).dropLast (n, w) := by
  induction n, ti, next, w using traverse_induct (f := flags) with
  | crash n ti next w hc =>
    refine iff_of_true (stopRule_crash rfl) ?_
    cases next with
    | nil => trivial
    | cons t next =>
      have hp : proceed flags (n, w) ti = none := by simp [proceed, hc]
      have hkept : Kept flags (n, w) ti := by simp [Kept, hc]
      refine ⟨hkept, ?_⟩
      rw [hp]
      trivial
  | stop n ti next w w' ret hc hstop =>
    rw [stopRule_leave, and_iff_left stopRule_nil]
    cases next with
    | nil => exact iff_of_true (fun _ _ h => absurd rfl h) trivial
    | cons t next =>
      have hg : goesOn flags w' (keepGoing ret) = false := by simpa using hstop
      rw [List.dropLast_cons_of_ne_nil (List.cons_ne_nil t next), meets_stop hc (.inr hg), kept_iff hc]
      simp [hg]
  | go n ti t next w w' ret hc hg ih =>
    have hp : proceed flags (n, w) ti = some (n + 1, w') := by simp [proceed, hc, hg]
    rw [stopRule_leave, ih, List.dropLast_cons_of_ne_nil (List.cons_ne_nil t next), meets_cons hp, kept_iff hc]
    refine and_congr_left fun _ => ?_
    simp [visits_ne_nil, hg]

theorem traverse_stops_256 :
    ¬ StopRule 0 [answering 0 none 256, answering 1 none 0]
      (traverse_graph_r 0 0 (answering 0 none 256) [answering 1 none 0] World.fresh) := by
  intro h
  have hcont := (h 0 _ 256 rfl rfl (by decide)).mpr (.inr (.inl (by decide)))
  exact absurd hcont (by decide)

/-! ## Session data -/

/-- A cleanup gets session data only if the handler of its task got the same before. -/
def SessionsOpened (calls : List Call) : Prop :=
  ∀ before after task sessiondata, calls = before ++ .cleanup task sessiondata :: after →
    .handle task sessiondata ∈ before

/-- A task with a cleanup has a handler, which is for this event. -/
def CleansOwn (s : Nat × World σ) (ti : Task σ) : Prop :=
  ti.cleanup.isSome → ti.handle.isSome ∧ (ti.event_type_match = none ∨ ti.event_type_match = s.2.description)

theorem mem_handlePart {v : Visit σ} {c : Call} : c ∈ v.handlePart ↔ v.Matches ∧ c = .handle v.task.id v.frame := by
  unfold Visit.handlePart
  split <;> simp [*]

theorem mem_cleanupPart {v : Visit σ} {c : Call} :
    c ∈ v.cleanupPart ↔ v.task.cleanup.isSome ∧ c = .cleanup v.task.id v.frame := by
  unfold Visit.cleanupPart
  split <;> simp [*]

theorem cleanup_notMem_handleParts {visits : List (Visit σ)} {task : TaskId} {sessiondata : Nat} :
    Call.cleanup task sessiondata ∉ visits.flatMap Visit.handlePart := by
  intro h
  obtain ⟨v, -, hv⟩ := List.mem_flatMap.mp h
  exact Call.noConfusion (mem_handlePart.mp hv).2

theorem handle_notMem_cleanupParts {visits : List (Visit σ)} {task : TaskId} {sessiondata : Nat} :
    Call.handle task sessiondata ∉ visits.flatMap Visit.cleanupPart := by
  intro h
  obtain ⟨v, -, hv⟩ := List.mem_flatMap.mp h
  exact Call.noConfusion (mem_cleanupPart.mp hv).2

theorem sessionsOpened_iff {visits : List (Visit σ)} (hframes : (visits.map (·.frame)).Nodup) :
    SessionsOpened (visits.flatMap Visit.handlePart ++ visits.reverse.flatMap Visit.cleanupPart) ↔
      ∀ v ∈ visits, v.task.cleanup.isSome → v.Matches := by
  constructor
  · intro h v hv hc
    have hmem : Call.cleanup v.task.id v.frame ∈ visits.reverse.flatMap Visit.cleanupPart :=
      List.mem_flatMap.mpr ⟨v, List.mem_reverse.mpr hv, mem_cleanupPart.mpr ⟨hc, rfl⟩⟩
    obtain ⟨before, after, hsplit⟩ := List.append_of_mem hmem
    have hhandle := h (visits.flatMap Visit.handlePart ++ before) after _ _ (by rw [hsplit, List.append_assoc])
    have hback : Call.handle v.task.id v.frame ∉ before := fun hb =>
      handle_notMem_cleanupParts (hsplit ▸ List.mem_append_left _ hb)
    obtain ⟨u, hu, hpart⟩ := List.mem_flatMap.mp ((List.mem_append.mp hhandle).resolve_right hback)
    obtain ⟨hmatches, heq⟩ := mem_handlePart.mp hpart
    have hvu : v = u := List.inj_on_of_nodup_map hframes hv hu (Call.handle.inj heq).2
    exact hvu ▸ hmatches
  · intro h before after task sessiondata hsplit
    have hopened : ∀ back, visits.reverse.flatMap Visit.cleanupPart = back ++ .cleanup task sessiondata :: after →
        Call.handle task sessiondata ∈ visits.flatMap Visit.handlePart := by
      intro back hback
      have hmem : Call.cleanup task sessiondata ∈ visits.reverse.flatMap Visit.cleanupPart := by simp [hback]
      obtain ⟨v, hv, hpart⟩ := List.mem_flatMap.mp hmem
      obtain ⟨hc, heq⟩ := mem_cleanupPart.mp hpart
      cases heq
      have hv := List.mem_reverse.mp hv
      exact List.mem_flatMap.mpr ⟨v, hv, mem_handlePart.mpr ⟨h v hv hc, rfl⟩⟩
    rcases List.append_eq_append_iff.mp hsplit with ⟨back, hbefore, hback⟩ | ⟨rest, hhandles, hback⟩
    · rw [hbefore]
      exact List.mem_append_left _ (hopened back hback)
    · cases rest with
      | nil =>
        rw [List.append_nil] at hhandles
        exact hhandles ▸ hopened [] hback.symm
      | cons c rest =>
        rw [List.cons_append, List.cons.injEq] at hback
        have hmem : c ∈ visits.flatMap Visit.handlePart := by simp [hhandles]
        exact absurd (hback.1 ▸ hmem) cleanup_notMem_handleParts

theorem leave_calls_crash {v : Visit σ} {tr : Trace σ} (h : tr.world.isSome = false) :
    (leave v tr).calls = (if v.ret.isSome then [.handle v.task.id v.frame] else []) ++ tr.calls := by
  unfold leave
  rw [Option.isSome_eq_false_iff.mp h |> Option.isNone_iff_eq_none.mp]
  cases v.ret <;> rfl

theorem crash_calls (flags : BitVec 8) (n : Nat) (ti : Task σ) (next : List (Task σ)) (w : World σ) :
    (traverse_graph_r flags n ti next w).world.isSome = false →
      ∀ task sessiondata, .cleanup task sessiondata ∉ (traverse_graph_r flags n ti next w).calls := by
  induction n, ti, next, w using traverse_induct (f := flags) with
  | crash n ti next w _ => simp
  | stop n ti next w w' ret _ _ => simp
  | go n ti t next w w' ret _ _ ih =>
    intro hw task sessiondata
    rw [leave_world] at hw
    rw [leave_calls_crash hw]
    cases ret <;> simp [ih hw]

theorem visits_cleansOwn (flags : BitVec 8) (n : Nat) (ti : Task σ) (next : List (Task σ)) (w : World σ) :
    (traverse_graph_r flags n ti next w).world.isSome →
      ((∀ v ∈ (traverse_graph_r flags n ti next w).visits, v.task.cleanup.isSome → v.Matches) ↔
        Meets (proceed flags) CleansOwn (ti :: next) (n, w)) := by
  induction n, ti, next, w using traverse_induct (f := flags) with
  | crash n ti next w _ => simp
  | stop n ti next w w' ret hc hstop =>
    intro _
    rw [leave_visits, List.forall_mem_singleton, meets_stop hc hstop]
    rfl
  | go n ti t next w w' ret hc hg ih =>
    have hp : proceed flags (n, w) ti = some (n + 1, w') := by simp [proceed, hc, hg]
    intro hw
    rw [leave_world] at hw
    rw [leave_visits, List.forall_mem_cons, ih hw, meets_cons hp]
    rfl

/-- No cleanup gets session data that its handler has not written if and only if the tasks that are visited have one
for this event, or the traversal crashes. -/
theorem traverse_sessionsOpened (flags : BitVec 8) (ti : Task σ) (next : List (Task σ)) (w : World σ) :
    SessionsOpened (traverse_graph_r flags 0 ti next w).calls ↔
      ¬ Meets (proceed flags) Described (ti :: next) (0, w) ∨ Meets (proceed flags) CleansOwn (ti :: next) (0, w) := by
  rw [← traverse_returns]
  by_cases hw : (traverse_graph_r flags 0 ti next w).world.isSome
  · rw [or_iff_right (not_not.mpr hw), ← visits_cleansOwn flags 0 ti next w hw, visits_calls _ _ _ _ _ hw]
    refine sessionsOpened_iff ?_
    rw [visits_frames]
    exact List.nodup_range'
  · refine iff_of_true (fun before after task sessiondata h => ?_) (.inl hw)
    exact absurd (by simp [h]) (crash_calls flags 0 ti next w (Bool.eq_false_iff.mpr hw) task sessiondata)

/-- The event has another description than the task. -/
theorem traverse_sessionsOpened_filtered :
    ¬ SessionsOpened
      (traverse_graph_r 0 0 (answering 0 (some keyA) 0) [] { World.fresh with description := some keyB }).calls :=
  fun h => absurd (h [] [] 0 0 rfl) (by decide)

end Libcortex.Traversal
