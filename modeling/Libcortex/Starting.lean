import Libcortex.Fields

/-!
# What a start leaves behind

`crtx_start_listener` sets the state first and may then find that it can't start the listener. Its tests for a file
descriptor compare an address, and it uses the first callback of the descriptor without a test. So a start is modelled a
second time here, with the accesses that can crash, and shown to be the same where it doesn't.
-/

open Libcortex.Lib Libcortex.Finish

namespace Libcortex.Starting

open Env

/-! ## A start in detail -/

/-- How a listener is processed. `eloop` is a call of `crtx_evloop_enable_cb`, `thread` a thread that was started. -/
inductive Mechanism where
  | nothing
  | eloop
  | thread
deriving DecidableEq, Repr

inductive Choice where
  | crash
  | refused
  | use (m : Mechanism)
deriving DecidableEq, Repr

/-- What a start returns. `posted` has the number in the event about the new state. -/
structure Start where
  env : Env
  ret : Int
  posted : Option (GraphId × LstnrState)
  used : Mechanism

/-- `fd_entry` says whether `default_el_cb.fd_entry` is set. The first callback is used in any case. -/
def choose (fd_entry : Bool) (b : Listener) (mode : ProcessingMode) : Choice :=
  if b.evloop_fd ≠ none ∨ b.thread_job then
    match startMode b mode with
    | .preferThread => .use .thread
    | .preferEloop => if b.callbacks = [] ∨ fd_entry = false then .crash else .use .eloop
    | .noProcessingMode => .use .nothing
    | .preferNone => .refused
  else .use .nothing

def Mechanism.activate (env : Env) (l : ListenerId) (o : Outcome) : Mechanism → Env
  | .nothing => env
  | .eloop => env.modify l fun b => { b with el_cb_active := true }
  | .thread => env.modify l fun b => { b with eloop_thread := some o.thread }

/-- The event that `postState` adds, if any. -/
def stateEvent (b : Listener) (o : Outcome) (st : LstnrState) : Option (GraphId × LstnrState) :=
  match b.state_graph with
  | none => none
  | some sg => if o.create_ret = 0 then some (sg, st) else none

/-- `none`: the start crashes. -/
def crtx_start_listener (fd_entry : Bool) (env : Env) (l : ListenerId) (o : Outcome) : Option Start :=
  let env := env.lock (.state l)
  if (env.lstnr l).state = .started then some ⟨env.unlock (.state l), -EINPROGRESS, none, .nothing⟩
  else
    let env := startCallback (env.setState l .starting) l o
    if (env.lstnr l).start_listener = true ∧ o.start_ret < 0 then
      let posted := stateEvent (env.lstnr l) o .stopped
      let (env, ret) := (env.setState l .stopped).postState l o o.start_ret
      some ⟨env.unlock (.state l), ret, posted, .nothing⟩
    else
      match choose fd_entry (env.lstnr l) (crtx_get_mode env.root (env.lstnr l).mode) with
      | .crash => none
      | .refused => some ⟨env.unlock (.state l), -EINVAL, none, .nothing⟩
      | .use m =>
        let posted := stateEvent (env.lstnr l) o .started
        let env := (((m.activate env l o).setState l .started).postState l o 0).1
        some ⟨(startupTrigger env l).unlock (.state l), 0, posted, m⟩

theorem activate_choose (fd_entry : Bool) (env : Env) (l : ListenerId) (o : Outcome)
    (h : choose fd_entry (env.lstnr l) (crtx_get_mode env.root (env.lstnr l).mode) ≠ .crash) :
    activate env l o = match choose fd_entry (env.lstnr l) (crtx_get_mode env.root (env.lstnr l).mode) with
      | .use m => some (m.activate env l o)
      | _ => none := by
  unfold choose at h ⊢
  unfold activate
  dsimp only
  split
  · rename_i hway
    rw [if_pos hway] at h
    cases hm : startMode (env.lstnr l) (crtx_get_mode env.root (env.lstnr l).mode) with
    | preferEloop =>
      simp only [hm] at h
      dsimp only
      by_cases hcrash : (env.lstnr l).callbacks = [] ∨ fd_entry = false
      · exact absurd (if_pos hcrash) h
      · rw [if_neg hcrash]
        rfl
    | _ => rfl
  · rfl

theorem start_refines {fd_entry : Bool} {env : Env} {l : ListenerId} {o : Outcome} {s : Start}
    (h : crtx_start_listener fd_entry env l o = some s) :
    Libcortex.crtx_start_listener env l o = (s.env, s.ret) := by
  unfold crtx_start_listener at h
  unfold Libcortex.crtx_start_listener
  dsimp only at h ⊢
  split at h
  · rename_i hst
    cases h
    rw [if_pos hst]
  · rename_i hst
    rw [if_neg hst]
    split at h
    · rename_i hcb
      cases h
      rw [if_pos hcb]
    · rename_i hcb
      rw [if_neg hcb]
      generalize startCallback ((env.lock (.state l)).setState l .starting) l o = env₁ at h ⊢
      have hact := activate_choose fd_entry env₁ l o
      cases hc : choose fd_entry (env₁.lstnr l) (crtx_get_mode env₁.root (env₁.lstnr l).mode) with
      | crash =>
        rw [hc] at h
        cases h
      | refused =>
        rw [hc] at h hact
        cases h
        rw [hact nofun]
      | use m =>
        rw [hc] at h hact
        cases h
        rw [hact nofun]

/-! ## How a start ends -/

/-- The listener as the `start_listener` callback leaves it. -/
def afterCallback (b : Listener) (o : Outcome) : Listener :=
  if b.start_listener then { b with mode := o.start_mode.getD b.mode, evloop_fd := o.start_fd.or b.evloop_fd } else b

def CallbackFails (b : Listener) (o : Outcome) : Prop :=
  b.state ≠ .started ∧ b.start_listener = true ∧ o.start_ret < 0

/-- The start gets as far as choosing how to process the listener. -/
def Chooses (b : Listener) (o : Outcome) : Prop := b.state ≠ .started ∧ ¬ (b.start_listener = true ∧ o.start_ret < 0)

/-- The mode that is asked for. -/
def chosenMode (env : Env) (l : ListenerId) (o : Outcome) : ProcessingMode :=
  crtx_get_mode env.root (afterCallback (env.lstnr l) o).mode

theorem addEvents_sameSetup (adds : List (GraphId × EventId)) (env : Env) :
    env.root.SameSetup (env.addEvents adds).root := by
  unfold Env.addEvents
  induction adds generalizing env with
  | nil => exact .refl _
  | cons p adds ih =>
    rw [List.foldl_cons]
    refine Root.SameSetup.trans ?_ (ih _)
    unfold Env.addEvent
    split
    · exact .refl _
    · split
      · exact .add_event ..
      · exact .add_event ..

theorem get_mode_same {r r' : Root} (h : r.SameSetup r') (mode : ProcessingMode) :
    crtx_get_mode r' mode = crtx_get_mode r mode := by
  unfold crtx_get_mode
  rw [h.force_mode, h.default_mode]

theorem startCallback_lstnr (env : Env) (l : ListenerId) (o : Outcome) :
    (startCallback env l o).lstnr l = afterCallback (env.lstnr l) o := by
  unfold startCallback afterCallback
  split
  · rw [addEvents_lstnr, modify_self]
  · rfl

theorem startCallback_sameSetup (env : Env) (l : ListenerId) (o : Outcome) :
    env.root.SameSetup (startCallback env l o).root := by
  unfold startCallback
  split
  · exact addEvents_sameSetup o.start_adds (env.modify l _)
  · exact .refl _

theorem afterCallback_state (b : Listener) (st : LstnrState) (o : Outcome) :
    afterCallback { b with state := st } o = { afterCallback b o with state := st } := by
  unfold afterCallback
  dsimp only
  split <;> rfl

@[simp] theorem afterCallback_start (b : Listener) (o : Outcome) :
    (afterCallback b o).start_listener = b.start_listener := by
  unfold afterCallback
  split <;> rfl

@[simp] theorem afterCallback_state_graph (b : Listener) (o : Outcome) :
    (afterCallback b o).state_graph = b.state_graph := by
  unfold afterCallback
  split <;> rfl

theorem starting_env (env : Env) (l : ListenerId) (o : Outcome) :
    let env₁ := startCallback ((env.lock (.state l)).setState l .starting) l o
    env₁.lstnr l = { afterCallback (env.lstnr l) o with state := .starting } ∧
      crtx_get_mode env₁.root (env₁.lstnr l).mode = chosenMode env l o := by
  have hl : (startCallback ((env.lock (.state l)).setState l .starting) l o).lstnr l =
      { afterCallback (env.lstnr l) o with state := .starting } := by
    rw [startCallback_lstnr, setState_self, lock_lstnr, afterCallback_state]
  refine ⟨hl, ?_⟩
  rw [hl]
  exact get_mode_same (startCallback_sameSetup ((env.lock (.state l)).setState l .starting) l o) _

theorem stateEvent_starting (b : Listener) (o : Outcome) (st st' : LstnrState) :
    stateEvent { afterCallback b o with state := st } o st' = stateEvent b o st' := by
  unfold stateEvent
  rw [afterCallback_state_graph]

theorem postState_state (env : Env) (l : ListenerId) (o : Outcome) (st : LstnrState) (ret : Int) :
    (((env.setState l st).postState l o ret).1.lstnr l).state = st := by
  rw [postState_lstnr, setState_self]

theorem start_already (fd_entry : Bool) {env : Env} {l : ListenerId} (o : Outcome)
    (h : (env.lstnr l).state = .started) :
    crtx_start_listener fd_entry env l o =
      some ⟨(env.lock (.state l)).unlock (.state l), -EINPROGRESS, none, .nothing⟩ := if_pos h

/-- What a start returns if its callback fails: the event about it has the last word. -/
def failRet (b : Listener) (o : Outcome) : Int := if b.state_graph = none then o.start_ret else o.create_ret

theorem postState_ret (env : Env) (l : ListenerId) (o : Outcome) (ret : Int) :
    (env.postState l o ret).2 = if (env.lstnr l).state_graph = none then ret else o.create_ret := by
  unfold Env.postState
  split
  · rename_i h
    rw [if_pos h]
  · rename_i h
    rw [h]
    split <;> rfl

theorem start_failed (fd_entry : Bool) {env : Env} {l : ListenerId} {o : Outcome}
    (h : CallbackFails (env.lstnr l) o) :
    ∃ env', crtx_start_listener fd_entry env l o =
        some ⟨env', failRet (env.lstnr l) o, stateEvent (env.lstnr l) o .stopped, .nothing⟩ ∧
      (env'.lstnr l).state = .stopped := by
  obtain ⟨hst, hcb⟩ := h
  obtain ⟨hl, -⟩ := starting_env env l o
  unfold crtx_start_listener
  dsimp only
  rw [lock_lstnr, if_neg hst]
  generalize startCallback ((env.lock (.state l)).setState l .starting) l o = env₁ at hl ⊢
  rw [if_pos (by rw [hl]; simpa using hcb)]
  refine ⟨((env₁.setState l .stopped).postState l o o.start_ret).1.unlock (.state l), ?_,
    postState_state env₁ l o .stopped o.start_ret⟩
  rw [postState_ret, setState_self, hl, stateEvent_starting]
  simp only [failRet, afterCallback_state_graph]

theorem start_chooses (fd_entry : Bool) {env : Env} {l : ListenerId} {o : Outcome} (h : Chooses (env.lstnr l) o) :
    let env₁ := startCallback ((env.lock (.state l)).setState l .starting) l o
    crtx_start_listener fd_entry env l o =
      match choose fd_entry (afterCallback (env.lstnr l) o) (chosenMode env l o) with
      | .crash => none
      | .refused => some ⟨env₁.unlock (.state l), -EINVAL, none, .nothing⟩
      | .use m =>
        let env₂ := (((m.activate env₁ l o).setState l .started).postState l o 0).1
        some ⟨(startupTrigger env₂ l).unlock (.state l), 0, stateEvent (env.lstnr l) o .started, m⟩ := by
  obtain ⟨hl, hmode⟩ := starting_env env l o
  unfold crtx_start_listener
  dsimp only
  rw [lock_lstnr, if_neg h.1]
  generalize startCallback ((env.lock (.state l)).setState l .starting) l o = env₁ at hl hmode ⊢
  rw [if_neg (by rw [hl]; simpa using h.2), hmode, hl, stateEvent_starting]
  rfl

theorem start_crashes {fd_entry : Bool} {env : Env} {l : ListenerId} {o : Outcome} (h : Chooses (env.lstnr l) o)
    (hc : choose fd_entry (afterCallback (env.lstnr l) o) (chosenMode env l o) = .crash) :
    crtx_start_listener fd_entry env l o = none := by
  rw [start_chooses fd_entry h, hc]

theorem start_refused {fd_entry : Bool} {env : Env} {l : ListenerId} {o : Outcome} (h : Chooses (env.lstnr l) o)
    (hc : choose fd_entry (afterCallback (env.lstnr l) o) (chosenMode env l o) = .refused) :
    ∃ env', crtx_start_listener fd_entry env l o = some ⟨env', -EINVAL, none, .nothing⟩ ∧
      (env'.lstnr l).state = .starting := by
  rw [start_chooses fd_entry h, hc]
  refine ⟨_, rfl, ?_⟩
  rw [unlock_lstnr, (starting_env env l o).1]

theorem start_uses {fd_entry : Bool} {env : Env} {l : ListenerId} {o : Outcome} (h : Chooses (env.lstnr l) o)
    {m : Mechanism} (hc : choose fd_entry (afterCallback (env.lstnr l) o) (chosenMode env l o) = .use m) :
    ∃ env', crtx_start_listener fd_entry env l o = some ⟨env', 0, stateEvent (env.lstnr l) o .started, m⟩ ∧
      (env'.lstnr l).state = .started := by
  rw [start_chooses fd_entry h, hc]
  refine ⟨_, rfl, ?_⟩
  rw [unlock_lstnr, startupTrigger_lstnr, postState_state]

theorem start_split (b : Listener) (o : Outcome) : b.state = .started ∨ CallbackFails b o ∨ Chooses b o := by
  unfold CallbackFails Chooses
  tauto

/-- With an entry for the descriptor, the start crashes where `startCrashes` says so. -/
theorem start_crashes_iff (env : Env) (l : ListenerId) (o : Outcome) :
    crtx_start_listener true env l o = none ↔ startCrashes env l o := by
  obtain ⟨hl, hmode⟩ := starting_env env l o
  have hact : activateCrashes (startCallback ((env.lock (.state l)).setState l .starting) l o) l ↔
      choose true (afterCallback (env.lstnr l) o) (chosenMode env l o) = .crash := by
    unfold activateCrashes choose
    dsimp only
    rw [hmode, hl]
    simp only [Bool.true_eq_false, or_false]
    split
    · rename_i hway
      rw [and_iff_right hway, show startMode { afterCallback (env.lstnr l) o with state := .starting } _ =
        startMode (afterCallback (env.lstnr l) o) (chosenMode env l o) from rfl]
      cases startMode (afterCallback (env.lstnr l) o) (chosenMode env l o) <;> simp
    · rename_i hway
      exact iff_of_false (fun h => hway h.1) nofun
  unfold startCrashes
  rw [hact]
  rcases start_split (env.lstnr l) o with hst | hf | hc
  · rw [start_already true o hst]
    exact iff_of_false nofun fun h => h.1 hst
  · obtain ⟨env', hrun, -⟩ := start_failed true hf
    rw [hrun]
    exact iff_of_false nofun fun h => h.2.1 hf.2
  · refine ⟨fun h => ⟨hc.1, hc.2, ?_⟩, fun h => start_crashes hc h.2.2⟩
    rw [start_chooses true hc] at h
    generalize choose true (afterCallback (env.lstnr l) o) (chosenMode env l o) = c at h
    cases c with
    | crash => rfl
    | refused | use => cases h

/-! ## The result of a start -/

/-- The start returns 0 if and only if it is the one that started the listener. If the callback fails, its error is
returned, and the state that is posted is `stopped`. -/
structure Truthful (b : Listener) (o : Outcome) (l : ListenerId) (s : Start) : Prop where
  ret : s.ret = 0 ↔ b.state ≠ .started ∧ (s.env.lstnr l).state = .started
  fails : CallbackFails b o → s.ret = o.start_ret ∧ s.posted = b.state_graph.map (·, .stopped)

theorem failRet_posted {b : Listener} {o : Outcome} (hneg : o.start_ret < 0) :
    failRet b o = o.start_ret ∧ stateEvent b o .stopped = b.state_graph.map (·, .stopped) ↔ b.state_graph = none := by
  unfold failRet stateEvent
  cases b.state_graph with
  | none => simp
  | some sg =>
    simp only [reduceCtorEq, if_false, Option.map_some, iff_false]
    rintro ⟨hret, hposted⟩
    split at hposted
    · omega
    · cases hposted

theorem failRet_ne {b : Listener} {o : Outcome} (hneg : o.start_ret < 0) (h : b.state_graph = none) :
    failRet b o ≠ 0 := by
  rw [failRet, if_pos h]
  exact hneg.ne

theorem start_truthful (fd_entry : Bool) {env : Env} {l : ListenerId} {o : Outcome} {s : Start}
    (h : crtx_start_listener fd_entry env l o = some s) :
    Truthful (env.lstnr l) o l s ↔ ¬ (CallbackFails (env.lstnr l) o ∧ (env.lstnr l).state_graph ≠ none) := by
  rcases start_split (env.lstnr l) o with hst | hf | hc
  · rw [start_already fd_entry o hst] at h
    cases h
    refine iff_of_true ⟨?_, fun hf => absurd hst hf.1⟩ fun hf => hf.1.1 hst
    exact iff_of_false (fun hr : -EINPROGRESS = 0 => absurd hr (by decide)) fun hs => hs.1 hst
  · obtain ⟨env', hrun, hst'⟩ := start_failed fd_entry hf
    rw [hrun] at h
    cases h
    have hposted := failRet_posted (b := env.lstnr l) hf.2.2
    constructor
    · intro ht hbad
      exact hbad.2 (hposted.mp (ht.fails hf))
    · intro hok
      have hsg : (env.lstnr l).state_graph = none := not_not.mp fun hne => hok ⟨hf, hne⟩
      refine ⟨iff_of_false (failRet_ne hf.2.2 hsg) ?_, fun _ => hposted.mpr hsg⟩
      rw [hst']
      simp
  · refine iff_of_true ⟨?_, fun hf => absurd hf.2 hc.2⟩ fun hf => hc.2 hf.1.2
    cases hch : choose fd_entry (afterCallback (env.lstnr l) o) (chosenMode env l o) with
    | crash =>
      rw [start_crashes hc hch] at h
      cases h
    | refused =>
      obtain ⟨env', hrun, hst'⟩ := start_refused hc hch
      rw [hrun] at h
      cases h
      rw [hst']
      exact iff_of_false (fun hr : -EINVAL = 0 => absurd hr (by decide)) (by simp)
    | use m =>
      obtain ⟨env', hrun, hst'⟩ := start_uses hc hch
      rw [hrun] at h
      cases h
      exact iff_of_true rfl ⟨hc.1, hst'⟩

/-- A listener with a graph for its states, whose callback fails. -/
def failing : Env := Env.idleListener.modify 0 fun b => { b with start_listener := true, state_graph := some 0 }

/-- The event is created, so 0 is returned. -/
theorem start_truthful_failing :
    ∃ s, crtx_start_listener true failing 0 { Outcome.quiet with start_ret := -5 } = some s ∧ s.ret = 0 ∧
      (s.env.lstnr 0).state = .stopped ∧ ¬ Truthful (failing.lstnr 0) { Outcome.quiet with start_ret := -5 } 0 s := by
  refine ⟨_, rfl, rfl, rfl, fun h => ?_⟩
  exact absurd (h.ret.mp rfl).2 (by decide)

/-- A listener that was set up with a function for a thread. -/
def threaded (mode : ProcessingMode) : Env := Env.idleListener.modify 0 fun b => { b with thread_job := true, mode }

theorem start_truthful_threaded :
    ∃ s, crtx_start_listener true (threaded .preferThread) 0 .quiet = some s ∧
      Truthful ((threaded .preferThread).lstnr 0) .quiet 0 s :=
  ⟨_, rfl, (start_truthful true rfl).mpr fun h => absurd h.2 (by decide)⟩

/-! ## The states after a call -/

inductive Op where
  | start
  | stop
  | shutdown

/-- The result of a call that returns. A shutdown has none. -/
def perform (fd_entry : Bool) (env : Env) (l : ListenerId) (o : Outcome) : Op → Option (Env × Int)
  | .start => (crtx_start_listener fd_entry env l o).map fun s => (s.env, s.ret)
  | .stop => some (crtx_stop_listener env l o)
  | .shutdown => some (crtx_shutdown_listener env l o, 0)

/-- The call of the callback has failed. -/
def Fails (b : Listener) (o : Outcome) : Op → Prop
  | .start => CallbackFails b o
  | _ => False

/-- No call leaves the listener halfway. Where it is refused or fails, the state is the one before, or `stopped` if
the callback has failed. -/
structure Settled (b : Listener) (o : Outcome) (l : ListenerId) (op : Op) (r : Env × Int) : Prop where
  steady : (r.1.lstnr l).state ≠ .starting ∧ (r.1.lstnr l).state ≠ .stopping
  refused : r.2 ≠ 0 → ¬ Fails b o op → (r.1.lstnr l).state = b.state
  failed : Fails b o op → (r.1.lstnr l).state = .stopped

/-- Neither the listener nor the modes for all listeners say how to process it. -/
def Undecided (env : Env) (l : ListenerId) (o : Outcome) : Prop :=
  ((afterCallback (env.lstnr l) o).evloop_fd ≠ none ∨ (afterCallback (env.lstnr l) o).thread_job = true) ∧
    chosenMode env l o = .preferNone

/-- A start finds a mode, and what is stopped has no listener that runs and depends on it. -/
def Clear (env : Env) (l : ListenerId) (o : Outcome) : Op → Prop
  | .start => Chooses (env.lstnr l) o → ¬ Undecided env l o
  | _ => (env.lstnr l).state.num < LstnrState.stopped.num → revDepsReady env l = true

theorem startMode_none {b : Listener} {mode : ProcessingMode} (h : b.evloop_fd ≠ none ∨ b.thread_job = true) :
    startMode b mode = .preferNone ↔ mode = .preferNone := by
  unfold startMode
  cases mode <;> cases hf : b.evloop_fd <;> cases ht : b.thread_job <;> simp_all

theorem choose_refused {fd_entry : Bool} {b : Listener} {mode : ProcessingMode} :
    choose fd_entry b mode = .refused ↔ (b.evloop_fd ≠ none ∨ b.thread_job = true) ∧ mode = .preferNone := by
  unfold choose
  split
  · rename_i h
    rw [and_iff_right h, ← startMode_none h]
    cases startMode b mode with
    | preferEloop =>
      dsimp only
      split <;> simp
    | _ => simp
  · rename_i h
    simp [h]

theorem start_settled {fd_entry : Bool} {env : Env} {l : ListenerId} {o : Outcome} {r : Env × Int}
    (hr : perform fd_entry env l o .start = some r) :
    Settled (env.lstnr l) o l .start r ↔ Clear env l o .start := by
  obtain ⟨s, h, rfl⟩ := Option.map_eq_some_iff.mp hr
  clear hr
  rcases start_split (env.lstnr l) o with hst | hf | hc
  · rw [start_already fd_entry o hst] at h
    cases h
    have hsame : (((env.lock (.state l)).unlock (.state l)).lstnr l).state = .started := hst
    refine iff_of_true ⟨?_, fun _ _ => rfl, fun hf => absurd hst hf.1⟩ fun hc => absurd hst hc.1
    rw [hsame]
    decide
  · obtain ⟨env', hrun, hst'⟩ := start_failed fd_entry hf
    rw [hrun] at h
    cases h
    refine iff_of_true ⟨?_, fun _ hnf => absurd hf hnf, fun _ => hst'⟩ fun hc => absurd hf.2 hc.2
    rw [hst']
    decide
  · cases hch : choose fd_entry (afterCallback (env.lstnr l) o) (chosenMode env l o) with
    | crash =>
      rw [start_crashes hc hch] at h
      cases h
    | refused =>
      obtain ⟨env', hrun, hst'⟩ := start_refused hc hch
      rw [hrun] at h
      cases h
      exact iff_of_false (fun hs => hs.steady.1 hst') fun hclear => hclear hc (choose_refused.mp hch)
    | use m =>
      obtain ⟨env', hrun, hst'⟩ := start_uses hc hch
      rw [hrun] at h
      cases h
      refine iff_of_true ⟨?_, fun hne => absurd rfl hne, fun hf => absurd hf.2 hc.2⟩ fun _ hu => ?_
      · rw [hst']
        decide
      · rw [choose_refused.mpr hu] at hch
        cases hch

theorem stop_ret {env : Env} {l : ListenerId} (o : Outcome) (hlt : (env.lstnr l).state.num < LstnrState.stopped.num)
    (hr : revDepsReady env l = true) : (crtx_stop_listener env l o).2 = 0 := by
  have hstop := (((Does.refl env (l := l)).snoc (.lock (.state l))).snoc (.set .stopping)).snoc
    (.lock (.dependencies l))
  have hready := revDepsReady_stopping hstop rfl (by simp [Act.perform]) hlt
  change revDepsReady (((env.lock (.state l)).setState l .stopping).lock (.dependencies l)) l = _ at hready
  unfold crtx_stop_listener
  dsimp only
  rw [lock_lstnr, if_neg (Nat.not_le.mpr hlt), hready, hr]
  rfl

theorem stop_settled (env : Env) (l : ListenerId) (o : Outcome) :
    Settled (env.lstnr l) o l .stop (crtx_stop_listener env l o) ↔ Clear env l o .stop := by
  rcases stop_does env l o with ⟨hle, hd⟩ | ⟨hlt, hr, hd⟩ | ⟨hlt, hr, hd⟩
  · have hst : ((crtx_stop_listener env l o).1.lstnr l).state = (env.lstnr l).state := hd.state
    refine iff_of_true ⟨?_, fun _ _ => hst, False.elim⟩ fun hlt => absurd hle (Nat.not_le.mpr hlt)
    rw [hst]
    rcases state_cases (env.lstnr l).state with h | h | h | h
    · omega
    all_goals
      rw [h]
      decide
  · have hst : ((crtx_stop_listener env l o).1.lstnr l).state = .stopping := hd.state
    refine iff_of_false (fun hs => hs.steady.2 hst) fun hclear => ?_
    rw [hclear hlt] at hr
    cases hr
  · have hst : ((crtx_stop_listener env l o).1.lstnr l).state = .stopped := by
      rw [hd.state, statesOf_stopActs]
      rfl
    refine iff_of_true ⟨?_, fun hne => absurd (stop_ret o hlt hr) hne, False.elim⟩ fun _ => hr
    rw [hst]
    decide

theorem late_steady {env : Env} {l : ListenerId} (h : Late env l) :
    (env.lstnr l).state ≠ .starting ∧ (env.lstnr l).state ≠ .stopping := by
  rcases late_iff.mp h with h | h
  all_goals
    rw [h]
    decide

theorem shutdown_late {env : Env} {l : ListenerId} {o : Outcome} (hclear : Clear env l o .shutdown) :
    Late (crtx_shutdown_listener env l o) l := by
  rw [shutdown_eq]
  split
  · rename_i hst
    have hlate : Late env l := late_iff.mpr (.inr hst)
    exact hlate.congr ((retryShutdown_spec _ l).2.trans (askedToStop_late o hlate))
  · rename_i hst
    split
    · rename_i hsd
      apply (finishShutdown_spec _ l).2
      apply late_iff.mpr
      left
      have hlast : statesOf (closeActs l (env.lstnr l) o) =
          statesOf (if (env.lstnr l).state.num < LstnrState.stopped.num then stopActs l (env.lstnr l) o
            else [.lock (.state l), .unlock (.state l)]) ++ [.shuttingDown] := by
        simp [closeActs, statesOf_cons, Act.state?]
      rw [(closed_does hsd o).state, hlast, List.getLastD_concat]
    · rename_i hsd
      have hlate : Late env l := by
        rcases state_cases (env.lstnr l).state with h | h | h | h
        · exact absurd (.inr ⟨h, hclear h⟩) hsd
        · exact absurd (.inl h) hsd
        · exact late_iff.mpr (.inl h)
        · exact late_iff.mpr (.inr h)
      exact hlate.congr (askedToStop_late o hlate)

theorem shutdown_settled (env : Env) (l : ListenerId) (o : Outcome) :
    Settled (env.lstnr l) o l .shutdown (crtx_shutdown_listener env l o, 0) ↔ Clear env l o .shutdown := by
  constructor
  · intro hs hlt
    by_contra hr
    have hr : revDepsReady env l = false := Bool.eq_false_of_not_eq_true hr
    apply hs.steady.2
    have hns : ¬ ShutsDown env l := by
      rintro (h | ⟨-, h⟩)
      · exact (early_ne hlt).1 h
      · rw [hr] at h
        cases h
    rw [shutdown_eq, if_neg (early_ne hlt).2.2, if_neg hns]
    rcases askedToStop_does env l o with ⟨h, -⟩ | ⟨-, -, hd⟩ | ⟨-, h, -⟩
    · omega
    · exact hd.state
    · rw [hr] at h
      cases h
  · intro hclear
    exact ⟨late_steady (shutdown_late hclear), fun h => absurd rfl h, False.elim⟩

/-- A call that returns settles the listener if and only if the way was clear. -/
theorem op_settled (fd_entry : Bool) {env : Env} {l : ListenerId} {o : Outcome} {op : Op} {r : Env × Int}
    (h : perform fd_entry env l o op = some r) : Settled (env.lstnr l) o l op r ↔ Clear env l o op := by
  cases op with
  | start => exact start_settled h
  | stop =>
    cases h
    exact stop_settled env l o
  | shutdown =>
    cases h
    exact shutdown_settled env l o

/-- Listener 1 depends on listener 0, and both are started. -/
def depended : Env :=
  (Env.initial.modify 0 fun b => { b with state := .started, rev_dependencies := [1] }).modify 1 fun b =>
    { b with state := .started, dependencies := [0] }

theorem op_settled_depended :
    ∃ r, perform true depended 0 .quiet .stop = some r ∧ r.2 = 1 ∧ (r.1.lstnr 0).state = .stopping ∧
      ¬ Settled (depended.lstnr 0) .quiet 0 .stop r := by
  refine ⟨_, rfl, rfl, rfl, fun h => ?_⟩
  exact h.steady.2 rfl

/-- The dependent listener may be stopped. -/
theorem op_settled_dependent :
    ∃ r, perform true depended 1 .quiet .stop = some r ∧ Settled (depended.lstnr 1) .quiet 1 .stop r :=
  ⟨_, rfl, (op_settled true rfl).mpr fun _ => by decide⟩

/-! ## The choice of a mechanism -/

/-- There is an open descriptor with a callback. -/
def hasEloop (b : Listener) : Bool := 0 ≤ b.evloop_fd.getD (-1) ∧ b.callbacks ≠ []

/-- How a listener is to be processed. `none`: not at all. -/
def intended (mode : ProcessingMode) (eloop thread : Bool) : Option Mechanism :=
  match mode with
  | .preferEloop => if eloop then some .eloop else if thread then some .thread else none
  | .preferThread => if thread then some .thread else if eloop then some .eloop else none
  | .noProcessingMode => some .nothing
  | .preferNone => none

/-- The start returns. It uses what is there, with the first choice first, and returns an error if nothing is. -/
def Realised (env : Env) (l : ListenerId) (o : Outcome) (r : Option Start) : Prop :=
  let b := afterCallback (env.lstnr l) o
  ∃ s, r = some s ∧
    (Chooses (env.lstnr l) o →
      match intended (chosenMode env l o) (hasEloop b) b.thread_job with
      | some m => s.used = m ∧ s.ret = 0
      | none => s.used = .nothing ∧ s.ret < 0) ∧
    (¬ Chooses (env.lstnr l) o → s.used = .nothing)

/-- The event loop is used. -/
def NeedsEloop (env : Env) (l : ListenerId) (o : Outcome) : Prop :=
  chosenMode env l o = .preferEloop ∨
    chosenMode env l o = .preferThread ∧ (afterCallback (env.lstnr l) o).thread_job = false

theorem afterCallback_fd {b : Listener} (o : Outcome) (h : b.evloop_fd ≠ none) :
    (afterCallback b o).evloop_fd ≠ none := by
  unfold afterCallback
  split
  · cases o.start_fd with
    | none => exact h
    | some fd => nofun
  · exact h

theorem hasEloop_iff {b : Listener} : hasEloop b = true ↔ 0 ≤ b.evloop_fd.getD (-1) ∧ b.callbacks ≠ [] := by
  simp [hasEloop]

theorem choose_mode {fd_entry : Bool} {b : Listener} (mode : ProcessingMode) (h : b.evloop_fd ≠ none) :
    choose fd_entry b mode =
      match mode with
      | .preferThread =>
        if b.thread_job then .use .thread
        else if b.callbacks = [] ∨ fd_entry = false then .crash else .use .eloop
      | .preferEloop => if b.callbacks = [] ∨ fd_entry = false then .crash else .use .eloop
      | .noProcessingMode => .use .nothing
      | .preferNone => .refused := by
  unfold choose startMode
  rw [if_pos (.inl h)]
  cases mode <;> cases ht : b.thread_job <;> simp [h]

/-- The choice of the code is the intended one. -/
def Choice.Fits (c : Choice) (m : Option Mechanism) : Prop :=
  match c with
  | .crash => False
  | .refused => m = none
  | .use m' => m = some m'

theorem realised_chooses {fd_entry : Bool} {env : Env} {l : ListenerId} {o : Outcome} (hc : Chooses (env.lstnr l) o) :
    Realised env l o (crtx_start_listener fd_entry env l o) ↔
      (choose fd_entry (afterCallback (env.lstnr l) o) (chosenMode env l o)).Fits
        (intended (chosenMode env l o) (hasEloop (afterCallback (env.lstnr l) o))
          (afterCallback (env.lstnr l) o).thread_job) := by
  unfold Realised
  dsimp only
  generalize intended (chosenMode env l o) _ _ = m
  cases hch : choose fd_entry (afterCallback (env.lstnr l) o) (chosenMode env l o) with
  | crash =>
    rw [start_crashes hc hch]
    exact iff_of_false (fun ⟨s, hs, _⟩ => nomatch hs) id
  | refused =>
    obtain ⟨env', hrun, -⟩ := start_refused hc hch
    rw [hrun]
    cases m with
    | none =>
      have hneg : -EINVAL < 0 := by decide
      exact iff_of_true ⟨_, rfl, fun _ => ⟨rfl, hneg⟩, fun hn => absurd hc hn⟩ rfl
    | some m =>
      refine iff_of_false ?_ nofun
      rintro ⟨s, hs, h, -⟩
      cases hs
      have hzero : -EINVAL = 0 := (h hc).2
      exact absurd hzero (by decide)
  | use m' =>
    obtain ⟨env', hrun, -⟩ := start_uses hc hch
    rw [hrun]
    cases m with
    | none =>
      refine iff_of_false ?_ nofun
      rintro ⟨s, hs, h, -⟩
      cases hs
      exact absurd (h hc).2 (lt_irrefl 0)
    | some m =>
      constructor
      · rintro ⟨s, hs, h, -⟩
        cases hs
        exact congrArg some (h hc).1.symm
      · intro hm
        exact ⟨_, rfl, fun _ => ⟨(Option.some.inj hm).symm, rfl⟩, fun hn => absurd hc hn⟩

theorem eloop_fits (fd_entry : Bool) (b : Listener) (thread : Bool) :
    (if b.callbacks = [] ∨ fd_entry = false then Choice.crash else .use .eloop).Fits
        (if hasEloop b then some .eloop else if thread then some .thread else none) ↔
      hasEloop b = true ∧ fd_entry = true := by
  cases hf : fd_entry with
  | false => simp [Choice.Fits]
  | true =>
    by_cases hcb : b.callbacks = []
    · have he : ¬ hasEloop b = true := fun h => (hasEloop_iff.mp h).2 hcb
      simp [Choice.Fits, hcb, he]
    · cases he : hasEloop b <;> cases thread <;> simp [Choice.Fits, hcb]

theorem start_realised (fd_entry : Bool) {env : Env} {l : ListenerId} (o : Outcome)
    (hinit : (env.lstnr l).evloop_fd ≠ none) :
    Realised env l o (crtx_start_listener fd_entry env l o) ↔
      (Chooses (env.lstnr l) o → NeedsEloop env l o →
        hasEloop (afterCallback (env.lstnr l) o) = true ∧ fd_entry = true) := by
  rcases start_split (env.lstnr l) o with hst | hf | hc
  · have hn : ¬ Chooses (env.lstnr l) o := fun hc => hc.1 hst
    rw [start_already fd_entry o hst]
    exact iff_of_true ⟨_, rfl, fun hc => absurd hc hn, fun _ => rfl⟩ fun hc => absurd hc hn
  · have hn : ¬ Chooses (env.lstnr l) o := fun hc => hc.2 hf.2
    obtain ⟨env', hrun, -⟩ := start_failed fd_entry hf
    rw [hrun]
    exact iff_of_true ⟨_, rfl, fun hc => absurd hc hn, fun _ => rfl⟩ fun hc => absurd hc hn
  · rw [realised_chooses hc, choose_mode (chosenMode env l o) (afterCallback_fd o hinit), forall_prop_of_true hc]
    unfold NeedsEloop
    cases chosenMode env l o with
    | preferNone => simp [Choice.Fits, intended]
    | noProcessingMode => simp [Choice.Fits, intended]
    | preferEloop => simpa [intended] using eloop_fits fd_entry _ _
    | preferThread =>
      cases ht : (afterCallback (env.lstnr l) o).thread_job with
      | true => simp [Choice.Fits, intended]
      | false => simpa [intended] using eloop_fits fd_entry _ false

/-- The descriptor is -1 and there is no callback, but the event loop is the default for all listeners. The function for
a thread is not used. -/
theorem start_realised_no_descriptor :
    crtx_start_listener true (threaded .preferNone) 0 .quiet = none ∧
      ¬ Realised (threaded .preferNone) 0 .quiet (crtx_start_listener true (threaded .preferNone) 0 .quiet) := by
  refine ⟨rfl, ?_⟩
  rintro ⟨s, hs, -⟩
  cases hs

theorem start_realised_threaded :
    Realised (threaded .preferThread) 0 .quiet (crtx_start_listener true (threaded .preferThread) 0 .quiet) := by
  refine (start_realised true .quiet (by decide)).mpr fun _ hneeds => ?_
  exact absurd hneeds (by unfold NeedsEloop; decide)

end Libcortex.Starting
