import Libcortex.Finish
import Libcortex.Lib.Run

/-!
# The list of all listeners

`crtx_root->listeners` has its links in the listeners themselves. A listener enters the list when it is set up, and
leaves it when it is shut down. The convenience functions of `timer.c` allocate listeners, set them up a second
time, and free them.
-/

open Libcortex.Lib Libcortex.SList Libcortex.Finish

namespace Libcortex.ListenerList

/-! ## The machine -/

/-- `timers` are the listeners of `timer.c`, and `retries` those that `crtx_timer_retry_listener` has allocated. `appends`
counts the calls of `crtx_ll_append`, for the loops over the list to end. `setUp` is history: the listener was set up
successfully and has not been shut down since. -/
structure St where
  sys : Sys
  timers : List ListenerId
  retries : List ListenerId
  appends : Nat
  setUp : ListenerId → Bool

/-- The id that `crtx_setup_listener` is asked for, and what its `create` does: it fails, or it sets the callbacks, the
flags and the descriptor of the listener. There is no `create` for the empty id. -/
inductive Create where
  | nullId
  | emptyId
  | notFound
  | failed
  | created (fields : Listener)

/-- The listener is in the list `listeners`, where `env` has what `create` has done. -/
def enlist (s : St) (l : ListenerId) (env : Env) (listeners : Ll ListenerId) : St :=
  { s with
    sys := { s.sys with env, listeners }
    appends := s.appends + 1
    setUp := Function.update s.setUp l true }

/-- `crtx_setup_listener` from `crtx_init_listener_base` on. -/
def setupWith (create : Listener → Option Listener) (s : St) (l : ListenerId) (g : GraphId) : Option (St × Int) :=
  let env := Libcortex.crtx_setup_listener s.sys.env l g
  match create (env.lstnr l) with
  | none => some ({ s with sys := { s.sys with env } }, 1)
  | some b => do
    let env := env.modify l fun base => { b with state := base.state, graph := base.graph }
    let (listeners, _) ← crtx_ll_append (s.appends + 1) s.sys.listeners l
    return (enlist s l env listeners, 0)

def crtx_setup_listener (s : St) (l : ListenerId) (g : GraphId) : Create → Option (St × Int)
  | .nullId => some (s, -EINVAL)
  | .emptyId => setupWith some s l g
  | .notFound => some (s, -ENOENT)
  | .failed => setupWith (fun _ => none) s l g
  | .created fields => setupWith (fun _ => some fields) s l g

/-- `fd` is what `timerfd_create` returns. -/
def crtx_setup_timer_listener (fd : Int) (b : Listener) : Option Listener :=
  if b.start_listener then some b
  else if fd = -1 then none
  else some { b with
    evloop_fd := some fd
    callbacks := [b.default_el_cb]
    start_listener := true
    update_listener := true
    shutdown_cb := true }

/-- `crtx_setup_listener("timer", l)` -/
def setupTimer (s : St) (l : ListenerId) (g : GraphId) (fd : Int) : Option (St × Int) := do
  let (s, r) ← setupWith (crtx_setup_timer_listener fd) s l g
  return (if r = 0 then { s with timers := l :: s.timers } else s, r)

def setEnv (s : St) (env : Env) : St := { s with sys := { s.sys with env } }

/-- `crtx_create_task` for the graph of the listener. -/
def createTask (env : Env) (l : ListenerId) (task : TaskId) : Env :=
  match (env.lstnr l).graph with
  | none => env
  | some g => env.setRoot (env.root.setGraph g { env.root.graphs g with tasks := (env.root.graphs g).tasks ++ [task] })

def freeLstnr (env : Env) (l : ListenerId) : Env :=
  { env with
    lfreed := Function.update env.lfreed l true
    log := .freeLstnr l :: env.log }

/-- `l` is the timer in the new `struct crtx_timer_retry_listener`. -/
def crtx_timer_retry_listener (s : St) (l : ListenerId) (g : GraphId) (fd : Int) (task : TaskId) : Option St := do
  let (s, r) ← setupTimer s l g fd
  if r ≠ 0 then return setEnv s (freeLstnr s.sys.env l)
  return { setEnv s (createTask s.sys.env l task) with retries := l :: s.retries }

def crtx_timer_retry_listener_free (s : St) (l : ListenerId) (o : Outcome) : St :=
  let env := (crtx_stop_listener s.sys.env l o).1
  { setEnv s (freeLstnr env l) with retries := s.retries.erase l }

def crtx_timer_rearm (s : St) (l : ListenerId) (g : GraphId) (fd : Int) (o : Outcome) : Option St := do
  let (s, r) ← setupTimer s l g fd
  if r ≠ 0 then return s
  return setEnv s (crtx_start_listener s.sys.env l o).1

instance (env : Env) (l : ListenerId) : Decidable (Late env l) := inferInstanceAs (Decidable (_ ≤ _))

/-- The `shutdown` callback of `timer.c`, for all timers that were shut down. -/
def timersShutDown (timers : List ListenerId) (env : Env) : Env :=
  { env with lstnr := fun l =>
      if l ∈ timers ∧ Late env l then { env.lstnr l with start_listener := false } else env.lstnr l }

/-- The callback of `l` makes the calls `calls`. -/
def crtx_shutdown_listener (s : St) (l : ListenerId) (o : Outcome) (calls : Calls) : Option St := do
  let sys ← shutdownWith (s.appends + 1) (runCalls (s.appends + 1) calls) s.sys l o
  return { s with
    sys := { sys with env := timersShutDown s.timers sys.env }
    setUp := fun a => s.setUp a && !decide (Late sys.env a) }

/-- `crtx_process_one_event` with a task that does nothing. The shutdown for `free_after_event` is a call of its own. -/
def processEvent (env : Env) (g : GraphId) : Env :=
  match claimPart env g with
  | (env, none) => env
  | (env, some q) =>
    let env := env.setRoot (dropReference env.root q.event)
    let env := (env.emit (.touchGraph g)).lock (.queue g)
    (checkDelayed (env.setRoot (finishEntry env.root g q)) g).unlock (.queue g)

/-- Events are added and processed at any time between the calls. -/
inductive Action where
  | setup (l : ListenerId) (g : GraphId) (c : Create)
  | setupTimer (l : ListenerId) (g : GraphId) (fd : Int)
  | start (l : ListenerId) (o : Outcome)
  | stop (l : ListenerId) (o : Outcome)
  | shutdown (l : ListenerId) (o : Outcome) (calls : Calls)
  | retryListener (l : ListenerId) (g : GraphId) (fd : Int) (task : TaskId)
  | retryListenerFree (l : ListenerId) (o : Outcome)
  | rearm (l : ListenerId) (g : GraphId) (fd : Int) (o : Outcome)
  | addEvent (p : GraphId × EventId)
  | process (g : GraphId)

/-- Nobody makes a call on a listener that was freed. `calloc` returns memory that nobody uses. -/
def enabled (s : St) : Action → Prop
  | .setup l _ _ | .setupTimer l _ _ | .start l _ | .stop l _ | .shutdown l _ _ | .rearm l _ _ _ =>
    s.sys.env.lfreed l = false
  | .retryListener l _ _ _ =>
    s.sys.env.lfreed l = false ∧ s.sys.env.lstnr l = crtx_calloc_listener_base ∧ s.setUp l = false ∧ l ∉ s.retries
  | .retryListenerFree l _ => s.sys.env.lfreed l = false ∧ l ∈ s.retries
  | .addEvent _ | .process _ => True

instance (s : St) : ∀ a, Decidable (enabled s a)
  | .setup _ _ _ | .setupTimer _ _ _ | .start _ _ | .stop _ _ | .shutdown _ _ _ | .rearm _ _ _ _ =>
    inferInstanceAs (Decidable (_ = _))
  | .retryListener _ _ _ _ | .retryListenerFree _ _ => inferInstanceAs (Decidable (_ ∧ _))
  | .addEvent _ | .process _ => inferInstanceAs (Decidable True)

/-- `none`: a loop over the list did not come to an end. -/
def apply (s : St) : Action → Option St
  | .setup l g c => (crtx_setup_listener s l g c).map Prod.fst
  | .setupTimer l g fd => (setupTimer s l g fd).map Prod.fst
  | .start l o => some (setEnv s (crtx_start_listener s.sys.env l o).1)
  | .stop l o => some (setEnv s (crtx_stop_listener s.sys.env l o).1)
  | .shutdown l o calls => crtx_shutdown_listener s l o calls
  | .retryListener l g fd task => crtx_timer_retry_listener s l g fd task
  | .retryListenerFree l o => some (crtx_timer_retry_listener_free s l o)
  | .rearm l g fd o => crtx_timer_rearm s l g fd o
  | .addEvent p => some (setEnv s (s.sys.env.addEvent p))
  | .process g => some (setEnv s (processEvent s.sys.env g))

def step (s : St) (a : Action) : Option St := if enabled s a then apply s a else none

def init : St where
  sys := ⟨Env.initial, ⟨none, fun _ => none⟩, []⟩
  timers := []
  retries := []
  appends := 0
  setUp _ := false

/-! ## What has to hold -/

/-- The list has every listener that is set up, once, and no other. Nothing in it was freed. -/
structure ListOk (s : St) (L : List ListenerId) : Prop where
  chain : Chain s.sys.listeners.next s.sys.listeners.head L
  nodup : L.Nodup
  mem : ∀ a, a ∈ L ↔ s.setUp a = true
  live : ∀ a ∈ L, s.sys.env.lfreed a = false

/-- `crtx_timer_retry_listener_free` only gets a timer that was shut down. -/
def FreesUnlisted (s : St) : Action → Prop
  | .retryListenerFree l _ => s.setUp l = false
  | _ => True

instance (s : St) : ∀ a, Decidable (FreesUnlisted s a)
  | .retryListenerFree _ _ => inferInstanceAs (Decidable (_ = _))
  | .setup _ _ _ | .setupTimer _ _ _ | .start _ _ | .stop _ _ | .shutdown _ _ _ | .rearm _ _ _ _
  | .retryListener _ _ _ _ | .addEvent _ | .process _ => inferInstanceAs (Decidable True)

/-! ## Calls that shut nothing down -/

/-- A call on `l` that frees nothing and does not shut `l` down. -/
structure Mild (l : ListenerId) (env env' : Env) : Prop where
  spares : Spares l env env'
  lfreed : env'.lfreed l = env.lfreed l
  late : Late env' l → Late env l

theorem Mild.does {l : ListenerId} {acts : List Act} {env env' : Env} (h : Does l acts env env')
    (hst : (env'.lstnr l).state = (env.lstnr l).state ∨ (env'.lstnr l).state.num ≤ LstnrState.stopped.num) :
    Mild l env env' := by
  refine ⟨.does h, by rw [h.calm.lfreed], fun hl => ?_⟩
  rcases hst with hst | hst
  · exact hl.congr hst.symm
  · exact absurd (Nat.le_trans hl hst) (by decide)

theorem Mild.start (env : Env) (l : ListenerId) (o : Outcome) : Mild l env (crtx_start_listener env l o).1 := by
  obtain ⟨-, hd⟩ | ⟨-, adds, adds', sts, hsts, hd⟩ := start_does env l o
  · exact .does hd (.inl hd.state)
  · refine .does hd (.inr ?_)
    rw [hd.state]
    simp only [List.mem_cons, List.not_mem_nil, or_false] at hsts
    obtain rfl | rfl | rfl := hsts
    · simp [startActs, statesOf_cons, Act.state?, LstnrState.num]
    · simp [startActs, statesOf_cons, Act.state?, LstnrState.num]
    · simp [startActs, statesOf_cons, Act.state?, LstnrState.num]

theorem Mild.stop (env : Env) (l : ListenerId) (o : Outcome) : Mild l env (crtx_stop_listener env l o).1 := by
  obtain ⟨-, hd⟩ | ⟨-, -, hd⟩ | ⟨-, -, hd⟩ := stop_does env l o
  · exact .does hd (.inl hd.state)
  · refine .does hd (.inr ?_)
    rw [hd.state]
    simp [statesOf_cons, Act.state?, LstnrState.num]
  · refine .does hd (.inr ?_)
    rw [hd.state, statesOf_stopActs]
    simp [LstnrState.num]

theorem setup_state (env : Env) (l : ListenerId) (g : GraphId) :
    ((Libcortex.crtx_setup_listener env l g).lstnr l).state = .stopped := by
  unfold Libcortex.crtx_setup_listener ensureGraph
  dsimp only
  split <;> simp

theorem setup_lfreed (env : Env) (l : ListenerId) (g : GraphId) :
    (Libcortex.crtx_setup_listener env l g).lfreed = env.lfreed := by
  unfold Libcortex.crtx_setup_listener ensureGraph
  dsimp only
  split <;> rfl

theorem Mild.setup (env : Env) (l : ListenerId) (g : GraphId) : Mild l env (Libcortex.crtx_setup_listener env l g) where
  spares := ⟨fun a ha => by rw [setup_other env ha], fun a _ => by rw [setup_lfreed]⟩
  lfreed := by rw [setup_lfreed]
  late h := by
    unfold Late at h
    rw [setup_state] at h
    exact absurd h (by decide)

theorem Mild.trans {l : ListenerId} {env env' env'' : Env} (h : Mild l env env') (h' : Mild l env' env'') :
    Mild l env env'' where
  spares := h.spares.trans h'.spares
  lfreed := h'.lfreed.trans h.lfreed
  late := h.late ∘ h'.late

theorem Mild.modify (env : Env) (l : ListenerId) {f : Listener → Listener}
    (hf : (f (env.lstnr l)).state = (env.lstnr l).state) :
    Mild l env (env.modify l f) where
  spares := ⟨fun a ha => by rw [Env.modify_other _ ha], fun _ _ => rfl⟩
  lfreed := rfl
  late h := h.congr (by rw [Env.modify_self, hf])

/-! ## The invariant -/

structure Inv (s : St) (L : List ListenerId) : Prop where
  ok : ListOk s L
  length : L.length ≤ s.appends
  early : ∀ a ∈ L, ¬ Late s.sys.env a

theorem Inv.setEnv {s : St} {L : List ListenerId} (hi : Inv s L) {env : Env}
    (hlive : ∀ a ∈ L, env.lfreed a = s.sys.env.lfreed a) (hlate : ∀ a ∈ L, Late env a → Late s.sys.env a) :
    Inv (setEnv s env) L :=
  ⟨⟨hi.ok.chain, hi.ok.nodup, hi.ok.mem, fun a ha => (hlive a ha).trans (hi.ok.live a ha)⟩, hi.length,
    fun a ha h => hi.early a ha (hlate a ha h)⟩

theorem Mild.lfreed_eq {l : ListenerId} {env env' : Env} (h : Mild l env env') (a : ListenerId) :
    env'.lfreed a = env.lfreed a := by
  by_cases ha : a = l
  · rw [ha, h.lfreed]
  · exact h.spares.lfreed a ha

theorem Mild.late_of {l : ListenerId} {env env' : Env} (h : Mild l env env') (a : ListenerId) (hl : Late env' a) :
    Late env a := by
  by_cases ha : a = l
  · subst ha
    exact h.late hl
  · exact hl.congr (h.spares.state a ha).symm

theorem Inv.mild {s : St} {L : List ListenerId} (hi : Inv s L) {l : ListenerId} {env : Env}
    (h : Mild l s.sys.env env) : Inv (ListenerList.setEnv s env) L :=
  hi.setEnv (fun a _ => h.lfreed_eq a) (fun a _ => h.late_of a)

theorem enlist_inv {s : St} {L : List ListenerId} (hi : Inv s L) {l : ListenerId} {env : Env}
    (hfree : s.sys.env.lfreed l = false) (hmild : Mild l s.sys.env env) (hearly : ¬ Late env l) :
    ∃ ll r L', crtx_ll_append (s.appends + 1) s.sys.listeners l = some (ll, r) ∧ Inv (enlist s l env ll) L' := by
  have hlen : L.length < s.appends + 1 := Nat.lt_succ_of_le hi.length
  have hmem : ∀ a, Function.update s.setUp l true a = true ↔ a ∈ L ∨ a = l := by
    intro a
    rw [hi.ok.mem]
    by_cases ha : a = l
    · simp [ha]
    · simp [ha]
  have hlive : ∀ a, a ∈ L ∨ a = l → env.lfreed a = false := by
    rintro a (ha | rfl)
    · exact (hmild.lfreed_eq a).trans (hi.ok.live a ha)
    · exact (hmild.lfreed_eq a).trans hfree
  have hearlies : ∀ a, a ∈ L ∨ a = l → ¬ Late env a := by
    rintro a (ha | rfl)
    · exact fun h => hi.early a ha (hmild.late_of a h)
    · exact hearly
  by_cases hl : l ∈ L
  · refine ⟨_, _, L, crtx_ll_append_old hi.ok.chain hl hlen, ⟨hi.ok.chain, hi.ok.nodup, fun a => ?_, fun a ha =>
      hlive a (.inl ha)⟩, Nat.le_succ_of_le hi.length, fun a ha => hearlies a (.inl ha)⟩
    rw [enlist, hmem]
    exact ⟨.inl, fun h => h.elim id fun h => h ▸ hl⟩
  · obtain ⟨ll, happend, hchain, -⟩ := crtx_ll_append_new hi.ok.chain hl hlen
    have hsnoc : ∀ a, a ∈ L ++ [l] ↔ a ∈ L ∨ a = l := fun a => by rw [List.mem_append, List.mem_singleton]
    refine ⟨ll, 0, L ++ [l], happend, ⟨hchain, hchain.nodup, fun a => ?_, fun a ha => hlive a ((hsnoc a).mp ha)⟩, ?_,
      fun a ha => hearlies a ((hsnoc a).mp ha)⟩
    · rw [hsnoc, enlist, hmem]
    · rw [List.length_append]
      exact Nat.succ_le_succ hi.length

theorem setupWith_inv {s : St} {L : List ListenerId} (hi : Inv s L) (create : Listener → Option Listener)
    {l : ListenerId} (g : GraphId) (hfree : s.sys.env.lfreed l = false) :
    ∃ s' r L', setupWith create s l g = some (s', r) ∧ Inv s' L' ∧ s'.sys.env.lfreed = s.sys.env.lfreed ∧
      (r ≠ 0 → s'.setUp = s.setUp) := by
  have hsetup := Mild.setup s.sys.env l g
  unfold setupWith
  dsimp only
  cases create ((Libcortex.crtx_setup_listener s.sys.env l g).lstnr l) with
  | none => exact ⟨_, 1, L, rfl, hi.mild hsetup, setup_lfreed .., fun _ => rfl⟩
  | some b =>
    have hmild : Mild l s.sys.env ((Libcortex.crtx_setup_listener s.sys.env l g).modify l
        fun base => { b with state := base.state, graph := base.graph }) := hsetup.trans (.modify _ l rfl)
    have hstate : ¬ Late ((Libcortex.crtx_setup_listener s.sys.env l g).modify l
        fun base => { b with state := base.state, graph := base.graph }) l := by
      unfold Late
      rw [Env.modify_self, setup_state]
      decide
    obtain ⟨ll, r, L', happend, hinv⟩ := enlist_inv hi hfree hmild hstate
    refine ⟨_, 0, L', ?_, hinv, setup_lfreed s.sys.env l g, fun h => absurd rfl h⟩
    dsimp only
    rw [happend]
    rfl

theorem setup_inv {s : St} {L : List ListenerId} (hi : Inv s L) {l : ListenerId} (g : GraphId) (c : Create)
    (hfree : s.sys.env.lfreed l = false) :
    ∃ s' r L', crtx_setup_listener s l g c = some (s', r) ∧ Inv s' L' := by
  have hwith : ∀ create, ∃ s' r L', setupWith create s l g = some (s', r) ∧ Inv s' L' := by
    intro create
    obtain ⟨s', r, L', h, hinv, -⟩ := setupWith_inv hi create g hfree
    exact ⟨s', r, L', h, hinv⟩
  cases c with
  | nullId => exact ⟨s, _, L, rfl, hi⟩
  | emptyId => exact hwith some
  | notFound => exact ⟨s, _, L, rfl, hi⟩
  | failed => exact hwith fun _ => none
  | created fields => exact hwith fun _ => some fields

theorem setupTimer_inv {s : St} {L : List ListenerId} (hi : Inv s L) {l : ListenerId} (g : GraphId) (fd : Int)
    (hfree : s.sys.env.lfreed l = false) :
    ∃ s' r L', setupTimer s l g fd = some (s', r) ∧ Inv s' L' ∧ s'.sys.env.lfreed = s.sys.env.lfreed ∧
      (r ≠ 0 → s'.setUp = s.setUp) := by
  obtain ⟨s', r, L', h, hinv, hlfreed, hr⟩ := setupWith_inv hi (crtx_setup_timer_listener fd) g hfree
  unfold setupTimer
  rw [h]
  by_cases h0 : r = 0
  · exact ⟨{ s' with timers := l :: s'.timers }, r, L', by simp only [Option.bind_eq_bind, Option.bind_some, if_pos h0]; rfl,
      ⟨⟨hinv.ok.chain, hinv.ok.nodup, hinv.ok.mem, hinv.ok.live⟩, hinv.length, hinv.early⟩, hlfreed, fun h => absurd h0 h⟩
  · exact ⟨s', r, L', by simp only [Option.bind_eq_bind, Option.bind_some, if_neg h0]; rfl, hinv, hlfreed, hr⟩

/-! ## Shutting down -/

/-- A listener that is still in the list was not shut down in the meantime. -/
def Settles (s s' : Sys) : Prop :=
  ∀ L, Chain s'.listeners.next s'.listeners.head L → ∀ a ∈ L, Late s'.env a → Late s.env a

theorem Settles.of_env {s s' : Sys} (h : ∀ a, Late s'.env a → Late s.env a) : Settles s s' := fun _ _ a _ => h a

theorem runShutdownCbWith_settles {s s₁ : Sys} {cb : Sys → Option Sys} (hcb : ∀ s', cb s = some s' → Settles s s')
    {l : ListenerId} {o : Outcome} (h : runShutdownCbWith cb s l o = some s₁) : Settles s s₁ := by
  unfold runShutdownCbWith at h
  split at h
  · exact hcb s₁ h
  · cases h
    have hd := Does.runShutdownCb (l := l) s.env l o
    refine .of_env fun a ha => ha.congr ?_
    by_cases heq : a = l
    · subst heq
      rw [hd.state, statesOf_adds]
      rfl
    · exact (hd.state_other heq).symm

theorem shutdownWith_settles {L₀ L : List ListenerId} {fuel : Nat} {cb : Sys → Option Sys} (hkeeps : Keeps L₀ cb)
    (hcb : ∀ L s s', Listed L₀ L s → cb s = some s' → Settles s s') (hfuel : L₀.length < fuel) {l : ListenerId}
    {o : Outcome} {s s' : Sys} (h : Listed L₀ L s) (hs : shutdownWith fuel cb s l o = some s') : Settles s s' := by
  obtain ⟨hspares, -, hst⟩ := askedToStop_spec s.env l o
  have hlate : ∀ a, Late (askedToStop s.env l o) a → Late s.env a := by
    intro a ha
    by_cases heq : a = l
    · subst heq
      rcases hst with hst | ⟨-, hst | hst⟩
      · exact ha.congr hst.symm
      · unfold Late at ha
        rw [hst] at ha
        exact absurd ha (by decide)
      · unfold Late at ha
        rw [hst] at ha
        exact absurd ha (by decide)
    · exact ha.congr (hspares.state a heq).symm
  rw [shutdownWith_eq] at hs
  split at hs
  · cases hs
    exact .of_env hlate
  · split at hs
    · cases hs
      obtain ⟨hretry, hsame⟩ := retryShutdown_spec (askedToStop s.env l o) l
      refine .of_env fun a ha => hlate a ?_
      by_cases heq : a = l
      · subst heq
        exact ha.congr hsame.symm
      · exact ha.congr (hretry.state a heq).symm
    · obtain ⟨s₁, hs₁, hs⟩ := Option.bind_eq_some_iff.mp hs
      obtain ⟨⟨ll, r⟩, hunlink, hs⟩ := Option.bind_eq_some_iff.mp hs
      cases hs
      obtain ⟨L₁, hl₁, -⟩ := (h.closing l o).listed
      obtain ⟨s₂, hs₂, hshrinks⟩ := runShutdownCbWith_shrinks hkeeps hl₁ l o
      obtain rfl : s₁ = s₂ := Option.some_inj.mp (hs₁.symm.trans hs₂)
      have hsettles := runShutdownCbWith_settles (fun s' => hcb L₁ _ s' hl₁) hs₁
      obtain ⟨L₂, hl₂, -⟩ := hshrinks.listed
      have hlen := hl₂.sub.length_le
      -- What is in the list at the end was there after the callback, and is not `l`.
      have hleft : ∀ L, Chain ll.next ll.head L → ∀ a ∈ L, a ∈ L₂ ∧ a ≠ l := by
        intro L hL a ha
        by_cases hl : l ∈ L₂
        · obtain ⟨ll', hunlink', hchain, -⟩ := crtx_ll_unlink_present hl₂.chain hl (show L₂.length < fuel by omega)
          rw [hunlink] at hunlink'
          cases hunlink'
          rw [hL.unique hchain, List.Nodup.mem_erase_iff hl₂.chain.nodup] at ha
          exact ⟨ha.2, ha.1⟩
        · rw [crtx_ll_unlink_absent hl₂.chain hl (show L₂.length < fuel by omega)] at hunlink
          cases hunlink
          rw [hL.unique hl₂.chain] at ha
          exact ⟨ha, ne_of_mem_of_not_mem ha hl⟩
      intro L hL a ha hlate'
      obtain ⟨ha₂, hne⟩ := hleft L hL a ha
      have h₂ : Late s₁.env a := hlate'.congr ((finishShutdown_spec s₁.env l).1.state a hne).symm
      have h₁ : Late (closing s.env l o) a := hsettles L₂ hl₂.chain a ha₂ h₂
      exact h₁.congr ((closing_spec s.env l o).1.state a hne).symm

theorem runCalls_settles {L₀ : List ListenerId} {fuel : Nat} (hfuel : L₀.length < fuel) (cs : Calls) :
    ∀ L s s', Listed L₀ L s → runCalls fuel cs s = some s' → Settles s s' := by
  induction cs with
  | done =>
    intro L s s' _ hs
    cases hs
    exact .of_env fun _ ha => ha
  | add p rest ih =>
    intro L s s' h hs
    have hstates : ∀ a, ((s.env.addEvent p).lstnr a).state = (s.env.lstnr a).state := fun a =>
      Act.state_self a s.env (.add p)
    have hlisted : Listed L₀ L { s with env := s.env.addEvent p } := by
      refine ⟨h.chain, h.sub, fun a ha => ?_, fun a ha hna => ?_⟩
      · rw [(Calm.addEvent s.env p).lfreed, hstates]
        exact h.live a ha
      · obtain ⟨hnext, hlate, hcalled⟩ := h.gone a ha hna
        exact ⟨hnext, hlate.congr (hstates a), hcalled⟩
    intro L' hL' a ha hlate
    exact (ih L _ s' hlisted hs L' hL' a ha hlate).congr (hstates a).symm
  | shutdown l o inner rest ihinner ihrest =>
    intro L s s' h hs
    obtain ⟨s₁, hs₁, hs⟩ := Option.bind_eq_some_iff.mp hs
    have hkeeps := runCalls_keeps hfuel inner
    obtain ⟨s₂, hs₂, hshrinks, -⟩ := shutdownWith_shrinks hkeeps hfuel l o h
    obtain rfl : s₁ = s₂ := Option.some_inj.mp (hs₁.symm.trans hs₂)
    obtain ⟨L₁, hl₁, -⟩ := hshrinks.listed
    obtain ⟨s₃, hs₃, hrest⟩ := runCalls_keeps hfuel rest L₁ s₁ hl₁
    obtain rfl : s' = s₃ := Option.some_inj.mp (hs.symm.trans hs₃)
    obtain ⟨L₃, hl₃, hsub₃⟩ := hrest.listed
    intro L' hL' a ha hlate
    have h₁ : Late s₁.env a := ihrest L₁ s₁ s' hl₁ hs L' hL' a ha hlate
    rw [hL'.unique hl₃.chain] at ha
    exact shutdownWith_settles hkeeps ihinner hfuel h hs₁ L₁ hl₁.chain a (hsub₃.subset ha) h₁

theorem timersShutDown_state (timers : List ListenerId) (env : Env) (a : ListenerId) :
    ((timersShutDown timers env).lstnr a).state = (env.lstnr a).state := by
  unfold timersShutDown
  dsimp only
  split <;> rfl

theorem shutdown_inv {s : St} {L : List ListenerId} (hi : Inv s L) (l : ListenerId) (o : Outcome) (calls : Calls) :
    ∃ s' L', crtx_shutdown_listener s l o calls = some s' ∧ Inv s' L' := by
  have hfuel : L.length < s.appends + 1 := Nat.lt_succ_of_le hi.length
  have hlisted : Listed L L s.sys := by
    refine ⟨hi.ok.chain, List.Sublist.refl L, fun a ha => ⟨hi.ok.live a ha, fun hst => ?_⟩, fun a ha hna => absurd ha hna⟩
    exact hi.early a ha (late_iff.mpr (.inr hst))
  have hkeeps := runCalls_keeps hfuel calls
  obtain ⟨sys, hsys, hshrinks, -⟩ := shutdownWith_shrinks hkeeps hfuel l o hlisted
  have hsettles := shutdownWith_settles hkeeps (runCalls_settles hfuel calls) hfuel hlisted hsys
  obtain ⟨L', hl', hsub⟩ := hshrinks.listed
  have hearly : ∀ a ∈ L', ¬ Late sys.env a := fun a ha h =>
    hi.early a (hsub.subset ha) (hsettles L' hl'.chain a ha h)
  have hrun : crtx_shutdown_listener s l o calls = some { s with
      sys := { sys with env := timersShutDown s.timers sys.env }
      setUp := fun a => s.setUp a && !decide (Late sys.env a) } := by
    unfold crtx_shutdown_listener
    rw [hsys]
    rfl
  refine ⟨_, L', hrun, ⟨hl'.chain, hl'.chain.nodup, fun a => ?_, fun a ha => (hl'.live a ha).1⟩,
    Nat.le_trans hsub.length_le hi.length, fun a ha h => ?_⟩
  · dsimp only
    rw [Bool.and_eq_true, ← hi.ok.mem, Bool.not_eq_true', decide_eq_false_iff_not]
    constructor
    · exact fun ha => ⟨hsub.subset ha, hearly a ha⟩
    · rintro ⟨ha, hnl⟩
      by_contra hna
      exact hnl (hl'.gone a ha hna).2.1
  · exact hearly a ha (h.congr (timersShutDown_state s.timers sys.env a).symm)

/-! ## The other calls -/

theorem createTask_mild (env : Env) (l : ListenerId) (task : TaskId) : Mild l env (createTask env l task) := by
  unfold createTask
  split
  · exact ⟨⟨fun _ _ => rfl, fun _ _ => rfl⟩, rfl, id⟩
  · exact ⟨⟨fun _ _ => rfl, fun _ _ => rfl⟩, rfl, id⟩

theorem Inv.freeLstnr {s : St} {L : List ListenerId} (hi : Inv s L) {l : ListenerId} (hl : s.setUp l = false) :
    Inv (ListenerList.setEnv s (ListenerList.freeLstnr s.sys.env l)) L := by
  refine hi.setEnv (fun a ha => ?_) fun a _ h => h
  refine Function.update_of_ne ?_ ..
  rintro rfl
  rw [hi.ok.mem, hl] at ha
  cases ha

theorem retryListener_inv {s : St} {L : List ListenerId} (hi : Inv s L) {l : ListenerId} (g : GraphId) (fd : Int)
    (task : TaskId) (hfree : s.sys.env.lfreed l = false) (hl : s.setUp l = false) :
    ∃ s' L', crtx_timer_retry_listener s l g fd task = some s' ∧ Inv s' L' := by
  obtain ⟨s₁, r, L', h, hinv, -, hr⟩ := setupTimer_inv hi g fd hfree
  unfold crtx_timer_retry_listener
  rw [h]
  by_cases h0 : r = 0
  · have htask := hinv.mild (createTask_mild s₁.sys.env l task)
    refine ⟨{ setEnv s₁ (createTask s₁.sys.env l task) with retries := l :: s₁.retries }, L', ?_,
      ⟨⟨htask.ok.chain, htask.ok.nodup, htask.ok.mem, htask.ok.live⟩, htask.length, htask.early⟩⟩
    simp [h0]
  · refine ⟨_, L', ?_, hinv.freeLstnr (l := l) (by rw [hr h0, hl])⟩
    simp [h0]

theorem retryListenerFree_inv {s : St} {L : List ListenerId} (hi : Inv s L) {l : ListenerId} (o : Outcome)
    (hl : s.setUp l = false) : Inv (crtx_timer_retry_listener_free s l o) L := by
  have hstop := hi.mild (Mild.stop s.sys.env l o)
  have hfree := hstop.freeLstnr (l := l) hl
  exact ⟨⟨hfree.ok.chain, hfree.ok.nodup, hfree.ok.mem, hfree.ok.live⟩, hfree.length, hfree.early⟩

theorem rearm_inv {s : St} {L : List ListenerId} (hi : Inv s L) {l : ListenerId} (g : GraphId) (fd : Int)
    (o : Outcome) (hfree : s.sys.env.lfreed l = false) :
    ∃ s' L', crtx_timer_rearm s l g fd o = some s' ∧ Inv s' L' := by
  obtain ⟨s₁, r, L', h, hinv, -⟩ := setupTimer_inv hi g fd hfree
  unfold crtx_timer_rearm
  rw [h]
  by_cases h0 : r = 0
  · exact ⟨_, L', by simp [h0], hinv.mild (Mild.start s₁.sys.env l o)⟩
  · exact ⟨s₁, L', by simp [h0], hinv⟩

theorem checkDelayed_spec (env : Env) (g : GraphId) :
    (∀ a, ((checkDelayed env g).lstnr a).state = (env.lstnr a).state) ∧
      ∀ a, (env.lstnr a).state ≠ .shutdown → (checkDelayed env g).lfreed a = env.lfreed a := by
  cases hl : (env.root.graphs g).listener with
  | none =>
    rw [checkDelayed_none hl]
    exact ⟨fun _ => rfl, fun _ _ => rfl⟩
  | some l =>
    rw [checkDelayed_some hl]
    split
    · rename_i hst
      obtain ⟨hstates, hlfreed⟩ := Spares.intern ((env.emit (.touchLstnr l)).lock (.state l)) l
      refine ⟨fun a => ?_, fun a ha => hlfreed a fun heq => ha (heq ▸ hst.2)⟩
      by_cases heq : a = l
      · rw [heq]
        exact (intern_self _ l).state
      · exact hstates a heq
    · exact ⟨fun _ => rfl, fun _ _ => rfl⟩

theorem processEvent_spec (env : Env) (g : GraphId) :
    (∀ a, ((processEvent env g).lstnr a).state = (env.lstnr a).state) ∧
      ∀ a, (env.lstnr a).state ≠ .shutdown → (processEvent env g).lfreed a = env.lfreed a := by
  unfold processEvent
  split
  · rename_i env₁ hclaim
    obtain rfl : (claimPart env g).1 = env₁ := by rw [hclaim]
    exact ⟨fun _ => rfl, fun _ _ => rfl⟩
  · rename_i env₁ q hclaim
    obtain rfl : (claimPart env g).1 = env₁ := by rw [hclaim]
    exact checkDelayed_spec _ g

theorem apply_inv {s : St} {L : List ListenerId} (hi : Inv s L) (a : Action) (hen : enabled s a)
    (hok : FreesUnlisted s a) : ∃ s' L', apply s a = some s' ∧ Inv s' L' := by
  cases a with
  | setup l g c =>
    obtain ⟨s', r, L', h, hinv⟩ := setup_inv hi g c hen
    exact ⟨s', L', by simp [apply, h], hinv⟩
  | setupTimer l g fd =>
    obtain ⟨s', r, L', h, hinv, -⟩ := setupTimer_inv hi g fd hen
    exact ⟨s', L', by simp [apply, h], hinv⟩
  | start l o => exact ⟨_, L, rfl, hi.mild (.start s.sys.env l o)⟩
  | stop l o => exact ⟨_, L, rfl, hi.mild (.stop s.sys.env l o)⟩
  | shutdown l o calls => exact shutdown_inv hi l o calls
  | retryListener l g fd task => exact retryListener_inv hi g fd task hen.1 hen.2.2.1
  | retryListenerFree l o => exact ⟨_, L, rfl, retryListenerFree_inv hi o hok⟩
  | rearm l g fd o => exact rearm_inv hi g fd o hen
  | addEvent p =>
    refine ⟨_, L, rfl, hi.setEnv (fun a _ => by rw [(Calm.addEvent s.sys.env p).lfreed]) fun a _ h => h.congr ?_⟩
    exact (Act.state_self a s.sys.env (.add p)).symm
  | process g =>
    obtain ⟨hstates, hlfreed⟩ := processEvent_spec s.sys.env g
    refine ⟨_, L, rfl, hi.setEnv (fun a ha => hlfreed a fun hst => ?_) fun a _ h => h.congr (hstates a).symm⟩
    exact hi.early a ha (late_iff.mpr (.inr hst))

theorem step_inv (s : St) (a : Action) (s' : St) (hi : ∃ L, Inv s L) (hok : FreesUnlisted s a)
    (h : step s a = some s') : ∃ L, Inv s' L := by
  obtain ⟨L, hi⟩ := hi
  unfold step at h
  split at h
  · rename_i hen
    obtain ⟨s₁, L', h₁, hinv⟩ := apply_inv hi a hen hok
    rw [h] at h₁
    cases h₁
    exact ⟨L', hinv⟩
  · cases h

theorem init_inv : Inv init [] :=
  ⟨⟨rfl, List.nodup_nil, fun a => by simp [init], fun a ha => absurd ha List.not_mem_nil⟩, Nat.le_refl 0,
    fun a ha => absurd ha List.not_mem_nil⟩

/-! ## The result -/

/-- The list is right in every state of a run that frees no timer that is set up, and no loop over it goes on forever.
To free a timer that is set up leaves its memory in the list. -/
theorem listener_list (as : List Action) (s : St) (hm : Meets step FreesUnlisted as init)
    (hr : run step as init = some s) :
    (∃ L, ListOk s L) ∧ (∀ a, enabled s a → FreesUnlisted s a → ∃ s', step s a = some s') ∧
      ∀ l o s', step s (.retryListenerFree l o) = some s' → s.setUp l = true → ¬ ∃ L, ListOk s' L := by
  obtain ⟨L, hi⟩ := run_keeps step_inv as init s ⟨[], init_inv⟩ hm hr
  refine ⟨⟨L, hi.ok⟩, fun a hen hok => ?_, ?_⟩
  · obtain ⟨s', -, h, -⟩ := apply_inv hi a hen hok
    exact ⟨s', by rw [step, if_pos hen, h]⟩
  · rintro l o s' h hl ⟨L', hok⟩
    unfold step at h
    split at h
    · cases h
      have hmem : l ∈ L' := (hok.mem l).mpr hl
      have hfreed : (crtx_timer_retry_listener_free s l o).sys.env.lfreed l = true := Function.update_self ..
      exact absurd (hok.live l hmem) (by rw [hfreed]; simp)
    · cases h

/-- A listener and its retry timer, which is rearmed, shut down and freed. -/
def someRun : List Action :=
  [.setup 0 0 .emptyId, .retryListener 1 1 5 0, .start 1 .quiet, .rearm 1 1 6 .quiet, .stop 0 .quiet,
    .shutdown 1 .quiet .done, .retryListenerFree 1 .quiet]

theorem listener_list_freed_timer :
    ∃ s, run step someRun init = some s ∧ s.sys.listeners.head = some 0 ∧ s.sys.listeners.next 0 = none ∧
      s.sys.env.lfreed 1 = true ∧ Meets step FreesUnlisted someRun init ∧ (∃ L, ListOk s L) ∧
      (∀ a, enabled s a → FreesUnlisted s a → ∃ s', step s a = some s') ∧
      ∀ l o s', step s (.retryListenerFree l o) = some s' → s.setUp l = true → ¬ ∃ L, ListOk s' L :=
  ⟨_, rfl, by decide, by decide, by decide, by decide, listener_list someRun _ (by decide) rfl⟩

/-- A retry timer is freed and stays in the list. -/
theorem freed_timer_stays_listed :
    ∃ s, run step [.retryListener 1 1 5 0, .retryListenerFree 1 .quiet] init = some s ∧
      s.sys.listeners.head = some 1 ∧ s.sys.env.lfreed 1 = true ∧ ¬ ∃ L, ListOk s L := by
  refine ⟨_, rfl, by decide, by decide, ?_⟩
  rintro ⟨L, hok⟩
  have hmem : 1 ∈ L := (hok.mem 1).mpr (by decide)
  exact absurd (hok.live 1 hmem) (by decide)

end Libcortex.ListenerList
