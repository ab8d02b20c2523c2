import Libcortex.Fields
import Libcortex.Lib.Handles

/-!
# The descriptors of timers

Every timer has a timerfd, which is created when the timer is set up. Whether `crtx_shutdown_listener` closes the
descriptor of a listener depends on whether the listener has a `shutdown` callback. Timers have one.
-/

open Libcortex.Lib

namespace Libcortex.Timer

/-! ## The machine -/

/-- `struct itimerspec`, with seconds and nanoseconds. -/
structure Itimerspec where
  it_value : Int × Int
  it_interval : Int × Int
deriving DecidableEq, Repr

/-- The listeners are timers, and the number in their `evloop_fd` is that in `tlist->fd`. `direct_callback` is only ever
that of a oneshot timer. `pipe` has the calls of `crtx_selfpipe_cb_free_lstnr` that wait in the self-pipe, and `fds` the
timerfds that are open. `setUp` is history: the listener was set up and hasn't been shut down since. -/
structure St where
  env : Env
  newtimer : ListenerId → Itimerspec
  direct_callback : ListenerId → Bool
  pipe : List ListenerId
  fds : List Int
  setUp : ListenerId → Bool

/-- The callbacks of a timer add no events, and `update_listener` leaves the mode and the descriptor alone. -/
def callbacksOf (o : Outcome) : Outcome :=
  { o with
    start_mode := none
    start_fd := none
    start_adds := []
    shutdown_adds := [] }

/-- `crtx_setup_listener("timer", tlist)`. `fd` is what `timerfd_create` returns, if it is called. -/
def setupTimer (s : St) (l : ListenerId) (g : GraphId) (fd : Int) : St × Int :=
  let env := Libcortex.crtx_setup_listener s.env l g
  match ListenerList.crtx_setup_timer_listener fd (env.lstnr l) with
  | none => ({ s with env := env.modify l fun b => { b with evloop_fd := some (-1) } }, 1)
  | some base =>
    ({ s with
      env := env.modify l fun _ => base
      fds := if (env.lstnr l).start_listener then s.fds else fd :: s.fds
      setUp := Function.update s.setUp l true }, 0)

def setTimer (s : St) (l : ListenerId) (t : Itimerspec) : St := { s with newtimer := Function.update s.newtimer l t }

/-- The memory of `l` holds the new listener `base`. -/
def clear (s : St) (l : ListenerId) (base : Listener) (direct : Bool) : St :=
  { s with
    env := s.env.modify l fun _ => base
    direct_callback := Function.update s.direct_callback l direct
    setUp := Function.update s.setUp l false }

def crtx_timer_get_listener (s : St) (l : ListenerId) (g : GraphId) (fd : Int) (t : Itimerspec) : St × Int :=
  setupTimer (setTimer (clear s l crtx_calloc_listener_base false) l t) l g fd

def startTimer (s : St) (l : ListenerId) (o : Outcome) : St × Int :=
  let (env, r) := crtx_start_listener s.env l (callbacksOf o)
  ({ s with env }, r)

def stopTimer (s : St) (l : ListenerId) (o : Outcome) : St :=
  { s with env := (crtx_stop_listener s.env l (callbacksOf o)).1 }

def crtx_timer_rearm (s : St) (l : ListenerId) (g : GraphId) (fd : Int) (t : Itimerspec) (o : Outcome) : St × Int :=
  let (s, r) := setupTimer (setTimer s l t) l g fd
  if r ≠ 0 then (s, r) else startTimer s l o

/-- `l` is the timer in the new `struct crtx_timer_oneshot`. -/
def crtx_timer_oneshot (s : St) (l : ListenerId) (g : GraphId) (fd : Int) (offset : Int × Int) (o : Outcome) :
    St × Int :=
  let s := setTimer (clear s l { crtx_calloc_listener_base with free_cb := some true } true) l ⟨offset, (0, 0)⟩
  let (s, r) := setupTimer s l g fd
  if r ≠ 0 then (s, 0) else ((startTimer s l o).1, 0)

/-- What the `oneshot_callback` does is left out. `queued` says whether the writes to the self-pipe succeed. -/
def timer_oneshot_event_handler (s : St) (l : ListenerId) (queued : Bool) : St × Int :=
  ({ s with pipe := if queued then s.pipe ++ [l] else s.pipe }, 0)

/-- How the handler is called: does the `read` succeed, is the event `e` created, do the writes succeed? -/
structure Firing where
  read : Bool
  created : Bool
  queued : Bool
  e : EventId
deriving DecidableEq, Repr

/-- The event about the expired timer is added to the graph of the timer. -/
def addTimerEvent (env : Env) (l : ListenerId) (e : EventId) : Env :=
  match (env.lstnr l).graph with
  | none => env
  | some g => (env.setRoot (env.root.setEvent e Event.fresh)).addEvent (g, e)

def timer_fd_event_handler (s : St) (l : ListenerId) (f : Firing) (o : Outcome) : St × Int :=
  if f.read = false then (s, 0)
  else if s.direct_callback l = false ∧ f.created = false then (s, 1)
  else
    let s := if s.direct_callback l then (timer_oneshot_event_handler s l f.queued).1
      else { s with env := addTimerEvent s.env l f.e }
    (if (s.newtimer l).it_interval = (0, 0) then stopTimer s l o else s, 1)

/-- The `shutdown` callback of `timer.c` -/
def shutdown_listener (b : Listener) : Listener := { b with start_listener := false }

/-- The descriptor that `crtx_shutdown_listener` closes itself, since there is no `shutdown` callback. -/
def autoClosed (b : Listener) : Option Int :=
  if b.shutdown_cb then none
  else if 0 ≤ b.evloop_fd.getD (-1) ∧ b.no_auto_close = false then b.evloop_fd else none

def crtx_shutdown_listener (s : St) (l : ListenerId) (o : Outcome) : St :=
  let env := Libcortex.crtx_shutdown_listener s.env l (callbacksOf o)
  if ShutsDown s.env l then
    { s with
      env := env.modify l fun b => if b.shutdown_cb then shutdown_listener b else b
      fds := s.fds.filter fun fd => autoClosed (s.env.lstnr l) ≠ some fd
      setUp := Function.update s.setUp l false }
  else { s with env }

/-- The event loop calls `crtx_selfpipe_cb_free_lstnr` for the first listener in the pipe. -/
def crtx_selfpipe_cb_free_lstnr (s : St) (o : Outcome) : St :=
  match s.pipe with
  | [] => s
  | l :: rest => crtx_shutdown_listener { s with pipe := rest } l o

/-- Events are added and processed at any time between the calls. -/
inductive Action where
  | setup (l : ListenerId) (g : GraphId) (fd : Int) (t : Itimerspec)
  | getListener (l : ListenerId) (g : GraphId) (fd : Int) (t : Itimerspec)
  | rearm (l : ListenerId) (g : GraphId) (fd : Int) (t : Itimerspec) (o : Outcome)
  | oneshot (l : ListenerId) (g : GraphId) (fd : Int) (offset : Int × Int) (o : Outcome)
  | start (l : ListenerId) (o : Outcome)
  | stop (l : ListenerId) (o : Outcome)
  | shutdown (l : ListenerId) (o : Outcome)
  | fire (l : ListenerId) (f : Firing) (o : Outcome)
  | cleanUp (o : Outcome)
  | addEvent (p : GraphId × EventId)
  | process (g : GraphId)

/-- `timerfd_create` fails, or returns a number that isn't in use. -/
def FreshFd (s : St) (fd : Int) : Prop := fd = -1 ∨ 0 ≤ fd ∧ fd ∉ s.fds

instance (s : St) (fd : Int) : Decidable (FreshFd s fd) := inferInstanceAs (Decidable (_ ∨ _))

/-- Nobody makes a call on a listener that was freed. `calloc` returns memory that nobody uses. -/
def enabled (s : St) : Action → Prop
  | .setup l _ fd _ | .getListener l _ fd _ | .rearm l _ fd _ _ => s.env.lfreed l = false ∧ FreshFd s fd
  | .oneshot l _ fd _ _ =>
    s.env.lfreed l = false ∧ s.env.lstnr l = crtx_calloc_listener_base ∧ s.setUp l = false ∧ FreshFd s fd
  | .start l _ | .stop l _ | .shutdown l _ => s.env.lfreed l = false
  | .fire l _ _ => s.env.lfreed l = false ∧ (s.env.lstnr l).callbacks ≠ []
  | .cleanUp _ => ∃ l ∈ s.pipe.head?, s.env.lfreed l = false
  | .addEvent _ | .process _ => True

instance (s : St) : ∀ a, Decidable (enabled s a)
  | .setup _ _ _ _ | .getListener _ _ _ _ | .rearm _ _ _ _ _ | .oneshot _ _ _ _ _ | .fire _ _ _ =>
    inferInstanceAs (Decidable (_ ∧ _))
  | .start _ _ | .stop _ _ | .shutdown _ _ => inferInstanceAs (Decidable (_ = _))
  | .cleanUp _ => inferInstanceAs (Decidable (∃ l ∈ s.pipe.head?, _))
  | .addEvent _ | .process _ => inferInstanceAs (Decidable True)

def apply (s : St) : Action → St
  | .setup l g fd t => (setupTimer (setTimer s l t) l g fd).1
  | .getListener l g fd t => (crtx_timer_get_listener s l g fd t).1
  | .rearm l g fd t o => (crtx_timer_rearm s l g fd t o).1
  | .oneshot l g fd offset o => (crtx_timer_oneshot s l g fd offset o).1
  | .start l o => (startTimer s l o).1
  | .stop l o => stopTimer s l o
  | .shutdown l o => crtx_shutdown_listener s l o
  | .fire l f o => (timer_fd_event_handler s l f o).1
  | .cleanUp o => crtx_selfpipe_cb_free_lstnr s o
  | .addEvent p => { s with env := s.env.addEvent p }
  | .process g => { s with env := ListenerList.processEvent s.env g }

abbrev step : St → Action → Option St := guarded enabled apply

def init : St where
  env := Env.initial
  newtimer _ := ⟨(0, 0), (0, 0)⟩
  direct_callback _ := false
  pipe := []
  fds := []
  setUp _ := false

/-! ## What has to hold -/

/-- The timerfds that are open are those of the timers that are set up. None is left once all of them have been shut
down. -/
structure Accounted (s : St) : Prop where
  exact : ∀ fd, fd ∈ s.fds ↔ ∃ l, s.setUp l = true ∧ (s.env.lstnr l).evloop_fd = some fd
  closed : (∀ l, s.setUp l = false) → s.fds = []

/-- Shutting `l` down would go through, and `l` is set up. -/
def Loses (s : St) (l : ListenerId) : Prop := s.setUp l = true ∧ ShutsDown s.env l

instance (s : St) (l : ListenerId) : Decidable (Loses s l) := inferInstanceAs (Decidable (_ ∧ _))

/-- No timer that is set up is shut down, or its memory set to zero. -/
def LeavesSetUp (s : St) : Action → Prop
  | .shutdown l _ => ¬ Loses s l
  | .cleanUp _ => ∀ l ∈ s.pipe.head?, ¬ Loses s l
  | .getListener l _ _ _ => s.setUp l = false
  | _ => True

/-! ## What the calls leave alone -/

/-- The fields of a listener that decide about its descriptor. -/
def part (b : Listener) : Bool × Bool × Option Int := (b.start_listener, b.shutdown_cb, b.evloop_fd)

theorem part_blind : Blind part :=
  ⟨fun _ _ => rfl, fun _ _ => rfl, fun _ _ => rfl, fun _ _ => rfl, fun _ _ => rfl, fun _ _ => rfl⟩

theorem startCallback_alike (env : Env) (l : ListenerId) (o : Outcome) :
    Alike part env (startCallback env l (callbacksOf o)) := by
  unfold startCallback
  split
  · exact Alike.trans (.modify env l (by exact fun _ => rfl)) (.of_eq (addEvents_lstnr ..))
  · exact .refl part env

theorem start_alike (env : Env) (l : ListenerId) (o : Outcome) :
    Alike part env (crtx_start_listener env l (callbacksOf o)).1 := by
  unfold crtx_start_listener
  dsimp only
  split
  · exact .refl part env
  · have hcb := Alike.trans (.setState part_blind (env.lock (.state l)) l .starting) (startCallback_alike _ l o)
    generalize startCallback ((env.lock (.state l)).setState l .starting) l (callbacksOf o) = env₁ at hcb ⊢
    split
    · exact Alike.trans (Alike.trans hcb (.setState part_blind env₁ l .stopped)) (.of_eq (postState_lstnr ..))
    · split
      · exact hcb
      · rename_i env₂ hact
        have hstarted := Alike.trans (Alike.trans hcb (.activate part_blind hact))
          (.setState part_blind env₂ l .started)
        exact Alike.trans (Alike.trans hstarted (.of_eq (postState_lstnr ..))) (.of_eq (startupTrigger_lstnr _ l))

theorem removeCallbacks_alike (env : Env) (l : ListenerId) : Alike part env (removeCallbacks env l) := by
  unfold removeCallbacks
  split
  · exact .modify env l (f := fun b => { b with callbacks := [], el_cb_active := false }) fun _ => rfl
  · exact .refl part env

theorem fields_alike {env env' : Env} (h : Alike part env env') (a : ListenerId) :
    (env'.lstnr a).start_listener = (env.lstnr a).start_listener ∧
      (env'.lstnr a).shutdown_cb = (env.lstnr a).shutdown_cb ∧
      (env'.lstnr a).evloop_fd = (env.lstnr a).evloop_fd := by
  simpa [part] using h a

/-- A shutdown of this listener closes no descriptor, if it comes to that. -/
def ClosesNothing (b : Listener) : Prop := b.shutdown_cb = false → b.evloop_fd.getD (-1) < 0

theorem ClosesNothing.alike {env env' : Env} {l : ListenerId} (hl : ClosesNothing (env.lstnr l))
    (h : Alike part env env') : ClosesNothing (env'.lstnr l) := by
  obtain ⟨-, hcb, hfd⟩ := fields_alike h l
  unfold ClosesNothing
  rw [hcb, hfd]
  exact hl

theorem runShutdownCb_alike {env : Env} {l : ListenerId} (h : ClosesNothing (env.lstnr l)) (o : Outcome) :
    Alike part env (runShutdownCb env l o) := by
  unfold runShutdownCb
  split
  · exact .of_eq (addEvents_lstnr ..)
  · rename_i hcb
    have hneg := h (Bool.eq_false_of_not_eq_true hcb)
    rw [if_neg fun hclose => absurd hclose.1 (Int.not_le.mpr hneg)]
    exact .refl part env

theorem shutdown_alike {env : Env} {l : ListenerId} (h : ClosesNothing (env.lstnr l)) (o : Outcome) :
    Alike part env (Libcortex.crtx_shutdown_listener env l o) := by
  have hasked := Alike.askedToStop part_blind env l o
  rw [shutdown_eq]
  split
  · exact Alike.trans hasked (.retryShutdown part_blind _ l)
  · split
    · have hclosing := Alike.trans (Alike.trans hasked (.setState part_blind _ l .shuttingDown))
        (removeCallbacks_alike (((askedToStop env l o).setState l .shuttingDown).unlock (.state l)) l)
      have hclosed : Alike part env (closed env l o) := Alike.trans hclosing (runShutdownCb_alike (h.alike hclosing) o)
      exact Alike.trans hclosed (.finishShutdown part_blind _ l)
    · exact hasked

/-! ## The invariant -/

/-- The descriptor of a timer that is set up. -/
def fdOf (s : St) (l : ListenerId) : Option Int := if s.setUp l then (s.env.lstnr l).evloop_fd else none

structure Inv (s : St) : Prop where
  started : ∀ l, (s.env.lstnr l).start_listener = s.setUp l
  callback : ∀ l, s.setUp l = true → (s.env.lstnr l).shutdown_cb = true
  opened : ∀ l, s.setUp l = true → (fdOf s l).isSome
  unclosed : ∀ l, ClosesNothing (s.env.lstnr l)
  owned : Owned (fdOf s) s.fds

theorem fdOf_eq_some {s : St} {l : ListenerId} {fd : Int} :
    fdOf s l = some fd ↔ s.setUp l = true ∧ (s.env.lstnr l).evloop_fd = some fd := by
  unfold fdOf
  split
  · rename_i hl
    simp [hl]
  · rename_i hl
    simp [hl]

theorem Inv.fdOf_eq_none {s : St} (hi : Inv s) {l : ListenerId} : fdOf s l = none ↔ s.setUp l = false := by
  rw [← Bool.not_eq_true, ← Option.not_isSome_iff_eq_none, not_iff_not]
  refine ⟨fun h => ?_, hi.opened l⟩
  obtain ⟨fd, hfd⟩ := Option.isSome_iff_exists.mp h
  exact (fdOf_eq_some.mp hfd).1

theorem accounted_iff {s : St} (hi : Inv s) : Accounted s ↔ NoLeak (fdOf s) s.fds := by
  constructor
  · intro h fd hfd
    obtain ⟨l, hl⟩ := (h.exact fd).mp hfd
    exact ⟨l, fdOf_eq_some.mpr hl⟩
  · intro h
    refine ⟨fun fd => (hi.owned.mem_iff h fd).trans (exists_congr fun l => fdOf_eq_some), fun hall => ?_⟩
    refine List.eq_nil_iff_forall_not_mem.mpr fun fd hfd => ?_
    obtain ⟨l, hl⟩ := h fd hfd
    rw [hi.fdOf_eq_none.mpr (hall l)] at hl
    cases hl

/-- A step that neither leaks a descriptor nor finds one that was leaked. -/
def Keeps (s s' : St) : Prop := Inv s → Inv s' ∧ (NoLeak (fdOf s') s'.fds ↔ NoLeak (fdOf s) s.fds)

theorem Keeps.trans {s s' s'' : St} (h : Keeps s s') (h' : Keeps s' s'') : Keeps s s'' := by
  intro hi
  obtain ⟨hi', hiff⟩ := h hi
  obtain ⟨hi'', hiff'⟩ := h' hi'
  exact ⟨hi'', hiff'.trans hiff⟩

theorem Keeps.alike {s t : St} (hfds : t.fds = s.fds) (hsetUp : t.setUp = s.setUp) (h : Alike part s.env t.env) :
    Keeps s t := by
  intro hi
  have hfdOf : fdOf t = fdOf s := by
    funext l
    unfold fdOf
    rw [hsetUp, (fields_alike h l).2.2]
  refine ⟨⟨fun l => ?_, fun l hl => ?_, ?_, fun l => (hi.unclosed l).alike h, ?_⟩, ?_⟩
  · rw [(fields_alike h l).1, hsetUp, hi.started]
  · rw [hsetUp] at hl
    rw [(fields_alike h l).2.1, hi.callback l hl]
  · rw [hsetUp, hfdOf]
    exact hi.opened
  · rw [hfdOf, hfds]
    exact hi.owned
  · rw [hfdOf, hfds]

/-- Only the listener `l` changes. Its fields that matter are `b` then. -/
structure Changes (l : ListenerId) (b : Bool × Bool × Option Int) (s s' : St) : Prop where
  self : part (s'.env.lstnr l) = b
  other : ∀ a, a ≠ l → part (s'.env.lstnr a) = part (s.env.lstnr a)
  setUp : s'.setUp = Function.update s.setUp l b.1

theorem Changes.fdOf_eq {l : ListenerId} {start cb : Bool} {fd : Option Int} {s s' : St}
    (h : Changes l (start, cb, fd) s s') : fdOf s' = Function.update (fdOf s) l (if start then fd else none) := by
  have hself := h.self
  unfold part at hself
  rw [Prod.mk.injEq, Prod.mk.injEq] at hself
  funext a
  unfold fdOf
  by_cases ha : a = l
  · subst ha
    rw [h.setUp, Function.update_self, Function.update_self, hself.2.2]
  · have hother := h.other a ha
    unfold part at hother
    rw [Prod.mk.injEq, Prod.mk.injEq] at hother
    rw [h.setUp, Function.update_of_ne ha, Function.update_of_ne ha, hother.2.2]

theorem Changes.inv {l : ListenerId} {start cb : Bool} {fd : Option Int} {s s' : St}
    (h : Changes l (start, cb, fd) s s') (hi : Inv s) (hcb : start = true → cb = true)
    (hclosed : cb = false → fd.getD (-1) < 0) (hopened : start = true → fd.isSome)
    (howned : Owned (fdOf s') s'.fds) : Inv s' := by
  have hself := h.self
  unfold part at hself
  rw [Prod.mk.injEq, Prod.mk.injEq] at hself
  have hset : s'.setUp l = start := by rw [h.setUp, Function.update_self]
  have hother : ∀ a, a ≠ l → (s'.env.lstnr a).start_listener = (s.env.lstnr a).start_listener ∧
      (s'.env.lstnr a).shutdown_cb = (s.env.lstnr a).shutdown_cb ∧
      (s'.env.lstnr a).evloop_fd = (s.env.lstnr a).evloop_fd ∧ s'.setUp a = s.setUp a := by
    intro a ha
    have hpart := h.other a ha
    unfold part at hpart
    rw [Prod.mk.injEq, Prod.mk.injEq] at hpart
    exact ⟨hpart.1, hpart.2.1, hpart.2.2, by rw [h.setUp, Function.update_of_ne ha]⟩
  refine ⟨fun a => ?_, fun a ha => ?_, fun a ha => ?_, fun a => ?_, howned⟩
  · by_cases hal : a = l
    · rw [hal, hself.1, hset]
    · obtain ⟨hstart, -, -, hseta⟩ := hother a hal
      rw [hstart, hseta, hi.started]
  · by_cases hal : a = l
    · rw [hal, hself.2.1]
      exact hcb (by rw [← hset, ← hal, ha])
    · obtain ⟨-, hcba, -, hseta⟩ := hother a hal
      rw [hcba, hi.callback a (hseta ▸ ha)]
  · rw [h.fdOf_eq]
    by_cases hal : a = l
    · have hstart : start = true := by rw [← hset, ← hal, ha]
      rw [hal, Function.update_self, if_pos hstart]
      exact hopened hstart
    · obtain ⟨-, -, -, hseta⟩ := hother a hal
      rw [Function.update_of_ne hal]
      exact hi.opened a (hseta ▸ ha)
  · unfold ClosesNothing
    by_cases hal : a = l
    · rw [hal, hself.2.1, hself.2.2]
      exact hclosed
    · obtain ⟨-, hcba, hfda, -⟩ := hother a hal
      rw [hcba, hfda]
      exact hi.unclosed a

theorem Changes.drop {s s' : St} (hi : Inv s) {l : ListenerId} {cb : Bool} {fd : Option Int}
    (h : Changes l (false, cb, fd) s s') (hfds : s'.fds = s.fds) (hcb : cb = false → fd.getD (-1) < 0) :
    Inv s' ∧ (NoLeak (fdOf s') s'.fds ↔ NoLeak (fdOf s) s.fds ∧ s.setUp l = false) := by
  have hfdOf : fdOf s' = Function.update (fdOf s) l none := h.fdOf_eq
  refine ⟨h.inv hi (fun h => by cases h) hcb (fun h => by cases h) ?_, ?_⟩
  · rw [hfdOf, hfds]
    exact hi.owned.release l
  · rw [hfdOf, hfds, hi.owned.noLeak_release, hi.fdOf_eq_none]

theorem Changes.opens {s s' : St} {l : ListenerId} {k : Int} (h : Changes l (true, true, some k) s s')
    (hfds : s'.fds = k :: s.fds) (hnew : k ∉ s.fds) (hl : s.setUp l = false) : Keeps s s' := by
  intro hi
  have hfdOf : fdOf s' = Function.update (fdOf s) l (some k) := h.fdOf_eq
  refine ⟨h.inv hi (fun _ => rfl) (fun h => by cases h) (fun _ => rfl) ?_, ?_⟩
  · rw [hfdOf, hfds]
    exact hi.owned.acquire hnew
  · rw [hfdOf, hfds]
    exact noLeak_acquire hnew (hi.fdOf_eq_none.mpr hl)

/-! ## The calls -/

theorem setup_part (env : Env) (l : ListenerId) (g : GraphId) :
    part ((Libcortex.crtx_setup_listener env l g).lstnr l) =
      ((env.lstnr l).start_listener, (env.lstnr l).shutdown_cb, (env.lstnr l).evloop_fd.or (some (-1))) := by
  unfold Libcortex.crtx_setup_listener ensureGraph
  dsimp only
  split <;> simp [part]

theorem setupTimer_old {s : St} {l : ListenerId} {g : GraphId} {fd : Int}
    (h : ((Libcortex.crtx_setup_listener s.env l g).lstnr l).start_listener = true) :
    (setupTimer s l g fd).1 = { s with
      env := (Libcortex.crtx_setup_listener s.env l g).modify l fun b => b
      setUp := Function.update s.setUp l true } := by
  unfold setupTimer ListenerList.crtx_setup_timer_listener
  dsimp only
  rw [if_pos h]
  dsimp only
  rw [if_pos h]
  rfl

theorem setupTimer_failed {s : St} {l : ListenerId} {g : GraphId}
    (h : ((Libcortex.crtx_setup_listener s.env l g).lstnr l).start_listener = false) :
    (setupTimer s l g (-1)).1 = { s with
      env := (Libcortex.crtx_setup_listener s.env l g).modify l fun b => { b with evloop_fd := some (-1) } } := by
  unfold setupTimer ListenerList.crtx_setup_timer_listener
  dsimp only
  rw [if_neg (Bool.eq_false_iff.mp h), if_pos rfl]

theorem setupTimer_new {s : St} {l : ListenerId} {g : GraphId} {fd : Int} (hfd : fd ≠ -1)
    (h : ((Libcortex.crtx_setup_listener s.env l g).lstnr l).start_listener = false) :
    ∃ base, part base = (true, true, some fd) ∧ (setupTimer s l g fd).1 = { s with
      env := (Libcortex.crtx_setup_listener s.env l g).modify l fun _ => base
      fds := fd :: s.fds
      setUp := Function.update s.setUp l true } := by
  unfold setupTimer ListenerList.crtx_setup_timer_listener
  dsimp only
  rw [if_neg (Bool.eq_false_iff.mp h), if_neg hfd]
  dsimp only
  rw [if_neg (Bool.eq_false_iff.mp h)]
  exact ⟨_, rfl, rfl⟩

theorem setupTimer_keeps (s : St) (l : ListenerId) (g : GraphId) {fd : Int} (hfd : FreshFd s fd) :
    Keeps s (setupTimer s l g fd).1 := by
  intro hi
  have hpart := setup_part s.env l g
  have hstart : ((Libcortex.crtx_setup_listener s.env l g).lstnr l).start_listener = s.setUp l :=
    (congrArg Prod.fst hpart).trans (hi.started l)
  have hother : ∀ f a, a ≠ l → ((Libcortex.crtx_setup_listener s.env l g).modify l f).lstnr a = s.env.lstnr a :=
    fun f a ha => by rw [Env.modify_other _ ha, setup_other _ ha]
  cases hl : s.setUp l with
  | true =>
    -- The timer keeps its descriptor.
    rw [setupTimer_old (hstart.trans hl)]
    obtain ⟨x, hx⟩ := Option.isSome_iff_exists.mp (hi.opened l hl)
    refine Keeps.alike rfl ?_ (fun a => ?_) hi
    · exact (congrArg _ hl.symm).trans (Function.update_eq_self ..)
    · by_cases ha : a = l
      · dsimp only
        rw [ha, Env.modify_self, hpart, (fdOf_eq_some.mp hx).2, Option.some_or, part, (fdOf_eq_some.mp hx).2]
      · exact congrArg part (hother (fun b => b) a ha)
  | false =>
    by_cases hfail : fd = -1
    · subst hfail
      rw [setupTimer_failed (hstart.trans hl)]
      have h : Changes l (false, (s.env.lstnr l).shutdown_cb, some (-1)) s { s with
          env := (Libcortex.crtx_setup_listener s.env l g).modify l fun b => { b with evloop_fd := some (-1) } } := by
        refine ⟨?_, fun a ha => congrArg part (hother (fun b => { b with evloop_fd := some (-1) }) a ha), ?_⟩
        · dsimp only
          rw [Env.modify_self]
          exact Prod.ext (hstart.trans hl) (Prod.ext (congrArg (fun b => b.2.1) hpart) rfl)
        · rw [← hl, Function.update_eq_self]
      obtain ⟨hinv, hiff⟩ := h.drop hi rfl fun _ => by decide
      exact ⟨hinv, hiff.trans (and_iff_left hl)⟩
    · obtain ⟨base, hbase, heq⟩ := setupTimer_new hfail (hstart.trans hl)
      rw [heq]
      refine Changes.opens (k := fd) ⟨?_, fun a ha => congrArg part (hother (fun _ => base) a ha), rfl⟩ rfl
        (hfd.resolve_left hfail).2 hl hi
      dsimp only
      rw [Env.modify_self, hbase]

theorem clear_spec {s : St} (hi : Inv s) (l : ListenerId) {base : Listener} (hstart : base.start_listener = false)
    (hbase : ClosesNothing base) (direct : Bool) :
    Inv (clear s l base direct) ∧
      (NoLeak (fdOf (clear s l base direct)) s.fds ↔ NoLeak (fdOf s) s.fds ∧ s.setUp l = false) := by
  have h : Changes l (false, base.shutdown_cb, base.evloop_fd) s (clear s l base direct) := by
    refine ⟨?_, fun a ha => ?_, rfl⟩
    · unfold clear
      dsimp only
      rw [Env.modify_self, part, hstart]
    · unfold clear
      dsimp only
      rw [Env.modify_other _ ha]
  exact h.drop hi rfl hbase

theorem startTimer_keeps (s : St) (l : ListenerId) (o : Outcome) : Keeps s (startTimer s l o).1 :=
  .alike rfl rfl (start_alike s.env l o)

theorem stopTimer_keeps (s : St) (l : ListenerId) (o : Outcome) : Keeps s (stopTimer s l o) :=
  .alike rfl rfl (.stop part_blind s.env l (callbacksOf o))

theorem setTimer_keeps (s : St) (l : ListenerId) (t : Itimerspec) : Keeps s (setTimer s l t) :=
  .alike rfl rfl (.refl part s.env)

theorem crtx_timer_rearm_keeps (s : St) (l : ListenerId) (g : GraphId) {fd : Int} (hfd : FreshFd s fd)
    (t : Itimerspec) (o : Outcome) : Keeps s (crtx_timer_rearm s l g fd t o).1 := by
  have hsetup := (setTimer_keeps s l t).trans (setupTimer_keeps (setTimer s l t) l g hfd)
  unfold crtx_timer_rearm
  dsimp only
  split
  · exact hsetup
  · exact hsetup.trans (startTimer_keeps _ l o)

theorem timer_fd_event_handler_keeps (s : St) (l : ListenerId) (f : Firing) (o : Outcome) :
    Keeps s (timer_fd_event_handler s l f o).1 := by
  have hrefl : Keeps s s := .alike rfl rfl (.refl part s.env)
  unfold timer_fd_event_handler
  split
  · exact hrefl
  · split
    · exact hrefl
    · dsimp only
      have hfired : Keeps s (if s.direct_callback l then (timer_oneshot_event_handler s l f.queued).1
          else { s with env := addTimerEvent s.env l f.e }) := by
        split
        · exact .alike rfl rfl (.refl part s.env)
        · refine .alike rfl rfl ?_
          unfold addTimerEvent
          split
          · exact .refl part s.env
          · exact .of_eq (addEvent_lstnr ..)
      generalize (if s.direct_callback l then (timer_oneshot_event_handler s l f.queued).1
          else { s with env := addTimerEvent s.env l f.e }) = s₁ at hfired ⊢
      split
      · exact hfired.trans (stopTimer_keeps _ l o)
      · exact hfired

theorem setupCleared_spec {s : St} (hi : Inv s) (l : ListenerId) (g : GraphId) {fd : Int} (hfd : FreshFd s fd)
    (t : Itimerspec) {b : Listener} (hstart : b.start_listener = false) (hbase : ClosesNothing b)
    (direct : Bool) {s' : St} (hs' : (setupTimer (setTimer (clear s l b direct) l t) l g fd).1 = s') :
    Inv s' ∧ (NoLeak (fdOf s') s'.fds ↔ NoLeak (fdOf s) s.fds ∧ s.setUp l = false) := by
  subst hs'
  obtain ⟨hinv, hiff⟩ := clear_spec hi l hstart hbase direct
  have hsetup := (setTimer_keeps (clear s l b direct) l t).trans (setupTimer_keeps _ l g hfd)
  obtain ⟨hinv', hiff'⟩ := hsetup hinv
  exact ⟨hinv', hiff'.trans hiff⟩

theorem crtx_timer_oneshot_keeps (s : St) {l : ListenerId} (g : GraphId) {fd : Int} (hl : s.setUp l = false)
    (hfd : FreshFd s fd) (offset : Int × Int) (o : Outcome) : Keeps s (crtx_timer_oneshot s l g fd offset o).1 := by
  intro hi
  obtain ⟨hinv, hiff⟩ := setupCleared_spec hi l g hfd ⟨offset, (0, 0)⟩
    (b := { crtx_calloc_listener_base with free_cb := some true }) rfl (fun _ => by decide) true rfl
  rw [and_iff_left hl] at hiff
  unfold crtx_timer_oneshot
  dsimp only
  split
  · exact ⟨hinv, hiff⟩
  · obtain ⟨hinv', hiff'⟩ := startTimer_keeps _ l o hinv
    exact ⟨hinv', hiff'.trans hiff⟩

theorem shutdown_spec {s : St} (hi : Inv s) (l : ListenerId) (o : Outcome) :
    Inv (crtx_shutdown_listener s l o) ∧
      (NoLeak (fdOf (crtx_shutdown_listener s l o)) (crtx_shutdown_listener s l o).fds ↔
        NoLeak (fdOf s) s.fds ∧ ¬ Loses s l) := by
  have hdown := shutdown_alike (hi.unclosed l) (callbacksOf o)
  unfold crtx_shutdown_listener
  dsimp only
  split
  · rename_i hgoes
    have hnone : ∀ fd : Int, autoClosed (s.env.lstnr l) ≠ some fd := by
      intro fd
      unfold autoClosed
      split
      · exact (Option.some_ne_none fd).symm
      · rename_i hcb
        have hneg := hi.unclosed l (Bool.eq_false_of_not_eq_true hcb)
        rw [if_neg fun h => absurd h.1 (Int.not_le.mpr hneg)]
        exact (Option.some_ne_none fd).symm
    have hfds : s.fds.filter (fun fd => autoClosed (s.env.lstnr l) ≠ some fd) = s.fds :=
      List.filter_eq_self.mpr fun fd _ => decide_eq_true (hnone fd)
    have h : Changes l (false, (s.env.lstnr l).shutdown_cb, (s.env.lstnr l).evloop_fd) s { s with
        env := (Libcortex.crtx_shutdown_listener s.env l (callbacksOf o)).modify l fun b =>
          if b.shutdown_cb then shutdown_listener b else b
        fds := s.fds
        setUp := Function.update s.setUp l false } := by
      refine ⟨?_, fun a ha => ?_, rfl⟩
      · obtain ⟨hstart, hcb, hfd⟩ := fields_alike hdown l
        dsimp only
        rw [Env.modify_self, part]
        split
        · exact Prod.ext rfl (Prod.ext hcb hfd)
        · rename_i hno
          refine Prod.ext ?_ (Prod.ext hcb hfd)
          rw [hcb] at hno
          rw [hstart, hi.started]
          exact Bool.eq_false_of_not_eq_true fun hl => hno (hi.callback l hl)
      · dsimp only
        rw [Env.modify_other _ ha, hdown a]
    rw [hfds]
    obtain ⟨hinv, hiff⟩ := h.drop hi rfl (hi.unclosed l)
    refine ⟨hinv, hiff.trans (and_congr_right fun _ => ?_)⟩
    unfold Loses
    rw [and_iff_left hgoes, Bool.not_eq_true]
  · rename_i hstays
    obtain ⟨hinv, hiff⟩ := Keeps.alike (s := s) (t := { s with
      env := Libcortex.crtx_shutdown_listener s.env l (callbacksOf o) }) rfl rfl hdown hi
    exact ⟨hinv, hiff.trans (and_iff_left fun h => hstays h.2).symm⟩

theorem step_spec (s : St) (a : Action) (s' : St) (hi : Inv s) (h : step s a = some s') :
    Inv s' ∧ (NoLeak (fdOf s') s'.fds ↔ NoLeak (fdOf s) s.fds ∧ LeavesSetUp s a) := by
  obtain ⟨hen, rfl⟩ := guarded_eq_some.mp h
  have hkeeps : ∀ {t}, Keeps s t → LeavesSetUp s a →
      Inv t ∧ (NoLeak (fdOf t) t.fds ↔ NoLeak (fdOf s) s.fds ∧ LeavesSetUp s a) := by
    intro t ht hok
    obtain ⟨hinv, hiff⟩ := ht hi
    exact ⟨hinv, hiff.trans (and_iff_left hok).symm⟩
  cases a with
  | setup l g fd t => exact hkeeps ((setTimer_keeps s l t).trans (setupTimer_keeps _ l g hen.2)) trivial
  | getListener l g fd t =>
    exact setupCleared_spec hi l g hen.2 t (b := crtx_calloc_listener_base) rfl (fun _ => by decide) false rfl
  | rearm l g fd t o => exact hkeeps (crtx_timer_rearm_keeps s l g hen.2 t o) trivial
  | oneshot l g fd offset o =>
    obtain ⟨-, -, hl, hfd⟩ := hen
    exact hkeeps (crtx_timer_oneshot_keeps s g hl hfd offset o) trivial
  | start l o => exact hkeeps (startTimer_keeps s l o) trivial
  | stop l o => exact hkeeps (stopTimer_keeps s l o) trivial
  | shutdown l o => exact shutdown_spec hi l o
  | fire l f o => exact hkeeps (timer_fd_event_handler_keeps s l f o) trivial
  | cleanUp o =>
    obtain ⟨l, hl, -⟩ := hen
    obtain ⟨rest, hpipe⟩ : ∃ rest, s.pipe = l :: rest := List.head?_eq_some_iff.mp hl
    have hpopped := Keeps.alike (s := s) (t := { s with pipe := rest }) rfl rfl (.refl part s.env)
    obtain ⟨hinv, hiff⟩ := shutdown_spec (hpopped hi).1 l o
    unfold apply crtx_selfpipe_cb_free_lstnr LeavesSetUp
    rw [hpipe]
    refine ⟨hinv, hiff.trans (and_congr_right fun _ => ?_)⟩
    simp [Loses]
  | addEvent p => exact hkeeps (.alike rfl rfl (.of_eq (addEvent_lstnr s.env p))) trivial
  | process g => exact hkeeps (.alike rfl rfl (.processEvent part_blind s.env g)) trivial

theorem init_inv : Inv init where
  started _ := rfl
  callback _ h := by cases h
  opened _ h := by cases h
  unclosed _ := fun _ => show (-1 : Int) < 0 by decide
  owned :=
    { mem := fun _ _ h => by cases h
      own := fun _ _ _ h => by cases h }

/-! ## The result -/

/-- The open timerfds are those of the timers that are set up if and only if no step has shut such a timer down, or set
its memory to zero. A timerfd is never closed. -/
theorem accounted_iff_leaves (as : List Action) (s : St) (hr : run step as init = some s) :
    Accounted s ↔ Meets step LeavesSetUp as init := by
  have hi : Inv s := run_invariant (fun s a s' hi h => (step_spec s a s' hi h).1) as init s init_inv hr
  rw [accounted_iff hi, run_iff_meets step_spec as init s init_inv hr]
  refine and_iff_right fun fd hfd => ?_
  cases hfd

/-- A timer is set up, armed twice and stopped. -/
def armed : List Action :=
  [.setup 0 0 5 ⟨(1, 0), (0, 0)⟩, .start 0 .quiet, .rearm 0 1 6 ⟨(2, 0), (0, 0)⟩ .quiet, .stop 0 .quiet]

theorem accounted_iff_leaves_armed : ∃ s, run step armed init = some s ∧ s.fds = [5] ∧ Accounted s :=
  ⟨_, rfl, rfl, (accounted_iff_leaves armed _ rfl).mpr ⟨trivial, trivial, trivial, trivial, trivial⟩⟩

/-- A oneshot timer fires, and is shut down and freed. Its timerfd stays open. -/
theorem oneshot_leaks_descriptor :
    ∃ s, run step [.oneshot 0 0 5 (1, 0) .quiet, .fire 0 ⟨true, true, true, 0⟩ .quiet, .cleanUp .quiet] init = some s ∧
      s.setUp 0 = false ∧ s.env.lfreed 0 = true ∧ s.fds = [5] ∧ ¬ Accounted s := by
  refine ⟨_, rfl, rfl, rfl, rfl, fun h => ?_⟩
  have hclosed := h.closed fun l => by
    change Function.update (Function.update (Function.update (fun _ => false) 0 false) 0 true) 0 false l = false
    simp [Function.update_apply]
  cases hclosed

end Libcortex.Timer
