import Libcortex.Graph
import Libcortex.Lib.Locks

/-!
# Listeners

`struct crtx_listener_base` and the functions of `core.c` that start, stop and shut down a
listener, and the processing of one event, which may end a shutdown that was delayed. Each
function writes into `log` which mutexes it locks, which states it sets and what it frees.
-/

open Libcortex.Lib

namespace Libcortex

/-- `enum crtx_listener_state` -/
inductive LstnrState where
  | unknown
  | starting
  | started
  | paused
  | stopping
  | stopped
  | shuttingDown
  | shutdown
deriving DecidableEq, Repr

/-- The numbers of the enumeration, which the code compares. -/
def LstnrState.num : LstnrState → Nat
  | .unknown => 0
  | .starting => 1
  | .started => 2
  | .paused => 3
  | .stopping => 4
  | .stopped => 5
  | .shuttingDown => 6
  | .shutdown => 7

/-- `evloop_fd` is the pointer `evloop_fd.fd`, with the number it points to. Of the callbacks it matters whether
they are set. `free_cb` also says whether it releases the listener. -/
structure Listener where
  state : LstnrState
  state_graph : Option GraphId
  mode : ProcessingMode
  evloop_fd : Option Int
  callbacks : List CallbackId
  default_el_cb : CallbackId
  el_cb_active : Bool
  thread_job : Bool
  eloop_thread : Option Nat
  start_listener : Bool
  stop_listener : Bool
  update_listener : Bool
  shutdown_cb : Bool
  free_cb : Option Bool
  startup_trigger : Bool
  no_auto_close : Bool
  free_after_event : Bool
  graph : Option GraphId
  dependencies : List ListenerId
  rev_dependencies : List ListenerId
deriving DecidableEq, Repr

inductive Mutex where
  | state (l : ListenerId)
  | dependencies (l : ListenerId)
  | queue (g : GraphId)
deriving DecidableEq, Repr

/-- What is logged. `touchGraph` and `touchLstnr` are the accesses of the processing of events. `intern` is a run
of `shutdown_listener_intern`, with what it found: are both lists of the graph empty? `delayed` is a shutdown that
returned early because events were pending. -/
inductive Ev where
  | lock (m : Mutex)
  | unlock (m : Mutex)
  | touchGraph (g : GraphId)
  | touchLstnr (l : ListenerId)
  | freeGraph (g : GraphId)
  | freeLstnr (l : ListenerId)
  | setState (l : ListenerId) (st : LstnrState)
  | setup (l : ListenerId)
  | callShutdown (l : ListenerId)
  | delayed (l : ListenerId)
  | intern (l : ListenerId) (idle : Bool)
deriving DecidableEq, Repr

/-- The newest entry of `log` comes first. -/
structure Env where
  root : Root
  lstnr : ListenerId → Listener
  gfreed : GraphId → Bool
  lfreed : ListenerId → Bool
  log : List Ev

/-- How the callbacks of one call behave, and what the system returns to it. The callbacks may add events, and
`start_listener` may change the mode and open a file descriptor. `event` is the new event about the state. -/
structure Outcome where
  start_ret : Int
  start_mode : Option ProcessingMode
  start_fd : Option Int
  start_adds : List (GraphId × EventId)
  stop_adds : List (GraphId × EventId)
  shutdown_adds : List (GraphId × EventId)
  update_ret : Int
  create_ret : Int
  event : EventId
  thread : Nat
deriving DecidableEq, Repr

def crtx_calloc_listener_base : Listener where
  state := .unknown
  state_graph := none
  mode := .preferNone
  evloop_fd := none
  callbacks := []
  default_el_cb := 0
  el_cb_active := false
  thread_job := false
  eloop_thread := none
  start_listener := false
  stop_listener := false
  update_listener := false
  shutdown_cb := false
  free_cb := none
  startup_trigger := false
  no_auto_close := false
  free_after_event := false
  graph := none
  dependencies := []
  rev_dependencies := []

/-- All calls succeed, and the callbacks do nothing. -/
def Outcome.quiet : Outcome where
  start_ret := 0
  start_mode := none
  start_fd := none
  start_adds := []
  stop_adds := []
  shutdown_adds := []
  update_ret := 0
  create_ret := 0
  event := 0
  thread := 0

namespace Env

/-- No graph, and no listener that was set up. -/
def initial : Env where
  root :=
    { events := fun _ => Event.fresh
      graphs := fun _ => ⟨[], .preferNone, [], [], none⟩
      registry := []
      pipe := []
      pipe_capacity := 65536
      nextEntry := 0
      force_mode := .preferNone
      default_mode := .preferEloop }
  lstnr _ := crtx_calloc_listener_base
  gfreed _ := false
  lfreed _ := false
  log := []

def emit (env : Env) (ev : Ev) : Env := { env with log := ev :: env.log }

def lock (env : Env) (m : Mutex) : Env := env.emit (.lock m)

def unlock (env : Env) (m : Mutex) : Env := env.emit (.unlock m)

def modify (env : Env) (l : ListenerId) (f : Listener → Listener) : Env :=
  { env with lstnr := Function.update env.lstnr l (f (env.lstnr l)) }

def setState (env : Env) (l : ListenerId) (st : LstnrState) : Env :=
  (env.modify l fun b => { b with state := st }).emit (.setState l st)

def setRoot (env : Env) (root : Root) : Env := { env with root }

@[simp] theorem emit_root (env : Env) (ev : Ev) : (env.emit ev).root = env.root := rfl
@[simp] theorem emit_lstnr (env : Env) (ev : Ev) : (env.emit ev).lstnr = env.lstnr := rfl
@[simp] theorem emit_gfreed (env : Env) (ev : Ev) : (env.emit ev).gfreed = env.gfreed := rfl
@[simp] theorem emit_lfreed (env : Env) (ev : Ev) : (env.emit ev).lfreed = env.lfreed := rfl
@[simp] theorem emit_log (env : Env) (ev : Ev) : (env.emit ev).log = ev :: env.log := rfl

@[simp] theorem lock_root (env : Env) (m : Mutex) : (env.lock m).root = env.root := rfl
@[simp] theorem lock_lstnr (env : Env) (m : Mutex) : (env.lock m).lstnr = env.lstnr := rfl
@[simp] theorem lock_gfreed (env : Env) (m : Mutex) : (env.lock m).gfreed = env.gfreed := rfl
@[simp] theorem lock_lfreed (env : Env) (m : Mutex) : (env.lock m).lfreed = env.lfreed := rfl
@[simp] theorem lock_log (env : Env) (m : Mutex) : (env.lock m).log = .lock m :: env.log := rfl

@[simp] theorem unlock_root (env : Env) (m : Mutex) : (env.unlock m).root = env.root := rfl
@[simp] theorem unlock_lstnr (env : Env) (m : Mutex) : (env.unlock m).lstnr = env.lstnr := rfl
@[simp] theorem unlock_gfreed (env : Env) (m : Mutex) : (env.unlock m).gfreed = env.gfreed := rfl
@[simp] theorem unlock_lfreed (env : Env) (m : Mutex) : (env.unlock m).lfreed = env.lfreed := rfl
@[simp] theorem unlock_log (env : Env) (m : Mutex) : (env.unlock m).log = .unlock m :: env.log := rfl

@[simp] theorem modify_root (env : Env) (l : ListenerId) (f : Listener → Listener) :
    (env.modify l f).root = env.root := rfl
@[simp] theorem modify_gfreed (env : Env) (l : ListenerId) (f : Listener → Listener) :
    (env.modify l f).gfreed = env.gfreed := rfl
@[simp] theorem modify_lfreed (env : Env) (l : ListenerId) (f : Listener → Listener) :
    (env.modify l f).lfreed = env.lfreed := rfl
@[simp] theorem modify_log (env : Env) (l : ListenerId) (f : Listener → Listener) : (env.modify l f).log = env.log :=
  rfl
@[simp] theorem modify_self (env : Env) (l : ListenerId) (f : Listener → Listener) :
    (env.modify l f).lstnr l = f (env.lstnr l) := Function.update_self ..
theorem modify_other (env : Env) {l l' : ListenerId} (h : l' ≠ l) (f : Listener → Listener) :
    (env.modify l f).lstnr l' = env.lstnr l' := Function.update_of_ne h ..

@[simp] theorem setRoot_root (env : Env) (r : Root) : (env.setRoot r).root = r := rfl
@[simp] theorem setRoot_lstnr (env : Env) (r : Root) : (env.setRoot r).lstnr = env.lstnr := rfl
@[simp] theorem setRoot_gfreed (env : Env) (r : Root) : (env.setRoot r).gfreed = env.gfreed := rfl
@[simp] theorem setRoot_lfreed (env : Env) (r : Root) : (env.setRoot r).lfreed = env.lfreed := rfl
@[simp] theorem setRoot_log (env : Env) (r : Root) : (env.setRoot r).log = env.log := rfl

@[simp] theorem setState_root (env : Env) (l : ListenerId) (st : LstnrState) : (env.setState l st).root = env.root :=
  rfl
@[simp] theorem setState_gfreed (env : Env) (l : ListenerId) (st : LstnrState) :
    (env.setState l st).gfreed = env.gfreed := rfl
@[simp] theorem setState_lfreed (env : Env) (l : ListenerId) (st : LstnrState) :
    (env.setState l st).lfreed = env.lfreed := rfl
@[simp] theorem setState_log (env : Env) (l : ListenerId) (st : LstnrState) :
    (env.setState l st).log = .setState l st :: env.log := rfl
@[simp] theorem setState_self (env : Env) (l : ListenerId) (st : LstnrState) :
    (env.setState l st).lstnr l = { env.lstnr l with state := st } := Function.update_self ..
theorem setState_other (env : Env) {l l' : ListenerId} (h : l' ≠ l) (st : LstnrState) :
    (env.setState l st).lstnr l' = env.lstnr l' := Function.update_of_ne h ..

/-- Are both lists of the graph empty? -/
def idle (env : Env) (g : GraphId) : Bool :=
  (env.root.graphs g).equeue.isEmpty && (env.root.graphs g).claimed.isEmpty

@[simp] theorem lock_idle (env : Env) (m : Mutex) (g : GraphId) : (env.lock m).idle g = env.idle g := rfl

/-- `crtx_add_event`. On a freed graph it would write into memory that is gone, which leaves no queue behind. -/
def addEvent (env : Env) (p : GraphId × EventId) : Env :=
  if env.gfreed p.1 then env
  else if (env.root.graphs p.1).tasks = [] then env.setRoot (crtx_add_event env.root p.1 p.2)
  else ((env.lock (.queue p.1)).setRoot (crtx_add_event env.root p.1 p.2)).unlock (.queue p.1)

def addEvents (env : Env) (adds : List (GraphId × EventId)) : Env := adds.foldl addEvent env

/-- The event about the new state, if there is a graph for it. Returns what `ret` holds afterwards. -/
def postState (env : Env) (l : ListenerId) (o : Outcome) (ret : Int) : Env × Int :=
  match (env.lstnr l).state_graph with
  | none => (env, ret)
  | some sg =>
    if o.create_ret = 0 then
      ((env.setRoot (env.root.setEvent o.event Event.fresh)).addEvent (sg, o.event), o.create_ret)
    else (env, o.create_ret)

end Env

open Env

/-! ## Starting -/

/-- The `start_listener` callback, if there is one. -/
def startCallback (env : Env) (l : ListenerId) (o : Outcome) : Env :=
  if (env.lstnr l).start_listener then
    (env.modify l fun b =>
      { b with mode := o.start_mode.getD b.mode, evloop_fd := o.start_fd.or b.evloop_fd }).addEvents o.start_adds
  else env

/-- The mode after the two corrections for listeners that lack what the mode needs. `fd <= 0` and `fd > 0` compare
a pointer, so they only ask whether there is one. -/
def startMode (b : Listener) (mode : ProcessingMode) : ProcessingMode :=
  let mode := if mode = .preferEloop ∧ b.evloop_fd = none then .preferThread else mode
  if mode = .preferThread ∧ b.thread_job = false then
    if b.evloop_fd ≠ none then .preferEloop else .preferNone
  else mode

/-- Add the file descriptor to the event loop or start a thread. `none`: there is no way to start this listener. -/
def activate (env : Env) (l : ListenerId) (o : Outcome) : Option Env :=
  let b := env.lstnr l
  if b.evloop_fd ≠ none ∨ b.thread_job then
    match startMode b (crtx_get_mode env.root b.mode) with
    | .preferThread => some (env.modify l fun b => { b with eloop_thread := some o.thread })
    | .preferEloop => some (env.modify l fun b => { b with el_cb_active := true })
    | .noProcessingMode => some env
    | .preferNone => none
  else some env

/-- The event loop is chosen, and the code follows `evloop_fd.callbacks` to a callback that isn't there. `activate` goes
on, so this says where the process has ended. -/
def activateCrashes (env : Env) (l : ListenerId) : Prop :=
  let b := env.lstnr l
  (b.evloop_fd ≠ none ∨ b.thread_job) ∧ startMode b (crtx_get_mode env.root b.mode) = .preferEloop ∧ b.callbacks = []

instance (env : Env) (l : ListenerId) : Decidable (activateCrashes env l) :=
  inferInstanceAs (Decidable (_ ∧ _ ∧ _))

/-- `CRTX_LSTNR_STARTUP_TRIGGER` -/
def startupTrigger (env : Env) (l : ListenerId) : Env :=
  let b := env.lstnr l
  if b.startup_trigger then env.setRoot (crtx_evloop_trigger_callback env.root b.default_el_cb) else env

/-- The check `evloop_fd.fd < 0` before the activation compares a pointer and never holds, so it is left out. A
start that fails returns what `crtx_create_event` returned, if it was called. -/
def crtx_start_listener (env : Env) (l : ListenerId) (o : Outcome) : Env × Int :=
  let env := env.lock (.state l)
  if (env.lstnr l).state = .started then (env.unlock (.state l), -EINPROGRESS)
  else
    let env := startCallback (env.setState l .starting) l o
    if (env.lstnr l).start_listener = true ∧ o.start_ret < 0 then
      let (env, ret) := (env.setState l .stopped).postState l o o.start_ret
      (env.unlock (.state l), ret)
    else
      match activate env l o with
      | none => (env.unlock (.state l), -EINVAL)
      | some env =>
        let env := ((env.setState l .started).postState l o 0).1
        ((startupTrigger env l).unlock (.state l), 0)

/-- The start gets as far as the activation and crashes there. -/
def startCrashes (env : Env) (l : ListenerId) (o : Outcome) : Prop :=
  (env.lstnr l).state ≠ .started ∧ ¬ ((env.lstnr l).start_listener = true ∧ o.start_ret < 0) ∧
    activateCrashes (startCallback ((env.lock (.state l)).setState l .starting) l o) l

instance (env : Env) (l : ListenerId) (o : Outcome) : Decidable (startCrashes env l o) :=
  inferInstanceAs (Decidable (_ ∧ _ ∧ _))

def crtx_update_listener (env : Env) (l : ListenerId) (o : Outcome) : Env × Int :=
  if (env.lstnr l).state ≠ .started then crtx_start_listener env l o
  else if (env.lstnr l).update_listener then (env, o.update_ret) else (env, 0)

/-! ## Stopping -/

/-- Are all listeners that depend on this one stopped? -/
def revDepsReady (env : Env) (l : ListenerId) : Bool :=
  (env.lstnr l).rev_dependencies.all fun d => LstnrState.stopped.num ≤ (env.lstnr d).state.num

/-- The listener is taken off the lists of those it depends on. -/
def dropDependencies (env : Env) (l : ListenerId) : Env :=
  let env := (env.lstnr l).dependencies.foldl
    (fun env d => env.modify d fun b => { b with rev_dependencies := b.rev_dependencies.erase l }) env
  env.modify l fun b => { b with dependencies := [] }

def runStopCb (env : Env) (l : ListenerId) (o : Outcome) : Env :=
  if (env.lstnr l).stop_listener then env.addEvents o.stop_adds else env

/-- What `crtx_stop_listener` does with the lock of the dependencies released: the event loop lets go of the
listener, then the `stop_listener` callback runs, and the thread has ended. -/
def stopActivity (env : Env) (l : ListenerId) (o : Outcome) : Env :=
  let env := runStopCb (env.modify l fun b => { b with el_cb_active := false }) l o
  env.modify l fun b => { b with eloop_thread := none }

def crtx_stop_listener (env : Env) (l : ListenerId) (o : Outcome) : Env × Int :=
  let env := env.lock (.state l)
  if LstnrState.stopped.num ≤ (env.lstnr l).state.num then (env.unlock (.state l), EALREADY)
  else
    let env := (env.setState l .stopping).lock (.dependencies l)
    if revDepsReady env l = false then ((env.unlock (.state l)).unlock (.dependencies l), 1)
    else
      let env := (dropDependencies env l).unlock (.dependencies l)
      let env := (stopActivity env l o).setState l .stopped
      ((env.postState l o 0).1.unlock (.state l), 0)

/-! ## Shutting down -/

/-- `crtx_free_graph` -/
def freeGraph (env : Env) (g : GraphId) : Env :=
  { env with
    root := shutdown_graph_intern env.root g
    gfreed := Function.update env.gfreed g true
    log := .freeGraph g :: env.log }

/-- The first part of `shutdown_listener_intern`: the graph is freed if it belongs to the listener. -/
def releaseGraph (env : Env) (l : ListenerId) : Env :=
  match (env.lstnr l).graph with
  | some g =>
    if (env.root.graphs g).listener = some l then (freeGraph env g).modify l fun b => { b with graph := none }
    else env
  | none => env

def callFreeCb (env : Env) (l : ListenerId) : Env :=
  if (env.lstnr l).free_cb = some true then
    { env with
      lfreed := Function.update env.lfreed l true
      log := .freeLstnr l :: env.log }
  else env

def graphIdle (env : Env) (l : ListenerId) : Bool :=
  match (env.lstnr l).graph with
  | some g => env.idle g
  | none => true

def shutdown_listener_intern (env : Env) (l : ListenerId) : Env :=
  callFreeCb (releaseGraph (env.emit (.intern l (graphIdle env l))) l) l

/-- The callbacks of the file descriptor are removed, if there is one. -/
def removeCallbacks (env : Env) (l : ListenerId) : Env :=
  if 0 ≤ (env.lstnr l).evloop_fd.getD (-1) then
    env.modify l fun b => { b with callbacks := [], el_cb_active := false }
  else env

/-- The `shutdown` callback runs, or else the descriptor is closed. -/
def runShutdownCb (env : Env) (l : ListenerId) (o : Outcome) : Env :=
  if (env.lstnr l).shutdown_cb then env.addEvents o.shutdown_adds
  else if 0 ≤ (env.lstnr l).evloop_fd.getD (-1) ∧ (env.lstnr l).no_auto_close = false then
    env.modify l fun b => { b with evloop_fd := some (-1) }
  else env

/-- The end of `crtx_shutdown_listener`. The listener stays if its graph has pending events. -/
def finishShutdown (env : Env) (l : ListenerId) : Env :=
  match (env.lstnr l).graph with
  | some g =>
    let env := env.lock (.queue g)
    if env.idle g then shutdown_listener_intern (env.unlock (.queue g)) l
    else (((env.emit (.delayed l)).unlock (.queue g)).setState l .shutdown).unlock (.state l)
  | none => shutdown_listener_intern env l

/-- A shutdown of a listener whose shutdown was delayed. -/
def retryShutdown (env : Env) (l : ListenerId) : Env :=
  match (env.lstnr l).graph with
  | some g =>
    let env := env.lock (.queue g)
    if env.idle g then shutdown_listener_intern env l else (env.unlock (.queue g)).unlock (.state l)
  | none => env.unlock (.state l)

def crtx_shutdown_listener (env : Env) (l : ListenerId) (o : Outcome) : Env :=
  let env := (crtx_stop_listener (env.emit (.callShutdown l)) l o).1.lock (.state l)
  let st := (env.lstnr l).state
  if st.num < LstnrState.stopped.num ∨ st = .shuttingDown then env.unlock (.state l)
  else if st = .shutdown then retryShutdown env l
  else finishShutdown (runShutdownCb (removeCallbacks ((env.setState l .shuttingDown).unlock (.state l)) l) l o) l

/-! ## Setup and retry timers -/

/-- The listener gets the new graph `g`, unless it has one. -/
def ensureGraph (env : Env) (l : ListenerId) (g : GraphId) : Env :=
  if (env.lstnr l).graph = none then
    (env.setRoot (registerGraph (env.root.setGraph g ⟨[], .preferNone, [], [], some l⟩) g)).modify l fun b =>
      { b with graph := some g }
  else env

/-- The effect on the listener is that of `crtx_init_listener_base`. -/
def crtx_setup_listener (env : Env) (l : ListenerId) (g : GraphId) : Env :=
  let env := ensureGraph ((env.emit (.setup l)).setState l .stopped) l g
  env.modify l fun b => { b with evloop_fd := b.evloop_fd.or (some (-1)) }

theorem setup_other (env : Env) {l l' : ListenerId} (h : l' ≠ l) (g : GraphId) :
    (crtx_setup_listener env l g).lstnr l' = env.lstnr l' := by
  unfold crtx_setup_listener ensureGraph
  dsimp only
  rw [modify_other _ h]
  split
  · rw [modify_other _ h, setRoot_lstnr, setState_other _ h, emit_lstnr]
  · rw [setState_other _ h, emit_lstnr]

theorem setup_graphs_other (env : Env) (l : ListenerId) {g g' : GraphId} (h : g' ≠ g) :
    (crtx_setup_listener env l g).root.graphs g' = env.root.graphs g' := by
  unfold crtx_setup_listener ensureGraph
  dsimp only
  rw [modify_root]
  split
  · exact Function.update_of_ne h ..
  · rfl

def retry_listener_task (env : Env) (l : ListenerId) (o : Outcome) : Env :=
  if (env.lstnr l).state = .stopped then (crtx_start_listener env l o).1 else env

def retry_listener_os_cb (env : Env) (l : ListenerId) (o : Outcome) : Env := (crtx_start_listener env l o).1

/-! ## Processing one event -/

/-- `crtx_claim_next_event_of_graph`, as the first part of `crtx_process_one_event` -/
def claimPart (env : Env) (g : GraphId) : Env × Option Entry :=
  let env := (env.emit (.touchGraph g)).lock (.queue g)
  let (r, q) := crtx_claim_next_event_of_graph env.root g
  ((env.setRoot r).unlock (.queue g), q)

/-- With `queue_mutex` held: has the listener of the graph waited for this event? -/
def checkDelayed (env : Env) (g : GraphId) : Env :=
  match (env.root.graphs g).listener with
  | some l =>
    let env := (env.emit (.touchLstnr l)).lock (.state l)
    if env.idle g ∧ (env.lstnr l).state = .shutdown then shutdown_listener_intern env l else env.unlock (.state l)
  | none => env

/-- `free_after_event` -/
def afterEvent (env : Env) (g : GraphId) (o : Outcome) : Env :=
  let env := env.emit (.touchGraph g)
  match (env.root.graphs g).listener with
  | some l =>
    let env := env.emit (.touchLstnr l)
    if (env.lstnr l).free_after_event then crtx_shutdown_listener env l o else env
  | none => env

/-- `crtx_process_one_event` after the tasks have run. -/
def completePart (env : Env) (g : GraphId) (q : Entry) (o : Outcome) : Env :=
  let env := env.setRoot (dropReference env.root q.event)
  let env := (env.emit (.touchGraph g)).lock (.queue g)
  let env := env.setRoot (finishEntry env.root g q)
  let env := (checkDelayed env g).emit (.touchGraph g)
  afterEvent (env.unlock (.queue g)) g o

/-- `handler` is what the tasks of the graph do. -/
def crtx_process_one_event (env : Env) (g : GraphId) (handler : Env → Env) (o : Outcome) : Env × Int :=
  match claimPart env g with
  | (env, none) => (env, -EAGAIN)
  | (env, some q) => (completePart (handler (env.emit (.touchGraph g))) g q o, 1)

/-! ## Two states to start from -/

/-- A listener that was set up, with its graph. -/
def Env.idleListener : Env := { crtx_setup_listener Env.initial 0 0 with log := [] }

theorem idleListener_graphs {g : GraphId} (h : g ≠ 0) : Env.idleListener.root.graphs g = Env.initial.root.graphs g := by
  unfold Env.idleListener
  dsimp only
  exact setup_graphs_other Env.initial 0 h

theorem idleListener_lstnr {l : ListenerId} (h : l ≠ 0) : Env.idleListener.lstnr l = Env.initial.lstnr l := by
  unfold Env.idleListener
  dsimp only
  exact setup_other Env.initial h 0

/-- The same with a task and one event in the queue. -/
def Env.busyListener : Env :=
  let root := idleListener.root.setGraph 0 { idleListener.root.graphs 0 with tasks := [0] }
  idleListener.setRoot (crtx_add_event root 0 0)

end Libcortex
