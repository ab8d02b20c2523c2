import Mathlib.Logic.Function.Basic
import Mathlib.Data.List.Nodup
import Libcortex.ChildHandlers
import Libcortex.Lib.Run
import Libcortex.Starting

/-!
# The children of fork listeners

A start of a fork listener registers a handler for the end of children and lets the event loop fork. The handler is
called for every child that is reaped, and stops the listener of the child. A stop before that sends a signal to the
child. If that fails, the handler stays. The number of the child is kept after it has been reaped, and may belong to
another process then.
-/

open Libcortex.Lib

namespace Libcortex.ForkChildren

/-! ## Processes and listeners -/

/-- What `waitpid` says about a child: `WIFEXITED` or `WIFSIGNALED`. -/
inductive Status where
  | exited (code : Int)
  | signaled (sig : Int)
deriving DecidableEq, Repr

/-- A child that has not been reaped. `owner` is the listener that forked it, and `ended` is its status if it is a
zombie. -/
structure Child (L : Type) where
  pid : Int
  owner : Option L
  ended : Option Status
deriving DecidableEq, Repr

inductive LstnrState where
  | unknown
  | started
  | stopped
deriving DecidableEq, Repr

/-- `struct crtx_fork_listener`. `child_stopped` is the flag `CRTX_FORK_CHILD_STOPPED`. -/
structure ForkListener where
  state : LstnrState
  pid : Int
  child_stopped : Bool
  sigchld_data : Option Nat
deriving DecidableEq, Repr

def CRTX_FORK_ET_CHILD_STOPPED : Nat := 602
def CRTX_FORK_ET_CHILD_KILLED : Nat := 603

/-- The type and the number of an event. -/
abbrev ForkEvent := Nat × Int

/-- What happened, for the statements. -/
inductive Ev (L : Type) where
  | forked (owner : Option L) (pid : Int)
  | inChild
  | reaped (pid : Int) (owner : Option L) (status : Status)
  | kill (l : L) (pid : Int)
  | event (l : L) (e : ForkEvent)
deriving DecidableEq, Repr

/-- A process. `handlers` is the list `sigchld_cbs`, each entry with its address, `pending` are the callbacks in the
control pipe, and `fault` is an access to an entry that was freed. -/
structure State (L : Type) where
  lst : L → ForkListener
  handlers : List (Nat × L)
  pending : List L
  children : List (Child L)
  fault : Bool
  log : List (Ev L)

section

variable {L : Type} [DecidableEq L]

def State.emit (s : State L) (e : Ev L) : State L := { s with log := s.log ++ [e] }

def State.modify (s : State L) (l : L) (f : ForkListener → ForkListener) : State L :=
  { s with lst := Function.update s.lst l (f (s.lst l)) }

/-! ## The code -/

/-- `data` is what `malloc` returns. The signal listener can be set up and started. -/
def crtx_signals_add_child_handler (s : State L) (l : L) (data : Nat) : State L :=
  { s with handlers := s.handlers ++ [(data, l)] }

def crtx_signals_rem_child_handler (s : State L) (sigchld_data : Option Nat) : State L :=
  { s with handlers := s.handlers.filter fun h => some h.1 ≠ sigchld_data }

def start_listener (s : State L) (l : L) (data : Nat) : State L :=
  let s := crtx_signals_add_child_handler s l data
  let s := s.modify l fun f => { f with sigchld_data := some data }
  let s := { s with pending := s.pending ++ [l] }
  s.modify l fun f => { f with pid := 0, child_stopped := false }

/-- The state of another listener that starts does not matter here. -/
def crtx_start_listener (s : State L) (l : L) (data : Nat) : State L :=
  if (s.lst l).state = .started then s
  else (start_listener s l data).modify l fun f => { f with state := .started }

/-- `r` is what `kill` returns. -/
def stop_listener (s : State L) (l : L) (r : Int) : State L :=
  let f := s.lst l
  if 0 < f.pid ∧ f.child_stopped = false then
    let s := s.emit (.kill l f.pid)
    if r ≠ 0 then s else crtx_signals_rem_child_handler s f.sigchld_data
  else crtx_signals_rem_child_handler s f.sigchld_data

/-- The result of `stop_listener` is not looked at. -/
def crtx_stop_listener (s : State L) (l : L) (r : Int) : State L :=
  if (s.lst l).state = .stopped then s
  else (stop_listener s l r).modify l fun f => { f with state := .stopped }

/-- The type and the data of the event. -/
def eventOf : Status → ForkEvent
  | .exited code => (CRTX_FORK_ET_CHILD_STOPPED, code)
  | .signaled sig => (CRTX_FORK_ET_CHILD_KILLED, sig)

def fork_sigchld_cb (pid : Int) (status : Status) (s : State L) (l : L) : State L :=
  if pid = (s.lst l).pid then
    -- No signal is sent any more.
    let s := s.modify l fun f => { f with child_stopped := true }
    (crtx_stop_listener s l 0).emit (.event l (eventOf status))
  else s

/-- The inner loop of `sigchild_event_handler`, from one entry on. The next entry is known before the callback, and has
to be there after it. -/
def callHandlers (pid : Int) (status : Status) : List (Nat × L) → State L → State L
  | [], s => s
  | h :: todo, s =>
    let s := fork_sigchld_cb pid status s h.2
    if ∀ n ∈ todo.head?, n ∈ s.handlers then callHandlers pid status todo s else { s with fault := true }

/-- A round of `sigchild_event_handler`, for one child. -/
def reap (s : State L) (c : Child L) (status : Status) : State L :=
  let s := { s with children := s.children.filter fun d => d.pid ≠ c.pid }
  callHandlers c.pid status s.handlers (s.emit (.reaped c.pid c.owner status))

/-- What `fork` returns. Either of the two processes can be followed. They share the control pipe, and `pending` is what
the child finds there. -/
inductive Forked (L : Type) where
  | failed
  | parent (pid : Int)
  | child (pending : List L)

/-- The child first forgets the children of its parent. -/
def do_fork (s : State L) (l : L) : Forked L → State L
  | .failed => s.modify l fun f => { f with pid := -1 }
  | .parent pid =>
    let s := s.modify l fun f => { f with pid }
    { s with children := s.children ++ [⟨pid, some l, none⟩], log := s.log ++ [.forked (some l) pid] }
  | .child pending =>
    { s with lst := fun l => { s.lst l with pid := 0 }, children := [], pending, log := s.log ++ [.inChild] }

/-! ## The code of `core.c` and `signals.c` -/

/-- The state in `struct crtx_listener_base`. -/
def LstnrState.base : LstnrState → Libcortex.LstnrState
  | .unknown => .unknown
  | .started => .started
  | .stopped => .stopped

theorem start_state (s : State L) (l : L) (data : Nat) : ((crtx_start_listener s l data).lst l).state = .started := by
  unfold crtx_start_listener
  split
  · assumption
  · simp [State.modify]

theorem stop_state (s : State L) (l : L) (r : Int) : ((crtx_stop_listener s l r).lst l).state = .stopped := by
  unfold crtx_stop_listener
  split
  · assumption
  · simp [State.modify]

/-- A listener without a descriptor, whose callback succeeds, is started as by `crtx_start_listener` of `core.c`. -/
theorem start_base {env : Env} {l : ListenerId} {o : Outcome} (hret : o.start_ret = 0)
    (hfd : (Starting.afterCallback (env.lstnr l) o).evloop_fd = none)
    (hthread : (Starting.afterCallback (env.lstnr l) o).thread_job = false) (s : State ListenerId) (data : Nat) :
    ((Libcortex.crtx_start_listener env l o).1.lstnr l).state = ((crtx_start_listener s l data).lst l).state.base := by
  rw [start_state]
  by_cases hstarted : (env.lstnr l).state = .started
  · rw [Starting.start_refines (Starting.start_already true o hstarted)]
    exact hstarted
  · have hchooses : Starting.Chooses (env.lstnr l) o := ⟨hstarted, fun h => by omega⟩
    have hchoice : Starting.choose true (Starting.afterCallback (env.lstnr l) o) (Starting.chosenMode env l o) =
        .use .nothing := by simp [Starting.choose, hfd, hthread]
    obtain ⟨env', hstart, hstate⟩ := Starting.start_uses hchooses hchoice
    rw [Starting.start_refines hstart]
    exact hstate

/-- If nothing depends on the listener, it is stopped as by `crtx_stop_listener` of `core.c`. -/
theorem stop_base {env : Env} {l : ListenerId} {s : State ListenerId}
    (hstate : (env.lstnr l).state = (s.lst l).state.base) (halone : revDepsReady env l = true) (o : Outcome) (r : Int) :
    ((Libcortex.crtx_stop_listener env l o).1.lstnr l).state = ((crtx_stop_listener s l r).lst l).state.base := by
  rw [stop_state]
  rcases stop_does env l o with ⟨hle, hd⟩ | ⟨-, hbusy, -⟩ | ⟨-, -, hd⟩
  · rw [hd.state]
    change (env.lstnr l).state = _
    cases hst : (s.lst l).state with
    | stopped => rw [hstate, hst]
    | unknown | started =>
      rw [hstate, hst] at hle
      exact absurd hle (by decide)
  · rw [halone] at hbusy
    cases hbusy
  · rw [hd.state, statesOf_stopActs]
    rfl

/-- The handlers, each with the listener that it is for. -/
def entries (items : List ChildHandlers.Item) : List (Nat × ListenerId) :=
  (ChildHandlers.handlers items).map fun h => (h.1, h.2.userdata)

theorem entries_append (xs ys : List ChildHandlers.Item) : entries (xs ++ ys) = entries xs ++ entries ys := by
  simp [entries, ChildHandlers.handlers]

/-- The list of `signals.c` with the new handler. -/
theorem add_base {t : ChildHandlers.State} {items : List ChildHandlers.Item} (ht : ChildHandlers.Registered t items)
    {s : State ListenerId} (hs : s.handlers = entries items) (cb : Nat) (l : ListenerId) :
    ∃ t' items', ChildHandlers.crtx_signals_add_child_handler t true ⟨cb, l⟩ = some (t', some t.blocks.next) ∧
      ChildHandlers.Registered t' items' ∧
      (crtx_signals_add_child_handler s l t.blocks.next).handlers = entries items' := by
  rcases ht.add true ⟨cb, l⟩ with ⟨h, -⟩ | ⟨t', hadd, ht', -, -⟩
  · cases h
  · refine ⟨t', _, hadd, ht', ?_⟩
    rw [entries_append, ← hs]
    rfl

/-- The list of `signals.c` without the handler. -/
theorem rem_base {t : ChildHandlers.State} {items : List ChildHandlers.Item} (ht : ChildHandlers.Registered t items)
    {s : State ListenerId} (hs : s.handlers = entries items) (data : Nat) :
    ∃ t' r items', ChildHandlers.crtx_signals_rem_child_handler t data = some (t', r) ∧
      ChildHandlers.Registered t' items' ∧
      (crtx_signals_rem_child_handler s (some data)).handlers = entries items' := by
  have hfilter : (crtx_signals_rem_child_handler s (some data)).handlers =
      ((ChildHandlers.handlers items).filter (·.1 ≠ data)).map fun h => (h.1, h.2.userdata) := by
    simp only [crtx_signals_rem_child_handler, hs, entries, List.filter_map]
    refine congrArg _ (List.filter_congr fun h _ => ?_)
    simp
  by_cases hmem : data ∈ (ChildHandlers.handlers items).map Prod.fst
  · obtain ⟨h, hh, rfl⟩ := List.mem_map.mp hmem
    obtain ⟨i, hi, rfl⟩ := List.mem_map.mp hh
    obtain ⟨xs, ys, rfl⟩ := List.append_of_mem hi
    obtain ⟨t', hrem, ht', -, -⟩ := ht.remove
    refine ⟨t', 0, xs ++ ys, hrem, ht', ?_⟩
    rw [hfilter, ht.filter_handlers]
    rfl
  · refine ⟨t, 1, items, ht.remove_unknown hmem, ht, ?_⟩
    rw [hfilter, List.filter_eq_self.mpr]
    · rfl
    · intro h hh
      have hne : h.1 ≠ data := fun heq => hmem (heq ▸ List.mem_map_of_mem hh)
      simpa using hne

/-! ## Runs -/

inductive Action (L : Type) where
  | start (l : L) (data : Nat)
  | stop (l : L) (r : Int)
  | dispatch (r : Forked L)
  | spawn (pid : Int)
  | exit (pid : Int) (status : Status)
  | reap (pid : Int)

/-- A number that no child has which the process has to reap. -/
def Unused (s : State L) (pid : Int) : Prop := 0 < pid ∧ ∀ c ∈ s.children, c.pid ≠ pid

instance (s : State L) (pid : Int) : Decidable (Unused s pid) := inferInstanceAs (Decidable (_ ∧ ∀ c ∈ _, _))

/-- Only listeners that have been started are in the control pipe. -/
def Forked.Possible (s : State L) : Forked L → Prop
  | .failed => True
  | .parent pid => Unused s pid
  | .child pending => ∀ l ∈ pending, (s.lst l).state ≠ .unknown

instance (s : State L) (r : Forked L) : Decidable (r.Possible s) := by
  cases r <;> unfold Forked.Possible <;> infer_instance

def State.child? (s : State L) (pid : Int) : Option (Child L) := s.children.find? fun c => c.pid = pid

def endChild (pid : Int) (status : Status) (c : Child L) : Child L :=
  if c.pid = pid then { c with ended := some status } else c

/-- `spawn` is a fork by other code of the process, whose children are reaped by the same handler. -/
def step (s : State L) : Action L → Option (State L)
  | .start l data => if data ∈ s.handlers.map Prod.fst then none else some (crtx_start_listener s l data)
  | .stop l r => some (crtx_stop_listener s l r)
  | .dispatch r =>
    match s.pending with
    | [] => none
    | l :: pending => if r.Possible s then some (do_fork { s with pending } l r) else none
  | .spawn pid =>
    if Unused s pid then
      some { s with children := s.children ++ [⟨pid, none, none⟩], log := s.log ++ [.forked none pid] }
    else none
  | .exit pid status =>
    if (s.child? pid).any (·.ended = none) then some { s with children := s.children.map (endChild pid status) }
    else none
  | .reap pid => (s.child? pid).bind fun c => c.ended.map fun status => reap s c status

/-- Listeners that have been set up, and no children yet. -/
def initial (L : Type) : State L where
  lst _ := ⟨.unknown, 0, false, none⟩
  handlers := []
  pending := []
  children := []
  fault := false
  log := []

/-! ## What has to hold -/

/-- The condition under which a listener that is stopped sends a signal. -/
def ForkListener.Signals (f : ForkListener) : Prop := 0 < f.pid ∧ f.child_stopped = false

instance (f : ForkListener) : Decidable f.Signals := inferInstanceAs (Decidable (_ ∧ _))

/-- No signal fails to be sent, as happens if the child has become another user. -/
def Permitted (s : State L) : Action L → Prop
  | .stop l r => (s.lst l).Signals → r = 0
  | .start _ _ | .dispatch _ | .spawn _ | .exit _ _ | .reap _ => True

instance (s : State L) : ∀ a, Decidable (Permitted s a)
  | .stop _ _ => inferInstanceAs (Decidable (_ → _))
  | .start _ _ | .dispatch _ | .spawn _ | .exit _ _ | .reap _ => inferInstanceAs (Decidable True)

/-- The children that are left to reap, and who forked them, as the log tells. -/
def note (b : List (Int × Option L)) : Ev L → List (Int × Option L)
  | .forked owner pid => b ++ [(pid, owner)]
  | .inChild => []
  | .reaped pid _ _ => b.filter fun x => x.1 ≠ pid
  | .kill _ _ => b
  | .event _ _ => b

def unreaped (log : List (Ev L)) : List (Int × Option L) := log.foldl note []

/-- Every signal goes to a child that the listener has forked, and that has not been reaped. -/
def KillsOwn (log : List (Ev L)) : Prop :=
  ∀ before l pid after, log = before ++ .kill l pid :: after → (pid, some l) ∈ unreaped before

/-- The events of the listener, in order. -/
def eventsOf (l : L) (log : List (Ev L)) : List ForkEvent :=
  log.filterMap fun
    | .event l' e => if l' = l then some e else none
    | _ => none

/-- How the children of the listener have ended, in the order in which they were reaped. -/
def endsOf (l : L) (log : List (Ev L)) : List Status :=
  log.filterMap fun
    | .reaped _ owner status => if owner = some l then some status else none
    | _ => none

/-! ## The log -/

omit [DecidableEq L] in
@[simp] theorem unreaped_append (log : List (Ev L)) (e : Ev L) : unreaped (log ++ [e]) = note (unreaped log) e := by
  simp [unreaped]

omit [DecidableEq L] in
theorem killsOwn_append {log : List (Ev L)} {e : Ev L} (h : KillsOwn log)
    (he : ∀ l pid, e = .kill l pid → (pid, some l) ∈ unreaped log) : KillsOwn (log ++ [e]) := by
  intro before l pid after heq
  rcases List.eq_nil_or_concat after with rfl | ⟨after, x, rfl⟩
  · obtain ⟨rfl, hx⟩ := List.append_inj' heq rfl
    exact he l pid (List.singleton_inj.mp hx)
  · rw [List.concat_eq_append, ← List.cons_append, ← List.append_assoc] at heq
    exact h before l pid after (List.append_inj' heq rfl).1

omit [DecidableEq L] in
theorem killsOwn_quiet {log : List (Ev L)} {e : Ev L} (h : KillsOwn log) (he : ∀ l pid, e ≠ .kill l pid) :
    KillsOwn (log ++ [e]) :=
  killsOwn_append h fun l pid heq => absurd heq (he l pid)

/-! ## What holds in every run -/

/-- Every listener that is started has its one handler, and its child has not been reaped. -/
structure Inv (s : State L) : Prop where
  sound : s.fault = false
  tokens : (s.handlers.map Prod.fst).Nodup
  entry : ∀ h ∈ s.handlers, (s.lst h.2).state = .started ∧ (s.lst h.2).sigchld_data = some h.1
  listed : ∀ l, (s.lst l).state = .started → l ∈ s.handlers.map Prod.snd
  fresh : ∀ l, (s.lst l).state = .unknown → (s.lst l).pid = 0 ∧ (s.lst l).sigchld_data = none
  clear : ∀ l, (s.lst l).state = .started → (s.lst l).child_stopped = false
  own : ∀ l, (s.lst l).state = .started → 0 < (s.lst l).pid → ((s.lst l).pid, some l) ∈ unreaped s.log
  ready : ∀ l ∈ s.pending, (s.lst l).state ≠ .unknown
  pids : (s.children.map Child.pid).Nodup
  positive : ∀ c ∈ s.children, 0 < c.pid
  book : unreaped s.log = s.children.map fun c => (c.pid, c.owner)
  kills : KillsOwn s.log

omit [DecidableEq L] in
theorem initial_inv : Inv (initial L) := by
  constructor <;> simp [initial, unreaped, KillsOwn]

theorem start_eq {s : State L} {l : L} (hs : (s.lst l).state ≠ .started) (data : Nat) :
    crtx_start_listener s l data = { s with
      lst := Function.update s.lst l ⟨.started, 0, false, some data⟩
      handlers := s.handlers ++ [(data, l)]
      pending := s.pending ++ [l] } := by
  unfold crtx_start_listener
  rw [if_neg hs]
  simp [start_listener, crtx_signals_add_child_handler, State.modify]

theorem Inv.start {s : State L} (h : Inv s) (l : L) {data : Nat} (hfree : data ∉ s.handlers.map Prod.fst) :
    Inv (crtx_start_listener s l data) := by
  by_cases hs : (s.lst l).state = .started
  · rwa [crtx_start_listener, if_pos hs]
  rw [start_eq hs]
  have hother : ∀ e ∈ s.handlers, e.2 ≠ l := fun e he heq => hs (heq ▸ (h.entry e he).1)
  constructor
  case sound | pids | positive | book | kills =>
    first
    | exact h.sound
    | exact h.pids
    | exact h.positive
    | exact h.book
    | exact h.kills
  case tokens =>
    rw [List.map_append, List.nodup_append_comm]
    exact List.nodup_cons.mpr ⟨hfree, h.tokens⟩
  case entry =>
    intro e he
    rcases List.mem_append.mp he with he | he
    · simpa [hother e he] using h.entry e he
    · obtain rfl := List.mem_singleton.mp he
      simp
  case listed =>
    intro l' hl'
    by_cases heq : l' = l
    · simp [heq]
    · have := h.listed l' (by simpa [heq] using hl')
      rw [List.map_append]
      exact List.mem_append_left _ this
  case fresh | clear | own =>
    intro l'
    by_cases heq : l' = l
    · simp [heq]
    · simpa [heq] using by first | exact h.fresh l' | exact h.clear l' | exact h.own l'
  case ready =>
    intro l' hl'
    by_cases heq : l' = l
    · simp [heq]
    · have hl' : l' ∈ s.pending := by simpa [heq] using hl'
      simpa [heq] using h.ready l' hl'

omit [DecidableEq L] in
theorem stop_listener_eq {s : State L} {l : L} {r : Int} (hr : (s.lst l).Signals → r = 0) :
    stop_listener s l r = { s with
      handlers := s.handlers.filter fun h => some h.1 ≠ (s.lst l).sigchld_data
      log := s.log ++ if (s.lst l).Signals then [.kill l (s.lst l).pid] else [] } := by
  unfold stop_listener
  by_cases hsig : (s.lst l).Signals
  · rw [if_pos hsig]
    exact (if_pos hsig).trans (if_neg (not_not.mpr (hr hsig)))
  · rw [if_neg hsig, List.append_nil]
    exact if_neg hsig

theorem stop_eq {s : State L} {l : L} {r : Int} (hs : (s.lst l).state ≠ .stopped)
    (hr : (s.lst l).Signals → r = 0) :
    crtx_stop_listener s l r = { s with
      lst := Function.update s.lst l { s.lst l with state := .stopped }
      handlers := s.handlers.filter fun h => some h.1 ≠ (s.lst l).sigchld_data
      log := s.log ++ if (s.lst l).Signals then [.kill l (s.lst l).pid] else [] } := by
  unfold crtx_stop_listener
  rw [if_neg hs, stop_listener_eq hr]
  rfl

omit [DecidableEq L] in
theorem Inv.mem_unreaped {s : State L} (h : Inv s) {pid : Int} {owner : Option L} :
    (pid, owner) ∈ unreaped s.log ↔ ∃ c ∈ s.children, c.pid = pid ∧ c.owner = owner := by
  simp [h.book]

omit [DecidableEq L] in
theorem Inv.entry_filter {s : State L} (h : Inv s) {l : L} {e : Nat × L}
    (he : e ∈ s.handlers.filter fun x => some x.1 ≠ (s.lst l).sigchld_data) : e ∈ s.handlers ∧ e.2 ≠ l := by
  obtain ⟨hmem, hne⟩ := List.mem_filter.mp he
  refine ⟨hmem, ?_⟩
  rintro rfl
  simp [(h.entry e hmem).2] at hne

omit [DecidableEq L] in
theorem Inv.listed_filter {s : State L} (h : Inv s) {l l' : L} (hne : l' ≠ l) (hs : (s.lst l).state ≠ .stopped)
    (hl' : (s.lst l').state = .started) :
    l' ∈ (s.handlers.filter fun x => some x.1 ≠ (s.lst l).sigchld_data).map Prod.snd := by
  obtain ⟨e, he, rfl⟩ := List.mem_map.mp (h.listed l' hl')
  refine List.mem_map_of_mem (List.mem_filter.mpr ⟨he, ?_⟩)
  cases hst : (s.lst l).state with
  | stopped => exact absurd hst hs
  | unknown => simp [(h.fresh l hst).2]
  | started =>
    obtain ⟨x, hx, rfl⟩ := List.mem_map.mp (h.listed l hst)
    simp only [(h.entry x hx).2, ne_eq, Option.some.injEq, decide_eq_true_eq]
    exact fun heq => hne (congrArg Prod.snd (List.inj_on_of_nodup_map h.tokens he hx heq))

theorem Inv.drop {s : State L} (h : Inv s) {l : L} (hs : (s.lst l).state ≠ .stopped) {f : ForkListener}
    (hf : f.state = .stopped) : Inv { s with
      lst := Function.update s.lst l f
      handlers := s.handlers.filter fun x => some x.1 ≠ (s.lst l).sigchld_data } := by
  constructor
  case sound => exact h.sound
  case tokens => exact h.tokens.sublist (List.filter_sublist.map _)
  case entry =>
    intro e he
    obtain ⟨hmem, hne⟩ := h.entry_filter he
    simpa [hne] using h.entry e hmem
  case listed =>
    intro l' hl'
    by_cases heq : l' = l
    · simp [heq, hf] at hl'
    · exact h.listed_filter heq hs (by simpa [heq] using hl')
  case fresh | clear | own =>
    intro l'
    by_cases heq : l' = l
    · simp [heq, hf]
    · simpa [heq] using by first | exact h.fresh l' | exact h.clear l' | exact h.own l'
  case ready =>
    intro l' hl'
    by_cases heq : l' = l
    · simp [heq, hf]
    · simpa [heq] using h.ready l' hl'
  case pids => exact h.pids
  case positive => exact h.positive
  case book => exact h.book
  case kills => exact h.kills

omit [DecidableEq L] in
theorem Inv.noted {s : State L} (h : Inv s) {e : Ev L} (hnote : note (unreaped s.log) e = unreaped s.log)
    (hkill : ∀ l pid, e = .kill l pid → (pid, some l) ∈ unreaped s.log) : Inv { s with log := s.log ++ [e] } :=
  { h with
    own l hl hpos := by
      rw [unreaped_append, hnote]
      exact h.own l hl hpos
    book := by
      rw [unreaped_append, hnote]
      exact h.book
    kills := killsOwn_append h.kills hkill }

omit [DecidableEq L] in
theorem Inv.own_child {s : State L} (h : Inv s) {l : L} (hs : (s.lst l).state ≠ .stopped)
    (hpos : 0 < (s.lst l).pid) : ((s.lst l).pid, some l) ∈ unreaped s.log := by
  have hst : (s.lst l).state = .started := by
    cases hst : (s.lst l).state with
    | started => rfl
    | stopped => exact absurd hst hs
    | unknown =>
      rw [(h.fresh l hst).1] at hpos
      omega
  exact h.own l hst hpos

theorem Inv.stop {s : State L} (h : Inv s) {l : L} {r : Int} (hr : (s.lst l).Signals → r = 0) :
    Inv (crtx_stop_listener s l r) := by
  by_cases hs : (s.lst l).state = .stopped
  · rwa [crtx_stop_listener, if_pos hs]
  rw [stop_eq hs hr]
  have hdrop := h.drop hs (f := { s.lst l with state := .stopped }) rfl
  by_cases hsig : (s.lst l).Signals
  · rw [if_pos hsig]
    refine hdrop.noted rfl fun l' pid heq => ?_
    obtain ⟨rfl, rfl⟩ := Ev.kill.inj heq
    exact h.own_child hs hsig.1
  · rwa [if_neg hsig, List.append_nil]

/-! ## A child is reaped -/

theorem callHandlers_append {pid : Int} {status : Status} {before after : List (Nat × L)} {s : State L}
    (hpid : ∀ h ∈ before, (s.lst h.2).pid ≠ pid) (hin : ∀ h ∈ before ++ after, h ∈ s.handlers) :
    callHandlers pid status (before ++ after) s = callHandlers pid status after s := by
  induction before with
  | nil => rfl
  | cons h before ih =>
    have hskip : fork_sigchld_cb pid status s h.2 = s := if_neg (hpid h List.mem_cons_self).symm
    rw [List.cons_append, callHandlers, hskip, if_pos]
    · exact ih (fun x hx => hpid x (.tail _ hx)) fun x hx => hin x (.tail _ hx)
    · exact fun x hx => hin x (.tail _ (List.mem_of_mem_head? hx))

theorem callHandlers_skip {pid : Int} {status : Status} {todo : List (Nat × L)} {s : State L}
    (hpid : ∀ h ∈ todo, (s.lst h.2).pid ≠ pid) (hin : ∀ h ∈ todo, h ∈ s.handlers) :
    callHandlers pid status todo s = s := by
  have hall : callHandlers pid status (todo ++ []) s = callHandlers pid status [] s :=
    callHandlers_append hpid (by simpa using hin)
  rwa [List.append_nil] at hall

/-- The child of the listener has ended. -/
def State.ended (s : State L) (l : L) (status : Status) : State L :=
  { s with
    lst := Function.update s.lst l { s.lst l with child_stopped := true, state := .stopped }
    handlers := s.handlers.filter fun h => some h.1 ≠ (s.lst l).sigchld_data
    log := s.log ++ [.event l (eventOf status)] }

theorem fork_sigchld_cb_hit {pid : Int} {s : State L} {l : L} (hs : (s.lst l).state ≠ .stopped)
    (hpid : pid = (s.lst l).pid) (status : Status) : fork_sigchld_cb pid status s l = s.ended l status := by
  unfold fork_sigchld_cb
  rw [if_pos hpid]
  simp only [State.modify]
  rw [stop_eq (by simpa using hs) (by simp [ForkListener.Signals])]
  simp [State.emit, State.ended, ForkListener.Signals]

theorem callHandlers_one {pid : Int} {s : State L} {before after : List (Nat × L)} {e : Nat × L} (status : Status)
    (hsplit : s.handlers = before ++ e :: after) (htokens : (s.handlers.map Prod.fst).Nodup)
    (hs : (s.lst e.2).state ≠ .stopped) (hdata : (s.lst e.2).sigchld_data = some e.1) (hpid : pid = (s.lst e.2).pid)
    (hother : ∀ x ∈ before ++ after, (s.lst x.2).pid ≠ pid) :
    callHandlers pid status s.handlers s = s.ended e.2 status := by
  have hafter : ∀ x ∈ after, x ∈ (s.ended e.2 status).handlers := by
    intro x hx
    refine List.mem_filter.mpr ⟨hsplit ▸ by simp [hx], ?_⟩
    rw [hsplit, List.map_append, List.map_cons] at htokens
    have hnot := (List.nodup_cons.mp (List.nodup_append.mp htokens).2.1).1
    simp only [hdata, ne_eq, Option.some.injEq, decide_eq_true_eq]
    exact fun heq => hnot (heq ▸ List.mem_map_of_mem hx)
  have hskip : ∀ x ∈ after, ((s.ended e.2 status).lst x.2).pid ≠ pid := by
    intro x hx
    have hx := hother x (List.mem_append_right _ hx)
    have hne : x.2 ≠ e.2 := fun heq => hx (heq ▸ hpid.symm)
    simpa [State.ended, hne] using hx
  rw [hsplit, callHandlers_append (fun x hx => hother x (List.mem_append_left _ hx)) (fun x hx => hsplit ▸ hx),
    callHandlers, fork_sigchld_cb_hit hs hpid, if_pos fun x hx => hafter x (List.mem_of_mem_head? hx)]
  exact callHandlers_skip hskip hafter

omit [DecidableEq L] in
theorem Inv.owner_eq {s : State L} (h : Inv s) {c : Child L} (hc : c ∈ s.children) {l : L}
    (hl : (s.lst l).state = .started) (hpid : (s.lst l).pid = c.pid) : c.owner = some l := by
  have hpos := h.positive c hc
  obtain ⟨d, hd, hdpid, hown⟩ := h.mem_unreaped.mp (h.own l hl (by omega))
  rwa [List.inj_on_of_nodup_map h.pids hc hd (by omega)]

def State.without (s : State L) (c : Child L) (status : Status) : State L :=
  { s with
    children := s.children.filter fun d => d.pid ≠ c.pid
    log := s.log ++ [.reaped c.pid c.owner status] }

omit [DecidableEq L] in
theorem Inv.without {s : State L} (h : Inv s) {c : Child L} (status : Status)
    (hnone : ∀ l, (s.lst l).state = .started → (s.lst l).pid ≠ c.pid) : Inv (s.without c status) :=
  { h with
    own l hl hpos := by
      simp only [State.without, unreaped_append, note, List.mem_filter]
      exact ⟨h.own l hl hpos, by simpa using hnone l hl⟩
    pids := h.pids.sublist (List.filter_sublist.map _)
    positive d hd := h.positive d (List.mem_of_mem_filter hd)
    book := by
      simp only [State.without, unreaped_append, note, h.book, List.filter_map]
      rfl
    kills := killsOwn_quiet h.kills fun l pid => nofun }

theorem Inv.reap_none {s : State L} (h : Inv s) {c : Child L} (status : Status)
    (hnone : ∀ l, (s.lst l).state = .started → (s.lst l).pid ≠ c.pid) : reap s c status = s.without c status :=
  callHandlers_skip (fun e he => hnone e.2 (h.entry e he).1) fun _ he => he

theorem Inv.reap_one {s : State L} (h : Inv s) {c : Child L} (hc : c ∈ s.children) (status : Status) {l : L}
    (hl : (s.lst l).state = .started) (hpid : (s.lst l).pid = c.pid) :
    reap s c status = (s.without c status).ended l status := by
  obtain ⟨e, he, rfl⟩ := List.mem_map.mp (h.listed l hl)
  obtain ⟨before, after, hsplit⟩ := List.append_of_mem he
  have hdata := (h.entry e he).2
  have hnodup : (before ++ e :: after).Nodup := hsplit ▸ h.tokens.of_map
  -- a second handler for this child would be for the same listener
  have hother : ∀ x ∈ before ++ after, (s.lst x.2).pid ≠ c.pid := by
    intro x hx hx'
    have hmem : x ∈ s.handlers := by
      rw [hsplit]
      exact (List.Sublist.append_left (List.sublist_cons_self _ _) _).subset hx
    have howner := h.owner_eq hc (h.entry x hmem).1 hx'
    rw [h.owner_eq hc hl hpid, Option.some.injEq] at howner
    have hxdata := (h.entry x hmem).2
    rw [← howner, hdata, Option.some.injEq] at hxdata
    obtain rfl : x = e := Prod.ext hxdata.symm howner.symm
    exact (List.nodup_middle.mp hnodup).notMem hx
  exact callHandlers_one (s := s.without c status) status hsplit h.tokens (by simp [State.without, hl]) hdata hpid.symm
    hother

theorem Inv.reap {s : State L} (h : Inv s) {c : Child L} (hc : c ∈ s.children) (status : Status) :
    Inv (reap s c status) := by
  by_cases hmatch : ∃ l, (s.lst l).state = .started ∧ (s.lst l).pid = c.pid
  · obtain ⟨l, hl, hpid⟩ := hmatch
    rw [h.reap_one hc status hl hpid]
    have hdrop := h.drop (l := l) (f := { s.lst l with child_stopped := true, state := .stopped }) (by simp [hl]) rfl
    refine (hdrop.without (c := c) status ?_).noted rfl fun _ _ => nofun
    intro l' hl'
    by_cases heq : l' = l
    · simp [heq] at hl'
    · simp only [Function.update_of_ne heq] at hl' ⊢
      intro hpid'
      have howner := h.owner_eq hc hl' hpid'
      rw [h.owner_eq hc hl hpid, Option.some.injEq] at howner
      exact heq howner.symm
  · have hnone : ∀ l, (s.lst l).state = .started → (s.lst l).pid ≠ c.pid := fun l hl hpid => hmatch ⟨l, hl, hpid⟩
    rw [h.reap_none status hnone]
    exact h.without status hnone

/-! ## The other steps -/

omit [DecidableEq L] in
theorem Inv.born {s : State L} (h : Inv s) {pid : Int} (hpid : Unused s pid) (owner : Option L) : Inv { s with
    children := s.children ++ [⟨pid, owner, none⟩]
    log := s.log ++ [.forked owner pid] } :=
  { h with
    own l hl hpos := by
      rw [unreaped_append]
      exact List.mem_append_left _ (h.own l hl hpos)
    pids := by
      rw [List.map_append, List.nodup_append_comm]
      refine List.nodup_cons.mpr ⟨fun hmem => ?_, h.pids⟩
      obtain ⟨c, hc, heq⟩ := List.mem_map.mp hmem
      exact hpid.2 c hc heq
    positive c hc := by
      rcases List.mem_append.mp hc with hc | hc
      · exact h.positive c hc
      · obtain rfl := List.mem_singleton.mp hc
        exact hpid.1
    book := by simp [note, h.book]
    kills := killsOwn_quiet h.kills fun _ _ => nofun }

omit [DecidableEq L] in
theorem Inv.pending_tail {s : State L} (h : Inv s) {l : L} {pending : List L} (hp : s.pending = l :: pending) :
    Inv { s with pending } :=
  { h with ready := fun l' hl' => h.ready l' (hp ▸ .tail _ hl') }

theorem Inv.pid_set {s : State L} (h : Inv s) {l : L} (hl : (s.lst l).state ≠ .unknown) {pid : Int}
    (hpid : 0 < pid → (pid, some l) ∈ unreaped s.log) : Inv (s.modify l fun f => { f with pid }) := by
  have hstate : ∀ l', ((s.modify l fun f => { f with pid }).lst l').state = (s.lst l').state := by
    intro l'
    by_cases heq : l' = l <;> simp [State.modify, heq]
  have hdata : ∀ l', ((s.modify l fun f => { f with pid }).lst l').sigchld_data = (s.lst l').sigchld_data := by
    intro l'
    by_cases heq : l' = l <;> simp [State.modify, heq]
  constructor
  case sound => exact h.sound
  case tokens => exact h.tokens
  case entry =>
    intro e he
    rw [hstate, hdata]
    exact h.entry e he
  case listed =>
    intro l' hl'
    exact h.listed l' (hstate l' ▸ hl')
  case fresh | clear | own =>
    intro l'
    by_cases heq : l' = l
    · subst heq
      simp [State.modify, hl]
      try first | exact h.clear l' | exact fun _ => hpid
    · simpa [State.modify, heq] using by first | exact h.fresh l' | exact h.clear l' | exact h.own l'
  case ready =>
    intro l' hl'
    rw [hstate]
    exact h.ready l' hl'
  case pids => exact h.pids
  case positive => exact h.positive
  case book => exact h.book
  case kills => exact h.kills

theorem Inv.child {s : State L} (h : Inv s) {pending : List L} (hp : ∀ l ∈ pending, (s.lst l).state ≠ .unknown)
    (l : L) :
    Inv (do_fork s l (.child pending)) where
  sound := h.sound
  tokens := h.tokens
  entry := h.entry
  listed := h.listed
  fresh l' hl' := ⟨rfl, (h.fresh l' hl').2⟩
  clear := h.clear
  own l' _ hpos := absurd hpos (Int.lt_irrefl 0)
  ready := hp
  pids := .nil
  positive := by simp [do_fork]
  book := by simp [do_fork, note]
  kills := killsOwn_quiet h.kills fun _ _ => nofun

theorem Inv.do_fork {s : State L} (h : Inv s) {l : L} (hl : (s.lst l).state ≠ .unknown) {r : Forked L}
    (hr : r.Possible s) : Inv (do_fork s l r) := by
  cases r with
  | failed => exact h.pid_set hl (by omega)
  | parent pid =>
    refine (h.born hr (some l)).pid_set (l := l) hl fun _ => ?_
    rw [unreaped_append]
    exact List.mem_append_right _ (List.mem_singleton_self _)
  | child pending => exact h.child hr l

omit [DecidableEq L] in
theorem Inv.exit {s : State L} (h : Inv s) (pid : Int) (status : Status) :
    Inv { s with children := s.children.map (endChild pid status) } := by
  have hpid : ∀ c : Child L, (endChild pid status c).pid = c.pid := by
    intro c
    unfold endChild
    split <;> rfl
  have howner : ∀ c : Child L, (endChild pid status c).owner = c.owner := by
    intro c
    unfold endChild
    split <;> rfl
  exact { h with
    pids := by simpa [Function.comp_def, hpid] using h.pids
    positive := by simpa [hpid] using h.positive
    book := by simpa [Function.comp_def, hpid, howner] using h.book }

theorem step_inv (s : State L) (a : Action L) (s' : State L) (h : Inv s) (hp : Permitted s a)
    (hstep : step s a = some s') : Inv s' := by
  cases a with
  | start l data =>
    obtain ⟨hfree, heq⟩ := Option.ite_none_left_eq_some.mp hstep
    obtain rfl := Option.some.inj heq
    exact h.start l hfree
  | stop l r =>
    obtain rfl := Option.some.inj hstep
    exact h.stop hp
  | dispatch r =>
    cases hp : s.pending with
    | nil => simp [step, hp] at hstep
    | cons l pending =>
      simp only [step, hp, Option.ite_none_right_eq_some, Option.some.injEq] at hstep
      obtain ⟨hr, rfl⟩ := hstep
      have htail := h.pending_tail hp
      refine htail.do_fork (h.ready l (hp ▸ .head _)) ?_
      cases r <;> exact hr
  | spawn pid =>
    obtain ⟨hunused, heq⟩ := Option.ite_none_right_eq_some.mp hstep
    obtain rfl := Option.some.inj heq
    exact h.born hunused none
  | exit pid status =>
    obtain ⟨_, heq⟩ := Option.ite_none_right_eq_some.mp hstep
    obtain rfl := Option.some.inj heq
    exact h.exit pid status
  | reap pid =>
    simp only [step, Option.bind_eq_some_iff, Option.map_eq_some_iff] at hstep
    obtain ⟨c, hc, status, _, rfl⟩ := hstep
    exact h.reap (List.mem_of_find?_eq_some hc) status

/-- Whatever is started and stopped, and however children end, if no signal fails to be sent, each goes to a child of
the listener that is still there, and no handler is called that has been removed. -/
theorem sigterm_to_own_child (as : List (Action L)) (s : State L) (hp : Meets step Permitted as (initial L))
    (hr : run step as (initial L) = some s) : s.fault = false ∧ KillsOwn s.log :=
  have h := run_keeps step_inv as _ s initial_inv hp hr
  ⟨h.sound, h.kills⟩

/-- Two listeners and a child of other code. The number of the first child is used again after it has been reaped, and
the second listener is stopped before its child ends. -/
def twoListeners : List (Action Bool) :=
  [.start false 100, .dispatch (.parent 5), .start true 101, .dispatch (.parent 7), .exit 5 (.exited 3), .reap 5,
    .spawn 5, .stop false 0, .stop true 0, .exit 7 (.signaled 15), .reap 7]

theorem sigterm_to_own_child_two : ∃ s, run step twoListeners (initial Bool) = some s ∧ s.fault = false ∧
    KillsOwn s.log ∧ Ev.kill true 7 ∈ s.log ∧ Ev.event false (602, 3) ∈ s.log :=
  ⟨_, rfl, (sigterm_to_own_child twoListeners _ (by decide) rfl).1,
    (sigterm_to_own_child twoListeners _ (by decide) rfl).2, by decide, by decide⟩

/-! ## The events -/

@[simp] theorem eventsOf_append (l : L) (log log' : List (Ev L)) :
    eventsOf l (log ++ log') = eventsOf l log ++ eventsOf l log' := List.filterMap_append

@[simp] theorem endsOf_append (l : L) (log log' : List (Ev L)) :
    endsOf l (log ++ log') = endsOf l log ++ endsOf l log' := List.filterMap_append

/-- What a step other than the end of a child adds to the log. -/
def Quiet (more : List (Ev L)) : Prop := ∀ l, eventsOf l more = [] ∧ endsOf l more = []

theorem stop_log (s : State L) {l : L} {r : Int} (hr : (s.lst l).Signals → r = 0) :
    ∃ more, (crtx_stop_listener s l r).log = s.log ++ more ∧ Quiet more := by
  by_cases hs : (s.lst l).state = .stopped
  · exact ⟨[], by simp [crtx_stop_listener, hs], fun _ => ⟨rfl, rfl⟩⟩
  · rw [stop_eq hs hr]
    refine ⟨_, rfl, fun l' => ?_⟩
    split <;> simp [eventsOf, endsOf]

theorem do_fork_log (s : State L) (l : L) (r : Forked L) :
    ∃ more, (do_fork s l r).log = s.log ++ more ∧ Quiet more := by
  cases r with
  | failed => exact ⟨[], by simp [do_fork, State.modify], fun _ => ⟨rfl, rfl⟩⟩
  | parent pid => exact ⟨_, rfl, fun _ => ⟨rfl, rfl⟩⟩
  | child pending => exact ⟨_, rfl, fun _ => ⟨rfl, rfl⟩⟩

theorem reap_log {s : State L} (h : Inv s) {c : Child L} (hc : c ∈ s.children) (status : Status) (l : L) :
    endsOf l (reap s c status).log = endsOf l s.log ++ (if c.owner = some l then [status] else []) ∧
    eventsOf l (reap s c status).log = eventsOf l s.log ++
      if (s.lst l).state = .started ∧ (s.lst l).pid = c.pid then [eventOf status] else [] := by
  by_cases hmatch : ∃ l', (s.lst l').state = .started ∧ (s.lst l').pid = c.pid
  · obtain ⟨l', hl', hpid⟩ := hmatch
    have howner := h.owner_eq hc hl' hpid
    rw [h.reap_one hc status hl' hpid]
    simp only [State.ended, State.without, endsOf_append, eventsOf_append]
    by_cases heq : l' = l
    · subst heq
      simp [endsOf, eventsOf, howner, hl', hpid]
    · have hnot : ¬ ((s.lst l).state = .started ∧ (s.lst l).pid = c.pid) := by
        rintro ⟨hl, hpid'⟩
        rw [h.owner_eq hc hl hpid', Option.some.injEq] at howner
        exact heq howner.symm
      simp [endsOf, eventsOf, howner, heq, hnot]
  · have hnone : ∀ l', (s.lst l').state = .started → (s.lst l').pid ≠ c.pid := fun l' hl hp => hmatch ⟨l', hl, hp⟩
    have hnot : ¬ ((s.lst l).state = .started ∧ (s.lst l).pid = c.pid) := fun hl => hnone l hl.1 hl.2
    rw [h.reap_none status hnone]
    simp only [State.without, endsOf_append, eventsOf_append, hnot, if_false]
    by_cases heq : c.owner = some l <;> simp [endsOf, eventsOf, heq]

def Reported (s : State L) : Prop := ∀ l, eventsOf l s.log = (endsOf l s.log).map eventOf

def ReportedOnce (s : State L) : Prop := ∀ l, (eventsOf l s.log).Sublist ((endsOf l s.log).map eventOf)

theorem reported_quiet {s s' : State L} (h : ∃ more, s'.log = s.log ++ more ∧ Quiet more) :
    (Reported s → Reported s') ∧ (ReportedOnce s → ReportedOnce s') := by
  obtain ⟨more, hlog, hquiet⟩ := h
  constructor <;> intro hs l <;> simpa [hlog, hquiet l] using hs l

theorem step_log {s s' : State L} {a : Action L} (hp : Permitted s a) (hstep : step s a = some s') :
    (∃ more, s'.log = s.log ++ more ∧ Quiet more) ∨
    ∃ c ∈ s.children, ∃ status, a = .reap c.pid ∧ c.ended = some status ∧ s' = reap s c status := by
  cases a with
  | start l data =>
    obtain ⟨_, heq⟩ := Option.ite_none_left_eq_some.mp hstep
    obtain rfl := Option.some.inj heq
    refine .inl ⟨[], ?_, fun _ => ⟨rfl, rfl⟩⟩
    unfold crtx_start_listener
    split <;> simp [start_listener, State.modify, crtx_signals_add_child_handler]
  | stop l r =>
    obtain rfl := Option.some.inj hstep
    exact .inl (stop_log s hp)
  | dispatch r =>
    cases hp : s.pending with
    | nil => simp [step, hp] at hstep
    | cons l pending =>
      simp only [step, hp, Option.ite_none_right_eq_some, Option.some.injEq] at hstep
      obtain ⟨_, rfl⟩ := hstep
      exact .inl (do_fork_log _ l r)
  | spawn pid =>
    obtain ⟨_, heq⟩ := Option.ite_none_right_eq_some.mp hstep
    obtain rfl := Option.some.inj heq
    exact .inl ⟨_, rfl, fun _ => ⟨rfl, rfl⟩⟩
  | exit pid status =>
    obtain ⟨_, heq⟩ := Option.ite_none_right_eq_some.mp hstep
    obtain rfl := Option.some.inj heq
    exact .inl ⟨[], by simp, fun _ => ⟨rfl, rfl⟩⟩
  | reap pid =>
    simp only [step, Option.bind_eq_some_iff, Option.map_eq_some_iff] at hstep
    obtain ⟨c, hc, status, hended, rfl⟩ := hstep
    have hpid : c.pid = pid := by simpa [State.child?] using List.find?_some hc
    exact .inr ⟨c, List.mem_of_find?_eq_some hc, status, hpid ▸ rfl, hended, rfl⟩

theorem step_reportedOnce (s : State L) (a : Action L) (s' : State L) (h : Inv s ∧ ReportedOnce s)
    (hp : Permitted s a) (hstep : step s a = some s') : Inv s' ∧ ReportedOnce s' := by
  refine ⟨step_inv s a s' h.1 hp hstep, ?_⟩
  rcases step_log hp hstep with hquiet | ⟨c, hc, status, _, _, rfl⟩
  · exact (reported_quiet hquiet).2 h.2
  · intro l
    obtain ⟨hends, hevents⟩ := reap_log h.1 hc status l
    rw [hends, hevents, List.map_append]
    refine (h.2 l).append ?_
    split
    · rename_i hmatch
      simp [h.1.owner_eq hc hmatch.1 hmatch.2]
    · exact List.nil_sublist _

/-! ## Listeners that are left to wait for their children -/

/-- Nobody but the end of its child stops a listener that has one, or that is about to fork. In a child, the control
pipe is empty. -/
def Patient (s : State L) : Action L → Prop
  | .start _ _ => True
  | .stop l _ => l ∉ s.pending ∧ ∀ c ∈ s.children, c.owner ≠ some l
  | .dispatch (.child pending) => pending = []
  | .dispatch _ => True
  | .spawn _ => True
  | .exit _ _ => True
  | .reap _ => True

instance (s : State L) (a : Action L) : Decidable (Patient s a) := by
  cases a with
  | dispatch r => cases r <;> unfold Patient <;> infer_instance
  | stop l r => exact inferInstanceAs (Decidable (_ ∧ ∀ c ∈ _, _))
  | _ => exact inferInstanceAs (Decidable True)

/-- Every child of a listener is the one it waits for. -/
structure Waiting (s : State L) : Prop where
  once : s.pending.Nodup
  before : ∀ l ∈ s.pending, (s.lst l).state = .started ∧ ∀ c ∈ s.children, c.owner ≠ some l
  current : ∀ c ∈ s.children, ∀ l, c.owner = some l → (s.lst l).state = .started ∧ (s.lst l).pid = c.pid

omit [DecidableEq L] in
theorem initial_waiting : Waiting (initial L) := by
  constructor <;> simp [initial]

theorem Waiting.start {s : State L} (h : Waiting s) (l : L) (data : Nat) : Waiting (crtx_start_listener s l data) := by
  by_cases hs : (s.lst l).state = .started
  · rwa [crtx_start_listener, if_pos hs]
  rw [start_eq hs]
  have hnot : l ∉ s.pending := fun hmem => hs (h.before l hmem).1
  have hown : ∀ c ∈ s.children, c.owner ≠ some l := fun c hc heq => hs (h.current c hc l heq).1
  constructor
  · exact (List.nodup_append_comm.mpr (List.nodup_cons.mpr ⟨hnot, h.once⟩))
  · intro l' hl'
    by_cases heq : l' = l
    · subst heq
      exact ⟨by simp, hown⟩
    · have hmem : l' ∈ s.pending := by simpa [heq] using hl'
      simpa [heq] using h.before l' hmem
  · intro c hc l' hl'
    have heq : l' ≠ l := fun heq => hown c hc (heq ▸ hl')
    simpa [heq] using h.current c hc l' hl'

theorem Waiting.idle {s : State L} (h : Waiting s) {l : L} (hp : l ∉ s.pending)
    (hown : ∀ c ∈ s.children, c.owner ≠ some l) (f : ForkListener) (handlers : List (Nat × L)) (log : List (Ev L)) :
    Waiting { s with lst := Function.update s.lst l f, handlers, log } := by
  refine ⟨h.once, fun l' hl' => ?_, fun c hc l' hl' => ?_⟩
  · have heq : l' ≠ l := fun heq => hp (heq ▸ hl')
    simpa [heq] using h.before l' hl'
  · have heq : l' ≠ l := fun heq => hown c hc (heq ▸ hl')
    simpa [heq] using h.current c hc l' hl'

theorem Waiting.stop {s : State L} (h : Waiting s) {l : L} {r : Int} (hr : (s.lst l).Signals → r = 0)
    (hl : Patient s (.stop l r)) : Waiting (crtx_stop_listener s l r) := by
  by_cases hs : (s.lst l).state = .stopped
  · rwa [crtx_stop_listener, if_pos hs]
  · rw [stop_eq hs hr]
    exact h.idle hl.1 hl.2 _ _ _

omit [DecidableEq L] in
theorem Waiting.next {s : State L} (h : Waiting s) {l : L} {pending : List L} (hp : s.pending = l :: pending) :
    Waiting { s with pending } ∧ l ∉ pending ∧ (s.lst l).state = .started ∧ ∀ c ∈ s.children, c.owner ≠ some l := by
  have honce := h.once
  rw [hp, List.nodup_cons] at honce
  exact ⟨⟨honce.2, fun l' hl' => h.before l' (hp ▸ .tail _ hl'), h.current⟩, honce.1, h.before l (hp ▸ .head _)⟩

theorem Waiting.do_fork {s : State L} (h : Waiting s) {l : L} (hp : l ∉ s.pending) (hs : (s.lst l).state = .started)
    (hown : ∀ c ∈ s.children, c.owner ≠ some l) {r : Forked L} (hr : Patient s (.dispatch r)) :
    Waiting (do_fork s l r) := by
  cases r with
  | failed => exact h.idle hp hown _ _ _
  | parent pid =>
    have hidle := h.idle hp hown { s.lst l with pid } s.handlers (s.log ++ [.forked (some l) pid])
    refine ⟨hidle.once, fun l' hl' => ?_, fun c hc l' hl' => ?_⟩
    · have heq : l' ≠ l := fun heq => hp (heq ▸ hl')
      refine ⟨(hidle.before l' hl').1, fun c hc => ?_⟩
      rcases List.mem_append.mp hc with hc | hc
      · exact (hidle.before l' hl').2 c hc
      · obtain rfl := List.mem_singleton.mp hc
        simpa using heq.symm
    · rcases List.mem_append.mp hc with hc | hc
      · exact hidle.current c hc l' hl'
      · obtain rfl := List.mem_singleton.mp hc
        obtain rfl := Option.some.inj hl'
        simp [ForkChildren.do_fork, State.modify, hs]
  | child pending =>
    obtain rfl : pending = [] := hr
    constructor <;> simp [ForkChildren.do_fork]

omit [DecidableEq L] in
theorem Waiting.spawn {s : State L} (h : Waiting s) (pid : Int) (log : List (Ev L)) :
    Waiting { s with children := s.children ++ [⟨pid, none, none⟩], log } := by
  refine ⟨h.once, fun l hl => ⟨(h.before l hl).1, fun c hc => ?_⟩, fun c hc l hl => ?_⟩
  · rcases List.mem_append.mp hc with hc | hc
    · exact (h.before l hl).2 c hc
    · simp [List.mem_singleton.mp hc]
  · rcases List.mem_append.mp hc with hc | hc
    · exact h.current c hc l hl
    · simp [List.mem_singleton.mp hc] at hl

omit [DecidableEq L] in
theorem Waiting.exit {s : State L} (h : Waiting s) (pid : Int) (status : Status) :
    Waiting { s with children := s.children.map (endChild pid status) } := by
  have hsame : ∀ c ∈ s.children.map (endChild pid status), ∃ d ∈ s.children, d.pid = c.pid ∧ d.owner = c.owner := by
    intro c hc
    obtain ⟨d, hd, rfl⟩ := List.mem_map.mp hc
    refine ⟨d, hd, ?_⟩
    unfold endChild
    split <;> exact ⟨rfl, rfl⟩
  refine ⟨h.once, fun l hl => ⟨(h.before l hl).1, fun c hc => ?_⟩, fun c hc l hl => ?_⟩
  · obtain ⟨d, hd, _, howner⟩ := hsame c hc
    exact howner ▸ (h.before l hl).2 d hd
  · obtain ⟨d, hd, hpid, howner⟩ := hsame c hc
    exact hpid ▸ h.current d hd l (howner ▸ hl)

omit [DecidableEq L] in
theorem Waiting.without {s : State L} (h : Waiting s) (c : Child L) (status : Status) : Waiting (s.without c status) :=
  ⟨h.once, fun l hl => ⟨(h.before l hl).1, fun d hd => (h.before l hl).2 d (List.mem_of_mem_filter hd)⟩,
    fun d hd => h.current d (List.mem_of_mem_filter hd)⟩

theorem Waiting.reap {s : State L} (h : Waiting s) (hi : Inv s) {c : Child L} (hc : c ∈ s.children) (status : Status) :
    Waiting (reap s c status) := by
  cases howner : c.owner with
  | none =>
    rw [hi.reap_none status fun l hl hpid => by simp [hi.owner_eq hc hl hpid] at howner]
    exact h.without c status
  | some l =>
    obtain ⟨hl, hpid⟩ := h.current c hc l howner
    rw [hi.reap_one hc status hl hpid]
    refine (h.without c status).idle (fun hmem => (h.before l hmem).2 c hc howner) (fun d hd heq => ?_) _ _ _
    obtain ⟨hd, hne⟩ := List.mem_filter.mp hd
    have := (h.current d hd l heq).2
    simp [← this, hpid] at hne

theorem step_waiting {s s' : State L} {a : Action L} (h : Waiting s) (hi : Inv s) (hp : Permitted s a)
    (ha : Patient s a) (hstep : step s a = some s') : Waiting s' := by
  cases a with
  | start l data =>
    obtain ⟨_, heq⟩ := Option.ite_none_left_eq_some.mp hstep
    obtain rfl := Option.some.inj heq
    exact h.start l data
  | stop l r =>
    obtain rfl := Option.some.inj hstep
    exact h.stop hp ha
  | dispatch r =>
    cases hpipe : s.pending with
    | nil => simp [step, hpipe] at hstep
    | cons l pending =>
      simp only [step, hpipe, Option.ite_none_right_eq_some, Option.some.injEq] at hstep
      obtain ⟨_, rfl⟩ := hstep
      obtain ⟨htail, hnot, hs, hown⟩ := h.next hpipe
      refine htail.do_fork hnot hs hown ?_
      cases r <;> exact ha
  | spawn pid =>
    obtain ⟨_, heq⟩ := Option.ite_none_right_eq_some.mp hstep
    obtain rfl := Option.some.inj heq
    exact h.spawn pid _
  | exit pid status =>
    obtain ⟨_, heq⟩ := Option.ite_none_right_eq_some.mp hstep
    obtain rfl := Option.some.inj heq
    exact h.exit pid status
  | reap pid =>
    simp only [step, Option.bind_eq_some_iff, Option.map_eq_some_iff] at hstep
    obtain ⟨c, hc, status, _, rfl⟩ := hstep
    exact h.reap hi (List.mem_of_find?_eq_some hc) status

theorem step_reported (s : State L) (a : Action L) (s' : State L) (h : Inv s ∧ Waiting s ∧ Reported s)
    (ha : Permitted s a ∧ Patient s a) (hstep : step s a = some s') : Inv s' ∧ Waiting s' ∧ Reported s' := by
  obtain ⟨hi, hw, hs⟩ := h
  refine ⟨step_inv s a s' hi ha.1 hstep, step_waiting hw hi ha.1 ha.2 hstep, ?_⟩
  rcases step_log ha.1 hstep with hquiet | ⟨c, hc, status, _, _, rfl⟩
  · exact (reported_quiet hquiet).1 hs
  · intro l
    obtain ⟨hends, hevents⟩ := reap_log hi hc status l
    rw [hends, hevents, List.map_append, hs l]
    have hiff : c.owner = some l ↔ (s.lst l).state = .started ∧ (s.lst l).pid = c.pid :=
      ⟨hw.current c hc l, fun hmatch => hi.owner_eq hc hmatch.1 hmatch.2⟩
    by_cases howner : c.owner = some l
    · simp [howner, hiff.mp howner]
    · rw [if_neg howner, if_neg (mt hiff.mpr howner)]
      rfl

/-- No end of a child is reported twice, to another listener, or out of order. A listener that is left to wait reports
each of them. -/
theorem child_ends_reported (as : List (Action L)) (s : State L) (hp : Meets step Permitted as (initial L))
    (hr : run step as (initial L) = some s) :
    ReportedOnce s ∧ (Meets step Patient as (initial L) → Reported s) :=
  ⟨(run_keeps step_reportedOnce as _ s ⟨initial_inv, fun _ => List.Sublist.refl _⟩ hp hr).2, fun hm =>
    (run_keeps step_reported as _ s ⟨initial_inv, initial_waiting, fun _ => rfl⟩ (hp.and hm) hr).2.2⟩

/-- The listener is started again after its child has ended. -/
def twice : List (Action Unit) :=
  [.start () 100, .dispatch (.parent 5), .exit 5 (.exited 3), .reap 5, .start () 100, .dispatch (.parent 7),
    .spawn 5, .exit 7 (.signaled 15), .exit 5 (.exited 0), .reap 5, .reap 7]

theorem child_ends_reported_twice : ∃ s, run step twice (initial Unit) = some s ∧ ReportedOnce s ∧ Reported s ∧
    endsOf () s.log = [.exited 3, .signaled 15] :=
  ⟨_, rfl, (child_ends_reported twice _ (by decide) rfl).1, (child_ends_reported twice _ (by decide) rfl).2 (by decide),
    by decide⟩

end

end Libcortex.ForkChildren
