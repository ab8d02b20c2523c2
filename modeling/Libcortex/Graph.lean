import Mathlib.Logic.Function.Basic
import Libcortex.Event

/-!
# Graphs, their event queues and the control pipe

The part of `core.c` and `evloop.c` that moves events: a graph has the queue `equeue` and the
list `claimed` of the entries that are being processed. `Queue` shows that the linked lists of
the code behave as the lists here.
-/

namespace Libcortex

/-- A node of a queue: `id` stands for its address, `event` for the pointer in it. -/
structure Entry where
  id : Nat
  event : EventId
deriving DecidableEq, Repr

/-- `struct crtx_graph` -/
structure Graph where
  tasks : List TaskId
  mode : ProcessingMode
  equeue : List Entry
  claimed : List Entry
  listener : Option ListenerId
deriving DecidableEq, Repr

/-- `struct crtx_event_loop_control_pipe`, one message of the control pipe -/
structure CtrlMsg where
  graph : Option GraphId
  el_cb : Option CallbackId
deriving DecidableEq, Repr

/-- The part of `struct crtx_root` that events pass through. `registry` is the array `graphs`,
`pipe` what was written to `ctrl_pipe[1]` and not yet read. -/
structure Root where
  events : EventId → Event
  graphs : GraphId → Graph
  registry : List (Option GraphId)
  pipe : List CtrlMsg
  pipe_capacity : Nat
  nextEntry : Nat
  force_mode : ProcessingMode
  default_mode : ProcessingMode

namespace Root

def setEvent (r : Root) (e : EventId) (ev : Event) : Root :=
  { r with events := Function.update r.events e ev }

def setGraph (r : Root) (g : GraphId) (gr : Graph) : Root :=
  { r with graphs := Function.update r.graphs g gr }

@[simp] theorem setEvent_graphs (r : Root) (e : EventId) (ev : Event) : (r.setEvent e ev).graphs = r.graphs := rfl
@[simp] theorem setEvent_pipe (r : Root) (e : EventId) (ev : Event) : (r.setEvent e ev).pipe = r.pipe := rfl
@[simp] theorem setEvent_registry (r : Root) (e : EventId) (ev : Event) : (r.setEvent e ev).registry = r.registry := rfl
@[simp] theorem setEvent_nextEntry (r : Root) (e : EventId) (ev : Event) :
    (r.setEvent e ev).nextEntry = r.nextEntry := rfl
@[simp] theorem setEvent_self (r : Root) (e : EventId) (ev : Event) : (r.setEvent e ev).events e = ev :=
  Function.update_self ..
theorem setEvent_other (r : Root) {e e' : EventId} (h : e' ≠ e) (ev : Event) :
    (r.setEvent e ev).events e' = r.events e' := Function.update_of_ne h ..

@[simp] theorem setGraph_events (r : Root) (g : GraphId) (gr : Graph) : (r.setGraph g gr).events = r.events := rfl
@[simp] theorem setGraph_pipe (r : Root) (g : GraphId) (gr : Graph) : (r.setGraph g gr).pipe = r.pipe := rfl
@[simp] theorem setGraph_registry (r : Root) (g : GraphId) (gr : Graph) : (r.setGraph g gr).registry = r.registry := rfl
@[simp] theorem setGraph_nextEntry (r : Root) (g : GraphId) (gr : Graph) :
    (r.setGraph g gr).nextEntry = r.nextEntry := rfl
@[simp] theorem setGraph_self (r : Root) (g : GraphId) (gr : Graph) : (r.setGraph g gr).graphs g = gr :=
  Function.update_self ..
theorem setGraph_other (r : Root) {g g' : GraphId} (h : g' ≠ g) (gr : Graph) :
    (r.setGraph g gr).graphs g' = r.graphs g' := Function.update_of_ne h ..

end Root

def crtx_get_mode (r : Root) (local_mode : ProcessingMode) : ProcessingMode :=
  match r.force_mode with
  | .preferNone => if local_mode = .preferNone then r.default_mode else local_mode
  | .preferThread => .preferThread
  | .preferEloop => .preferEloop
  | .noProcessingMode => local_mode

/-! ## The control pipe -/

/-- Two pointers of 8 bytes. -/
def ctrlMsgSize : Nat := 16

/-- A write of one message would not block. A message is shorter than `PIPE_BUF`, so it is written
as a whole or not at all. -/
def Root.HasRoom (r : Root) : Prop := (r.pipe.length + 1) * ctrlMsgSize ≤ r.pipe_capacity

instance (r : Root) : Decidable r.HasRoom := inferInstanceAs (Decidable (_ ≤ _))

def crtx_evloop_queue_graph (r : Root) (g : GraphId) : Root :=
  { r with pipe := r.pipe ++ [⟨some g, none⟩] }

def crtx_evloop_trigger_callback (r : Root) (cb : CallbackId) : Root :=
  { r with pipe := r.pipe ++ [⟨none, some cb⟩] }

/-! ## Adding an event -/

/-- `crtx_add_event` until it asks for `graph->mutex`. -/
def addReference (r : Root) (e : EventId) : Root :=
  r.setEvent e (crtx_reference_event_response (crtx_reference_event_release (r.events e)))

/-- What `crtx_process_one_event` and `crtx_flush_events` do to the event of an entry they drop. -/
def dropReference (r : Root) (e : EventId) : Root :=
  r.setEvent e (crtx_dereference_event_release (crtx_dereference_event_response (r.events e)))

/-- `crtx_dll_append_new(&graph->equeue, event)` -/
def appendEntry (r : Root) (g : GraphId) (e : EventId) : Root :=
  let gr := r.graphs g
  { r.setGraph g { gr with equeue := gr.equeue ++ [⟨r.nextEntry, e⟩] } with nextEntry := r.nextEntry + 1 }

def setOrigin (r : Root) (g : GraphId) (e : EventId) : Root :=
  let ev := r.events e
  if ev.origin = none then r.setEvent e { ev with origin := (r.graphs g).listener } else r

/-- `crtx_add_event` until it has released `queue_mutex`. A graph without tasks drops the event. -/
def addQueue (r : Root) (g : GraphId) (e : EventId) : Root :=
  if (r.graphs g).tasks = [] then dropReference r e else appendEntry (setOrigin r g e) g e

theorem setOrigin_eq (r : Root) (g : GraphId) (e : EventId) :
    ∃ o, setOrigin r g e = r.setEvent e { r.events e with origin := o } := by
  unfold setOrigin
  dsimp only
  split
  · exact ⟨_, rfl⟩
  · refine ⟨(r.events e).origin, ?_⟩
    simp [Root.setEvent]

@[simp] theorem setOrigin_graphs (r : Root) (g : GraphId) (e : EventId) : (setOrigin r g e).graphs = r.graphs := by
  obtain ⟨o, ho⟩ := setOrigin_eq r g e
  rw [ho, Root.setEvent_graphs]

@[simp] theorem setOrigin_nextEntry (r : Root) (g : GraphId) (e : EventId) :
    (setOrigin r g e).nextEntry = r.nextEntry := by
  obtain ⟨o, ho⟩ := setOrigin_eq r g e
  rw [ho, Root.setEvent_nextEntry]

theorem addQueue_graphs {r : Root} {g : GraphId} (ht : (r.graphs g).tasks ≠ []) (e : EventId) :
    (addQueue r g e).graphs =
      Function.update r.graphs g { r.graphs g with equeue := (r.graphs g).equeue ++ [⟨r.nextEntry, e⟩] } := by
  simp [addQueue, ht, appendEntry, Root.setGraph]

theorem addQueue_pipe (r : Root) (g : GraphId) (e : EventId) : (addQueue r g e).pipe = r.pipe := by
  unfold addQueue
  split
  · rfl
  · obtain ⟨o, ho⟩ := setOrigin_eq r g e
    rw [ho]
    rfl

theorem addQueue_nextEntry {r : Root} {g : GraphId} (ht : (r.graphs g).tasks ≠ []) (e : EventId) :
    (addQueue r g e).nextEntry = r.nextEntry + 1 := by
  simp [addQueue, ht, appendEntry]

/-- The end of `crtx_add_event`. In thread mode a worker is started instead, which writes no message. -/
def addTrigger (r : Root) (g : GraphId) : Root :=
  if crtx_get_mode r (r.graphs g).mode = .preferThread then r else crtx_evloop_queue_graph r g

@[simp] theorem addTrigger_graphs (r : Root) (g : GraphId) : (addTrigger r g).graphs = r.graphs := by
  unfold addTrigger
  split <;> rfl

@[simp] theorem addTrigger_nextEntry (r : Root) (g : GraphId) : (addTrigger r g).nextEntry = r.nextEntry := by
  unfold addTrigger
  split <;> rfl

@[simp] theorem addTrigger_events (r : Root) (g : GraphId) : (addTrigger r g).events = r.events := by
  unfold addTrigger
  split <;> rfl

def crtx_add_event (r : Root) (g : GraphId) (e : EventId) : Root :=
  let r := addReference r e
  if (r.graphs g).tasks = [] then addQueue r g e else addTrigger (addQueue r g e) g

/-! ## Processing an event -/

/-- The first entry whose event was not invalidated. -/
def nextEntry? (r : Root) (g : GraphId) : Option Entry :=
  (r.graphs g).equeue.find? fun q => !(r.events q.event).error

def crtx_claim_next_event_of_graph (r : Root) (g : GraphId) : Root × Option Entry :=
  match nextEntry? r g with
  | none => (r, none)
  | some q =>
    let gr := r.graphs g
    (r.setGraph g { gr with equeue := gr.equeue.erase q, claimed := gr.claimed ++ [q] }, some q)

theorem claim_some {r : Root} {g : GraphId} {q : Entry} (hq : nextEntry? r g = some q) :
    crtx_claim_next_event_of_graph r g =
      (r.setGraph g { r.graphs g with
        equeue := (r.graphs g).equeue.erase q, claimed := (r.graphs g).claimed ++ [q] }, some q) := by
  simp [crtx_claim_next_event_of_graph, hq]

theorem claim_none {r : Root} {g : GraphId} (hq : nextEntry? r g = none) :
    crtx_claim_next_event_of_graph r g = (r, none) := by
  simp [crtx_claim_next_event_of_graph, hq]

theorem nextEntry_mem {r : Root} {g : GraphId} {q : Entry} (hq : nextEntry? r g = some q) :
    q ∈ (r.graphs g).equeue := List.mem_of_find?_eq_some hq

/-- `crtx_dll_unlink(&graph->claimed, queue_entry)` -/
def finishEntry (r : Root) (g : GraphId) (q : Entry) : Root :=
  let gr := r.graphs g
  r.setGraph g { gr with claimed := gr.claimed.erase q }

/-! ## Flushing -/

def flushEvent (events : EventId → Event) (q : Entry) : EventId → Event :=
  Function.update events q.event
    (crtx_dereference_event_release (crtx_dereference_event_response (crtx_invalidate_event (events q.event))))

/-- What `crtx_flush_events` does with one graph, under its `queue_mutex`. The entries are unlinked
one by one, so both lists end up empty. -/
def flushGraph (r : Root) (g : GraphId) : Root :=
  let gr := r.graphs g
  { r.setGraph g { gr with equeue := [], claimed := [] } with
    events := (gr.equeue ++ gr.claimed).foldl flushEvent r.events }

/-! ## The registry of graphs -/

/-- Is the slot among those of the registry? -/
instance (slot : Option GraphId) (slots : List (Option GraphId)) : Decidable (slot ∈ slots) :=
  inferInstanceAs (Decidable (slot ∈ slots))

/-- `crtx_init_graph`: the first free slot is used again. -/
def registerGraph (r : Root) (g : GraphId) : Root :=
  { r with registry := if none ∈ r.registry then r.registry.replace none (some g) else r.registry ++ [some g] }

def unregisterGraph (r : Root) (g : GraphId) : Root :=
  { r with registry := r.registry.replace (some g) none }

theorem count_unregister (r : Root) (g g' : GraphId) :
    (unregisterGraph r g).registry.count (some g') = r.registry.count (some g') - if g' = g then 1 else 0 := by
  unfold unregisterGraph
  dsimp only
  induction r.registry with
  | nil => simp
  | cons s slots ih =>
    by_cases hs : s = some g
    · subst hs
      rw [List.replace_cons_self, List.count_cons, List.count_cons]
      by_cases hg : g' = g
      · simp [hg]
      · simp [hg, Ne.symm hg]
    · have hne : (some g == s) = false := by simpa using fun h : some g = s => hs h.symm
      rw [List.replace_cons, hne]
      dsimp only
      rw [List.count_cons, List.count_cons, ih]
      by_cases hg : g' = g
      · subst hg
        simp [hs]
      · simp [hg]

/-- `shutdown_graph_intern`, if it does not have to wait for an event: those left in the lists get
`crtx_free_event`. -/
def shutdown_graph_intern (r : Root) (g : GraphId) : Root :=
  let r := unregisterGraph r g
  let gr := r.graphs g
  { r.setGraph g { gr with equeue := [], claimed := [], tasks := [] } with
    events := (gr.equeue ++ gr.claimed).foldl
      (fun evs q => Function.update evs q.event (crtx_free_event (evs q.event)).1) r.events }

theorem shutdown_graph_intern_self (r : Root) (g : GraphId) :
    (shutdown_graph_intern r g).graphs g = { r.graphs g with equeue := [], claimed := [], tasks := [] } :=
  Function.update_self ..

theorem shutdown_graph_intern_other (r : Root) {g g' : GraphId} (h : g' ≠ g) :
    (shutdown_graph_intern r g).graphs g' = r.graphs g' := Function.update_of_ne h ..

/-! ## What the queues leave alone -/

/-- The part of the root that is set up before events flow. -/
structure Root.SameSetup (r r' : Root) : Prop where
  registry : r'.registry = r.registry
  pipe_capacity : r'.pipe_capacity = r.pipe_capacity
  force_mode : r'.force_mode = r.force_mode
  default_mode : r'.default_mode = r.default_mode
  tasks : ∀ g, (r'.graphs g).tasks = (r.graphs g).tasks
  mode : ∀ g, (r'.graphs g).mode = (r.graphs g).mode

namespace Root.SameSetup

theorem refl (r : Root) : r.SameSetup r := ⟨rfl, rfl, rfl, rfl, fun _ => rfl, fun _ => rfl⟩

theorem trans {r r' r'' : Root} (h : r.SameSetup r') (h' : r'.SameSetup r'') : r.SameSetup r'' :=
  ⟨h'.registry.trans h.registry, h'.pipe_capacity.trans h.pipe_capacity, h'.force_mode.trans h.force_mode,
    h'.default_mode.trans h.default_mode, fun g => (h'.tasks g).trans (h.tasks g),
    fun g => (h'.mode g).trans (h.mode g)⟩

theorem get_mode {r r' : Root} (h : r.SameSetup r') (g : GraphId) :
    crtx_get_mode r' (r'.graphs g).mode = crtx_get_mode r (r.graphs g).mode := by
  unfold crtx_get_mode
  rw [h.force_mode, h.default_mode, h.mode]

theorem setEvent (r : Root) (e : EventId) (ev : Event) : r.SameSetup (r.setEvent e ev) :=
  ⟨rfl, rfl, rfl, rfl, fun _ => rfl, fun _ => rfl⟩

theorem setPipe (r : Root) (pipe : List CtrlMsg) : r.SameSetup { r with pipe } :=
  ⟨rfl, rfl, rfl, rfl, fun _ => rfl, fun _ => rfl⟩

theorem setGraph (r : Root) {g : GraphId} {gr : Graph} (ht : gr.tasks = (r.graphs g).tasks)
    (hm : gr.mode = (r.graphs g).mode) : r.SameSetup (r.setGraph g gr) := by
  refine ⟨rfl, rfl, rfl, rfl, ?_, ?_⟩
  · intro g'
    by_cases hg : g' = g
    · subst hg
      rw [Root.setGraph_self, ht]
    · rw [Root.setGraph_other _ hg]
  · intro g'
    by_cases hg : g' = g
    · subst hg
      rw [Root.setGraph_self, hm]
    · rw [Root.setGraph_other _ hg]

theorem addReference (r : Root) (e : EventId) : r.SameSetup (addReference r e) := setEvent ..

theorem dropReference (r : Root) (e : EventId) : r.SameSetup (dropReference r e) := setEvent ..

theorem addQueue (r : Root) (g : GraphId) (e : EventId) : r.SameSetup (addQueue r g e) := by
  unfold Libcortex.addQueue
  split
  · exact setEvent ..
  · obtain ⟨o, ho⟩ := setOrigin_eq r g e
    have h : (setOrigin r g e).SameSetup ((setOrigin r g e).setGraph g { (setOrigin r g e).graphs g with
        equeue := ((setOrigin r g e).graphs g).equeue ++ [⟨(setOrigin r g e).nextEntry, e⟩] }) := setGraph _ rfl rfl
    have h : (setOrigin r g e).SameSetup (appendEntry (setOrigin r g e) g e) :=
      ⟨h.registry, h.pipe_capacity, h.force_mode, h.default_mode, h.tasks, h.mode⟩
    rw [ho] at h ⊢
    exact (setEvent r e _).trans h

theorem addTrigger (r : Root) (g : GraphId) : r.SameSetup (addTrigger r g) := by
  unfold Libcortex.addTrigger
  split
  · exact refl r
  · exact setPipe r _

theorem add_event (r : Root) (g : GraphId) (e : EventId) : r.SameSetup (crtx_add_event r g e) := by
  unfold crtx_add_event
  dsimp only
  have h := (addReference r e).trans (addQueue (Libcortex.addReference r e) g e)
  split
  · exact h
  · exact h.trans (addTrigger ..)

theorem claim (r : Root) (g : GraphId) : r.SameSetup (crtx_claim_next_event_of_graph r g).1 := by
  cases hq : nextEntry? r g with
  | none =>
    rw [claim_none hq]
    exact refl r
  | some q =>
    rw [claim_some hq]
    exact setGraph r rfl rfl

theorem finishEntry (r : Root) (g : GraphId) (q : Entry) : r.SameSetup (finishEntry r g q) := setGraph r rfl rfl

theorem flushGraph (r : Root) (g : GraphId) : r.SameSetup (flushGraph r g) := by
  have h : r.SameSetup (r.setGraph g { r.graphs g with equeue := [], claimed := [] }) := setGraph r rfl rfl
  exact ⟨h.registry, h.pipe_capacity, h.force_mode, h.default_mode, h.tasks, h.mode⟩

end Root.SameSetup

end Libcortex
