import Libcortex.Listener

/-!
# What the calls on a listener do

Each call comes down to a few acts: it takes and gives back mutexes, sets the state and adds events.
`Does` says which acts a call makes, in order. Whatever else it writes is read by nobody else. Only
`shutdown_listener_intern` frees anything.
-/

namespace Libcortex

/-- The fields of a listener that no call on it changes. -/
structure Kept (b b' : Listener) : Prop where
  graph : b'.graph = b.graph
  free_cb : b'.free_cb = b.free_cb
  free_after_event : b'.free_after_event = b.free_after_event
  state_graph : b'.state_graph = b.state_graph
  stop_listener : b'.stop_listener = b.stop_listener
  shutdown_cb : b'.shutdown_cb = b.shutdown_cb

theorem Kept.refl (b : Listener) : Kept b b := ⟨rfl, rfl, rfl, rfl, rfl, rfl⟩

theorem Kept.trans {b b' b'' : Listener} (h : Kept b b') (h' : Kept b' b'') : Kept b b'' := by
  constructor
  · exact h'.graph.trans h.graph
  · exact h'.free_cb.trans h.free_cb
  · exact h'.free_after_event.trans h.free_after_event
  · exact h'.state_graph.trans h.state_graph
  · exact h'.stop_listener.trans h.stop_listener
  · exact h'.shutdown_cb.trans h.shutdown_cb

/-! ## Writes that nobody sees -/

structure Silent (env env' : Env) : Prop where
  kept : ∀ l, Kept (env.lstnr l) (env'.lstnr l)
  state : ∀ l, (env'.lstnr l).state = (env.lstnr l).state
  graphs : env'.root.graphs = env.root.graphs
  registry : env'.root.registry = env.root.registry
  gfreed : env'.gfreed = env.gfreed
  lfreed : env'.lfreed = env.lfreed
  log : env'.log = env.log

namespace Silent

theorem refl (env : Env) : Silent env env := ⟨fun _ => Kept.refl _, fun _ => rfl, rfl, rfl, rfl, rfl, rfl⟩

theorem trans {env env' env'' : Env} (h : Silent env env') (h' : Silent env' env'') : Silent env env'' := by
  constructor
  · exact fun l => (h.kept l).trans (h'.kept l)
  · exact fun l => (h'.state l).trans (h.state l)
  · exact h'.graphs.trans h.graphs
  · exact h'.registry.trans h.registry
  · exact h'.gfreed.trans h.gfreed
  · exact h'.lfreed.trans h.lfreed
  · exact h'.log.trans h.log

theorem modify (env : Env) (l : ListenerId) {f : Listener → Listener} (hf : ∀ b, Kept b (f b))
    (hs : ∀ b, (f b).state = b.state) : Silent env (env.modify l f) := by
  refine { refl env with kept := ?_, state := ?_ }
  · intro l'
    by_cases h : l' = l
    · subst h
      rw [Env.modify_self]
      exact hf _
    · rw [Env.modify_other _ h]
      exact Kept.refl _
  · intro l'
    by_cases h : l' = l
    · subst h
      rw [Env.modify_self, hs]
    · rw [Env.modify_other _ h]

theorem setRoot (env : Env) {r : Root} (hg : r.graphs = env.root.graphs) (hr : r.registry = env.root.registry) :
    Silent env (env.setRoot r) := { refl env with graphs := hg, registry := hr }

theorem activate {env env' : Env} {l : ListenerId} {o : Outcome} (h : activate env l o = some env') :
    Silent env env' := by
  unfold Libcortex.activate at h
  dsimp only at h
  split at h
  · split at h
    · cases h
      exact modify env l (fun b => ⟨rfl, rfl, rfl, rfl, rfl, rfl⟩) fun b => rfl
    · cases h
      exact modify env l (fun b => ⟨rfl, rfl, rfl, rfl, rfl, rfl⟩) fun b => rfl
    · cases h
      exact refl env
    · cases h
  · cases h
    exact refl env

theorem startupTrigger (env : Env) (l : ListenerId) : Silent env (startupTrigger env l) := by
  unfold Libcortex.startupTrigger
  dsimp only
  split
  · exact setRoot env rfl rfl
  · exact refl env

theorem dropDependencies (env : Env) (l : ListenerId) : Silent env (dropDependencies env l) := by
  unfold Libcortex.dropDependencies
  dsimp only
  refine trans ?_ (modify _ l (fun b => ⟨rfl, rfl, rfl, rfl, rfl, rfl⟩) fun b => rfl)
  generalize (env.lstnr l).dependencies = deps
  induction deps generalizing env with
  | nil => exact refl env
  | cons d deps ih =>
    refine trans ?_ (ih _)
    exact modify env d (fun b => ⟨rfl, rfl, rfl, rfl, rfl, rfl⟩) fun b => rfl

theorem removeCallbacks (env : Env) (l : ListenerId) : Silent env (removeCallbacks env l) := by
  unfold Libcortex.removeCallbacks
  split
  · exact modify env l (fun b => ⟨rfl, rfl, rfl, rfl, rfl, rfl⟩) fun b => rfl
  · exact refl env

end Silent

/-! ## Acts -/

inductive Act where
  | lock (m : Mutex)
  | unlock (m : Mutex)
  | set (st : LstnrState)
  | add (p : GraphId × EventId)
  | call
deriving DecidableEq, Repr

namespace Act

/-- An act of a call on the listener `l`. `call` is the start of a shutdown. -/
def perform (l : ListenerId) (env : Env) : Act → Env
  | lock m => env.lock m
  | unlock m => env.unlock m
  | set st => env.setState l st
  | add p => env.addEvent p
  | call => env.emit (.callShutdown l)

def state? : Act → Option LstnrState
  | set st => some st
  | _ => none

def add? : Act → Option (GraphId × EventId)
  | add p => some p
  | _ => none

end Act

def statesOf (acts : List Act) : List LstnrState := acts.filterMap Act.state?

def addsOf (acts : List Act) : List (GraphId × EventId) := acts.filterMap Act.add?

/-- `env'` comes from `env` by the acts, in this order, and by writes that nobody sees. -/
inductive Does (l : ListenerId) : List Act → Env → Env → Prop where
  | done {env env' : Env} : Silent env env' → Does l [] env env'
  | act {env env₁ env' : Env} {a : Act} {acts : List Act} :
    Silent env env₁ → Does l acts (a.perform l env₁) env' → Does l (a :: acts) env env'

namespace Does

variable {l : ListenerId} {env env' env'' : Env} {acts acts' : List Act}

theorem append (h : Does l acts env env') (h' : Does l acts' env' env'') : Does l (acts ++ acts') env env'' := by
  induction h with
  | done hs =>
    cases h' with
    | done hs' => exact .done (hs.trans hs')
    | act hs' h => exact .act (hs.trans hs') h
  | act hs _ ih => exact .act hs (ih h')

theorem silent (h : Does l acts env env') (hs : Silent env' env'') : Does l acts env env'' := by
  have := h.append (.done hs)
  rwa [List.append_nil] at this

theorem of_silent (hs : Silent env env') (h : Does l acts env' env'') : Does l acts env env'' := by
  have hd : Does l [] env env' := .done hs
  exact hd.append h

theorem refl (env : Env) : Does l [] env env := .done (.refl env)

theorem snoc (h : Does l acts env env') (a : Act) : Does l (acts ++ [a]) env (a.perform l env') :=
  h.append (.act (.refl env') (.refl _))

end Does

/-! ## The calls -/

/-- The event about the new state. -/
def stateAdds (b : Listener) (o : Outcome) : List (GraphId × EventId) :=
  match b.state_graph with
  | none => []
  | some sg => if o.create_ret = 0 then [(sg, o.event)] else []

def stopCbAdds (b : Listener) (o : Outcome) : List (GraphId × EventId) := if b.stop_listener then o.stop_adds else []

def shutdownCbAdds (b : Listener) (o : Outcome) : List (GraphId × EventId) :=
  if b.shutdown_cb then o.shutdown_adds else []

namespace Does

variable {l : ListenerId}

theorem addEvents (env : Env) (adds : List (GraphId × EventId)) : Does l (adds.map .add) env (env.addEvents adds) := by
  induction adds generalizing env with
  | nil => exact refl env
  | cons p adds ih => exact .act (.refl env) (ih _)

theorem postState (env : Env) (l' : ListenerId) (o : Outcome) (ret : Int) :
    Does l ((stateAdds (env.lstnr l') o).map .add) env (env.postState l' o ret).1 := by
  unfold Env.postState stateAdds
  cases (env.lstnr l').state_graph with
  | none => exact refl env
  | some sg =>
    dsimp only
    split
    · have hroot : Silent env (env.setRoot (env.root.setEvent o.event Event.fresh)) :=
        Silent.setRoot env (by rfl) (by rfl)
      exact .act hroot (refl _)
    · exact refl env

theorem startCallback (env : Env) (l' : ListenerId) (o : Outcome) :
    ∃ adds : List (GraphId × EventId), Does l (adds.map .add) env (startCallback env l' o) := by
  unfold Libcortex.startCallback
  split
  · refine ⟨o.start_adds, of_silent ?_ (addEvents _ _)⟩
    exact Silent.modify env l' (fun b => ⟨rfl, rfl, rfl, rfl, rfl, rfl⟩) fun b => rfl
  · exact ⟨[], refl env⟩

theorem runStopCb (env : Env) (l' : ListenerId) (o : Outcome) :
    Does l ((stopCbAdds (env.lstnr l') o).map .add) env (runStopCb env l' o) := by
  unfold Libcortex.runStopCb stopCbAdds
  split
  · exact addEvents _ _
  · exact refl env

theorem stopActivity (env : Env) (l' : ListenerId) (o : Outcome) :
    Does l ((stopCbAdds (env.lstnr l') o).map .add) env (stopActivity env l' o) := by
  unfold Libcortex.stopActivity
  have hcb : Silent env (env.modify l' fun b => { b with el_cb_active := false }) :=
    Silent.modify env l' (fun b => ⟨rfl, rfl, rfl, rfl, rfl, rfl⟩) fun b => rfl
  have hrun := runStopCb (l := l) (env.modify l' fun b => { b with el_cb_active := false }) l' o
  have hadds : stopCbAdds ((env.modify l' fun b => { b with el_cb_active := false }).lstnr l') o =
      stopCbAdds (env.lstnr l') o := by
    unfold stopCbAdds
    rw [(hcb.kept l').stop_listener]
  rw [hadds] at hrun
  refine silent (of_silent hcb hrun) ?_
  exact Silent.modify _ l' (fun b => ⟨rfl, rfl, rfl, rfl, rfl, rfl⟩) fun b => rfl

theorem runShutdownCb (env : Env) (l' : ListenerId) (o : Outcome) :
    Does l ((shutdownCbAdds (env.lstnr l') o).map .add) env (runShutdownCb env l' o) := by
  unfold Libcortex.runShutdownCb shutdownCbAdds
  split
  · exact addEvents _ _
  · split
    · exact .done (Silent.modify env l' (fun b => ⟨rfl, rfl, rfl, rfl, rfl, rfl⟩) fun b => rfl)
    · exact refl env

end Does

/-! ## What follows from the acts -/

/-- One of `adds` puts an entry into the queue of `g`. -/
def AddsTo (env : Env) (adds : List (GraphId × EventId)) (g : GraphId) : Prop :=
  g ∈ adds.map Prod.fst ∧ (env.root.graphs g).tasks ≠ [] ∧ env.gfreed g = false

instance (env : Env) (adds : List (GraphId × EventId)) (g : GraphId) : Decidable (AddsTo env adds g) :=
  inferInstanceAs (Decidable (_ ∧ _))

/-- Nothing is freed, and the queues only grow, by the events `adds`. -/
structure Calm (adds : List (GraphId × EventId)) (env env' : Env) : Prop where
  kept : ∀ l, Kept (env.lstnr l) (env'.lstnr l)
  listener : ∀ g, (env'.root.graphs g).listener = (env.root.graphs g).listener
  tasks : ∀ g, (env'.root.graphs g).tasks = (env.root.graphs g).tasks
  claimed : ∀ g, (env'.root.graphs g).claimed = (env.root.graphs g).claimed
  equeue : ∀ g, (env'.root.graphs g).equeue = [] ↔ (env.root.graphs g).equeue = [] ∧ ¬ AddsTo env adds g
  registry : env'.root.registry = env.root.registry
  gfreed : env'.gfreed = env.gfreed
  lfreed : env'.lfreed = env.lfreed

theorem not_addsTo_nil (env : Env) (g : GraphId) : ¬ AddsTo env [] g := fun h => List.not_mem_nil h.1

theorem addsTo_append (env : Env) (adds adds' : List (GraphId × EventId)) (g : GraphId) :
    AddsTo env (adds ++ adds') g ↔ AddsTo env adds g ∨ AddsTo env adds' g := by
  simp only [AddsTo, List.map_append, List.mem_append]
  tauto

theorem addEvent_graphs (r : Root) (g : GraphId) (e : EventId) (g' : GraphId) :
    ((crtx_add_event r g e).graphs g').listener = (r.graphs g').listener ∧
    ((crtx_add_event r g e).graphs g').tasks = (r.graphs g').tasks ∧
    ((crtx_add_event r g e).graphs g').claimed = (r.graphs g').claimed ∧
    ((crtx_add_event r g e).graphs g').equeue = (r.graphs g').equeue ++
      if g' = g ∧ (r.graphs g).tasks ≠ [] then [⟨r.nextEntry, e⟩] else [] := by
  unfold crtx_add_event
  dsimp only
  by_cases ht : (r.graphs g).tasks = []
  · have ht' : ((addReference r e).graphs g).tasks = [] := ht
    rw [if_pos ht']
    simp [addQueue, dropReference, addReference, ht]
  · have ht' : ((addReference r e).graphs g).tasks ≠ [] := ht
    have hgr := addQueue_graphs ht' e
    rw [if_neg ht', addTrigger_graphs, hgr]
    by_cases hg : g' = g
    · subst hg
      simp [addReference, ht]
    · simp [hg, addReference]

namespace Calm

variable {adds adds' : List (GraphId × EventId)} {env env' env'' : Env}

theorem addsTo (h : Calm adds env env') (adds' : List (GraphId × EventId)) (g : GraphId) :
    AddsTo env' adds' g ↔ AddsTo env adds' g := by
  simp only [AddsTo, h.tasks, h.gfreed]

theorem of_silent (h : Silent env env') : Calm [] env env' := by
  constructor
  · exact h.kept
  · exact fun g => by rw [h.graphs]
  · exact fun g => by rw [h.graphs]
  · exact fun g => by rw [h.graphs]
  · exact fun g => by rw [h.graphs, and_iff_left (not_addsTo_nil env g)]
  · exact h.registry
  · exact h.gfreed
  · exact h.lfreed

theorem refl (env : Env) : Calm [] env env := of_silent (.refl env)

theorem trans (h : Calm adds env env') (h' : Calm adds' env' env'') : Calm (adds ++ adds') env env'' := by
  constructor
  · exact fun l => (h.kept l).trans (h'.kept l)
  · exact fun g => (h'.listener g).trans (h.listener g)
  · exact fun g => (h'.tasks g).trans (h.tasks g)
  · exact fun g => (h'.claimed g).trans (h.claimed g)
  · intro g
    rw [h'.equeue, h.equeue, h.addsTo, addsTo_append, not_or, and_assoc]
  · exact h'.registry.trans h.registry
  · exact h'.gfreed.trans h.gfreed
  · exact h'.lfreed.trans h.lfreed

theorem emit (env : Env) (ev : Ev) : Calm [] env (env.emit ev) := { refl env with }

theorem setState (env : Env) (l : ListenerId) (st : LstnrState) : Calm [] env (env.setState l st) := by
  refine { refl env with kept := ?_ }
  intro l'
  by_cases h : l' = l
  · subst h
    rw [Env.setState_self]
    exact ⟨rfl, rfl, rfl, rfl, rfl, rfl⟩
  · rw [Env.setState_other _ h]
    exact Kept.refl _

theorem addEventRoot (env : Env) (p : GraphId × EventId) (hf : env.gfreed p.1 = false) :
    Calm [p] env (env.setRoot (crtx_add_event env.root p.1 p.2)) := by
  have hgr := addEvent_graphs env.root p.1 p.2
  refine { refl env with
    listener := fun g' => (hgr g').1
    tasks := fun g' => (hgr g').2.1
    claimed := fun g' => (hgr g').2.2.1
    equeue := ?_
    registry := (Root.SameSetup.add_event env.root p.1 p.2).registry }
  intro g'
  rw [Env.setRoot_root, (hgr g').2.2.2, List.append_eq_nil_iff]
  refine and_congr_right fun _ => ?_
  by_cases hg : g' = p.1
  · subst hg
    simp [AddsTo, hf]
  · simp [AddsTo, hg]

theorem addEvent (env : Env) (p : GraphId × EventId) : Calm [p] env (env.addEvent p) := by
  unfold Env.addEvent
  split
  · rename_i hf
    refine { refl env with equeue := fun g => ⟨fun h => ⟨h, ?_⟩, fun h => h.1⟩ }
    rintro ⟨hg, -, hf'⟩
    rw [List.map_singleton, List.mem_singleton] at hg
    rw [hg, hf] at hf'
    cases hf'
  · rename_i hf
    rw [Bool.not_eq_true] at hf
    split
    · exact addEventRoot env p hf
    · exact ((emit env (.lock _)).trans (addEventRoot (env.lock _) p hf)).trans (emit _ (.unlock _))

theorem idle (h : Calm adds env env') (g : GraphId) : env'.idle g ↔ env.idle g ∧ ¬ AddsTo env adds g := by
  simp only [Env.idle, Bool.and_eq_true, List.isEmpty_iff, h.claimed, h.equeue]
  tauto

end Calm

namespace Act

theorem calm (l : ListenerId) (env : Env) (a : Act) : Calm a.add?.toList env (a.perform l env) := by
  cases a with
  | lock m => exact Calm.emit env _
  | unlock m => exact Calm.emit env _
  | set st => exact Calm.setState env l st
  | add p => exact Calm.addEvent env p
  | call => exact Calm.emit env _

theorem state_self (l : ListenerId) (env : Env) (a : Act) :
    ((a.perform l env).lstnr l).state = a.state?.getD (env.lstnr l).state := by
  cases a with
  | lock | unlock | call => rfl
  | set st => exact congrArg Listener.state (Env.setState_self env l st)
  | add p =>
    unfold perform Env.addEvent
    dsimp only
    split
    · rfl
    · split <;> rfl

theorem state_other {l l' : ListenerId} (hl : l' ≠ l) (env : Env) (a : Act) :
    ((a.perform l env).lstnr l').state = (env.lstnr l').state := by
  cases a with
  | lock | unlock | call => rfl
  | set st => exact congrArg Listener.state (Env.setState_other env hl st)
  | add p =>
    unfold perform Env.addEvent
    dsimp only
    split
    · rfl
    · split <;> rfl

end Act

/-- An entry of the log that a call on `l` makes before it frees anything. -/
def Harmless (l : ListenerId) : Ev → Prop
  | .lock _ | .unlock _ => True
  | .setState l' _ | .callShutdown l' => l' = l
  | _ => False

theorem Act.log (l : ListenerId) (env : Env) (a : Act) :
    ∃ new, (a.perform l env).log = new ++ env.log ∧ ∀ ev ∈ new, Harmless l ev := by
  cases a with
  | lock m => exact ⟨[.lock m], rfl, by simp [Harmless]⟩
  | unlock m => exact ⟨[.unlock m], rfl, by simp [Harmless]⟩
  | set st => exact ⟨[.setState l st], rfl, by simp [Harmless]⟩
  | call => exact ⟨[.callShutdown l], rfl, by simp [Harmless]⟩
  | add p =>
    unfold perform Env.addEvent
    dsimp only
    split
    · exact ⟨[], rfl, by simp⟩
    · split
      · exact ⟨[], rfl, by simp⟩
      · exact ⟨[.unlock (.queue p.1), .lock (.queue p.1)], rfl, by simp [Harmless]⟩

namespace Does

variable {l : ListenerId} {env env' : Env} {acts : List Act}

theorem calm (h : Does l acts env env') : Calm (addsOf acts) env env' := by
  induction h with
  | done hs => exact Calm.of_silent hs
  | @act _ env₁ _ a _ hs _ ih =>
    have := ((Calm.of_silent hs).trans (a.calm l env₁)).trans ih
    cases a <;> exact this

theorem state (h : Does l acts env env') : (env'.lstnr l).state = (statesOf acts).getLastD (env.lstnr l).state := by
  induction h with
  | done hs => exact hs.state l
  | @act _ env₁ _ a _ hs _ ih =>
    rw [ih, a.state_self, hs.state]
    cases a with
    | set st => exact (List.getLastD_cons ..).symm
    | lock | unlock | add | call => rfl

theorem state_other (h : Does l acts env env') {l' : ListenerId} (hl : l' ≠ l) :
    (env'.lstnr l').state = (env.lstnr l').state := by
  induction h with
  | done hs => exact hs.state l'
  | @act _ env₁ _ a _ hs _ ih => rw [ih, a.state_other hl, hs.state]

theorem log (h : Does l acts env env') : ∃ new, env'.log = new ++ env.log ∧ ∀ ev ∈ new, Harmless l ev := by
  induction h with
  | done hs => exact ⟨[], hs.log, by simp⟩
  | @act _ env₁ _ a _ hs _ ih =>
    obtain ⟨new, hn, hh⟩ := a.log l env₁
    obtain ⟨new', hn', hh'⟩ := ih
    refine ⟨new' ++ new, by rw [hn', hn, hs.log, List.append_assoc], ?_⟩
    intro ev hev
    exact (List.mem_append.mp hev).elim (hh' ev) (hh ev)

theorem suffix (h : Does l acts env env') : env.log <:+ env'.log := by
  obtain ⟨new, hn, _⟩ := h.log
  exact ⟨new, hn.symm⟩

theorem call (h : Does l acts env env') (hc : .call ∈ acts) : .callShutdown l ∈ env'.log := by
  induction h with
  | done => cases hc
  | act _ hd ih =>
    rcases List.mem_cons.mp hc with rfl | hc
    · exact hd.suffix.subset (List.mem_cons_self ..)
    · exact ih hc

end Does

theorem statesOf_cons (a : Act) (acts : List Act) : statesOf (a :: acts) = a.state?.toList ++ statesOf acts := by
  cases a <;> rfl

theorem addsOf_cons (a : Act) (acts : List Act) : addsOf (a :: acts) = a.add?.toList ++ addsOf acts := by
  cases a <;> rfl

@[simp] theorem statesOf_nil : statesOf [] = [] := rfl

@[simp] theorem addsOf_nil : addsOf [] = [] := rfl

@[simp] theorem statesOf_append (acts acts' : List Act) : statesOf (acts ++ acts') = statesOf acts ++ statesOf acts' :=
  List.filterMap_append ..

@[simp] theorem addsOf_append (acts acts' : List Act) : addsOf (acts ++ acts') = addsOf acts ++ addsOf acts' :=
  List.filterMap_append ..

@[simp] theorem statesOf_adds (adds : List (GraphId × EventId)) : statesOf (adds.map .add) = [] := by
  simp [statesOf, Act.state?]

@[simp] theorem addsOf_adds (adds : List (GraphId × EventId)) : addsOf (adds.map .add) = adds := by
  simp only [addsOf, List.filterMap_map]
  exact List.filterMap_some

@[simp] theorem statesOf_sets (sts : List LstnrState) : statesOf (sts.map .set) = sts := by
  simp only [statesOf, List.filterMap_map]
  exact List.filterMap_some

/-! ## Starting and stopping -/

def startActs (l : ListenerId) (adds : List (GraphId × EventId)) (sts : List LstnrState)
    (adds' : List (GraphId × EventId)) : List Act :=
  [Act.lock (.state l), .set .starting] ++ adds.map Act.add ++ sts.map Act.set ++ adds'.map Act.add ++
    [Act.unlock (.state l)]

theorem start_does (env : Env) (l : ListenerId) (o : Outcome) :
    ((env.lstnr l).state = .started ∧
      Does l [.lock (.state l), .unlock (.state l)] env (crtx_start_listener env l o).1) ∨
    ((env.lstnr l).state ≠ .started ∧ ∃ adds adds' sts, sts ∈ [[], [.stopped], [LstnrState.started]] ∧
      Does l (startActs l adds sts adds') env (crtx_start_listener env l o).1) := by
  unfold crtx_start_listener startActs
  dsimp only
  split
  · rename_i h
    exact Or.inl ⟨h, ((Does.refl env).snoc (.lock _)).snoc (.unlock _)⟩
  · rename_i h
    refine Or.inr ⟨h, ?_⟩
    have hset := ((Does.refl env (l := l)).snoc (.lock (.state l))).snoc (.set .starting)
    obtain ⟨adds, hcb⟩ := Does.startCallback (l := l) ((env.lock (.state l)).setState l .starting) l o
    have hstart := hset.append hcb
    generalize startCallback ((env.lock (.state l)).setState l .starting) l o = env₁ at hstart ⊢
    split
    · have hpost := Does.postState (l := l) (env₁.setState l .stopped) l o o.start_ret
      exact ⟨adds, _, [.stopped], by simp, ((hstart.snoc (.set .stopped)).append hpost).snoc (.unlock _)⟩
    · split
      · refine ⟨adds, [], [], by simp, ?_⟩
        rw [List.map_nil, List.map_nil, List.append_nil, List.append_nil]
        exact hstart.snoc (.unlock (.state l))
      · rename_i env₂ hact
        have hpost := Does.postState (l := l) (env₂.setState l .started) l o 0
        have hstarted := ((hstart.silent (Silent.activate hact)).snoc (.set .started)).append hpost
        exact ⟨adds, _, [.started], by simp, (hstarted.silent (Silent.startupTrigger _ l)).snoc (.unlock _)⟩

def stopActs (l : ListenerId) (b : Listener) (o : Outcome) : List Act :=
  [Act.lock (.state l), .set .stopping, .lock (.dependencies l), .unlock (.dependencies l)] ++
    (stopCbAdds b o).map Act.add ++ [Act.set .stopped] ++ (stateAdds b o).map Act.add ++ [Act.unlock (.state l)]

theorem revDepsReady_stopping {env env' : Env} {l : ListenerId} {acts : List Act} (h : Does l acts env env')
    (hst : statesOf acts = [.stopping])
    (hrev : (env'.lstnr l).rev_dependencies = (env.lstnr l).rev_dependencies)
    (hlt : (env.lstnr l).state.num < LstnrState.stopped.num) : revDepsReady env' l = revDepsReady env l := by
  unfold revDepsReady
  rw [hrev]
  congr 1
  funext d
  by_cases hd : d = l
  · subst hd
    have hn : ¬ LstnrState.stopped.num ≤ (env.lstnr d).state.num := by omega
    rw [h.state, hst, decide_eq_false hn]
    rfl
  · rw [h.state_other hd]

theorem stop_does (env : Env) (l : ListenerId) (o : Outcome) :
    (LstnrState.stopped.num ≤ (env.lstnr l).state.num ∧
      Does l [.lock (.state l), .unlock (.state l)] env (crtx_stop_listener env l o).1) ∨
    ((env.lstnr l).state.num < LstnrState.stopped.num ∧ revDepsReady env l = false ∧
      Does l [.lock (.state l), .set .stopping, .lock (.dependencies l), .unlock (.state l), .unlock (.dependencies l)]
        env (crtx_stop_listener env l o).1) ∨
    ((env.lstnr l).state.num < LstnrState.stopped.num ∧ revDepsReady env l = true ∧
      Does l (stopActs l (env.lstnr l) o) env (crtx_stop_listener env l o).1) := by
  unfold crtx_stop_listener
  dsimp only
  split
  · rename_i h
    exact Or.inl ⟨h, ((Does.refl env).snoc (.lock _)).snoc (.unlock _)⟩
  · rename_i h
    have hlt : (env.lstnr l).state.num < LstnrState.stopped.num := Nat.lt_of_not_le h
    refine Or.inr ?_
    have hstop := (((Does.refl env (l := l)).snoc (.lock (.state l))).snoc (.set .stopping)).snoc
      (.lock (.dependencies l))
    have hready := revDepsReady_stopping hstop rfl (by simp [Act.perform]) hlt
    change revDepsReady (((env.lock (.state l)).setState l .stopping).lock (.dependencies l)) l = _ at hready
    change Does l _ env (((env.lock (.state l)).setState l .stopping).lock (.dependencies l)) at hstop
    generalize ((env.lock (.state l)).setState l .stopping).lock (.dependencies l) = env₁ at hstop hready ⊢
    split
    · rename_i hr
      exact Or.inl ⟨hlt, by rw [← hready, hr], (hstop.snoc (.unlock (.state l))).snoc (.unlock (.dependencies l))⟩
    · rename_i hr
      refine Or.inr ⟨hlt, by rw [← hready, Bool.eq_true_of_not_eq_false hr], ?_⟩
      have hdrop := (hstop.silent (Silent.dropDependencies env₁ l)).snoc (.unlock (.dependencies l))
      change Does l _ env ((dropDependencies env₁ l).unlock (.dependencies l)) at hdrop
      generalize (dropDependencies env₁ l).unlock (.dependencies l) = env₂ at hdrop ⊢
      have hcb : stopCbAdds (env₂.lstnr l) o = stopCbAdds (env.lstnr l) o := by
        unfold stopCbAdds
        rw [(hdrop.calm.kept l).stop_listener]
      have hact := (hdrop.append (Does.stopActivity env₂ l o)).snoc (.set .stopped)
      rw [hcb] at hact
      have hpost := Does.postState (l := l) ((stopActivity env₂ l o).setState l .stopped) l o 0
      have hst : stateAdds (((stopActivity env₂ l o).setState l .stopped).lstnr l) o = stateAdds (env.lstnr l) o := by
        unfold stateAdds
        rw [← (hact.calm.kept l).state_graph]
        rfl
      rw [hst] at hpost
      exact (hact.append hpost).snoc (.unlock (.state l))

/-! ## Shutting down -/

/-- `crtx_shutdown_listener` until it looks at the state. -/
def askedToStop (env : Env) (l : ListenerId) (o : Outcome) : Env :=
  (crtx_stop_listener (env.emit (.callShutdown l)) l o).1.lock (.state l)

/-- `crtx_shutdown_listener` until it looks at the graph. -/
def closed (env : Env) (l : ListenerId) (o : Outcome) : Env :=
  runShutdownCb (removeCallbacks (((askedToStop env l o).setState l .shuttingDown).unlock (.state l)) l) l o

/-- A shutdown of the listener goes on to look at the graph. -/
def ShutsDown (env : Env) (l : ListenerId) : Prop :=
  (env.lstnr l).state = .stopped ∨ (env.lstnr l).state.num < LstnrState.stopped.num ∧ revDepsReady env l = true

instance (env : Env) (l : ListenerId) : Decidable (ShutsDown env l) := inferInstanceAs (Decidable (_ ∨ _))

/-- The events that a shutdown adds before it looks at the graph. -/
def closeAdds (b : Listener) (o : Outcome) : List (GraphId × EventId) :=
  (if b.state.num < LstnrState.stopped.num then stopCbAdds b o ++ stateAdds b o else []) ++ shutdownCbAdds b o

/-- The graph has pending events when a shutdown of the listener looks at it. -/
def Delays (env : Env) (l : ListenerId) (o : Outcome) : Prop :=
  ShutsDown env l ∧ ∃ g ∈ (env.lstnr l).graph, ¬ (env.idle g ∧ ¬ AddsTo env (closeAdds (env.lstnr l) o) g)

/-- A shutdown of the listener runs `shutdown_listener_intern`. -/
def Interns (env : Env) (l : ListenerId) (o : Outcome) : Prop :=
  ((env.lstnr l).state = .shutdown ∧ ∃ g ∈ (env.lstnr l).graph, env.idle g) ∨
  (ShutsDown env l ∧ ∀ g ∈ (env.lstnr l).graph, env.idle g ∧ ¬ AddsTo env (closeAdds (env.lstnr l) o) g)

instance (env : Env) (l : ListenerId) (o : Outcome) : Decidable (Delays env l o) :=
  inferInstanceAs (Decidable (_ ∧ _))

instance (env : Env) (l : ListenerId) (o : Outcome) : Decidable (Interns env l o) :=
  inferInstanceAs (Decidable (_ ∨ _))

theorem state_cases (st : LstnrState) :
    st.num < LstnrState.stopped.num ∨ st = .stopped ∨ st = .shuttingDown ∨ st = .shutdown := by
  cases st <;> decide

theorem early_ne {st : LstnrState} (h : st.num < LstnrState.stopped.num) :
    st ≠ .stopped ∧ st ≠ .shuttingDown ∧ st ≠ .shutdown := by
  revert h
  cases st <;> decide

theorem askedToStop_does (env : Env) (l : ListenerId) (o : Outcome) :
    (LstnrState.stopped.num ≤ (env.lstnr l).state.num ∧
      Does l [.call, .lock (.state l), .unlock (.state l), .lock (.state l)] env (askedToStop env l o)) ∨
    ((env.lstnr l).state.num < LstnrState.stopped.num ∧ revDepsReady env l = false ∧
      Does l [.call, .lock (.state l), .set .stopping, .lock (.dependencies l), .unlock (.state l),
        .unlock (.dependencies l), .lock (.state l)] env (askedToStop env l o)) ∨
    ((env.lstnr l).state.num < LstnrState.stopped.num ∧ revDepsReady env l = true ∧
      Does l ([.call] ++ stopActs l (env.lstnr l) o ++ [.lock (.state l)]) env (askedToStop env l o)) := by
  have hcall := (Does.refl env (l := l)).snoc .call
  unfold askedToStop
  rcases stop_does (env.emit (.callShutdown l)) l o with ⟨h, hd⟩ | ⟨h, hr, hd⟩ | ⟨h, hr, hd⟩
  · exact Or.inl ⟨h, (hcall.append hd).snoc (.lock (.state l))⟩
  · exact Or.inr (Or.inl ⟨h, hr, (hcall.append hd).snoc (.lock (.state l))⟩)
  · exact Or.inr (Or.inr ⟨h, hr, (hcall.append hd).snoc (.lock (.state l))⟩)

theorem statesOf_stopActs (l : ListenerId) (b : Listener) (o : Outcome) :
    statesOf (stopActs l b o) = [.stopping, .stopped] := by
  simp [stopActs, statesOf_cons, Act.state?]

theorem shutdown_eq (env : Env) (l : ListenerId) (o : Outcome) :
    crtx_shutdown_listener env l o =
      if (env.lstnr l).state = .shutdown then retryShutdown (askedToStop env l o) l
      else if ShutsDown env l then finishShutdown (closed env l o) l
      else (askedToStop env l o).unlock (.state l) := by
  change (if ((askedToStop env l o).lstnr l).state.num < LstnrState.stopped.num ∨
      ((askedToStop env l o).lstnr l).state = .shuttingDown then (askedToStop env l o).unlock (.state l)
    else if ((askedToStop env l o).lstnr l).state = .shutdown then retryShutdown (askedToStop env l o) l
    else finishShutdown (closed env l o) l) = _
  rcases askedToStop_does env l o with ⟨h, hd⟩ | ⟨h, hr, hd⟩ | ⟨h, hr, hd⟩
  · have hst : ((askedToStop env l o).lstnr l).state = (env.lstnr l).state := hd.state
    rw [hst]
    rcases state_cases (env.lstnr l).state with h' | h' | h' | h'
    · omega
    · simp [h', ShutsDown, LstnrState.num]
    · simp [h', ShutsDown, LstnrState.num]
    · simp [h', LstnrState.num]
  · have hst : ((askedToStop env l o).lstnr l).state = .stopping := hd.state
    simp [hst, early_ne h, ShutsDown, hr, LstnrState.num]
  · have hst : ((askedToStop env l o).lstnr l).state = .stopped := by
      rw [hd.state, statesOf_append, statesOf_append, statesOf_stopActs]
      rfl
    have hdown : ShutsDown env l := Or.inr ⟨h, hr⟩
    simp [hst, early_ne h, hdown, LstnrState.num]

def closeActs (l : ListenerId) (b : Listener) (o : Outcome) : List Act :=
  [Act.call] ++
    (if b.state.num < LstnrState.stopped.num then stopActs l b o else [Act.lock (.state l), .unlock (.state l)]) ++
    [Act.lock (.state l), .set .shuttingDown, .unlock (.state l)] ++ (shutdownCbAdds b o).map Act.add

theorem addsOf_closeActs (l : ListenerId) (b : Listener) (o : Outcome) :
    addsOf (closeActs l b o) = closeAdds b o := by
  unfold closeActs closeAdds stopActs
  split
  · simp [addsOf_cons, Act.add?]
  · simp [addsOf_cons, Act.add?]

theorem closed_does {env : Env} {l : ListenerId} (h : ShutsDown env l) (o : Outcome) :
    Does l (closeActs l (env.lstnr l) o) env (closed env l o) := by
  have hasked : Does l ([.call] ++ (if (env.lstnr l).state.num < LstnrState.stopped.num then stopActs l (env.lstnr l) o
      else [.lock (.state l), .unlock (.state l)]) ++ [.lock (.state l)]) env (askedToStop env l o) := by
    rcases askedToStop_does env l o with ⟨hle, hd⟩ | ⟨hlt, hr, hd⟩ | ⟨hlt, hr, hd⟩
    · rw [if_neg (by omega)]
      exact hd
    · rcases h with h | ⟨_, h⟩
      · exact absurd h (early_ne hlt).1
      · rw [hr] at h
        cases h
    · rw [if_pos hlt]
      exact hd
  have hclose := ((hasked.snoc (.set .shuttingDown)).snoc (.unlock (.state l))).silent
    (Silent.removeCallbacks (((askedToStop env l o).setState l .shuttingDown).unlock (.state l)) l)
  unfold closed closeActs
  generalize removeCallbacks (((askedToStop env l o).setState l .shuttingDown).unlock (.state l)) l = env₁ at hclose ⊢
  have hrun := Does.runShutdownCb (l := l) env₁ l o
  have hcb : shutdownCbAdds (env₁.lstnr l) o = shutdownCbAdds (env.lstnr l) o := by
    unfold shutdownCbAdds
    rw [(hclose.calm.kept l).shutdown_cb]
  rw [hcb] at hrun
  simpa only [List.append_assoc, List.cons_append, List.nil_append] using hclose.append hrun

/-- The end of a shutdown that finds pending events in the queue of `g`. -/
def leaveDelayed (env : Env) (l : ListenerId) (g : GraphId) : Env :=
  ((((env.lock (.queue g)).emit (.delayed l)).unlock (.queue g)).setState l .shutdown).unlock (.state l)

/-- The ways in which a shutdown leaves the listener as it is: it is being shut down, it refuses to stop, or its
shutdown was delayed and there are still events. -/
inductive Refused (l : ListenerId) (b : Listener) : List Act → Prop where
  | late : Refused l b [.call, .lock (.state l), .unlock (.state l), .lock (.state l), .unlock (.state l)]
  | running : b.state.num < LstnrState.stopped.num →
    Refused l b [.call, .lock (.state l), .set .stopping, .lock (.dependencies l), .unlock (.state l),
      .unlock (.dependencies l), .lock (.state l), .unlock (.state l)]
  | pending (g : GraphId) : Refused l b [.call, .lock (.state l), .unlock (.state l), .lock (.state l),
      .lock (.queue g), .unlock (.queue g), .unlock (.state l)]

/-- The acts of a shutdown until `shutdown_listener_intern`. The first is a shutdown that was delayed before. -/
inductive Reached (l : ListenerId) (b : Listener) (o : Outcome) : List Act → Prop where
  | again {g : GraphId} : b.state = .shutdown → b.graph = some g →
    Reached l b o [.call, .lock (.state l), .unlock (.state l), .lock (.state l), .lock (.queue g)]
  | first {g : GraphId} : b.state ≠ .shutdown → b.graph = some g →
    Reached l b o (closeActs l b o ++ [.lock (.queue g), .unlock (.queue g)])
  | noGraph : b.state ≠ .shutdown → b.graph = none → Reached l b o (closeActs l b o)

theorem shutsDown_ne {env : Env} {l : ListenerId} (h : ShutsDown env l) : (env.lstnr l).state ≠ .shutdown := by
  rcases h with h | ⟨h, _⟩
  · rw [h]
    decide
  · exact (early_ne h).2.2

/-- What a shutdown of `l` can leave behind. -/
inductive Shutdown (env : Env) (l : ListenerId) (o : Outcome) : Env → Prop where
  | refused {env' : Env} {acts : List Act} : ¬ Delays env l o → ¬ Interns env l o → Refused l (env.lstnr l) acts →
    Does l acts env env' → Shutdown env l o env'
  | delayed {env₁ : Env} {g : GraphId} : Delays env l o → ¬ Interns env l o → (env.lstnr l).graph = some g →
    Does l (closeActs l (env.lstnr l) o) env env₁ → env₁.idle g = false → Shutdown env l o (leaveDelayed env₁ l g)
  | reached {env₁ : Env} {acts : List Act} : ¬ Delays env l o → Interns env l o → Reached l (env.lstnr l) o acts →
    Does l acts env env₁ → graphIdle env₁ l = true → Shutdown env l o (shutdown_listener_intern env₁ l)

theorem graphIdle_does {env env₁ : Env} {l : ListenerId} {acts : List Act} (hd : Does l acts env env₁) :
    graphIdle env₁ l = true ↔ ∀ g ∈ (env.lstnr l).graph, env.idle g ∧ ¬ AddsTo env (addsOf acts) g := by
  unfold graphIdle
  rw [(hd.calm.kept l).graph]
  cases hg : (env.lstnr l).graph with
  | none => simp
  | some g => simp [hd.calm.idle]

theorem retry_shutdown {env : Env} {l : ListenerId} (hst : (env.lstnr l).state = .shutdown) (o : Outcome) :
    Shutdown env l o (retryShutdown (askedToStop env l o) l) := by
  have hns : ¬ ShutsDown env l := fun h => shutsDown_ne h hst
  have hnd : ¬ Delays env l o := fun h => hns h.1
  have hd : Does l [.call, .lock (.state l), .unlock (.state l), .lock (.state l)] env (askedToStop env l o) := by
    rcases askedToStop_does env l o with ⟨_, hd⟩ | ⟨h, _, _⟩ | ⟨h, _, _⟩
    · exact hd
    · exact absurd hst (early_ne h).2.2
    · exact absurd hst (early_ne h).2.2
  generalize askedToStop env l o = env₁ at hd ⊢
  unfold retryShutdown
  rw [(hd.calm.kept l).graph]
  cases hg : (env.lstnr l).graph with
  | none =>
    refine .refused hnd ?_ .late (hd.snoc (.unlock (.state l)))
    simp [Interns, hg, hns]
  | some g =>
    have hidle : env₁.idle g ↔ env.idle g := by
      rw [hd.calm.idle, and_iff_left]
      exact not_addsTo_nil env g
    have hlock := hd.snoc (.lock (.queue g))
    dsimp only
    split
    · rename_i hi
      refine .reached hnd (Or.inl ⟨hst, g, hg, hidle.mp hi⟩) (.again hst hg) hlock ((graphIdle_does hlock).mpr ?_)
      intro g' hg'
      rw [hg] at hg'
      cases hg'
      exact ⟨hidle.mp hi, not_addsTo_nil env g⟩
    · rename_i hi
      refine .refused hnd ?_ (.pending g) ((hlock.snoc (.unlock (.queue g))).snoc (.unlock (.state l)))
      rw [Env.lock_idle, hidle] at hi
      simp [Interns, hg, hns, hi]

theorem finish_shutdown {env : Env} {l : ListenerId} (hsd : ShutsDown env l) (o : Outcome) :
    Shutdown env l o (finishShutdown (closed env l o) l) := by
  have hst := shutsDown_ne hsd
  have hd := closed_does hsd o
  generalize closed env l o = env₁ at hd ⊢
  unfold finishShutdown
  rw [(hd.calm.kept l).graph]
  cases hg : (env.lstnr l).graph with
  | none =>
    refine .reached ?_ ?_ (.noGraph hst hg) hd ((graphIdle_does hd).mpr ?_)
    · simp [Delays, hg]
    · exact Or.inr ⟨hsd, by simp [hg]⟩
    · simp [hg]
  | some g =>
    have hidle : env₁.idle g ↔ env.idle g ∧ ¬ AddsTo env (closeAdds (env.lstnr l) o) g := by
      rw [hd.calm.idle, addsOf_closeActs]
    have hlook := hd.append (((Does.refl env₁ (l := l)).snoc (.lock (.queue g))).snoc (.unlock (.queue g)))
    dsimp only
    split
    · rename_i hi
      rw [Env.lock_idle, hidle] at hi
      have hall : ∀ g' ∈ (env.lstnr l).graph, env.idle g' ∧ ¬ AddsTo env (closeAdds (env.lstnr l) o) g' := by
        intro g' hg'
        rw [hg] at hg'
        cases hg'
        exact hi
      refine .reached ?_ (Or.inr ⟨hsd, hall⟩) (.first hst hg) hlook ((graphIdle_does hlook).mpr ?_)
      · rintro ⟨_, g', hg', hb⟩
        exact hb (hall g' hg')
      · rw [addsOf_append, addsOf_closeActs]
        simpa [addsOf_cons, Act.add?] using hall
    · rename_i hi
      have hb : env₁.idle g = false := Bool.eq_false_of_not_eq_true hi
      rw [Env.lock_idle, hidle] at hi
      refine .delayed ⟨hsd, g, hg, hi⟩ ?_ hg hd hb
      rintro (⟨h, _⟩ | ⟨_, h⟩)
      · exact hst h
      · exact hi (h g hg)

theorem shutdown_cases (env : Env) (l : ListenerId) (o : Outcome) :
    Shutdown env l o (crtx_shutdown_listener env l o) := by
  rw [shutdown_eq]
  split
  · rename_i hst
    exact retry_shutdown hst o
  · rename_i hst
    split
    · rename_i hsd
      exact finish_shutdown hsd o
    · rename_i hsd
      have hnd : ¬ Delays env l o := fun h => hsd h.1
      have hni : ¬ Interns env l o := by
        rintro (⟨h, _⟩ | ⟨h, _⟩)
        · exact hst h
        · exact hsd h
      rcases askedToStop_does env l o with ⟨_, hd⟩ | ⟨hlt, _, hd⟩ | ⟨hlt, hr, _⟩
      · exact .refused hnd hni .late (hd.snoc (.unlock (.state l)))
      · exact .refused hnd hni (.running hlt) (hd.snoc (.unlock (.state l)))
      · exact absurd (Or.inr ⟨hlt, hr⟩) hsd

/-! ## Freeing -/

/-- `listener->graph == graph && graph->listener == listener` -/
def Owns (env : Env) (l : ListenerId) (g : GraphId) : Prop :=
  (env.lstnr l).graph = some g ∧ (env.root.graphs g).listener = some l

instance (env : Env) (l : ListenerId) (g : GraphId) : Decidable (Owns env l g) := inferInstanceAs (Decidable (_ ∧ _))

/-- What `free_cb` writes into the log. -/
def freeLog (b : Listener) (l : ListenerId) : List Ev := if b.free_cb = some true then [.freeLstnr l] else []

/-- What `shutdown_listener_intern` leaves behind. -/
inductive Interned (env : Env) (l : ListenerId) : Env → Prop where
  | frees {g : GraphId} {env' : Env} : Owns env l g → env'.root = shutdown_graph_intern env.root g →
    env'.lstnr = (env.modify l fun b => { b with graph := none }).lstnr → env'.gfreed = Function.update env.gfreed g true →
    (∀ l', env'.lfreed l' = true ↔ env.lfreed l' = true ∨ l' = l ∧ (env.lstnr l).free_cb = some true) →
    env'.log = freeLog (env.lstnr l) l ++ .freeGraph g :: .intern l (graphIdle env l) :: env.log → Interned env l env'
  | keeps {env' : Env} : (∀ g, ¬ Owns env l g) → env'.root = env.root → env'.lstnr = env.lstnr →
    env'.gfreed = env.gfreed →
    (∀ l', env'.lfreed l' = true ↔ env.lfreed l' = true ∨ l' = l ∧ (env.lstnr l).free_cb = some true) →
    env'.log = freeLog (env.lstnr l) l ++ .intern l (graphIdle env l) :: env.log → Interned env l env'

theorem callFreeCb_eq (env : Env) (l : ListenerId) :
    (callFreeCb env l).root = env.root ∧ (callFreeCb env l).lstnr = env.lstnr ∧
    (callFreeCb env l).gfreed = env.gfreed ∧ (callFreeCb env l).log = freeLog (env.lstnr l) l ++ env.log ∧
    ∀ l', (callFreeCb env l).lfreed l' = true ↔ env.lfreed l' = true ∨ l' = l ∧ (env.lstnr l).free_cb = some true := by
  unfold callFreeCb freeLog
  split
  · rename_i hf
    refine ⟨rfl, rfl, rfl, rfl, ?_⟩
    intro l'
    simp only [Function.update_apply]
    grind
  · rename_i hf
    exact ⟨rfl, rfl, rfl, rfl, fun l' => by simp [hf]⟩

theorem intern_cases (env : Env) (l : ListenerId) : Interned env l (shutdown_listener_intern env l) := by
  obtain ⟨hroot, hlstnr, hgfreed, hlog, hlfreed⟩ := callFreeCb_eq (releaseGraph (env.emit (.intern l (graphIdle env l))) l) l
  unfold shutdown_listener_intern
  by_cases ho : ∃ g, Owns env l g
  · obtain ⟨g, hg, hgl⟩ := ho
    have heq : releaseGraph (env.emit (.intern l (graphIdle env l))) l =
        (freeGraph (env.emit (.intern l (graphIdle env l))) g).modify l fun b => { b with graph := none } := by
      unfold releaseGraph
      rw [Env.emit_lstnr, hg]
      exact if_pos hgl
    have hcb : ((releaseGraph (env.emit (.intern l (graphIdle env l))) l).lstnr l).free_cb = (env.lstnr l).free_cb := by
      rw [heq, Env.modify_self]
      rfl
    unfold freeLog at hlog
    rw [hcb] at hlog hlfreed
    rw [heq] at hroot hlstnr hgfreed hlog hlfreed ⊢
    exact .frees ⟨hg, hgl⟩ hroot hlstnr hgfreed hlfreed hlog
  · have heq : releaseGraph (env.emit (.intern l (graphIdle env l))) l = env.emit (.intern l (graphIdle env l)) := by
      unfold releaseGraph
      rw [Env.emit_lstnr]
      split
      · rename_i g hg
        exact if_neg fun hgl => ho ⟨g, hg, hgl⟩
      · rfl
    rw [heq] at hroot hlstnr hgfreed hlog hlfreed ⊢
    exact .keeps (not_exists.mp ho) hroot hlstnr hgfreed hlfreed hlog

theorem intern_log (env : Env) (l : ListenerId) :
    ∃ new, (shutdown_listener_intern env l).log = new ++ env.log ∧ ∀ ev ∈ new,
      ev = .intern l (graphIdle env l) ∨ ev = .freeLstnr l ∨ ∃ g, ev = .freeGraph g := by
  have hfree : ∀ ev ∈ freeLog (env.lstnr l) l, ev = .freeLstnr l := by
    unfold freeLog
    split <;> simp
  have hc := intern_cases env l
  generalize shutdown_listener_intern env l = env' at hc ⊢
  cases hc with
  | @frees g _ _ _ _ _ _ hlog =>
    refine ⟨freeLog (env.lstnr l) l ++ [.freeGraph g, .intern l (graphIdle env l)], by simp [hlog], ?_⟩
    intro ev hev
    simp only [List.mem_append, List.mem_cons, List.not_mem_nil, or_false] at hev
    rcases hev with hev | rfl | rfl
    · exact Or.inr (Or.inl (hfree ev hev))
    · exact Or.inr (Or.inr ⟨g, rfl⟩)
    · exact Or.inl rfl
  | keeps _ _ _ _ _ hlog =>
    refine ⟨freeLog (env.lstnr l) l ++ [.intern l (graphIdle env l)], by simp [hlog], ?_⟩
    intro ev hev
    rcases List.mem_append.mp hev with hev | hev
    · exact Or.inr (Or.inl (hfree ev hev))
    · exact Or.inl (List.mem_singleton.mp hev)

theorem intern_listener (env : Env) (l : ListenerId) (g : GraphId) :
    ((shutdown_listener_intern env l).root.graphs g).listener = (env.root.graphs g).listener := by
  have h := intern_cases env l
  generalize shutdown_listener_intern env l = env' at h ⊢
  cases h with
  | @frees g' _ _ hroot =>
    rw [hroot]
    by_cases hg : g = g'
    · rw [hg, shutdown_graph_intern_self]
    · rw [shutdown_graph_intern_other _ hg]
  | keeps _ hroot => rw [hroot]

/-- The listener may lose its graph. -/
structure GraphDropped (b b' : Listener) : Prop where
  state : b'.state = b.state
  free_cb : b'.free_cb = b.free_cb
  free_after_event : b'.free_after_event = b.free_after_event
  graph : ∀ g, b'.graph = some g → b.graph = some g

theorem intern_self (env : Env) (l : ListenerId) :
    GraphDropped (env.lstnr l) ((shutdown_listener_intern env l).lstnr l) := by
  have h := intern_cases env l
  generalize shutdown_listener_intern env l = env' at h ⊢
  cases h with
  | frees _ _ hlstnr =>
    rw [hlstnr, Env.modify_self]
    exact ⟨rfl, rfl, rfl, fun g h => by cases h⟩
  | keeps _ _ hlstnr =>
    rw [hlstnr]
    exact ⟨rfl, rfl, rfl, fun _ h => h⟩

theorem intern_other (env : Env) {l l' : ListenerId} (hl : l' ≠ l) :
    (shutdown_listener_intern env l).lstnr l' = env.lstnr l' := by
  have h := intern_cases env l
  generalize shutdown_listener_intern env l = env' at h ⊢
  cases h with
  | frees _ _ hlstnr => rw [hlstnr, Env.modify_other _ hl]
  | keeps _ _ hlstnr => rw [hlstnr]

/-! ## The log only grows -/

theorem start_suffix (env : Env) (l : ListenerId) (o : Outcome) : env.log <:+ (crtx_start_listener env l o).1.log := by
  rcases start_does env l o with ⟨_, hd⟩ | ⟨_, _, _, _, _, hd⟩
  · exact hd.suffix
  · exact hd.suffix

theorem stop_suffix (env : Env) (l : ListenerId) (o : Outcome) : env.log <:+ (crtx_stop_listener env l o).1.log := by
  rcases stop_does env l o with ⟨_, hd⟩ | ⟨_, _, hd⟩ | ⟨_, _, hd⟩
  · exact hd.suffix
  · exact hd.suffix
  · exact hd.suffix

theorem intern_suffix (env : Env) (l : ListenerId) : env.log <:+ (shutdown_listener_intern env l).log := by
  obtain ⟨new, hn, _⟩ := intern_log env l
  exact ⟨new, hn.symm⟩

theorem leaveDelayed_suffix (env : Env) (l : ListenerId) (g : GraphId) : env.log <:+ (leaveDelayed env l g).log :=
  List.suffix_append [Ev.unlock (.state l), .setState l .shutdown, .unlock (.queue g), .delayed l, .lock (.queue g)] _

theorem shutdown_suffix (env : Env) (l : ListenerId) (o : Outcome) :
    env.log <:+ (crtx_shutdown_listener env l o).log := by
  have h := shutdown_cases env l o
  generalize crtx_shutdown_listener env l o = env' at h ⊢
  cases h with
  | refused _ _ _ hd => exact hd.suffix
  | delayed _ _ _ hd _ => exact hd.suffix.trans (leaveDelayed_suffix _ l _)
  | reached _ _ _ hd _ => exact hd.suffix.trans (intern_suffix _ l)

theorem closeActs_head (l : ListenerId) (b : Listener) (o : Outcome) :
    ∃ acts, closeActs l b o = .call :: .lock (.state l) :: acts := by
  unfold closeActs stopActs
  split
  · exact ⟨_, rfl⟩
  · exact ⟨_, rfl⟩

theorem shutdown_locks_first (env : Env) (l : ListenerId) (o : Outcome) :
    (.lock (.state l) :: .callShutdown l :: env.log) <:+ (crtx_shutdown_listener env l o).log := by
  have hfirst : ∀ {acts : List Act} {env' : Env}, Does l (.call :: .lock (.state l) :: acts) env env' →
      (.lock (.state l) :: .callShutdown l :: env.log) <:+ env'.log := by
    intro acts env' hd
    cases hd with
    | act hs hd =>
      cases hd with
      | @act _ env₂ _ _ _ hs' hd =>
        have hlog := hd.suffix
        change .lock (.state l) :: env₂.log <:+ env'.log at hlog
        rw [hs'.log] at hlog
        change .lock (.state l) :: .callShutdown l :: _ <:+ env'.log at hlog
        rwa [hs.log] at hlog
  have hs := shutdown_cases env l o
  generalize crtx_shutdown_listener env l o = env' at hs ⊢
  cases hs with
  | refused _ _ hr hd => cases hr <;> exact hfirst hd
  | delayed _ _ _ hd _ =>
    obtain ⟨acts, hacts⟩ := closeActs_head l (env.lstnr l) o
    rw [hacts] at hd
    exact (hfirst hd).trans (leaveDelayed_suffix _ l _)
  | reached _ _ hr hd _ =>
    refine List.IsSuffix.trans ?_ (intern_suffix _ l)
    obtain ⟨acts, hacts⟩ := closeActs_head l (env.lstnr l) o
    cases hr with
    | again => exact hfirst hd
    | first =>
      rw [hacts] at hd
      exact hfirst hd
    | noGraph =>
      rw [hacts] at hd
      exact hfirst hd

/-! ## The end of an event -/

section

variable {env : Env} {g : GraphId} {l : ListenerId}

theorem checkDelayed_none (h : (env.root.graphs g).listener = none) : checkDelayed env g = env := by
  unfold checkDelayed
  rw [h]

theorem checkDelayed_some (h : (env.root.graphs g).listener = some l) :
    checkDelayed env g =
      if env.idle g ∧ (env.lstnr l).state = .shutdown then
        shutdown_listener_intern ((env.emit (.touchLstnr l)).lock (.state l)) l
      else ((env.emit (.touchLstnr l)).lock (.state l)).unlock (.state l) := by
  unfold checkDelayed
  rw [h]
  rfl

theorem afterEvent_none (h : (env.root.graphs g).listener = none) (o : Outcome) :
    afterEvent env g o = env.emit (.touchGraph g) := by
  unfold afterEvent
  dsimp only
  rw [Env.emit_root, h]

theorem afterEvent_some (h : (env.root.graphs g).listener = some l) (o : Outcome) :
    afterEvent env g o =
      if (env.lstnr l).free_after_event then
        crtx_shutdown_listener ((env.emit (.touchGraph g)).emit (.touchLstnr l)) l o
      else (env.emit (.touchGraph g)).emit (.touchLstnr l) := by
  unfold afterEvent
  dsimp only
  rw [Env.emit_root, h]
  rfl

theorem afterEvent_suffix (env : Env) (g : GraphId) (o : Outcome) : env.log <:+ (afterEvent env g o).log := by
  cases h : (env.root.graphs g).listener with
  | none =>
    rw [afterEvent_none h]
    exact List.suffix_cons _ _
  | some l =>
    rw [afterEvent_some h]
    have htouch : env.log <:+ ((env.emit (.touchGraph g)).emit (.touchLstnr l)).log :=
      List.suffix_append [Ev.touchLstnr l, .touchGraph g] _
    split
    · exact htouch.trans (shutdown_suffix _ l o)
    · exact htouch

end

end Libcortex
