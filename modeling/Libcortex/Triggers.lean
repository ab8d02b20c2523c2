import Libcortex.Fields
import Libcortex.Registry

/-!
# Callbacks that are triggered

A message in the control pipe names a graph or a callback. Before the event loop processes the events of a graph, it
looks for the graph in the registry. It calls a callback without looking for it.
-/

open Libcortex.Lib

namespace Libcortex.Triggers

/-! ## The machine -/

/-- What `evloop_ctrl_pipe_handler` does with a message: it processes the events of a graph or calls a callback. `live`
says whether the graph, or callback, was still there. -/
inductive Ran where
  | graph (g : GraphId) (live : Bool)
  | callback (cb : CallbackId) (live : Bool)
deriving DecidableEq, Repr

def Ran.live : Ran → Bool
  | .graph _ live | .callback _ live => live

/-- Each `struct crtx_evloop_fd` is that of a listener, and `fd_entry` is the pointer of a callback to it. `evloop` says
where its pointer to the event loop is set. `scheduled` are the callbacks that `crtx_evloop_schedule_callback` has
allocated and that were not called yet. `ran` is history. -/
structure Loop where
  env : Env
  fd_entry : CallbackId → Option ListenerId
  evloop : ListenerId → Bool
  scheduled : CallbackId → Bool
  ran : List Ran

def Loop.pipe (s : Loop) : List CtrlMsg := s.env.root.pipe

def setPipe (env : Env) (pipe : List CtrlMsg) : Env := env.setRoot { env.root with pipe }

/-- The callback is in the list of its descriptor, and the listener of that one wasn't shut down. Or it was
scheduled. -/
def Registered (s : Loop) (cb : CallbackId) : Prop :=
  s.scheduled cb = true ∨ ∃ l ∈ s.fd_entry cb, cb ∈ (s.env.lstnr l).callbacks ∧ ¬ Finish.Late s.env l

instance (s : Loop) (cb : CallbackId) : Decidable (Registered s cb) :=
  match h : s.fd_entry cb with
  | none => decidable_of_iff (s.scheduled cb = true) (by simp [Registered, h])
  | some l =>
    decidable_of_iff (s.scheduled cb = true ∨ cb ∈ (s.env.lstnr l).callbacks ∧ ¬ Finish.Late s.env l)
      (by simp [Registered, h])

/-- `crtx_ll_append` does nothing if the callback is in the list. -/
def crtx_evloop_create_fd_entry (s : Loop) (l : ListenerId) (cb : CallbackId) (fd : Int) : Loop :=
  { s with
    env := s.env.modify l fun b => { b with
      evloop_fd := some fd
      callbacks := if cb ∈ b.callbacks then b.callbacks else b.callbacks ++ [cb] }
    fd_entry := Function.update s.fd_entry cb (some l) }

def crtx_evloop_remove_cb (s : Loop) (cb : CallbackId) : Loop :=
  match s.fd_entry cb with
  | none => s
  | some l =>
    { s with env := s.env.modify l fun b => { b with
        callbacks := b.callbacks.filter (· ≠ cb)
        el_cb_active := b.el_cb_active && cb ≠ b.default_el_cb } }

def crtx_evloop_enable_cb (s : Loop) (cb : CallbackId) : Loop :=
  match s.fd_entry cb with
  | none => s
  | some l =>
    { s with
      env := s.env.modify l fun b => { b with el_cb_active := b.el_cb_active || cb = b.default_el_cb }
      evloop := Function.update s.evloop l true }

def trigger (s : Loop) (cb : CallbackId) : Loop :=
  { s with env := s.env.setRoot (crtx_evloop_trigger_callback s.env.root cb) }

/-- `evloop_cb->fd_entry->evloop` is not NULL. -/
def Attached (s : Loop) (cb : CallbackId) : Prop := ∃ l ∈ s.fd_entry cb, s.evloop l = true

instance (s : Loop) (cb : CallbackId) : Decidable (Attached s cb) :=
  decidable_of_iff ((s.fd_entry cb).any s.evloop = true) (by simp [Attached, Option.any_eq_true])

def crtx_trigger_event_callback (s : Loop) (cb : CallbackId) : Loop := trigger s cb

def crtx_trigger_event_processing (s : Loop) (l : ListenerId) : Loop :=
  trigger { s with evloop := Function.update s.evloop l true } (s.env.lstnr l).default_el_cb

/-- `cb` is the new `struct crtx_evloop_callback`, with the flag `CRTX_ECBF_FREE`. -/
def crtx_evloop_schedule_callback (s : Loop) (cb : CallbackId) : Loop :=
  trigger { s with scheduled := Function.update s.scheduled cb true } cb

/-- The events of the graph are processed by the steps that follow, and what the handler of the callback does are steps
that follow as well. A callback that was scheduled is freed. -/
def evloop_ctrl_pipe_handler (s : Loop) (ecp : CtrlMsg) : Loop :=
  let s := match ecp.graph with
    | none => s
    | some g => if some g ∈ s.env.root.registry then { s with ran := .graph g (!s.env.gfreed g) :: s.ran } else s
  match ecp.el_cb with
  | none => s
  | some cb => { s with
      ran := .callback cb (Registered s cb) :: s.ran
      scheduled := Function.update s.scheduled cb false }

/-- Events are added and processed at any time between the calls. -/
inductive Action where
  | setup (l : ListenerId) (g : GraphId)
  | createFd (l : ListenerId) (cb : CallbackId) (fd : Int)
  | enable (cb : CallbackId)
  | remove (cb : CallbackId)
  | shutdown (l : ListenerId) (o : Outcome)
  | trigger (cb : CallbackId)
  | triggerProcessing (l : ListenerId)
  | schedule (cb : CallbackId)
  | addEvent (p : GraphId × EventId)
  | process (g : GraphId)
  | read
deriving DecidableEq

/-- A message in the pipe names the callback. -/
def Named (s : Loop) (cb : CallbackId) : Prop := ∃ m ∈ s.pipe, m.el_cb = some cb

instance (s : Loop) (cb : CallbackId) : Decidable (Named s cb) := inferInstanceAs (Decidable (∃ m ∈ _, _))

/-- A new graph is one that was not there before, a callback is in one list at most, and `calloc` returns memory that
nobody uses. `crtx_trigger_event_callback` follows the pointer to the event loop, and there is no step if it is NULL. -/
def enabled (s : Loop) : Action → Prop
  | .setup _ g => s.env.gfreed g = false ∧ some g ∉ s.env.root.registry
  | .createFd _ cb _ => s.scheduled cb = false ∧ ∀ l ∈ s.fd_entry cb, cb ∉ (s.env.lstnr l).callbacks
  | .enable cb | .remove cb => s.fd_entry cb ≠ none
  | .trigger cb => Attached s cb
  | .schedule cb => s.scheduled cb = false ∧ s.fd_entry cb = none ∧ ¬ Named s cb
  | .triggerProcessing l => s.scheduled (s.env.lstnr l).default_el_cb = false
  | .shutdown _ _ | .addEvent _ | .process _ => True
  | .read => s.pipe ≠ []

instance (s : Loop) : ∀ a, Decidable (enabled s a)
  | .setup _ _ | .createFd _ _ _ | .schedule _ => inferInstanceAs (Decidable (_ ∧ _))
  | .enable _ | .remove _ | .read => inferInstanceAs (Decidable (_ ≠ _))
  | .trigger cb => inferInstanceAs (Decidable (Attached s cb))
  | .triggerProcessing _ => inferInstanceAs (Decidable (_ = _))
  | .shutdown _ _ | .addEvent _ | .process _ => inferInstanceAs (Decidable True)

/-- The message that was read first. -/
def readMsg (s : Loop) : Loop :=
  match s.pipe with
  | [] => s
  | ecp :: rest => evloop_ctrl_pipe_handler { s with env := setPipe s.env rest } ecp

def apply (s : Loop) : Action → Loop
  | .setup l g => { s with env := crtx_setup_listener s.env l g }
  | .createFd l cb fd => crtx_evloop_create_fd_entry s l cb fd
  | .enable cb => crtx_evloop_enable_cb s cb
  | .remove cb => crtx_evloop_remove_cb s cb
  | .shutdown l o => { s with env := crtx_shutdown_listener s.env l o }
  | .trigger cb => crtx_trigger_event_callback s cb
  | .triggerProcessing l => crtx_trigger_event_processing s l
  | .schedule cb => crtx_evloop_schedule_callback s cb
  | .addEvent p => { s with env := s.env.addEvent p }
  | .process g => { s with env := ListenerList.processEvent s.env g }
  | .read => readMsg s

abbrev step : Loop → Action → Option Loop := guarded enabled apply

/-- Nothing was set up. Each listener has its `default_el_cb`. -/
def init (default_el_cb : ListenerId → CallbackId) : Loop where
  env := { Env.initial with lstnr := fun l => { crtx_calloc_listener_base with default_el_cb := default_el_cb l } }
  fd_entry _ := none
  evloop _ := false
  scheduled _ := false
  ran := []

/-! ## What has to hold -/

/-- Only callbacks that were registered, and graphs that were not freed, have been touched. -/
def Sound (s : Loop) : Prop := ∀ r ∈ s.ran, r.live = true

/-- A callback is removed, by itself or with its listener, only while no message names it, and none is triggered that
isn't registered. -/
def RemovesUnnamed (s : Loop) : Action → Prop
  | .remove cb => ¬ Named s cb
  | .shutdown l _ => ShutsDown s.env l → ∀ m ∈ s.pipe, ∀ cb ∈ m.el_cb, s.fd_entry cb ≠ some l
  | .trigger cb => Registered s cb
  | .triggerProcessing l => Registered s (s.env.lstnr l).default_el_cb
  | _ => True

instance (s : Loop) : ∀ a, Decidable (RemovesUnnamed s a)
  | .remove cb => inferInstanceAs (Decidable (¬ Named s cb))
  | .shutdown l _ =>
    inferInstanceAs (Decidable (ShutsDown s.env l → ∀ m ∈ s.pipe, ∀ cb ∈ m.el_cb, s.fd_entry cb ≠ some l))
  | .trigger cb => inferInstanceAs (Decidable (Registered s cb))
  | .triggerProcessing l => inferInstanceAs (Decidable (Registered s (s.env.lstnr l).default_el_cb))
  | .setup _ _ | .createFd _ _ _ | .enable _ | .schedule _ | .addEvent _ | .process _ | .read =>
    inferInstanceAs (Decidable True)

/-! ## What calls write into the pipe -/

/-- Only messages about graphs have been added to the pipe. -/
def Queues (env env' : Env) : Prop :=
  ∃ msgs, env'.root.pipe = env.root.pipe ++ msgs ∧ ∀ m ∈ msgs, m.el_cb = none

namespace Queues

variable {env env' env'' : Env}

theorem of_eq (h : env'.root.pipe = env.root.pipe) : Queues env env' := ⟨[], by rw [h, List.append_nil], by simp⟩

theorem refl (env : Env) : Queues env env := of_eq rfl

theorem trans (h : Queues env env') (h' : Queues env' env'') : Queues env env'' := by
  obtain ⟨msgs, hpipe, hnone⟩ := h
  obtain ⟨msgs', hpipe', hnone'⟩ := h'
  refine ⟨msgs ++ msgs', by rw [hpipe', hpipe, List.append_assoc], ?_⟩
  simpa [or_imp, forall_and] using ⟨hnone, hnone'⟩

theorem addEvent (env : Env) (p : GraphId × EventId) : Queues env (env.addEvent p) := by
  have hadd : ∃ msgs, (crtx_add_event env.root p.1 p.2).pipe = env.root.pipe ++ msgs ∧ ∀ m ∈ msgs, m.el_cb = none := by
    have hqueue : (addQueue (addReference env.root p.2) p.1 p.2).pipe = env.root.pipe := addQueue_pipe ..
    unfold crtx_add_event addTrigger
    dsimp only
    split
    · exact ⟨[], by rw [hqueue, List.append_nil], by simp⟩
    · split
      · exact ⟨[], by rw [hqueue, List.append_nil], by simp⟩
      · exact ⟨[⟨some p.1, none⟩], by rw [crtx_evloop_queue_graph, hqueue], by simp⟩
  unfold Env.addEvent
  split
  · exact refl env
  · split
    · exact hadd
    · exact hadd

theorem addEvents (adds : List (GraphId × EventId)) (env : Env) : Queues env (env.addEvents adds) := by
  unfold Env.addEvents
  induction adds generalizing env with
  | nil => exact refl env
  | cons p adds ih => exact (addEvent env p).trans (ih _)

theorem postState (env : Env) (l : ListenerId) (o : Outcome) (ret : Int) : Queues env (env.postState l o ret).1 := by
  unfold Env.postState
  split
  · exact refl env
  · split
    · exact addEvent (env.setRoot (env.root.setEvent o.event Event.fresh)) _
    · exact refl env

theorem dropDependencies (env : Env) (l : ListenerId) : Queues env (dropDependencies env l) := by
  refine of_eq ?_
  unfold Libcortex.dropDependencies
  rw [Env.modify_root]
  generalize (env.lstnr l).dependencies = deps
  induction deps generalizing env with
  | nil => rfl
  | cons d deps ih => exact ih _

theorem stopActivity (env : Env) (l : ListenerId) (o : Outcome) : Queues env (stopActivity env l o) := by
  unfold Libcortex.stopActivity runStopCb
  dsimp only
  split
  · exact addEvents o.stop_adds (env.modify l fun b => { b with el_cb_active := false })
  · exact refl env

theorem stop (env : Env) (l : ListenerId) (o : Outcome) : Queues env (crtx_stop_listener env l o).1 := by
  unfold crtx_stop_listener
  dsimp only
  split
  · exact refl env
  · split
    · exact refl env
    · have hdrop := dropDependencies (((env.lock (.state l)).setState l .stopping).lock (.dependencies l)) l
      have hact := hdrop.trans (stopActivity ((Libcortex.dropDependencies _ l).unlock (.dependencies l)) l o)
      exact hact.trans (postState ((Libcortex.stopActivity _ l o).setState l .stopped) l o 0)

theorem askedToStop (env : Env) (l : ListenerId) (o : Outcome) : Queues env (askedToStop env l o) :=
  stop (env.emit (.callShutdown l)) l o

theorem intern (env : Env) (l : ListenerId) : Queues env (shutdown_listener_intern env l) := by
  have h := intern_cases env l
  generalize shutdown_listener_intern env l = env' at h ⊢
  cases h with
  | frees _ hroot => exact of_eq (by rw [hroot]; rfl)
  | keeps _ hroot => exact of_eq (by rw [hroot])

theorem finishShutdown (env : Env) (l : ListenerId) : Queues env (finishShutdown env l) := by
  unfold Libcortex.finishShutdown
  split
  · dsimp only
    split
    · exact intern _ l
    · exact refl env
  · exact intern env l

theorem retryShutdown (env : Env) (l : ListenerId) : Queues env (retryShutdown env l) := by
  unfold Libcortex.retryShutdown
  split
  · dsimp only
    split
    · exact intern _ l
    · exact refl env
  · exact refl env

theorem closed (env : Env) (l : ListenerId) (o : Outcome) : Queues env (closed env l o) := by
  have hremove : ∀ env₁ : Env, Queues env₁ (removeCallbacks env₁ l) := by
    intro env₁
    unfold removeCallbacks
    split <;> exact refl env₁
  have hcb : ∀ env₁ : Env, Queues env₁ (runShutdownCb env₁ l o) := by
    intro env₁
    unfold runShutdownCb
    split
    · exact addEvents _ env₁
    · split <;> exact refl env₁
  have hremoved := hremove (((Libcortex.askedToStop env l o).setState l .shuttingDown).unlock (.state l))
  exact ((askedToStop env l o).trans hremoved).trans (hcb _)

theorem shutdown (env : Env) (l : ListenerId) (o : Outcome) : Queues env (crtx_shutdown_listener env l o) := by
  rw [shutdown_eq]
  split
  · exact (askedToStop env l o).trans (retryShutdown _ l)
  · split
    · exact (closed env l o).trans (finishShutdown _ l)
    · exact askedToStop env l o

theorem processEvent (env : Env) (g : GraphId) : Queues env (ListenerList.processEvent env g) := by
  have hclaim : Queues env (claimPart env g).1 := by
    refine of_eq ?_
    unfold claimPart crtx_claim_next_event_of_graph
    dsimp only
    split <;> rfl
  have hcheck : ∀ env₁ : Env, Queues env₁ (checkDelayed env₁ g) := by
    intro env₁
    unfold checkDelayed
    split
    · dsimp only
      split
      · exact intern _ _
      · exact refl env₁
    · exact refl env₁
  unfold ListenerList.processEvent
  split
  · rename_i env₁ h
    rw [h] at hclaim
    exact hclaim
  · rename_i env₁ q h
    rw [h] at hclaim
    exact hclaim.trans (hcheck _)

end Queues

/-! ## What a shutdown does -/

theorem shutdown_late (env : Env) (l : ListenerId) (o : Outcome) (a : ListenerId) :
    Finish.Late (crtx_shutdown_listener env l o) a ↔ Finish.Late env a ∨ a = l ∧ ShutsDown env l := by
  obtain ⟨hspares, -, hasked⟩ := Finish.askedToStop_spec env l o
  by_cases ha : a = l
  · subst ha
    rw [shutdown_eq]
    split
    · rename_i hst
      have hlate : Finish.Late env a := Finish.late_iff.mpr (.inr hst)
      refine iff_of_true ?_ (.inl hlate)
      refine hlate.congr ?_
      rw [(Finish.retryShutdown_spec _ a).2, Finish.askedToStop_late o hlate]
    · split
      · rename_i hdown
        refine iff_of_true ?_ (.inr ⟨rfl, hdown⟩)
        refine (Finish.finishShutdown_spec _ a).2 (Finish.late_iff.mpr (.inl ?_))
        have hclosing := (Finish.closing_spec env a o).2.2
        have hcb := Does.runShutdownCb (l := a) (Finish.closing env a o) a o
        change ((runShutdownCb (Finish.closing env a o) a o).lstnr a).state = .shuttingDown
        rw [hcb.state, statesOf_adds, hclosing]
        rfl
      · rename_i hdown
        have hlate : Finish.Late ((askedToStop env a o).unlock (.state a)) a ↔ Finish.Late env a := by
          rcases hasked with hst | ⟨hlt, hst⟩
          · exact ⟨fun h => h.congr hst.symm, fun h => h.congr hst⟩
          · refine iff_of_false (fun h => ?_) fun h => ?_
            · unfold Finish.Late at h
              rw [Env.unlock_lstnr] at h
              rcases hst with hst | hst
              · rw [hst] at h
                exact absurd h (by decide)
              · rw [hst] at h
                exact absurd h (by decide)
            · exact absurd hlt (Nat.not_lt.mpr (Nat.le_of_lt h))
        rw [hlate, or_iff_left fun h => hdown h.2]
  · rw [or_iff_left fun h => ha h.1]
    have hstate : ((crtx_shutdown_listener env l o).lstnr a).state = (env.lstnr a).state := by
      rw [shutdown_eq]
      split
      · exact ((Finish.retryShutdown_spec _ l).1.state a ha).trans (hspares.state a ha)
      · split
        · have hclosing := (Finish.closing_spec env l o).1.state a ha
          have hcb := (Does.runShutdownCb (l := l) (Finish.closing env l o) l o).state_other ha
          exact ((Finish.finishShutdown_spec _ l).1.state a ha).trans (hcb.trans hclosing)
        · exact hspares.state a ha
    exact ⟨fun h => h.congr hstate.symm, fun h => h.congr hstate⟩

theorem callbacks_blind : Blind Listener.callbacks :=
  ⟨fun _ _ => rfl, fun _ _ => rfl, fun _ _ => rfl, fun _ _ => rfl, fun _ _ => rfl, fun _ _ => rfl⟩

theorem shutdown_callbacks (env : Env) (l : ListenerId) (o : Outcome) {a : ListenerId}
    (h : ¬ (a = l ∧ ShutsDown env l)) :
    ((crtx_shutdown_listener env l o).lstnr a).callbacks = (env.lstnr a).callbacks := by
  have hasked := Alike.askedToStop callbacks_blind env l o
  rw [shutdown_eq]
  split
  · exact Alike.trans hasked (.retryShutdown callbacks_blind _ l) a
  · split
    · rename_i hdown
      have ha : a ≠ l := fun heq => h ⟨heq, hdown⟩
      have hremove : ((Finish.closing env l o).lstnr a).callbacks = (env.lstnr a).callbacks := by
        have hasked' := Alike.trans hasked (.setState callbacks_blind _ l .shuttingDown) a
        unfold Finish.closing removeCallbacks
        split
        · rw [Env.modify_other _ ha]
          exact hasked'
        · exact hasked'
      have hcb : Alike Listener.callbacks (Finish.closing env l o) (closed env l o) := by
        unfold closed runShutdownCb
        split
        · exact .of_eq (addEvents_lstnr ..)
        · split
          · exact .modify _ l fun _ => rfl
          · exact .refl _ _
      exact (Alike.trans hcb (.finishShutdown callbacks_blind _ l) a).trans hremove
    · exact hasked a

/-! ## The registry of graphs -/

/-- A graph is in one slot at most, and in none when it has been freed. -/
structure GraphsOk (env : Env) : Prop where
  registered : ∀ g, some g ∈ env.root.registry → env.gfreed g = false
  once : ∀ g, env.root.registry.count (some g) ≤ 1

namespace GraphsOk

variable {env env' : Env}

theorem congr (h : GraphsOk env) (hreg : env'.root.registry = env.root.registry) (hfreed : env'.gfreed = env.gfreed) :
    GraphsOk env' := by
  constructor
  · rw [hreg, hfreed]
    exact h.registered
  · rw [hreg]
    exact h.once

theorem does {l : ListenerId} {acts : List Act} (h : GraphsOk env) (hd : Does l acts env env') : GraphsOk env' :=
  h.congr hd.calm.registry hd.calm.gfreed

theorem intern (h : GraphsOk env) (l : ListenerId) : GraphsOk (shutdown_listener_intern env l) := by
  have hc := intern_cases env l
  generalize shutdown_listener_intern env l = env' at hc ⊢
  cases hc with
  | @frees g _ _ hroot _ hgfreed =>
    have hcount : ∀ g', env'.root.registry.count (some g') =
        env.root.registry.count (some g') - if g' = g then 1 else 0 := by
      intro g'
      rw [hroot]
      exact count_unregister env.root g g'
    refine ⟨fun g' hg' => ?_, fun g' => ?_⟩
    · have hpos := List.count_pos_iff.mpr hg'
      rw [hcount] at hpos
      have hne : g' ≠ g := by
        rintro rfl
        have := h.once g'
        rw [if_pos rfl] at hpos
        omega
      rw [hgfreed, Function.update_of_ne hne]
      exact h.registered g' (List.count_pos_iff.mp (by omega))
    · have := h.once g'
      rw [hcount]
      omega
  | keeps _ hroot _ hgfreed => exact h.congr (by rw [hroot]) hgfreed

theorem shutdown (h : GraphsOk env) (l : ListenerId) (o : Outcome) : GraphsOk (crtx_shutdown_listener env l o) := by
  have hs := shutdown_cases env l o
  generalize crtx_shutdown_listener env l o = env' at hs ⊢
  cases hs with
  | refused _ _ _ hd => exact h.does hd
  | delayed _ _ _ hd => exact (h.does hd).congr rfl rfl
  | reached _ _ _ hd => exact (h.does hd).intern l

theorem processEvent (h : GraphsOk env) (g : GraphId) : GraphsOk (ListenerList.processEvent env g) := by
  have hclaim : GraphsOk (claimPart env g).1 := by
    refine h.congr ?_ rfl
    unfold claimPart crtx_claim_next_event_of_graph
    dsimp only
    split <;> rfl
  have hcheck : ∀ env₁ : Env, GraphsOk env₁ → GraphsOk (checkDelayed env₁ g) := by
    intro env₁ h₁
    unfold checkDelayed
    split
    · rename_i l _
      have hlock : GraphsOk ((env₁.emit (.touchLstnr l)).lock (.state l)) := h₁.congr rfl rfl
      dsimp only
      split
      · exact hlock.intern l
      · exact hlock.congr rfl rfl
    · exact h₁
  unfold ListenerList.processEvent
  split
  · rename_i env₁ heq
    rw [heq] at hclaim
    exact hclaim
  · rename_i env₁ q heq
    rw [heq] at hclaim
    refine GraphsOk.congr (hcheck _ ?_) rfl rfl
    exact hclaim.congr rfl rfl

theorem setup (h : GraphsOk env) (l : ListenerId) {g : GraphId} (hg : env.gfreed g = false)
    (hnew : some g ∉ env.root.registry) : GraphsOk (crtx_setup_listener env l g) := by
  unfold crtx_setup_listener ensureGraph
  dsimp only
  split
  · have hcount : ∀ g',
        (registerGraph (env.root.setGraph g ⟨[], .preferNone, [], [], some l⟩) g).registry.count (some g') =
        env.root.registry.count (some g') + if g' = g then 1 else 0 := fun g' => Registry.count_register _ g g'
    refine ⟨fun g' hg' => ?_, fun g' => (hcount g').trans_le ?_⟩
    · have hpos := (List.count_pos_iff.mpr hg').trans_eq (hcount g')
      by_cases heq : g' = g
      · rw [heq]
        exact hg
      · rw [if_neg heq] at hpos
        exact h.registered g' (List.count_pos_iff.mp hpos)
    · by_cases heq : g' = g
      · rw [heq, List.count_eq_zero.mpr hnew, if_pos rfl]
      · rw [if_neg heq]
        exact h.once g'
  · exact h.congr rfl rfl

end GraphsOk

/-! ## The invariant -/

structure Inv (s : Loop) : Prop where
  named : ∀ cb, Named s cb → Registered s cb
  scheduled : ∀ cb, s.scheduled cb = true → s.fd_entry cb = none ∧ s.pipe.countP (fun m => m.el_cb = some cb) = 1
  graphs : GraphsOk s.env
  sound : Sound s

theorem init_inv (default_el_cb : ListenerId → CallbackId) : Inv (init default_el_cb) where
  named _ h := by
    obtain ⟨m, hm, -⟩ := h
    cases hm
  scheduled _ h := by cases h
  graphs :=
    { registered := fun _ h => by cases h
      once := fun _ => Nat.zero_le 1 }
  sound _ h := by cases h

theorem named_iff {s t : Loop} (h : Queues s.env t.env) (cb : CallbackId) : Named t cb ↔ Named s cb := by
  obtain ⟨msgs, hpipe, hnone⟩ := h
  have hmsgs : ¬ ∃ m ∈ msgs, m.el_cb = some cb := by
    rintro ⟨m, hm, hcb⟩
    rw [hnone m hm] at hcb
    cases hcb
  unfold Named Loop.pipe
  rw [hpipe]
  simp only [List.mem_append, or_and_right, exists_or]
  exact or_iff_left hmsgs

theorem countP_queues {s t : Loop} (h : Queues s.env t.env) (cb : CallbackId) :
    t.pipe.countP (fun m => m.el_cb = some cb) = s.pipe.countP (fun m => m.el_cb = some cb) := by
  obtain ⟨msgs, hpipe, hnone⟩ := h
  unfold Loop.pipe
  rw [hpipe, List.countP_append, Nat.add_eq_left, List.countP_eq_zero]
  intro m hm
  rw [hnone m hm]
  simp

theorem Inv.change {s : Loop} (hi : Inv s) {env : Env} (hqueues : Queues s.env env) (hgraphs : GraphsOk env)
    (h : ∀ cb, Named s cb → Registered s cb → Registered { s with env } cb) : Inv { s with env } where
  named cb hcb := by
    have hnamed := (named_iff (s := s) (t := { s with env }) hqueues cb).mp hcb
    exact h cb hnamed (hi.named cb hnamed)
  scheduled cb hcb := by
    obtain ⟨hentry, hcount⟩ := hi.scheduled cb hcb
    exact ⟨hentry, (countP_queues (s := s) (t := { s with env }) hqueues cb).trans hcount⟩
  graphs := hgraphs
  sound := hi.sound

theorem Registered.congr {s : Loop} {cb : CallbackId} (h : Registered s cb) {env : Env}
    (hcb : ∀ l, s.fd_entry cb = some l → (env.lstnr l).callbacks = (s.env.lstnr l).callbacks)
    (hlate : ∀ l, s.fd_entry cb = some l → Finish.Late env l → Finish.Late s.env l) :
    Registered { s with env } cb := by
  rcases h with h | ⟨l, hl, hmem, hnl⟩
  · exact .inl h
  · refine .inr ⟨l, hl, ?_, fun h => hnl (hlate l hl h)⟩
    rwa [hcb l hl]

theorem late_modify {env : Env} {l a : ListenerId} {f : Listener → Listener}
    (h : Finish.Late (env.modify l f) a) (hf : ∀ b, (f b).state = b.state) : Finish.Late env a :=
  h.congr (Alike.modify (p := Listener.state) env l hf a).symm

theorem Registered.modify {s : Loop} {cb : CallbackId} (h : Registered s cb) (l : ListenerId)
    {f : Listener → Listener} {fd_entry : CallbackId → Option ListenerId} (hentry : fd_entry cb = s.fd_entry cb)
    (hstate : ∀ b, (f b).state = b.state) (hmem : ∀ b, cb ∈ b.callbacks → cb ∈ (f b).callbacks) :
    Registered { s with env := s.env.modify l f, fd_entry } cb := by
  rcases h with h | ⟨a, ha, hcb, hnl⟩
  · exact .inl h
  · refine .inr ⟨a, hentry.trans ha, ?_, fun hlate => hnl (late_modify hlate hstate)⟩
    dsimp only
    by_cases hal : a = l
    · rw [hal] at hcb ⊢
      rw [Env.modify_self]
      exact hmem _ hcb
    · rwa [Env.modify_other _ hal]

theorem setup_inv {s : Loop} (hi : Inv s) (l : ListenerId) {g : GraphId} (hg : s.env.gfreed g = false)
    (hnew : some g ∉ s.env.root.registry) : Inv { s with env := crtx_setup_listener s.env l g } := by
  have hroot : Queues s.env (crtx_setup_listener s.env l g) := by
    refine .of_eq ?_
    unfold crtx_setup_listener ensureGraph
    dsimp only
    split <;> rfl
  have hcb : ∀ a, ((crtx_setup_listener s.env l g).lstnr a).callbacks = (s.env.lstnr a).callbacks := by
    intro a
    by_cases ha : a = l
    · rw [ha]
      unfold crtx_setup_listener ensureGraph
      dsimp only
      split <;> simp
    · rw [setup_other _ ha]
  refine hi.change hroot (hi.graphs.setup l hg hnew) fun cb _ hreg => hreg.congr (fun a _ => hcb a) fun a _ hlate => ?_
  exact (ListenerList.Mild.setup s.env l g).late_of a hlate

theorem shutdown_inv {s : Loop} (hi : Inv s) (l : ListenerId) (o : Outcome)
    (hok : ShutsDown s.env l → ∀ m ∈ s.pipe, ∀ cb ∈ m.el_cb, s.fd_entry cb ≠ some l) :
    Inv { s with env := crtx_shutdown_listener s.env l o } := by
  refine hi.change (.shutdown s.env l o) (hi.graphs.shutdown l o) fun cb hnamed hreg => ?_
  obtain ⟨m, hm, hcb⟩ := hnamed
  have hspared : ∀ a, s.fd_entry cb = some a → ¬ (a = l ∧ ShutsDown s.env l) := by
    rintro a ha ⟨rfl, hdown⟩
    exact hok hdown m hm cb hcb ha
  refine hreg.congr (fun a ha => shutdown_callbacks s.env l o (hspared a ha)) fun a ha hlate => ?_
  exact ((shutdown_late s.env l o a).mp hlate).resolve_right (hspared a ha)

theorem process_inv {s : Loop} (hi : Inv s) (g : GraphId) :
    Inv { s with env := ListenerList.processEvent s.env g } := by
  refine hi.change (.processEvent s.env g) (hi.graphs.processEvent g) fun cb _ hreg =>
    hreg.congr (fun a _ => Alike.processEvent callbacks_blind s.env g a) fun a _ hlate => ?_
  exact hlate.congr ((ListenerList.processEvent_spec s.env g).1 a).symm

theorem addEvent_inv {s : Loop} (hi : Inv s) (p : GraphId × EventId) : Inv { s with env := s.env.addEvent p } := by
  have hcalm := Calm.addEvent s.env p
  refine hi.change (.addEvent s.env p) (hi.graphs.congr hcalm.registry hcalm.gfreed) fun cb _ hreg =>
    hreg.congr (fun a _ => by rw [addEvent_lstnr]) fun a _ hlate => ?_
  unfold Finish.Late at hlate
  rwa [addEvent_lstnr] at hlate

theorem createFd_inv {s : Loop} (hi : Inv s) (l : ListenerId) {cb : CallbackId} (fd : Int)
    (hcb : s.scheduled cb = false) (hfree : ∀ a ∈ s.fd_entry cb, cb ∉ (s.env.lstnr a).callbacks) :
    Inv (crtx_evloop_create_fd_entry s l cb fd) := by
  have hunnamed : ¬ Named s cb := by
    intro h
    rcases hi.named cb h with h | ⟨a, ha, hmem, -⟩
    · rw [hcb] at h
      cases h
    · exact hfree a ha hmem
  have hother : ∀ a, Named s a → a ≠ cb := by
    rintro a ha rfl
    exact hunnamed ha
  refine ⟨fun a ha => ?_, fun a ha => ?_, hi.graphs.congr rfl rfl, hi.sound⟩
  · have hentry : Function.update s.fd_entry cb (some l) a = s.fd_entry a := Function.update_of_ne (hother a ha) ..
    refine (hi.named a ha).modify l hentry (fun _ => rfl) fun b hmem => ?_
    dsimp only
    split
    · exact hmem
    · exact List.mem_append_left _ hmem
  · have hne : a ≠ cb := by
      rintro rfl
      exact Bool.false_ne_true (hcb.symm.trans ha)
    obtain ⟨hentry, hcount⟩ := hi.scheduled a ha
    exact ⟨(Function.update_of_ne hne ..).trans hentry, hcount⟩

theorem Inv.attach {s : Loop} (hi : Inv s) (evloop : ListenerId → Bool) : Inv { s with evloop } :=
  ⟨hi.named, hi.scheduled, hi.graphs, hi.sound⟩

theorem enable_inv {s : Loop} (hi : Inv s) (cb : CallbackId) : Inv (crtx_evloop_enable_cb s cb) := by
  unfold crtx_evloop_enable_cb
  split
  · exact hi
  · rename_i l hl
    have hchanged : Inv { s with env := s.env.modify l fun b => { b with
        el_cb_active := b.el_cb_active || cb = b.default_el_cb } } := by
      refine hi.change (.refl s.env) (hi.graphs.congr rfl rfl) fun a _ hreg => ?_
      exact hreg.modify l rfl (fun _ => rfl) fun _ hmem => hmem
    exact hchanged.attach _

theorem remove_inv {s : Loop} (hi : Inv s) {cb : CallbackId} (hok : ¬ Named s cb) :
    Inv (crtx_evloop_remove_cb s cb) := by
  unfold crtx_evloop_remove_cb
  split
  · exact hi
  · rename_i l hl
    refine hi.change (.refl s.env) (hi.graphs.congr rfl rfl) fun a hnamed hreg => ?_
    have hne : a ≠ cb := by
      rintro rfl
      exact hok hnamed
    exact hreg.modify l rfl (fun _ => rfl) fun b hmem => List.mem_filter.mpr ⟨hmem, decide_eq_true hne⟩

theorem trigger_named {s : Loop} {a cb : CallbackId} : Named (trigger s cb) a ↔ Named s a ∨ a = cb := by
  unfold Named Loop.pipe trigger crtx_evloop_trigger_callback
  simp only [Env.setRoot_root, List.mem_append, List.mem_singleton, or_and_right, exists_or, exists_eq_left,
    Option.some_inj]
  exact or_congr_right eq_comm

theorem trigger_countP (s : Loop) (a cb : CallbackId) :
    (trigger s cb).pipe.countP (fun m => m.el_cb = some a) =
      s.pipe.countP (fun m => m.el_cb = some a) + if a = cb then 1 else 0 := by
  unfold Loop.pipe trigger crtx_evloop_trigger_callback
  rw [Env.setRoot_root]
  dsimp only
  rw [List.countP_append, List.countP_singleton]
  by_cases ha : a = cb
  · simp [ha]
  · simp [ha, Ne.symm ha]

theorem trigger_inv {s : Loop} (hi : Inv s) {cb : CallbackId} (hcb : s.scheduled cb = false) (hok : Registered s cb) :
    Inv (trigger s cb) where
  named a ha := by
    rcases trigger_named.mp ha with ha | rfl
    · exact hi.named a ha
    · exact hok
  scheduled a ha := by
    have hne : a ≠ cb := by
      rintro rfl
      exact Bool.false_ne_true (hcb.symm.trans ha)
    obtain ⟨hentry, hcount⟩ := hi.scheduled a ha
    refine ⟨hentry, ?_⟩
    rw [trigger_countP, hcount, if_neg hne]
  graphs := hi.graphs.congr rfl rfl
  sound := hi.sound

theorem schedule_inv {s : Loop} (hi : Inv s) {cb : CallbackId} (hentry : s.fd_entry cb = none) (hnew : ¬ Named s cb) :
    Inv (crtx_evloop_schedule_callback s cb) where
  named a ha := by
    rcases trigger_named.mp ha with ha | rfl
    · rcases hi.named a ha with h | h
      · refine .inl ?_
        by_cases hne : a = cb
        · rw [hne]
          exact Function.update_self ..
        · exact (Function.update_of_ne hne ..).trans h
      · exact .inr h
    · exact .inl (Function.update_self ..)
  scheduled a ha := by
    have hcount := trigger_countP { s with scheduled := Function.update s.scheduled cb true } a cb
    by_cases hne : a = cb
    · subst hne
      refine ⟨hentry, hcount.trans ?_⟩
      rw [if_pos rfl, Nat.add_eq_right, List.countP_eq_zero]
      exact fun m hm hcb => hnew ⟨m, hm, of_decide_eq_true hcb⟩
    · obtain ⟨hentry', hcount'⟩ := hi.scheduled a ((Function.update_of_ne hne ..).symm.trans ha)
      refine ⟨hentry', hcount.trans ?_⟩
      rw [if_neg hne]
      exact hcount'
  graphs := hi.graphs.congr rfl rfl
  sound := hi.sound

theorem handler_spec (s : Loop) (ecp : CtrlMsg) :
    (evloop_ctrl_pipe_handler s ecp).env = s.env ∧ (evloop_ctrl_pipe_handler s ecp).fd_entry = s.fd_entry ∧
      (∀ cb, (evloop_ctrl_pipe_handler s ecp).scheduled cb = true ↔ s.scheduled cb = true ∧ ecp.el_cb ≠ some cb) ∧
      ∀ r, r ∈ (evloop_ctrl_pipe_handler s ecp).ran ↔ r ∈ s.ran ∨
        (∃ g, ecp.graph = some g ∧ some g ∈ s.env.root.registry ∧ r = .graph g (!s.env.gfreed g)) ∨
        ∃ cb, ecp.el_cb = some cb ∧ r = .callback cb (Registered s cb) := by
  obtain ⟨graph, el_cb⟩ := ecp
  have hgraph : ∀ s₁ : Loop, s₁ = (match graph with
      | none => s
      | some g => if some g ∈ s.env.root.registry then { s with ran := .graph g (!s.env.gfreed g) :: s.ran } else s) →
      (∃ ran, s₁ = { s with ran }) ∧ ∀ r, r ∈ s₁.ran ↔ r ∈ s.ran ∨
        ∃ g, graph = some g ∧ some g ∈ s.env.root.registry ∧ r = .graph g (!s.env.gfreed g) := by
    rintro s₁ rfl
    cases graph with
    | none => exact ⟨⟨s.ran, rfl⟩, by simp⟩
    | some g =>
      dsimp only
      split
      · rename_i hreg
        exact ⟨⟨_, rfl⟩, by simp [hreg, or_comm]⟩
      · rename_i hreg
        exact ⟨⟨s.ran, rfl⟩, by simp [hreg]⟩
  unfold evloop_ctrl_pipe_handler
  dsimp only
  obtain ⟨⟨ran, heq⟩, hran⟩ := hgraph _ rfl
  rw [heq] at hran ⊢
  cases el_cb with
  | none =>
    refine ⟨rfl, rfl, by simp, fun r => ?_⟩
    rw [hran]
    simp
  | some cb =>
    refine ⟨rfl, rfl, fun a => ?_, fun r => ?_⟩
    · by_cases ha : a = cb
      · simp [ha]
      · simp [ha, Ne.symm ha]
    · have hlive : decide (Registered { s with ran } cb) = decide (Registered s cb) := decide_eq_decide.mpr Iff.rfl
      rw [List.mem_cons, hran, hlive]
      simp only [Option.some_inj, exists_eq_left']
      exact or_comm.trans or_assoc

theorem readMsg_eq {s : Loop} {ecp : CtrlMsg} {rest : List CtrlMsg} (h : s.pipe = ecp :: rest) :
    readMsg s = evloop_ctrl_pipe_handler { s with env := setPipe s.env rest } ecp := by
  unfold readMsg
  rw [h]

theorem readMsg_pipe {s : Loop} {ecp : CtrlMsg} {rest : List CtrlMsg} (h : s.pipe = ecp :: rest) :
    (readMsg s).pipe = rest := by
  rw [readMsg_eq h, Loop.pipe, (handler_spec _ ecp).1]
  rfl

theorem readMsg_registered {s : Loop} {ecp : CtrlMsg} {rest : List CtrlMsg} (h : s.pipe = ecp :: rest)
    {cb : CallbackId} (hcb : Registered (readMsg s) cb) : Registered s cb := by
  obtain ⟨henv, hentry, hsched, -⟩ := handler_spec { s with env := setPipe s.env rest } ecp
  rw [← readMsg_eq h] at henv hentry hsched
  rcases hcb with hcb | ⟨l, hl, hmem, hnl⟩
  · exact .inl ((hsched cb).mp hcb).1
  · rw [hentry] at hl
    rw [henv] at hmem hnl
    exact .inr ⟨l, hl, hmem, hnl⟩

theorem Attached.entry {s : Loop} {cb : CallbackId} (h : Attached s cb) : s.fd_entry cb ≠ none := by
  obtain ⟨l, hl, -⟩ := h
  exact Option.ne_none_iff_exists'.mpr ⟨l, hl⟩

theorem unscheduled {s : Loop} (hi : Inv s) {cb : CallbackId} (h : s.fd_entry cb ≠ none) : s.scheduled cb = false :=
  Bool.eq_false_of_not_eq_true fun hcb => h (hi.scheduled cb hcb).1

theorem read_inv {s : Loop} (hi : Inv s) {ecp : CtrlMsg} {rest : List CtrlMsg} (h : s.pipe = ecp :: rest) :
    Inv (readMsg s) := by
  obtain ⟨henv, hentry, hsched, hran⟩ := handler_spec { s with env := setPipe s.env rest } ecp
  have hpipe := readMsg_pipe h
  rw [← readMsg_eq h] at henv hentry hsched hran
  have hnamed : ∀ cb, Named (readMsg s) cb → Named s cb := by
    rintro cb ⟨m, hm, hcb⟩
    rw [hpipe] at hm
    exact ⟨m, h ▸ List.mem_cons_of_mem ecp hm, hcb⟩
  refine ⟨fun cb hcb => ?_, fun cb hcb => ?_, ?_, fun r hr => ?_⟩
  · rcases hi.named cb (hnamed cb hcb) with hscheduled | ⟨l, hl, hmem, hnl⟩
    · -- The only message with the callback is still in the pipe.
      refine .inl ((hsched cb).mpr ⟨hscheduled, fun heq => ?_⟩)
      have hcount := (hi.scheduled cb hscheduled).2
      rw [h, List.countP_cons_of_pos (by simpa using heq), Nat.add_eq_right, List.countP_eq_zero] at hcount
      obtain ⟨m, hm, hmcb⟩ := hcb
      rw [hpipe] at hm
      exact hcount m hm (decide_eq_true hmcb)
    · refine .inr ⟨l, ?_, ?_, ?_⟩
      · rw [hentry]
        exact hl
      · rw [henv]
        exact hmem
      · rw [henv]
        exact hnl
  · obtain ⟨hscheduled, hne⟩ := (hsched cb).mp hcb
    obtain ⟨hnone, hcount⟩ := hi.scheduled cb hscheduled
    rw [h, List.countP_cons_of_neg (by simpa using hne)] at hcount
    rw [hentry, hpipe]
    exact ⟨hnone, hcount⟩
  · refine hi.graphs.congr ?_ ?_
    · rw [henv]
      rfl
    · rw [henv]
      rfl
  · rcases (hran r).mp hr with hr | ⟨g, -, hreg, rfl⟩ | ⟨cb, hcb, rfl⟩
    · exact hi.sound r hr
    · have hlive := hi.graphs.registered g hreg
      exact congrArg Bool.not hlive
    · have hmem : ecp ∈ s.pipe := h ▸ List.mem_cons_self
      exact decide_eq_true (hi.named cb ⟨ecp, hmem, hcb⟩)

theorem step_inv (s : Loop) (a : Action) (s' : Loop) (hi : Inv s) (hok : RemovesUnnamed s a) (h : step s a = some s') :
    Inv s' := by
  obtain ⟨hen, rfl⟩ := guarded_eq_some.mp h
  cases a with
  | setup l g => exact setup_inv hi l hen.1 hen.2
  | createFd l cb fd => exact createFd_inv hi l fd hen.1 hen.2
  | enable cb => exact enable_inv hi cb
  | remove cb => exact remove_inv hi hok
  | shutdown l o => exact shutdown_inv hi l o hok
  | trigger cb => exact trigger_inv hi (unscheduled hi (Attached.entry hen)) hok
  | triggerProcessing l => exact trigger_inv (hi.attach _) hen hok
  | schedule cb => exact schedule_inv hi hen.2.1 hen.2.2
  | addEvent p => exact addEvent_inv hi p
  | process g => exact process_inv hi g
  | read =>
    obtain ⟨ecp, rest, hpipe⟩ := List.exists_cons_of_ne_nil hen
    exact read_inv hi hpipe

/-! ## Steps that don't meet the condition -/

theorem reads_unsound (pre : List CtrlMsg) : ∀ (s : Loop) (ecp : CtrlMsg) (rest : List CtrlMsg) (cb : CallbackId),
    s.pipe = pre ++ ecp :: rest → ecp.el_cb = some cb → ¬ Registered s cb →
      ∃ s', run step (List.replicate (pre.length + 1) .read) s = some s' ∧ ¬ Sound s' := by
  induction pre with
  | nil =>
    intro s ecp rest cb hpipe hcb hno
    have hread : step s .read = some (readMsg s) :=
      guarded_eq_some.mpr ⟨hpipe.trans_ne (List.cons_ne_nil _ _), rfl⟩
    refine ⟨readMsg s, ?_, fun hsound => ?_⟩
    · rw [List.length_nil, List.replicate_succ, run_cons, hread]
      rfl
    · obtain ⟨-, -, -, hran⟩ := handler_spec { s with env := setPipe s.env rest } ecp
      rw [← readMsg_eq hpipe] at hran
      have hlive := hsound _ ((hran _).mpr (.inr (.inr ⟨cb, hcb, rfl⟩)))
      exact hno (of_decide_eq_true hlive)
  | cons m pre ih =>
    intro s ecp rest cb hpipe hcb hno
    have hread : step s .read = some (readMsg s) :=
      guarded_eq_some.mpr ⟨hpipe.trans_ne (List.cons_ne_nil _ _), rfl⟩
    obtain ⟨s', hrun, hbad⟩ := ih (readMsg s) ecp rest cb (readMsg_pipe hpipe) hcb
      fun h => hno (readMsg_registered hpipe h)
    refine ⟨s', ?_, hbad⟩
    rw [List.length_cons, List.replicate_succ, run_cons, hread]
    exact hrun

theorem named_unsound {s : Loop} {cb : CallbackId} (hnamed : Named s cb) (hno : ¬ Registered s cb) :
    ∃ n s', run step (List.replicate n .read) s = some s' ∧ ¬ Sound s' := by
  obtain ⟨m, hm, hcb⟩ := hnamed
  obtain ⟨pre, rest, hpipe⟩ := List.append_of_mem hm
  exact ⟨_, reads_unsound pre s m rest cb hpipe hcb hno⟩

theorem bad_step {s : Loop} (hi : Inv s) (a : Action) (s' : Loop) (hbad : ¬ RemovesUnnamed s a)
    (h : step s a = some s') : ∃ cb, Named s' cb ∧ ¬ Registered s' cb := by
  obtain ⟨hen, rfl⟩ := guarded_eq_some.mp h
  have htrigger : ∀ evloop cb, ¬ Registered s cb → ∃ cb', Named (trigger { s with evloop } cb) cb' ∧
      ¬ Registered (trigger { s with evloop } cb) cb' :=
    fun _ cb hno => ⟨cb, trigger_named.mpr (.inr rfl), hno⟩
  cases a with
  | setup l g => exact absurd trivial hbad
  | createFd l cb fd => exact absurd trivial hbad
  | enable cb => exact absurd trivial hbad
  | remove cb =>
    obtain ⟨l, hl⟩ := Option.ne_none_iff_exists'.mp hen
    have hremoved : apply s (.remove cb) = { s with env := s.env.modify l fun b => { b with
        callbacks := b.callbacks.filter (· ≠ cb)
        el_cb_active := b.el_cb_active && cb ≠ b.default_el_cb } } := by
      change crtx_evloop_remove_cb s cb = _
      unfold crtx_evloop_remove_cb
      rw [hl]
    rw [hremoved]
    refine ⟨cb, not_not.mp hbad, ?_⟩
    rintro (hscheduled | ⟨l', hl', hmem, -⟩)
    · exact Bool.false_ne_true ((unscheduled hi hen).symm.trans hscheduled)
    · obtain rfl : l = l' := Option.some_inj.mp (hl.symm.trans hl')
      dsimp only at hmem
      rw [Env.modify_self, List.mem_filter] at hmem
      exact of_decide_eq_true hmem.2 rfl
  | shutdown l o =>
    obtain ⟨hdown, hnot⟩ := Classical.not_imp.mp hbad
    push Not at hnot
    obtain ⟨m, hm, cb, hcb, hentry⟩ := hnot
    have hqueues := named_iff (s := s) (t := { s with env := crtx_shutdown_listener s.env l o })
      (.shutdown s.env l o) cb
    refine ⟨cb, hqueues.mpr ⟨m, hm, hcb⟩, ?_⟩
    rintro (hscheduled | ⟨l', hl', -, hnl⟩)
    · exact Bool.false_ne_true ((unscheduled hi (hentry.trans_ne (Option.some_ne_none l))).symm.trans hscheduled)
    · obtain rfl : l = l' := Option.some_inj.mp (hentry.symm.trans hl')
      exact hnl ((shutdown_late s.env l o l).mpr (.inr ⟨rfl, hdown⟩))
  | trigger cb => exact htrigger s.evloop cb hbad
  | triggerProcessing l => exact htrigger _ _ hbad
  | schedule cb => exact absurd trivial hbad
  | addEvent p => exact absurd trivial hbad
  | process g => exact absurd trivial hbad
  | read => exact absurd trivial hbad

/-! ## The result -/

/-- While callbacks are removed only when no message names them, and triggered only when they are registered, the event
loop calls only callbacks that are registered, and ignores graphs that were freed. After a step that does not meet
this, the loop calls a callback that isn't registered as soon as it has read the pipe. -/
theorem calls_registered (default_el_cb : ListenerId → CallbackId) (as : List Action) (s : Loop)
    (hm : Meets step RemovesUnnamed as (init default_el_cb)) (hr : run step as (init default_el_cb) = some s) :
    Sound s ∧ ∀ a s', ¬ RemovesUnnamed s a → step s a = some s' →
      ∃ n s'', run step (List.replicate n .read) s' = some s'' ∧ ¬ Sound s'' := by
  have hi : Inv s := run_keeps step_inv as _ s (init_inv default_el_cb) hm hr
  refine ⟨hi.sound, fun a s' hbad h => ?_⟩
  obtain ⟨cb, hnamed, hno⟩ := bad_step hi a s' hbad h
  exact named_unsound hnamed hno

/-- A callback is enabled, triggered, called and removed, and another one is scheduled. -/
def someRun : List Action :=
  [.setup 0 0, .createFd 0 7 5, .enable 7, .trigger 7, .schedule 8, .read, .read, .remove 7]

theorem calls_registered_someRun :
    ∃ s, run step someRun (init id) = some s ∧ s.ran = [.callback 8 true, .callback 7 true] ∧
      (Sound s ∧ ∀ a s', ¬ RemovesUnnamed s a → step s a = some s' →
        ∃ n s'', run step (List.replicate n .read) s' = some s'' ∧ ¬ Sound s'') :=
  ⟨_, rfl, by decide, calls_registered id someRun _ (by decide) rfl⟩

/-- A listener is shut down after its callback was triggered. The loop calls it all the same. -/
theorem removed_callback_called :
    ∃ s, run step [.setup 0 0, .createFd 0 0 5, .triggerProcessing 0, .shutdown 0 .quiet, .read] (init id) = some s ∧
      s.ran = [.callback 0 false] ∧ ¬ Sound s := by
  refine ⟨_, rfl, by decide, fun h => ?_⟩
  exact absurd (h (.callback 0 false) (by decide)) (by decide)

end Libcortex.Triggers
