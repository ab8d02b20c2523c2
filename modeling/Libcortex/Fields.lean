import Libcortex.ListenerList

/-!
# Fields that calls leave alone

The calls on a listener write a few of its fields. Whatever is computed from the others is the same after any number of
calls.
-/

namespace Libcortex

variable {β : Type}

/-- The calls don't change `p`, since it doesn't depend on the fields that they write. -/
structure Blind (p : Listener → β) : Prop where
  state : ∀ b x, p { b with state := x } = p b
  el_cb_active : ∀ b x, p { b with el_cb_active := x } = p b
  eloop_thread : ∀ b x, p { b with eloop_thread := x } = p b
  graph : ∀ b x, p { b with graph := x } = p b
  dependencies : ∀ b x, p { b with dependencies := x } = p b
  rev_dependencies : ∀ b x, p { b with rev_dependencies := x } = p b

/-- No listener has changed, as far as `p` is concerned. -/
def Alike (p : Listener → β) (env env' : Env) : Prop := ∀ a, p (env'.lstnr a) = p (env.lstnr a)

theorem addEvent_lstnr (env : Env) (p : GraphId × EventId) : (env.addEvent p).lstnr = env.lstnr := by
  unfold Env.addEvent
  split
  · rfl
  · split <;> rfl

theorem addEvents_lstnr (adds : List (GraphId × EventId)) (env : Env) : (env.addEvents adds).lstnr = env.lstnr := by
  unfold Env.addEvents
  induction adds generalizing env with
  | nil => rfl
  | cons p adds ih => rw [List.foldl_cons, ih, addEvent_lstnr]

theorem postState_lstnr (env : Env) (l : ListenerId) (o : Outcome) (ret : Int) :
    (env.postState l o ret).1.lstnr = env.lstnr := by
  unfold Env.postState
  split
  · rfl
  · split
    · exact addEvent_lstnr ..
    · rfl

theorem startupTrigger_lstnr (env : Env) (l : ListenerId) : (startupTrigger env l).lstnr = env.lstnr := by
  unfold startupTrigger
  dsimp only
  split <;> rfl

namespace Alike

variable {p : Listener → β} {env env' env'' : Env}

theorem refl (p : Listener → β) (env : Env) : Alike p env env := fun _ => rfl

theorem trans (h : Alike p env env') (h' : Alike p env' env'') : Alike p env env'' := fun a => (h' a).trans (h a)

theorem of_eq (h : env'.lstnr = env.lstnr) : Alike p env env' := fun a => by rw [h]

theorem modify (env : Env) (l : ListenerId) {f : Listener → Listener} (hf : ∀ b, p (f b) = p b) :
    Alike p env (env.modify l f) := by
  intro a
  by_cases ha : a = l
  · rw [ha, Env.modify_self, hf]
  · rw [Env.modify_other _ ha]

theorem setState (hp : Blind p) (env : Env) (l : ListenerId) (st : LstnrState) : Alike p env (env.setState l st) :=
  modify env l (f := fun b => { b with state := st }) fun b => hp.state b st

theorem activate (hp : Blind p) {l : ListenerId} {o : Outcome} (h : activate env l o = some env') :
    Alike p env env' := by
  unfold Libcortex.activate at h
  dsimp only at h
  split at h
  · split at h
    · cases h
      exact modify env l fun b => hp.eloop_thread b _
    · cases h
      exact modify env l fun b => hp.el_cb_active b _
    · cases h
      exact refl p env
    · cases h
  · cases h
    exact refl p env

theorem dropDependencies (hp : Blind p) (env : Env) (l : ListenerId) : Alike p env (dropDependencies env l) := by
  unfold Libcortex.dropDependencies
  refine Alike.trans ?_ (modify _ l fun b => hp.dependencies b [])
  generalize (env.lstnr l).dependencies = deps
  induction deps generalizing env with
  | nil => exact refl p env
  | cons d deps ih =>
    rw [List.foldl_cons]
    exact Alike.trans (modify env d fun b => hp.rev_dependencies b _) (ih _)

theorem runStopCb (env : Env) (l : ListenerId) (o : Outcome) : Alike p env (runStopCb env l o) := by
  unfold Libcortex.runStopCb
  split
  · exact of_eq (addEvents_lstnr ..)
  · exact refl p env

theorem stopActivity (hp : Blind p) (env : Env) (l : ListenerId) (o : Outcome) :
    Alike p env (stopActivity env l o) := by
  have hinactive := modify env l (f := fun b => { b with el_cb_active := false }) fun b => hp.el_cb_active b false
  refine Alike.trans (Alike.trans hinactive (runStopCb _ l o)) ?_
  exact modify _ l (f := fun b => { b with eloop_thread := none }) fun b => hp.eloop_thread b none

theorem stop (hp : Blind p) (env : Env) (l : ListenerId) (o : Outcome) :
    Alike p env (crtx_stop_listener env l o).1 := by
  unfold crtx_stop_listener
  dsimp only
  split
  · exact refl p env
  · have hstopping := setState hp (env.lock (.state l)) l .stopping
    split
    · exact hstopping
    · generalize (env.lock (.state l)).setState l .stopping = env₁ at hstopping ⊢
      have hdrop := Alike.trans hstopping (dropDependencies hp (env₁.lock (.dependencies l)) l)
      generalize Libcortex.dropDependencies (env₁.lock (.dependencies l)) l = env₂ at hdrop ⊢
      have hact := Alike.trans hdrop (stopActivity hp (env₂.unlock (.dependencies l)) l o)
      exact Alike.trans (Alike.trans hact (setState hp _ l .stopped)) (.of_eq (postState_lstnr ..))

theorem askedToStop (hp : Blind p) (env : Env) (l : ListenerId) (o : Outcome) : Alike p env (askedToStop env l o) :=
  stop hp (env.emit (.callShutdown l)) l o

theorem intern (hp : Blind p) (env : Env) (l : ListenerId) : Alike p env (shutdown_listener_intern env l) := by
  have h := intern_cases env l
  generalize shutdown_listener_intern env l = env' at h ⊢
  cases h with
  | frees _ _ hlstnr => exact Alike.trans (modify env l fun b => hp.graph b none) (.of_eq hlstnr)
  | keeps _ _ hlstnr => exact of_eq hlstnr

theorem finishShutdown (hp : Blind p) (env : Env) (l : ListenerId) : Alike p env (finishShutdown env l) := by
  unfold Libcortex.finishShutdown
  split
  · dsimp only
    split
    · exact intern hp _ l
    · exact setState hp _ l .shutdown
  · exact intern hp env l

theorem retryShutdown (hp : Blind p) (env : Env) (l : ListenerId) : Alike p env (retryShutdown env l) := by
  unfold Libcortex.retryShutdown
  split
  · dsimp only
    split
    · exact intern hp _ l
    · exact refl p env
  · exact refl p env

theorem checkDelayed (hp : Blind p) (env : Env) (g : GraphId) : Alike p env (checkDelayed env g) := by
  cases hl : (env.root.graphs g).listener with
  | none =>
    rw [checkDelayed_none hl]
    exact refl p env
  | some l =>
    rw [checkDelayed_some hl]
    split
    · exact intern hp _ l
    · exact refl p env

theorem processEvent (hp : Blind p) (env : Env) (g : GraphId) : Alike p env (ListenerList.processEvent env g) := by
  unfold ListenerList.processEvent
  split
  · rename_i env₁ hclaim
    obtain rfl : (claimPart env g).1 = env₁ := by rw [hclaim]
    exact refl p env
  · rename_i env₁ q hclaim
    obtain rfl : (claimPart env g).1 = env₁ := by rw [hclaim]
    exact Alike.trans (refl p env) (checkDelayed hp _ g)

end Alike

end Libcortex
