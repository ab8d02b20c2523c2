import Libcortex.ChildHandlers
import Libcortex.ListenerList
import Libcortex.Nesting
import Libcortex.Registry

/-!
# The listener behind the handlers for children

The first handler sets up `sigchld_lstnr`, the last one shuts it down and clears its memory. If events of its graph are
still pending then, the shutdown is delayed, and nobody remembers it.
-/

open Libcortex.Lib
open Libcortex.Nesting (Frame enter complete unlinked Claimed claim_cases completePart_eq)
open Libcortex.ListenerList (createTask)
open Libcortex.ChildHandlers (CbData Registered noHandlers noHandlers_registered)

namespace Libcortex.ChildTeardown

/-- `graphs` are the graphs that were made for the listener. The innermost event of `stack` comes first. -/
structure Sys where
  env : Env
  stack : List Frame
  cbs : ChildHandlers.State
  graphs : List GraphId

/-- The task that calls `sigchild_event_handler` -/
def sigchld_handler : TaskId := 0

/-- What `start_sub_listener` does. -/
def startSub : Outcome := { Outcome.quiet with start_mode := some .noProcessingMode }

/-- `crtx_setup_listener("signals", l)` for a listener that gets its signals from the main one. `g` is the address of the
graph, if it needs one. -/
def setupSignals (env : Env) (l : ListenerId) (g : GraphId) : Env :=
  (crtx_setup_listener env l g).modify l fun b => { b with start_listener := true, stop_listener := true }

/-- Returns what `crtx_start_listener` returns. -/
def setUp (env : Env) (l : ListenerId) (g : GraphId) : Env × Int :=
  crtx_start_listener (createTask (setupSignals env l g) l sigchld_handler) l startSub

/-- `l` is `sigchld_lstnr`. -/
def crtx_signals_add_child_handler (l : ListenerId) (s : Sys) (g : GraphId) (d : CbData) : Option Sys :=
  if s.cbs.sigchld_cbs = none then
    let (env, ret) := setUp s.env l g
    (ChildHandlers.crtx_signals_add_child_handler s.cbs (ret = 0) d).map fun r =>
      { s with env, cbs := r.1, graphs := if (s.env.lstnr l).graph = none then g :: s.graphs else s.graphs }
  else (ChildHandlers.crtx_signals_add_child_handler s.cbs true d).map fun r => { s with cbs := r.1 }

/-- `stop_sub_listener` adds no event. `memset` makes the listener what it was at first. -/
def crtx_signals_rem_child_handler (l : ListenerId) (s : Sys) (data : Nat) : Option Sys :=
  (ChildHandlers.crtx_signals_rem_child_handler s.cbs data).map fun r =>
    if r.2 = 0 ∧ r.1.sigchld_cbs = none then
      { s with env := (crtx_shutdown_listener s.env l .quiet).modify l fun _ => crtx_calloc_listener_base, cbs := r.1 }
    else { s with cbs := r.1 }

/-- What happens next. `signal`: somebody adds an event. `process`: an event of one of the graphs is claimed, by the loop
of `evloop_ctrl_pipe_handler` or another call, and its task runs until `finish`. Handlers may come and go meanwhile. -/
inductive Action where
  | addHandler (g : GraphId) (d : CbData)
  | remHandler (data : Nat)
  | signal (p : GraphId × EventId)
  | process (g : GraphId) (loop : Bool)
  | finish
deriving DecidableEq, Repr

/-- A new graph has an address of its own, and nobody calls for a graph that is gone. -/
def enabled (s : Sys) : Action → Prop
  | .addHandler g _ => g ∉ s.graphs ∧ some g ∉ s.env.root.registry ∧ s.env.gfreed g = false
  | .remHandler _ => True
  | .signal p => s.env.gfreed p.1 = false
  | .process g _ => g ∈ s.graphs ∧ s.env.gfreed g = false
  | .finish => s.stack ≠ []

instance (s : Sys) : ∀ a, Decidable (enabled s a)
  | .addHandler g _ => inferInstanceAs (Decidable (g ∉ s.graphs ∧ some g ∉ s.env.root.registry ∧ s.env.gfreed g = false))
  | .remHandler _ => inferInstanceAs (Decidable True)
  | .signal p => inferInstanceAs (Decidable (s.env.gfreed p.1 = false))
  | .process g _ => inferInstanceAs (Decidable (g ∈ s.graphs ∧ s.env.gfreed g = false))
  | .finish => inferInstanceAs (Decidable (s.stack ≠ []))

def apply (l : ListenerId) (s : Sys) : Action → Option Sys
  | .addHandler g d => crtx_signals_add_child_handler l s g d
  | .remHandler data => crtx_signals_rem_child_handler l s data
  | .signal p => some { s with env := s.env.addEvent p }
  | .process g loop => some { s with env := (enter s.env s.stack g loop).env, stack := (enter s.env s.stack g loop).stack }
  | .finish =>
    match s.stack with
    | [] => some s
    | f :: stack =>
      some { s with env := (complete s.env f stack .quiet).env, stack := (complete s.env f stack .quiet).stack }

def step (l : ListenerId) (s : Sys) (a : Action) : Option Sys := if enabled s a then apply l s a else none

/-- `env` is what there was before the first handler. -/
def begin (env : Env) : Sys := ⟨env, [], noHandlers, []⟩

/-! ## What has to hold -/

/-- The graphs of the listeners that were shut down are freed, and the root forgot about them. -/
def TornDown (l : ListenerId) (s : Sys) : Prop :=
  ∀ g ∈ s.graphs, (s.env.lstnr l).graph ≠ some g → s.env.gfreed g = true ∧ some g ∉ s.env.root.registry

/-- The list has one node, which carries this handler. -/
def IsLast (s : ChildHandlers.State) (data : Nat) : Prop :=
  (s.sigchld_cbs.bind s.nodes.cell).map (fun n => (n.data, n.next)) = some (data, none)

instance (s : ChildHandlers.State) (data : Nat) : Decidable (IsLast s data) := inferInstanceAs (Decidable (_ = _))

/-- The last handler is not removed while events of the graph are pending. -/
def Quiet (l : ListenerId) (s : Sys) : Action → Prop
  | .remHandler data => IsLast s.cbs data → ∀ g ∈ (s.env.lstnr l).graph, s.env.idle g = true
  | _ => True

instance (l : ListenerId) (s : Sys) : ∀ a, Decidable (Quiet l s a)
  | .remHandler data => inferInstanceAs (Decidable (IsLast s.cbs data → ∀ g ∈ (s.env.lstnr l).graph, s.env.idle g = true))
  | .addHandler _ _ | .signal _ | .process _ _ | .finish => inferInstanceAs (Decidable True)

/-! ## The first handler -/

/-- The listener after `crtx_setup_listener`. -/
def prepared (g : GraphId) : Listener :=
  { crtx_calloc_listener_base with
    state := .stopped
    evloop_fd := some (-1)
    start_listener := true
    stop_listener := true
    graph := some g }

/-- The listener while there are handlers. -/
def running (g : GraphId) (el_cb_active : Bool) : Listener :=
  { prepared g with
    state := .started
    mode := .noProcessingMode
    el_cb_active }

section

variable {env : Env} {l : ListenerId} {g : GraphId}

theorem setupSignals_eq (h : env.lstnr l = crtx_calloc_listener_base) :
    (setupSignals env l g).lstnr l = prepared g ∧
      (setupSignals env l g).root = registerGraph (env.root.setGraph g ⟨[], .preferNone, [], [], some l⟩) g := by
  have hnone : (((env.emit (.setup l)).setState l .stopped).lstnr l).graph = none := by
    rw [Env.setState_self, Env.emit_lstnr, h]
    rfl
  unfold setupSignals crtx_setup_listener ensureGraph
  rw [if_pos hnone]
  refine ⟨?_, rfl⟩
  simp only [Env.modify_self, Env.setRoot_lstnr, Env.setState_self, Env.emit_lstnr, h]
  rfl

theorem setupSignals_gfreed (env : Env) (l : ListenerId) (g : GraphId) :
    (setupSignals env l g).gfreed = env.gfreed := by
  unfold setupSignals crtx_setup_listener ensureGraph
  dsimp only
  split <;> rfl

theorem startCallback_sub (h : env.lstnr l = prepared g) :
    (startCallback ((env.lock (.state l)).setState l .starting) l startSub).lstnr l =
        { prepared g with state := .starting, mode := .noProcessingMode } ∧
      (startCallback ((env.lock (.state l)).setState l .starting) l startSub).root = env.root ∧
      (startCallback ((env.lock (.state l)).setState l .starting) l startSub).gfreed = env.gfreed := by
  have hcb : (((env.lock (.state l)).setState l .starting).lstnr l).start_listener = true := by
    rw [Env.setState_self, Env.lock_lstnr, h]
    rfl
  unfold startCallback
  rw [if_pos hcb]
  refine ⟨?_, rfl, rfl⟩
  have hadds : ∀ env : Env, env.addEvents startSub.start_adds = env := fun _ => rfl
  rw [hadds, Env.modify_self, Env.setState_self, Env.lock_lstnr, h]
  rfl

theorem activate_sub (h : env.lstnr l = { prepared g with state := .starting, mode := .noProcessingMode }) :
    ∃ env' active, activate env l startSub = some env' ∧
      env'.lstnr l = { prepared g with state := .starting, mode := .noProcessingMode, el_cb_active := active } ∧
      env'.root = env.root ∧ env'.gfreed = env.gfreed := by
  have hfd : (env.lstnr l).evloop_fd ≠ none ∨ (env.lstnr l).thread_job = true := by
    rw [h]
    exact .inl (by simp [prepared])
  have hmode : startMode (env.lstnr l) (crtx_get_mode env.root (env.lstnr l).mode) = .noProcessingMode ∨
      startMode (env.lstnr l) (crtx_get_mode env.root (env.lstnr l).mode) = .preferEloop := by
    rw [h]
    unfold crtx_get_mode
    cases env.root.force_mode with
    | preferNone | noProcessingMode => exact .inl rfl
    | preferThread | preferEloop => exact .inr rfl
  unfold activate
  dsimp only
  rw [if_pos hfd]
  rcases hmode with hm | hm
  · rw [hm]
    exact ⟨env, false, rfl, h, rfl, rfl⟩
  · rw [hm]
    refine ⟨_, true, rfl, ?_, rfl, rfl⟩
    rw [Env.modify_self, h]

theorem start_running (h : env.lstnr l = prepared g) : ∃ env' active, crtx_start_listener env l startSub = (env', 0) ∧
    env'.lstnr l = running g active ∧ env'.root = env.root ∧ env'.gfreed = env.gfreed := by
  have hlock : ¬ ((env.lock (.state l)).lstnr l).state = .started := by
    rw [Env.lock_lstnr, h]
    change ¬ LstnrState.stopped = .started
    decide
  have hok : ∀ b : Listener, ¬ (b.start_listener = true ∧ startSub.start_ret < 0) := by
    rintro b ⟨-, hlt⟩
    exact absurd hlt (by decide)
  obtain ⟨hlstnr, hroot, hgfreed⟩ := startCallback_sub h
  unfold crtx_start_listener
  dsimp only
  rw [if_neg hlock]
  generalize startCallback ((env.lock (.state l)).setState l .starting) l startSub = env₁ at hlstnr hroot hgfreed ⊢
  rw [if_neg (hok _)]
  obtain ⟨env₂, active, hact, hlstnr₂, hroot₂, hgfreed₂⟩ := activate_sub hlstnr
  rw [hact]
  dsimp only
  have hstarted : (env₂.setState l .started).lstnr l = running g active := by
    rw [Env.setState_self, hlstnr₂]
    rfl
  have hpost : (env₂.setState l .started).postState l startSub 0 = (env₂.setState l .started, 0) := by
    unfold Env.postState
    rw [hstarted]
    rfl
  have htrigger : startupTrigger (env₂.setState l .started) l = env₂.setState l .started := by
    unfold startupTrigger
    dsimp only
    rw [hstarted]
    rfl
  rw [hpost, htrigger]
  exact ⟨_, active, rfl, hstarted, hroot₂.trans hroot, hgfreed₂.trans hgfreed⟩

theorem setUp_running (h : env.lstnr l = crtx_calloc_listener_base) : ∃ env' active, setUp env l g = (env', 0) ∧
    env'.lstnr l = running g active ∧ env'.gfreed = env.gfreed ∧ (env'.root.graphs g).listener = some l ∧
    (∀ g' ≠ g, env'.root.graphs g' = env.root.graphs g') ∧
    ∀ g', env'.root.registry.count (some g') = env.root.registry.count (some g') + if g' = g then 1 else 0 := by
  obtain ⟨hlstnr, hroot⟩ := setupSignals_eq (g := g) h
  have htask : createTask (setupSignals env l g) l sigchld_handler = (setupSignals env l g).setRoot
      ((setupSignals env l g).root.setGraph g { (setupSignals env l g).root.graphs g with
        tasks := ((setupSignals env l g).root.graphs g).tasks ++ [sigchld_handler] }) := by
    unfold createTask
    rw [hlstnr]
    rfl
  have hprepared : (createTask (setupSignals env l g) l sigchld_handler).lstnr l = prepared g := by
    rw [htask]
    exact hlstnr
  obtain ⟨env', active, hstart, hrunning, hroot', hgfreed⟩ := start_running hprepared
  rw [htask, Env.setRoot_root, hroot] at hroot'
  refine ⟨env', active, hstart, hrunning, ?_, ?_, ?_, ?_⟩
  · rw [hgfreed, htask, Env.setRoot_gfreed, setupSignals_gfreed]
  · rw [hroot', Root.setGraph_self]
    exact congrArg Graph.listener (Root.setGraph_self ..)
  · intro g' hg'
    rw [hroot', Root.setGraph_other _ hg']
    exact Root.setGraph_other _ hg' _
  · intro g'
    rw [hroot', Root.setGraph_registry, Registry.count_register, Root.setGraph_registry]

/-! ## The last handler -/

theorem graph_running {active : Bool} (h : env.lstnr l = running g active) : (env.lstnr l).graph = some g := by
  rw [h]
  rfl

theorem shutsDown_running {active : Bool} (h : env.lstnr l = running g active) : ShutsDown env l := by
  have hready : revDepsReady env l = true := by
    unfold revDepsReady
    rw [h]
    rfl
  refine .inr ⟨?_, hready⟩
  rw [h]
  change LstnrState.started.num < LstnrState.stopped.num
  decide

theorem closeAdds_running (g : GraphId) (active : Bool) : closeAdds (running g active) .quiet = [] := rfl

theorem interns_running {active : Bool} (h : env.lstnr l = running g active) :
    Interns env l .quiet ↔ env.idle g = true := by
  have hgraph := graph_running h
  constructor
  · rintro (⟨hst, -⟩ | ⟨-, hidle⟩)
    · exact absurd hst (shutsDown_ne (shutsDown_running h))
    · exact (hidle g hgraph).1
  · intro hidle
    refine .inr ⟨shutsDown_running h, ?_⟩
    intro g' hg'
    obtain rfl : g = g' := Option.some_inj.mp (hgraph.symm.trans hg')
    rw [h, closeAdds_running]
    exact ⟨hidle, not_addsTo_nil env g⟩

theorem shutdown_running {active : Bool} (h : env.lstnr l = running g active)
    (hg : (env.root.graphs g).listener = some l) :
    (∀ g', ((crtx_shutdown_listener env l .quiet).root.graphs g').listener = (env.root.graphs g').listener) ∧
    (crtx_shutdown_listener env l .quiet).gfreed =
      (if env.idle g = true then Function.update env.gfreed g true else env.gfreed) ∧
    ∀ g', (crtx_shutdown_listener env l .quiet).root.registry.count (some g') =
      env.root.registry.count (some g') - if env.idle g = true ∧ g' = g then 1 else 0 := by
  have hgraph := graph_running h
  have hinterns := interns_running h
  have hc := shutdown_cases env l .quiet
  generalize crtx_shutdown_listener env l .quiet = env' at hc ⊢
  cases hc with
  | refused hnd hni =>
    exfalso
    refine hnd ⟨shutsDown_running h, g, hgraph, fun hidle => hni (hinterns.mpr hidle.1)⟩
  | delayed _ hni _ hd _ =>
    have hbusy : ¬ env.idle g = true := fun hidle => hni (hinterns.mpr hidle)
    refine ⟨hd.calm.listener, ?_, ?_⟩
    · rw [if_neg hbusy]
      exact hd.calm.gfreed
    · intro g'
      rw [if_neg (fun hc => hbusy hc.1), Nat.sub_zero]
      exact congrArg (List.count (some g')) hd.calm.registry
  | @reached env₁ _ _ hi _ hd _ =>
    have hidle := hinterns.mp hi
    have hown : Owns env₁ l g := by
      refine ⟨?_, (hd.calm.listener g).trans hg⟩
      rw [(hd.calm.kept l).graph, hgraph]
    have hlistener := intern_listener env₁ l
    have hint := intern_cases env₁ l
    generalize shutdown_listener_intern env₁ l = env' at hlistener hint ⊢
    cases hint with
    | @frees g' _ ho hroot _ hgfreed =>
      obtain rfl : g = g' := Option.some_inj.mp (hown.1.symm.trans ho.1)
      refine ⟨fun g' => (hlistener g').trans (hd.calm.listener g'), ?_, ?_⟩
      · rw [hgfreed, hd.calm.gfreed, if_pos hidle]
      · intro g'
        rw [hroot]
        change (unregisterGraph env₁.root g).registry.count (some g') = _
        rw [count_unregister, hd.calm.registry]
        simp [hidle]
    | keeps hno => exact absurd hown (hno g)

end

/-! ## Events -/

/-- Nothing that matters to the graphs of the listener changes. -/
structure Same (env env' : Env) : Prop where
  lstnr : env'.lstnr = env.lstnr
  listener : ∀ g, (env'.root.graphs g).listener = (env.root.graphs g).listener
  registry : env'.root.registry = env.root.registry
  gfreed : env'.gfreed = env.gfreed

namespace Same

variable {env env' env'' : Env}

theorem refl (env : Env) : Same env env := ⟨rfl, fun _ => rfl, rfl, rfl⟩

theorem trans (h : Same env env') (h' : Same env' env'') : Same env env'' := by
  refine ⟨h'.lstnr.trans h.lstnr, ?_, h'.registry.trans h.registry, h'.gfreed.trans h.gfreed⟩
  exact fun g => (h'.listener g).trans (h.listener g)

theorem addEvent (env : Env) (p : GraphId × EventId) : Same env (env.addEvent p) := by
  have hc := Calm.addEvent env p
  refine ⟨?_, hc.listener, hc.registry, hc.gfreed⟩
  unfold Env.addEvent
  split
  · rfl
  · split <;> rfl

theorem enter (env : Env) (stack : List Frame) (g : GraphId) (loop : Bool) :
    Same env (Nesting.enter env stack g loop).env := by
  have hc := claim_cases env g
  unfold Nesting.enter
  generalize claimPart env g = c at hc ⊢
  cases hc with
  | nothing hroot hlstnr hgfreed => exact ⟨hlstnr, fun _ => by rw [hroot], by rw [hroot], hgfreed⟩
  | entry _ hroot hlstnr hgfreed =>
    refine ⟨hlstnr, ?_, ?_, hgfreed⟩
    · intro g'
      dsimp only
      rw [Env.emit_root, hroot]
      by_cases h : g' = g
      · rw [h, Root.setGraph_self]
      · rw [Root.setGraph_other _ h]
    · dsimp only
      rw [Env.emit_root, hroot, Root.setGraph_registry]

theorem completePart {l : ListenerId} {g : GraphId} (hg : (env.root.graphs g).listener = some l)
    (hst : (env.lstnr l).state ≠ .shutdown) (hfree : (env.lstnr l).free_after_event = false) (q : Entry) :
    Same env (Libcortex.completePart env g q .quiet) := by
  rw [completePart_eq]
  have hunlinked : Same env (unlinked env g q) := ⟨rfl, Nesting.unlinked_listener env g q, rfl, rfl⟩
  refine hunlinked.trans ?_
  rw [← hunlinked.listener g] at hg
  rw [← hunlinked.lstnr] at hst hfree
  generalize unlinked env g q = env₁ at hg hst hfree ⊢
  have hcheck : checkDelayed env₁ g = ((env₁.emit (.touchLstnr l)).lock (.state l)).unlock (.state l) := by
    rw [checkDelayed_some hg, if_neg (fun h => hst h.2)]
  have hafter : ∀ env₂, Same env₁ env₂ → Same env₁ (afterEvent env₂ g .quiet) := by
    intro env₂ h
    rw [← h.listener g] at hg
    rw [← h.lstnr] at hfree
    rw [afterEvent_some hg, if_neg (by simp [hfree])]
    exact h.trans ⟨rfl, fun _ => rfl, rfl, rfl⟩
  rw [hcheck]
  exact hafter _ ⟨rfl, fun _ => rfl, rfl, rfl⟩

theorem complete {l : ListenerId} {f : Frame} (hg : (env.root.graphs f.graph).listener = some l)
    (hst : (env.lstnr l).state ≠ .shutdown) (hfree : (env.lstnr l).free_after_event = false) (stack : List Frame) :
    Same env (Nesting.complete env f stack .quiet).env := by
  have hpart := completePart hg hst hfree f.entry
  unfold Nesting.complete
  dsimp only
  split
  · exact hpart.trans (enter _ _ _ _)
  · exact hpart

end Same

/-- The events that run are of graphs in `gs`. -/
def Of (gs : List GraphId) (stack : List Frame) : Prop := ∀ f ∈ stack, f.graph ∈ gs

theorem enter_of {env : Env} {stack : List Frame} {gs : List GraphId} (hs : Of gs stack) {g : GraphId} (hg : g ∈ gs)
    (loop : Bool) : Of gs (enter env stack g loop).stack := by
  unfold Nesting.enter
  split
  · exact hs
  · exact List.forall_mem_cons.mpr ⟨hg, hs⟩

theorem complete_of {env : Env} {f : Frame} {stack : List Frame} {gs : List GraphId} (hs : Of gs (f :: stack)) :
    Of gs (complete env f stack .quiet).stack := by
  obtain ⟨hf, hs⟩ := List.forall_mem_cons.mp hs
  unfold Nesting.complete
  dsimp only
  split
  · exact enter_of hs hf true
  · exact hs

/-! ## The list and its last handler -/

theorem head_eq_none {s : ChildHandlers.State} {items : List ChildHandlers.Item} (hr : Registered s items) :
    s.sigchld_cbs = none ↔ items = [] := by
  rw [hr.isDll.head_eq]
  simp

theorem isLast_iff {s : ChildHandlers.State} {items : List ChildHandlers.Item} (hr : Registered s items) (data : Nat) :
    IsLast s data ↔ ∃ i, items = [i] ∧ i.handler.1 = data := by
  unfold IsLast
  rw [hr.isDll.head_eq]
  cases items with
  | nil => simp
  | cons i rest =>
    obtain ⟨d, hd⟩ := hr.isDll.linked [] i.node (rest.map ChildHandlers.Item.node) (by simp)
    have hdata := hr.data i (by simp)
    rw [LList.dataAt, hd] at hdata
    obtain rfl : d = i.handler.1 := by simpa using hdata
    cases rest with
    | nil => simp [hd]
    | cons j rest => simp [hd]

theorem remove_last {s s' : ChildHandlers.State} {items : List ChildHandlers.Item} {data : Nat} {r : Int}
    (hr : Registered s items) (h : ChildHandlers.crtx_signals_rem_child_handler s data = some (s', r)) :
    (∃ items', Registered s' items') ∧ (r = 0 ∧ s'.sigchld_cbs = none ↔ IsLast s data) ∧
      (s'.sigchld_cbs = none ↔ s.sigchld_cbs = none ∨ IsLast s data) := by
  rw [isLast_iff hr, head_eq_none hr]
  by_cases hin : data ∈ (ChildHandlers.handlers items).map Prod.fst
  · obtain ⟨_, hh, rfl⟩ := List.mem_map.mp hin
    obtain ⟨i, hi, rfl⟩ := List.mem_map.mp hh
    obtain ⟨xs, ys, rfl⟩ := List.append_of_mem hi
    obtain ⟨s₁, hrun, hr', -⟩ := hr.remove
    rw [hrun] at h
    cases h
    refine ⟨⟨_, hr'⟩, ?_, ?_⟩
    · rw [head_eq_none hr']
      cases xs <;> simp
    · rw [head_eq_none hr']
      cases xs <;> simp
  · rw [hr.remove_unknown hin] at h
    cases h
    have hnot : ¬ ∃ i, items = [i] ∧ i.handler.1 = data := by
      rintro ⟨i, rfl, rfl⟩
      exact hin (by simp [ChildHandlers.handlers])
    refine ⟨⟨_, hr⟩, ?_, ?_⟩
    · simp [hnot]
    · rw [head_eq_none hr]
      simp [hnot]

/-! ## What every step keeps -/

structure Inv (l : ListenerId) (s : Sys) : Prop where
  cbs : ∃ items, Registered s.cbs items
  cleared : s.cbs.sigchld_cbs = none → s.env.lstnr l = crtx_calloc_listener_base
  running : s.cbs.sigchld_cbs ≠ none →
    ∃ g active, s.env.lstnr l = ChildTeardown.running g active ∧ g ∈ s.graphs ∧ s.env.gfreed g = false
  listener : ∀ g ∈ s.graphs, (s.env.root.graphs g).listener = some l
  count : ∀ g ∈ s.graphs, s.env.root.registry.count (some g) = if s.env.gfreed g = true then 0 else 1
  stack : Of s.graphs s.stack

variable {l : ListenerId} {s s' : Sys}

theorem Inv.state (hi : Inv l s) : (s.env.lstnr l).state ≠ .shutdown ∧ (s.env.lstnr l).free_after_event = false := by
  by_cases h : s.cbs.sigchld_cbs = none
  · rw [hi.cleared h]
    exact ⟨by decide, rfl⟩
  · obtain ⟨g, active, hl, -⟩ := hi.running h
    rw [hl]
    refine ⟨?_, rfl⟩
    change LstnrState.started ≠ .shutdown
    decide

theorem Inv.tornDown_iff (hi : Inv l s) :
    TornDown l s ↔ ∀ g ∈ s.graphs, (s.env.lstnr l).graph ≠ some g → s.env.gfreed g = true := by
  unfold TornDown
  refine forall₂_congr fun g hg => imp_congr_right fun _ => and_iff_left_of_imp fun hf => ?_
  rw [← List.count_eq_zero, hi.count g hg, if_pos hf]

theorem Inv.same (hi : Inv l s) {env : Env} (h : Same s.env env) {stack : List Frame} (hs : Of s.graphs stack) :
    Inv l { s with env, stack } ∧ (TornDown l { s with env, stack } ↔ TornDown l s) := by
  have hi' : Inv l { s with env, stack } := by
    refine ⟨hi.cbs, ?_, ?_, ?_, ?_, hs⟩
    · rw [h.lstnr]
      exact hi.cleared
    · rw [h.lstnr, h.gfreed]
      exact hi.running
    · exact fun g hg => (h.listener g).trans (hi.listener g hg)
    · rw [h.registry, h.gfreed]
      exact hi.count
  refine ⟨hi', ?_⟩
  rw [hi'.tornDown_iff, hi.tornDown_iff, h.lstnr, h.gfreed]

theorem addHandler_first (hi : Inv l s) {g : GraphId} {d : CbData} (he : enabled s (.addHandler g d))
    (hnone : s.cbs.sigchld_cbs = none) (hs : crtx_signals_add_child_handler l s g d = some s') :
    Inv l s' ∧ (TornDown l s' ↔ TornDown l s) := by
  obtain ⟨hnew, hunregistered, hfresh⟩ := he
  obtain ⟨items, hr⟩ := hi.cbs
  have hbase := hi.cleared hnone
  obtain ⟨env', active, hsetUp, hlstnr, hgfreed, hlistener, hother, hcount⟩ := setUp_running (g := g) hbase
  have hgraph : (s.env.lstnr l).graph = none := by
    rw [hbase]
    rfl
  unfold crtx_signals_add_child_handler at hs
  rw [if_pos hnone, hsetUp] at hs
  dsimp only at hs
  rw [if_pos hgraph] at hs
  have hne : ∀ g' ∈ s.graphs, g' ≠ g := fun g' hg' h => hnew (h ▸ hg')
  rcases hr.add true d with ⟨h, -⟩ | ⟨cbs, hrun, hr', -⟩
  · cases h
  rw [show (decide ((0 : Int) = 0)) = true from rfl, hrun] at hs
  cases hs
  have hsome : cbs.sigchld_cbs ≠ none := by
    rw [Ne, head_eq_none hr']
    simp
  have hi' : Inv l { s with env := env', cbs, graphs := g :: s.graphs } := by
    refine ⟨⟨_, hr'⟩, fun h => absurd h hsome, fun _ => ⟨g, active, hlstnr, List.mem_cons_self, ?_⟩, ?_, ?_, ?_⟩
    · exact (congrFun hgfreed g).trans hfresh
    · rintro g' (_ | ⟨_, hg'⟩)
      · exact hlistener
      · exact (congrArg Graph.listener (hother g' (hne g' hg'))).trans (hi.listener g' hg')
    · rintro g' (_ | ⟨_, hg'⟩)
      · dsimp only
        rw [hcount, List.count_eq_zero.mpr hunregistered, hgfreed, hfresh]
        simp
      · dsimp only
        rw [hcount, hgfreed, if_neg (hne g' hg'), Nat.add_zero, hi.count g' hg']
    · exact fun f hf => List.mem_cons_of_mem g (hi.stack f hf)
  refine ⟨hi', ?_⟩
  rw [hi'.tornDown_iff, hi.tornDown_iff, hgraph, hgfreed, hlstnr, List.forall_mem_cons]
  constructor
  · rintro ⟨-, h⟩ g' hg' -
    exact h g' hg' (fun heq => hne g' hg' (Option.some_inj.mp heq).symm)
  · intro h
    exact ⟨fun h' => absurd rfl h', fun g' hg' _ => h g' hg' (by simp)⟩

theorem addHandler_next (hi : Inv l s) {g : GraphId} {d : CbData} (hsome : s.cbs.sigchld_cbs ≠ none)
    (hs : crtx_signals_add_child_handler l s g d = some s') : Inv l s' ∧ (TornDown l s' ↔ TornDown l s) := by
  obtain ⟨items, hr⟩ := hi.cbs
  unfold crtx_signals_add_child_handler at hs
  rw [if_neg hsome] at hs
  rcases hr.add true d with ⟨h, -⟩ | ⟨cbs, hrun, hr', -⟩
  · cases h
  rw [hrun] at hs
  cases hs
  have hsome' : cbs.sigchld_cbs ≠ none := by
    rw [Ne, head_eq_none hr']
    simp
  refine ⟨⟨⟨_, hr'⟩, fun h => absurd h hsome', fun _ => hi.running hsome, hi.listener, hi.count, hi.stack⟩, Iff.rfl⟩

theorem lastHandler_torn (hi : Inv l s) {g : GraphId} {active : Bool} (hlstnr : s.env.lstnr l = running g active)
    (hg : g ∈ s.graphs) (hfresh : s.env.gfreed g = false) {cbs : ChildHandlers.State} (hcbs : ∃ items, Registered cbs items)
    (hnone : cbs.sigchld_cbs = none) {env : Env}
    (henv : env = (crtx_shutdown_listener s.env l .quiet).modify l fun _ => crtx_calloc_listener_base) :
    Inv l { s with env, cbs } ∧ (TornDown l { s with env, cbs } ↔ TornDown l s ∧ s.env.idle g = true) := by
  obtain ⟨hlistener, hgfreed, hcount⟩ := shutdown_running hlstnr (hi.listener g hg)
  generalize crtx_shutdown_listener s.env l .quiet = down at hlistener hgfreed hcount henv
  subst henv
  have hbase := Env.modify_self down l fun _ => crtx_calloc_listener_base
  have hi' : Inv l { s with env := down.modify l fun _ => crtx_calloc_listener_base, cbs } := by
    refine ⟨hcbs, fun _ => hbase, fun h => absurd hnone h, ?_, ?_, hi.stack⟩
    · exact fun g' hg' => (hlistener g').trans (hi.listener g' hg')
    · intro g' hg'
      dsimp only
      rw [Env.modify_root, Env.modify_gfreed, hcount, hi.count g' hg', hgfreed]
      by_cases hidle : s.env.idle g = true
      · rw [if_pos hidle, Function.update_apply]
        by_cases hgg : g' = g
        · simp [hgg, hidle, hfresh]
        · simp [hgg]
      · simp [hidle]
  have hgraph := graph_running hlstnr
  refine ⟨hi', ?_⟩
  rw [hi'.tornDown_iff, hi.tornDown_iff, hgraph]
  simp only [Env.modify_self, Env.modify_gfreed, hgfreed]
  by_cases hidle : s.env.idle g = true
  · rw [if_pos hidle, and_iff_left hidle]
    refine forall₂_congr fun g' _ => ?_
    rw [Function.update_apply]
    by_cases hgg : g' = g
    · simp [hgg]
    · simp [hgg, Ne.symm hgg, crtx_calloc_listener_base]
  · rw [if_neg hidle]
    refine iff_of_false ?_ fun h => hidle h.2
    intro h
    have := h g hg (by simp [crtx_calloc_listener_base])
    rw [hfresh] at this
    cases this

theorem remHandler_torn (hi : Inv l s) {data : Nat} (hs : crtx_signals_rem_child_handler l s data = some s') :
    Inv l s' ∧ (TornDown l s' ↔ TornDown l s ∧ Quiet l s (.remHandler data)) := by
  obtain ⟨items, hr⟩ := hi.cbs
  unfold crtx_signals_rem_child_handler at hs
  obtain ⟨⟨cbs, r⟩, hrun, rfl⟩ := Option.map_eq_some_iff.mp hs
  obtain ⟨hcbs, hlast, hnone⟩ := remove_last hr hrun
  dsimp only
  split
  · rename_i hdown
    have hl := hlast.mp hdown
    have hsome : s.cbs.sigchld_cbs ≠ none := by
      intro h
      unfold IsLast at hl
      rw [h] at hl
      cases hl
    obtain ⟨g, active, hlstnr, hg, hfresh⟩ := hi.running hsome
    have hquiet : Quiet l s (.remHandler data) ↔ s.env.idle g = true := by
      unfold Quiet
      rw [graph_running hlstnr]
      simp [hl]
    rw [hquiet]
    exact lastHandler_torn hi hlstnr hg hfresh hcbs hdown.2 rfl
  · rename_i hup
    have hl : ¬ IsLast s.cbs data := fun h => hup (hlast.mpr h)
    have hsame : cbs.sigchld_cbs = none ↔ s.cbs.sigchld_cbs = none := by rw [hnone, or_iff_left hl]
    refine ⟨⟨hcbs, fun h => hi.cleared (hsame.mp h), fun h => hi.running (fun h' => h (hsame.mpr h')), hi.listener, hi.count,
      hi.stack⟩, ?_⟩
    exact (and_iff_left fun h => absurd h hl).symm

theorem step_torn (hi : Inv l s) {a : Action} (hs : step l s a = some s') :
    Inv l s' ∧ (TornDown l s' ↔ TornDown l s ∧ Quiet l s a) := by
  unfold step at hs
  split at hs
  · rename_i he
    cases a with
    | addHandler g d =>
      rw [show Quiet l s (.addHandler g d) = True from rfl, and_true]
      by_cases hnone : s.cbs.sigchld_cbs = none
      · exact addHandler_first hi he hnone hs
      · exact addHandler_next hi hnone hs
    | remHandler data => exact remHandler_torn hi hs
    | signal p =>
      rw [show Quiet l s (.signal p) = True from rfl, and_true]
      cases hs
      exact hi.same (Same.addEvent s.env p) hi.stack
    | process g loop =>
      rw [show Quiet l s (.process g loop) = True from rfl, and_true]
      cases hs
      exact hi.same (Same.enter s.env s.stack g loop) (enter_of hi.stack he.1 loop)
    | finish =>
      rw [show Quiet l s .finish = True from rfl, and_true]
      unfold apply at hs
      cases hst : s.stack with
      | nil => exact absurd hst he
      | cons f stack =>
        have hof := hi.stack
        simp only [hst] at hs hof
        cases hs
        exact hi.same (Same.complete (hi.listener f.graph (hof f List.mem_cons_self)) hi.state.1 hi.state.2 stack)
          (complete_of hof)
  · cases hs

/-! ## The result -/

theorem begin_inv {env : Env} (h : env.lstnr l = crtx_calloc_listener_base) : Inv l (begin env) := by
  refine ⟨⟨[], noHandlers_registered⟩, fun _ => h, fun h' => absurd rfl h', ?_, ?_, ?_⟩
  · intro g hg
    cases hg
  · intro g hg
    cases hg
  · intro f hf
    cases hf

/-- The graphs of the earlier listeners are gone, if and only if no last handler was removed while events were pending. -/
theorem child_graphs_freed_iff (l : ListenerId) (env : Env) (h : env.lstnr l = crtx_calloc_listener_base)
    (as : List Action) (s : Sys) (hr : run (step l) as (begin env) = some s) :
    (s.cbs.sigchld_cbs = none → (s.env.lstnr l).graph = none) ∧
    (TornDown l s ↔ Meets (step l) (Quiet l) as (begin env)) := by
  have hi := begin_inv h
  have hinv : Inv l s := run_invariant (fun _ _ _ hi hs => (step_torn hi hs).1) as _ s hi hr
  refine ⟨?_, ?_⟩
  · intro hnone
    rw [hinv.cleared hnone]
    rfl
  · have htorn : TornDown l (begin env) := by
      intro g hg
      cases hg
    rw [run_iff_meets (fun _ _ _ hi hs => step_torn hi hs) as _ s hi hr]
    exact and_iff_right htorn

/-- An event is processed before the only handler goes. -/
theorem child_graphs_freed_after_event :
    ∃ s, run (step 0) [.addHandler 3 ⟨1, 0⟩, .signal (3, 0), .process 3 true, .finish, .remHandler 0] (begin Env.initial) =
      some s ∧ s.cbs.sigchld_cbs = none ∧ s.graphs = [3] ∧ TornDown 0 s := by
  have hrun : (run (step 0) [.addHandler 3 ⟨1, 0⟩, .signal (3, 0), .process 3 true, .finish, .remHandler 0]
      (begin Env.initial)).map (fun s => (s.cbs.sigchld_cbs, s.graphs)) = some (none, [3]) := by decide
  obtain ⟨s, hr, hs⟩ := Option.map_eq_some_iff.mp hrun
  obtain ⟨hnone, hgraphs⟩ := Prod.mk.injEq _ _ _ _ ▸ hs
  exact ⟨s, hr, hnone, hgraphs, (child_graphs_freed_iff 0 Env.initial rfl _ s hr).2.mpr (by decide)⟩

/-- The handler removes itself while it is called. Its graph stays, though the event is over. -/
theorem child_graph_stays :
    ∃ s, run (step 0) [.addHandler 3 ⟨1, 0⟩, .signal (3, 0), .process 3 true, .remHandler 0, .finish] (begin Env.initial) =
      some s ∧ s.cbs.sigchld_cbs = none ∧ (∀ g ∈ s.graphs, s.env.idle g = true) ∧ ¬ TornDown 0 s := by
  have hrun : (run (step 0) [.addHandler 3 ⟨1, 0⟩, .signal (3, 0), .process 3 true, .remHandler 0, .finish]
      (begin Env.initial)).map (fun s => (s.cbs.sigchld_cbs, s.graphs, s.env.idle 3, (s.env.lstnr 0).graph, s.env.gfreed 3)) =
        some (none, [3], true, none, false) := by decide
  obtain ⟨s, hr, hs⟩ := Option.map_eq_some_iff.mp hrun
  simp only [Prod.mk.injEq] at hs
  obtain ⟨hnone, hgraphs, hidle, hgraph, hfreed⟩ := hs
  refine ⟨s, hr, hnone, ?_, ?_⟩
  · rw [hgraphs]
    simpa using hidle
  · intro h
    have := (h 3 (by simp [hgraphs]) (by simp [hgraph])).1
    rw [hfreed] at this
    cases this

end Libcortex.ChildTeardown
