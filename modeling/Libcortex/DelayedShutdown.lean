import Libcortex.Nesting

/-!
# Delayed shutdown

A shutdown that finds pending events leaves the listener in the state `SHUTDOWN`, and the event that
empties both lists of its graph ends the shutdown. A listener is up, then it may wait for its last
event, then it is down. `shutdown_listener_intern` runs once, on the way down.
-/

open Libcortex.Lib Libcortex.Nesting

namespace Libcortex.DelayedShutdown

/-! ## What the log says -/

def internOf (l : ListenerId) : Ev → Option Bool
  | .intern l' idle => if l' = l then some idle else none
  | _ => none

/-- The runs of `shutdown_listener_intern` on `l`, with what each found. -/
def interns (l : ListenerId) (log : List Ev) : List Bool := log.filterMap (internOf l)

/-- Nothing about the shutdown of `l` is added to the log. -/
structure NoNews (l : ListenerId) (log log' : List Ev) : Prop where
  interns : interns l log' = interns l log
  delayed : .delayed l ∈ log' ↔ .delayed l ∈ log
  call : .callShutdown l ∈ log → .callShutdown l ∈ log'

namespace NoNews

variable {l : ListenerId} {log log' log'' : List Ev}

theorem refl (log : List Ev) : NoNews l log log := ⟨rfl, Iff.rfl, id⟩

theorem trans (h : NoNews l log log') (h' : NoNews l log' log'') : NoNews l log log'' :=
  ⟨h'.interns.trans h.interns, h'.delayed.trans h.delayed, h'.call ∘ h.call⟩

theorem cons {ev : Ev} (hi : internOf l ev = none) (hd : ev ≠ .delayed l) (log : List Ev) : NoNews l log (ev :: log) := by
  refine ⟨List.filterMap_cons_none hi, ?_, List.mem_cons_of_mem _⟩
  rw [List.mem_cons, or_iff_right hd.symm]

theorem append {new : List Ev} (h : ∀ ev ∈ new, internOf l ev = none ∧ ev ≠ .delayed l) (log : List Ev) :
    NoNews l log (new ++ log) := by
  induction new with
  | nil => exact refl log
  | cons ev new ih =>
    obtain ⟨hi, hd⟩ := h ev (List.mem_cons_self ..)
    exact (ih fun ev' h' => h ev' (List.mem_cons_of_mem _ h')).trans (cons hi hd _)

theorem does {l' : ListenerId} {acts : List Act} {env env' : Env} (hd : Does l' acts env env') :
    NoNews l env.log env'.log := by
  obtain ⟨new, hn, hh⟩ := hd.log
  rw [hn]
  refine append ?_ _
  intro ev hev
  have := hh ev hev
  cases ev <;> simp_all [Harmless, internOf]

end NoNews

/-! ## Calls that leave the listener and its graph alone -/

/-- `g` may get more events. Besides the state of `l`, nothing that matters to its shutdown changes. -/
structure Near (l : ListenerId) (g : GraphId) (env env' : Env) : Prop where
  graph : (env'.lstnr l).graph = (env.lstnr l).graph
  free_after_event : (env'.lstnr l).free_after_event = (env.lstnr l).free_after_event
  graph_other : ∀ l', l' ≠ l → (env'.lstnr l').graph = some g → (env.lstnr l').graph = some g
  listener : ∀ g', (env'.root.graphs g').listener = (env.root.graphs g').listener
  claimed : (env'.root.graphs g).claimed = (env.root.graphs g).claimed
  idle : env'.idle g → env.idle g
  gone : env.gfreed g = true → env.idle g → env'.idle g
  gfreed : env'.gfreed g = env.gfreed g
  news : NoNews l env.log env'.log

structure Apart (l : ListenerId) (g : GraphId) (env env' : Env) : Prop extends Near l g env env' where
  state : (env'.lstnr l).state = (env.lstnr l).state

variable {l : ListenerId} {g : GraphId} {env env' env'' : Env}

theorem Near.trans (h : Near l g env env') (h' : Near l g env' env'') : Near l g env env'' := by
  constructor
  · exact h'.graph.trans h.graph
  · exact h'.free_after_event.trans h.free_after_event
  · exact fun l' hl hg => h.graph_other l' hl (h'.graph_other l' hl hg)
  · exact fun g' => (h'.listener g').trans (h.listener g')
  · exact h'.claimed.trans h.claimed
  · exact fun hi => h.idle (h'.idle hi)
  · exact fun hf hi => h'.gone (h.gfreed.trans hf) (h.gone hf hi)
  · exact h'.gfreed.trans h.gfreed
  · exact h.news.trans h'.news

theorem Near.does {l' : ListenerId} {acts : List Act} (hd : Does l' acts env env') : Near l g env env' := by
  have hc := hd.calm
  constructor
  · exact (hc.kept l).graph
  · exact (hc.kept l).free_after_event
  · exact fun l'' _ hg => (hc.kept l'').graph.symm.trans hg
  · exact hc.listener
  · exact hc.claimed g
  · exact fun hi => ((hc.idle g).mp hi).1
  · intro hf hi
    refine (hc.idle g).mpr ⟨hi, ?_⟩
    rintro ⟨_, _, hf'⟩
    rw [hf] at hf'
    cases hf'
  · rw [hc.gfreed]
  · exact NoNews.does hd

namespace Apart

theorem refl (env : Env) : Apart l g env env := by
  refine ⟨⟨rfl, rfl, fun _ _ h => h, fun _ => rfl, rfl, id, fun _ h => h, rfl, NoNews.refl _⟩, rfl⟩

theorem trans (h : Apart l g env env') (h' : Apart l g env' env'') : Apart l g env env'' :=
  ⟨h.toNear.trans h'.toNear, h'.state.trans h.state⟩

theorem does {l' : ListenerId} {acts : List Act} (hd : Does l' acts env env') (hl : l ≠ l') : Apart l g env env' :=
  ⟨Near.does hd, hd.state_other hl⟩

theorem emit (env : Env) {ev : Ev} (hi : internOf l ev = none) (hd : ev ≠ .delayed l) : Apart l g env (env.emit ev) :=
  { refl env with news := NoNews.cons hi hd _ }

theorem of_graphs (hlstnr : env'.lstnr = env.lstnr) (hgr : env'.root.graphs g = env.root.graphs g)
    (hlis : ∀ g', (env'.root.graphs g').listener = (env.root.graphs g').listener) (hgfreed : env'.gfreed = env.gfreed)
    (hnews : NoNews l env.log env'.log) : Apart l g env env' := by
  have hidle : env'.idle g = env.idle g := by
    unfold Env.idle
    rw [hgr]
  refine ⟨⟨by rw [hlstnr], by rw [hlstnr], ?_, hlis, by rw [hgr], ?_, ?_, by rw [hgfreed], hnews⟩, by rw [hlstnr]⟩
  · intro l' _ h
    rwa [hlstnr] at h
  · rw [hidle]
    exact id
  · rw [hidle]
    exact fun _ h => h

theorem leaveDelayed (env : Env) {l' : ListenerId} (hl : l ≠ l') (g' : GraphId) :
    Apart l g env (leaveDelayed env l' g') := by
  unfold Libcortex.leaveDelayed
  have h₁ : Apart l g env (((env.lock (.queue g')).emit (.delayed l')).unlock (.queue g')) := by
    refine (emit env rfl (by simp)).trans (trans (emit _ rfl ?_) (emit _ rfl (by simp)))
    intro h
    cases h
    exact hl rfl
  have h₂ : ∀ env : Env, Apart l g env (env.setState l' .shutdown) := by
    intro env
    have hd : Does l' [.set .shutdown] env (env.setState l' .shutdown) := (Does.refl env).snoc (.set .shutdown)
    exact does hd hl
  exact (h₁.trans (h₂ _)).trans (emit _ rfl (by simp))

theorem intern (env : Env) {l' : ListenerId} (hl : l ≠ l') (hg : (env.lstnr l').graph ≠ some g) :
    Apart l g env (shutdown_listener_intern env l') := by
  have hlis := intern_listener env l'
  have hself := intern_other env hl
  have hgraph : ∀ l'', l'' ≠ l → ((shutdown_listener_intern env l').lstnr l'').graph = some g →
      (env.lstnr l'').graph = some g := by
    intro l'' _ h
    by_cases hl'' : l'' = l'
    · rw [hl''] at h ⊢
      exact (intern_self env l').graph g h
    · rwa [intern_other env hl''] at h
  have hc := intern_cases env l'
  have hnews : NoNews l env.log (shutdown_listener_intern env l').log := by
    obtain ⟨new, hn, hnew⟩ := intern_log env l'
    rw [hn]
    refine NoNews.append ?_ _
    intro ev hev
    rcases hnew ev hev with rfl | rfl | ⟨g', rfl⟩
    · exact ⟨if_neg (Ne.symm hl), by simp⟩
    · exact ⟨rfl, by simp⟩
    · exact ⟨rfl, by simp⟩
  generalize shutdown_listener_intern env l' = env' at hlis hself hgraph hnews hc ⊢
  cases hc with
  | @frees g' _ ho hroot _ hgfreed =>
    have hne : g ≠ g' := by
      rintro rfl
      exact hg ho.1
    have hgr : env'.root.graphs g = env.root.graphs g := by rw [hroot, shutdown_graph_intern_other _ hne]
    have hidle : env'.idle g = env.idle g := by
      unfold Env.idle
      rw [hgr]
    refine ⟨⟨by rw [hself], by rw [hself], hgraph, hlis, by rw [hgr], ?_, ?_, ?_, hnews⟩, by rw [hself]⟩
    · rw [hidle]
      exact id
    · rw [hidle]
      exact fun _ h => h
    · rw [hgfreed, Function.update_of_ne hne]
  | keeps _ hroot hlstnr hgfreed => exact of_graphs hlstnr (by rw [hroot]) hlis hgfreed hnews

theorem shutdown (env : Env) {l' : ListenerId} (hl : l ≠ l') (hg : (env.lstnr l').graph ≠ some g) (o : Outcome) :
    Apart l g env (crtx_shutdown_listener env l' o) := by
  have h := shutdown_cases env l' o
  generalize crtx_shutdown_listener env l' o = env' at h ⊢
  cases h with
  | refused _ _ _ hd => exact does hd hl
  | delayed _ _ _ hd _ => exact (does hd hl).trans (leaveDelayed _ hl _)
  | reached _ _ _ hd _ =>
    refine (does hd hl).trans (intern _ hl ?_)
    rw [(hd.calm.kept l').graph]
    exact hg

end Apart

/-! ## The phases of a shutdown -/

/-- `l` and `g` belong to each other and to nobody else. -/
structure Own (l : ListenerId) (g : GraphId) (env : Env) : Prop where
  listener : (env.root.graphs g).listener = some l
  only : ∀ g', g' ≠ g → (env.root.graphs g').listener ≠ some l
  alone : ∀ l', l' ≠ l → (env.lstnr l').graph ≠ some g
  free_after_event : (env.lstnr l).free_after_event = false

structure Up (l : ListenerId) (g : GraphId) (env : Env) : Prop where
  graph : (env.lstnr l).graph = some g
  gfreed : env.gfreed g = false
  state : (env.lstnr l).state ≠ .shuttingDown ∧ (env.lstnr l).state ≠ .shutdown
  interns : interns l env.log = []
  delayed : .delayed l ∉ env.log

/-- The shutdown was delayed. -/
structure Waiting (l : ListenerId) (g : GraphId) (env : Env) : Prop where
  graph : (env.lstnr l).graph = some g
  gfreed : env.gfreed g = false
  state : (env.lstnr l).state = .shutdown
  busy : env.idle g = false
  interns : interns l env.log = []
  call : .callShutdown l ∈ env.log

structure Down (l : ListenerId) (g : GraphId) (env : Env) : Prop where
  graph : (env.lstnr l).graph = none
  gfreed : env.gfreed g = true
  state : (env.lstnr l).state = .shuttingDown ∨ (env.lstnr l).state = .shutdown
  idle : env.idle g = true
  interns : interns l env.log = [true]
  call : .callShutdown l ∈ env.log

theorem Own.near (h : Own l g env) (hn : Near l g env env') : Own l g env' := by
  constructor
  · exact (hn.listener g).trans h.listener
  · intro g' hg'
    rw [hn.listener]
    exact h.only g' hg'
  · exact fun l' hl' hg' => h.alone l' hl' (hn.graph_other l' hl' hg')
  · exact hn.free_after_event.trans h.free_after_event

theorem Up.near (h : Up l g env) (hn : Near l g env env')
    (hst : (env'.lstnr l).state ≠ .shuttingDown ∧ (env'.lstnr l).state ≠ .shutdown) : Up l g env' := by
  refine ⟨hn.graph.trans h.graph, hn.gfreed.trans h.gfreed, hst, hn.news.interns.trans h.interns, ?_⟩
  rw [hn.news.delayed]
  exact h.delayed

theorem Waiting.apart (h : Waiting l g env) (ha : Apart l g env env') : Waiting l g env' := by
  refine ⟨ha.graph.trans h.graph, ha.gfreed.trans h.gfreed, ha.state.trans h.state, ?_,
    ha.news.interns.trans h.interns, ha.news.call h.call⟩
  rw [Bool.eq_false_iff]
  intro hi
  exact Bool.false_ne_true (h.busy.symm.trans (ha.idle hi))

theorem Down.apart (h : Down l g env) (ha : Apart l g env env') : Down l g env' := by
  refine ⟨ha.graph.trans h.graph, ha.gfreed.trans h.gfreed, ?_, ha.gone h.gfreed h.idle,
    ha.news.interns.trans h.interns, ha.news.call h.call⟩
  rw [ha.state]
  exact h.state

/-! If only the lists of graphs changed: -/

section

variable (hlstnr : env'.lstnr = env.lstnr)
include hlstnr

theorem Own.same (h : Own l g env) (hlis : ∀ g', (env'.root.graphs g').listener = (env.root.graphs g').listener) :
    Own l g env' := by
  constructor
  · rw [hlis]
    exact h.listener
  · intro g' hg'
    rw [hlis]
    exact h.only g' hg'
  · rw [hlstnr]
    exact h.alone
  · rw [hlstnr]
    exact h.free_after_event

variable (hgfreed : env'.gfreed = env.gfreed) (hnews : NoNews l env.log env'.log)
include hgfreed hnews

theorem Up.same (h : Up l g env) : Up l g env' := by
  refine ⟨?_, ?_, ?_, hnews.interns.trans h.interns, ?_⟩
  · rw [hlstnr]
    exact h.graph
  · rw [hgfreed]
    exact h.gfreed
  · rw [hlstnr]
    exact h.state
  · rw [hnews.delayed]
    exact h.delayed

theorem Waiting.same (h : Waiting l g env) (hbusy : env'.idle g = false) : Waiting l g env' := by
  refine ⟨?_, ?_, ?_, hbusy, hnews.interns.trans h.interns, hnews.call h.call⟩
  · rw [hlstnr]
    exact h.graph
  · rw [hgfreed]
    exact h.gfreed
  · rw [hlstnr]
    exact h.state

end

/-- A step that is not the end of an event of `g`. -/
structure Moves (l : ListenerId) (g : GraphId) (env env' : Env) : Prop where
  own : Own l g env'
  claimed : (env'.root.graphs g).claimed = (env.root.graphs g).claimed
  up : Up l g env → Up l g env' ∨ Waiting l g env' ∨ Down l g env'
  waiting : Waiting l g env → Waiting l g env'
  down : Down l g env → Down l g env'

theorem Apart.moves (ha : Apart l g env env') (ho : Own l g env) : Moves l g env env' := by
  refine ⟨ho.near ha.toNear, ha.claimed, fun h => Or.inl (h.near ha.toNear ?_), fun h => h.apart ha, fun h => h.apart ha⟩
  rw [ha.state]
  exact h.state

theorem start_moves (ho : Own l g env) {l' : ListenerId} (hok : l' = l → .callShutdown l ∉ env.log) (o : Outcome) :
    Moves l g env (crtx_start_listener env l' o).1 := by
  by_cases hl : l = l'
  · subst hl
    have hcall := hok rfl
    have hn : Near l g env (crtx_start_listener env l o).1 := by
      rcases start_does env l o with ⟨_, hd⟩ | ⟨_, _, _, _, _, hd⟩
      · exact Near.does hd
      · exact Near.does hd
    refine ⟨ho.near hn, hn.claimed, fun h => Or.inl (h.near hn ?_), fun h => absurd h.call hcall,
      fun h => absurd h.call hcall⟩
    rcases start_does env l o with ⟨_, hd⟩ | ⟨_, adds, adds', sts, hmem, hd⟩
    · rw [hd.state]
      exact h.state
    · have hsts : statesOf (startActs l adds sts adds') = .starting :: sts := by
        simp [startActs, statesOf_cons, Act.state?]
      rw [hd.state, hsts]
      simp only [List.mem_cons, List.not_mem_nil, or_false] at hmem
      rcases hmem with rfl | rfl | rfl <;> simp
  · refine Apart.moves ?_ ho
    rcases start_does env l' o with ⟨_, hd⟩ | ⟨_, _, _, _, _, hd⟩
    · exact Apart.does hd hl
    · exact Apart.does hd hl

theorem Waiting.late (h : Waiting l g env) : ¬ (env.lstnr l).state.num < LstnrState.stopped.num := by
  rw [h.state]
  decide

theorem Down.late (h : Down l g env) : ¬ (env.lstnr l).state.num < LstnrState.stopped.num := by
  rcases h.state with h | h
  · rw [h]
    decide
  · rw [h]
    decide

theorem early_moves (ho : Own l g env) {acts : List Act} (hd : Does l acts env env')
    (hlt : (env.lstnr l).state.num < LstnrState.stopped.num)
    (hst : (env'.lstnr l).state ≠ .shuttingDown ∧ (env'.lstnr l).state ≠ .shutdown) : Moves l g env env' := by
  have hn : Near l g env env' := Near.does hd
  exact ⟨ho.near hn, hn.claimed, fun h => Or.inl (h.near hn hst), fun h => absurd hlt h.late, fun h => absurd hlt h.late⟩

theorem still_apart {acts : List Act} (hd : Does l acts env env') (hst : statesOf acts = []) : Apart l g env env' := by
  refine ⟨Near.does hd, ?_⟩
  rw [hd.state, hst]
  rfl

theorem stop_moves (ho : Own l g env) (l' : ListenerId) (o : Outcome) :
    Moves l g env (crtx_stop_listener env l' o).1 := by
  by_cases hl : l = l'
  · subst hl
    rcases stop_does env l o with ⟨_, hd⟩ | ⟨hlt, _, hd⟩ | ⟨hlt, _, hd⟩
    · exact (still_apart hd rfl).moves ho
    · refine early_moves ho hd hlt ?_
      simp [hd.state, statesOf_cons, Act.state?]
    · refine early_moves ho hd hlt ?_
      simp [hd.state, statesOf_stopActs]
  · refine Apart.moves ?_ ho
    rcases stop_does env l' o with ⟨_, hd⟩ | ⟨_, _, hd⟩ | ⟨_, _, hd⟩
    · exact Apart.does hd hl
    · exact Apart.does hd hl
    · exact Apart.does hd hl

theorem intern_down (ho : Own l g env) (hgraph : (env.lstnr l).graph = some g) (hidle : env.idle g = true)
    (hst : (env.lstnr l).state = .shuttingDown ∨ (env.lstnr l).state = .shutdown) (hint : interns l env.log = [])
    (hcall : .callShutdown l ∈ env.log) :
    Own l g (shutdown_listener_intern env l) ∧ Down l g (shutdown_listener_intern env l) := by
  have hlis := intern_listener env l
  have hself := intern_self env l
  have hother : ∀ l', l' ≠ l → (shutdown_listener_intern env l).lstnr l' = env.lstnr l' := fun _ => intern_other env
  have hcall' := (intern_suffix env l).subset hcall
  have hc := intern_cases env l
  have hgi : graphIdle env l = true := by
    unfold graphIdle
    rw [hgraph]
    exact hidle
  generalize shutdown_listener_intern env l = env' at hlis hself hother hc hcall' ⊢
  constructor
  · refine ⟨(hlis g).trans ho.listener, ?_, ?_, hself.free_after_event.trans ho.free_after_event⟩
    · intro g' hg'
      rw [hlis]
      exact ho.only g' hg'
    · intro l' hl'
      rw [hother l' hl']
      exact ho.alone l' hl'
  · cases hc with
    | @frees g' _ hown hroot hlstnr hgfreed _ hlog =>
      obtain rfl : g = g' := Option.some.inj (hgraph.symm.trans hown.1)
      refine ⟨?_, ?_, ?_, ?_, ?_, hcall'⟩
      · rw [hlstnr, Env.modify_self]
      · rw [hgfreed, Function.update_self]
      · rw [hself.state]
        exact hst
      · unfold Env.idle
        rw [hroot, shutdown_graph_intern_self]
        rfl
      · have hfree : interns l (freeLog (env.lstnr l) l) = [] := by
          unfold freeLog
          split <;> rfl
        unfold interns at hfree hint ⊢
        have hself : internOf l (.intern l true) = some true := if_pos rfl
        rw [hlog, List.filterMap_append, hfree, hgi, List.nil_append, List.filterMap_cons_none rfl,
          List.filterMap_cons_some hself, hint]
    | keeps hno => exact absurd ⟨hgraph, ho.listener⟩ (hno g)

theorem claimed_of_idle (h : env.idle g = true) : (env.root.graphs g).claimed = [] := by
  unfold Env.idle at h
  simp only [Bool.and_eq_true, List.isEmpty_iff] at h
  exact h.2

theorem closed_state {acts : List Act} {o : Outcome} (hd : Does l (closeActs l (env.lstnr l) o ++ acts) env env')
    (hacts : statesOf acts = []) : (env'.lstnr l).state = .shuttingDown := by
  rw [hd.state, statesOf_append, hacts, List.append_nil]
  unfold closeActs
  simp [statesOf_cons, Act.state?]

theorem up_of_shutsDown (hp : Up l g env ∨ Waiting l g env ∨ Down l g env) (h : ShutsDown env l) : Up l g env := by
  have hst : (env.lstnr l).state ≠ .shutdown ∧ (env.lstnr l).state ≠ .shuttingDown := by
    rcases h with h | ⟨h, _⟩
    · rw [h]
      decide
    · exact ⟨(early_ne h).2.2, (early_ne h).2.1⟩
  rcases hp with hp | hp | hp
  · exact hp
  · exact absurd hp.state hst.1
  · rcases hp.state with h' | h'
    · exact absurd h' hst.2
    · exact absurd h' hst.1

theorem Up.moves (hu : Up l g env) (ho : Own l g env') (hc : (env'.root.graphs g).claimed = (env.root.graphs g).claimed)
    (h : Waiting l g env' ∨ Down l g env') : Moves l g env env' :=
  ⟨ho, hc, fun _ => Or.inr h, fun hw => absurd hw.state hu.state.2,
    fun hd => absurd (hu.graph.symm.trans hd.graph) (Option.some_ne_none g)⟩

theorem delayed_moves (hu : Up l g env) (ho : Own l g env) {o : Outcome} {env₁ : Env}
    (hd : Does l (closeActs l (env.lstnr l) o) env env₁) (hbusy : env₁.idle g = false) :
    Moves l g env (leaveDelayed env₁ l g) := by
  have hn : Near l g env env₁ := Near.does hd
  have hcall : .callShutdown l ∈ (leaveDelayed env₁ l g).log :=
    (leaveDelayed_suffix env₁ l g).subset (hd.call (by simp [closeActs]))
  have hset : (leaveDelayed env₁ l g).lstnr = (env₁.setState l .shutdown).lstnr := rfl
  refine hu.moves ?_ hn.claimed (Or.inl ?_)
  · have hc := Calm.setState env₁ l .shutdown
    have ho₁ := ho.near hn
    refine ⟨ho₁.listener, ho₁.only, ?_, ?_⟩
    · intro l' hl'
      rw [hset, (hc.kept l').graph]
      exact ho₁.alone l' hl'
    · rw [hset, (hc.kept l).free_after_event]
      exact ho₁.free_after_event
  · refine ⟨?_, hn.gfreed.trans hu.gfreed, ?_, hbusy, hn.news.interns.trans hu.interns, hcall⟩
    · rw [hset, Env.setState_self]
      exact hn.graph.trans hu.graph
    · rw [hset, Env.setState_self]

theorem reached_moves (hu : Up l g env) (ho : Own l g env) {acts : List Act} {o : Outcome} {env₁ : Env}
    (hd : Does l (closeActs l (env.lstnr l) o ++ acts) env env₁) (hacts : statesOf acts = [])
    (hidle : graphIdle env₁ l = true) : Moves l g env (shutdown_listener_intern env₁ l) := by
  have hn : Near l g env env₁ := Near.does hd
  have hgraph : (env₁.lstnr l).graph = some g := hn.graph.trans hu.graph
  have hi : env₁.idle g = true := by
    unfold graphIdle at hidle
    rwa [hgraph] at hidle
  obtain ⟨ho', hdown⟩ := intern_down (ho.near hn) hgraph hi (Or.inl (closed_state hd hacts))
    (hn.news.interns.trans hu.interns) (hd.call (by simp [closeActs]))
  refine hu.moves ho' ?_ (Or.inr hdown)
  rw [claimed_of_idle hdown.idle, claimed_of_idle (hn.idle hi)]

theorem shutdown_moves (ho : Own l g env) (hp : Up l g env ∨ Waiting l g env ∨ Down l g env) (l' : ListenerId)
    (o : Outcome) : Moves l g env (crtx_shutdown_listener env l' o) := by
  by_cases hl : l = l'
  · subst hl
    have h := shutdown_cases env l o
    generalize crtx_shutdown_listener env l o = env' at h ⊢
    cases h with
    | refused _ _ hr hd =>
      cases hr with
      | late => exact (still_apart hd rfl).moves ho
      | pending g' => exact (still_apart hd rfl).moves ho
      | running hlt =>
        refine early_moves ho hd hlt ?_
        simp [hd.state, statesOf_cons, Act.state?]
    | @delayed env₁ g' hdel _ hg hd hbusy =>
      have hu := up_of_shutsDown hp hdel.1
      obtain rfl : g = g' := Option.some.inj (hu.graph.symm.trans hg)
      exact delayed_moves hu ho hd hbusy
    | @reached env₁ acts _ hint hr hd hidle =>
      have hup : ∀ h : (env.lstnr l).state ≠ .shutdown, Up l g env := by
        intro h
        rcases hint with ⟨h', _⟩ | ⟨h', _⟩
        · exact absurd h' h
        · exact up_of_shutsDown hp h'
      cases hr with
      | @again g' hst hg =>
        -- no phase has this state with an idle graph
        exfalso
        have hi : env₁.idle g' = true := by
          unfold graphIdle at hidle
          rwa [(hd.calm.kept l).graph, hg] at hidle
        rcases hp with hp | hp | hp
        · exact hp.state.2 hst
        · obtain rfl : g = g' := Option.some.inj (hp.graph.symm.trans hg)
          exact Bool.false_ne_true (hp.busy.symm.trans ((hd.calm.idle g).mp hi).1)
        · rw [hp.graph] at hg
          cases hg
      | first hst hg => exact reached_moves (hup hst) ho hd rfl hidle
      | noGraph hst hg =>
        rw [(hup hst).graph] at hg
        cases hg
  · exact (Apart.shutdown env hl (ho.alone l' (Ne.symm hl)) o).moves ho

/-! ## The end of an event -/

theorem unlinked_apart {g' : GraphId} (hg : g ≠ g') (q : Entry) : Apart l g env (unlinked env g' q) := by
  refine Apart.of_graphs rfl (unlinked_other env g' q hg) (unlinked_listener env g' q) rfl ?_
  exact (NoNews.cons rfl (by simp) env.log).trans (NoNews.cons rfl (by simp) _)

theorem afterEvent_apart (ho : Own l g env) (g' : GraphId) (o : Outcome) : Apart l g env (afterEvent env g' o) := by
  have htouch : Apart l g env (env.emit (.touchGraph g')) := Apart.emit env rfl (by simp)
  cases hli : (env.root.graphs g').listener with
  | none =>
    rw [afterEvent_none hli]
    exact htouch
  | some l' =>
    have htouch' := htouch.trans (Apart.emit _ (rfl : internOf l (.touchLstnr l') = none) (by simp))
    rw [afterEvent_some hli]
    by_cases hl : l = l'
    · subst hl
      rw [ho.free_after_event]
      exact htouch'
    · split
      · refine htouch'.trans (Apart.shutdown _ hl ?_ o)
        exact ho.alone l' (Ne.symm hl)
      · exact htouch'

theorem end_apart (ho : Own l g env) (g' : GraphId) (o : Outcome) :
    Apart l g env (afterEvent ((env.emit (.touchGraph g')).unlock (.queue g')) g' o) := by
  have h : Apart l g env ((env.emit (.touchGraph g')).unlock (.queue g')) :=
    (Apart.emit env rfl (by simp)).trans (Apart.emit _ rfl (by simp))
  exact h.trans (afterEvent_apart (ho.near h.toNear) g' o)

theorem complete_apart (ho : Own l g env) {g' : GraphId} (hg : g ≠ g') (q : Entry) (o : Outcome) :
    Apart l g env (completePart env g' q o) := by
  rw [completePart_eq]
  have hun : Apart l g env (unlinked env g' q) := unlinked_apart hg q
  have ho₁ := ho.near hun.toNear
  generalize unlinked env g' q = env₁ at hun ho₁ ⊢
  have hcheck : Apart l g env₁ (checkDelayed env₁ g') := by
    cases hli : (env₁.root.graphs g').listener with
    | none =>
      rw [checkDelayed_none hli]
      exact Apart.refl env₁
    | some l' =>
      have hl : l ≠ l' := by
        rintro rfl
        exact ho₁.only g' (Ne.symm hg) hli
      have hlock : Apart l g env₁ ((env₁.emit (.touchLstnr l')).lock (.state l')) :=
        (Apart.emit env₁ rfl (by simp)).trans (Apart.emit _ rfl (by simp))
      rw [checkDelayed_some hli]
      split
      · exact hlock.trans (Apart.intern _ hl (ho₁.alone l' (Ne.symm hl)))
      · exact hlock.trans (Apart.emit _ rfl (by simp))
  exact (hun.trans hcheck).trans (end_apart (ho₁.near hcheck.toNear) g' o)

theorem complete_self (ho : Own l g env) (hp : Up l g env ∨ Waiting l g env) (q : Entry) (o : Outcome) :
    Own l g (completePart env g q o) ∧
    ((completePart env g q o).root.graphs g).claimed = (env.root.graphs g).claimed.erase q ∧
    (Up l g env → Up l g (completePart env g q o)) ∧
    (Waiting l g env → Waiting l g (completePart env g q o) ∨ Down l g (completePart env g q o)) := by
  rw [completePart_eq]
  have hclaimed := unlinked_claimed env g q
  have hlog : NoNews l env.log (unlinked env g q).log :=
    (NoNews.cons rfl (by simp) env.log).trans (NoNews.cons rfl (by simp) _)
  have hlstnr : (unlinked env g q).lstnr = env.lstnr := rfl
  have hgfreed : (unlinked env g q).gfreed = env.gfreed := rfl
  have ho₁ : Own l g (unlinked env g q) := ho.same hlstnr (unlinked_listener env g q)
  generalize unlinked env g q = env₁ at hclaimed hlog hlstnr hgfreed ho₁ ⊢
  have hlock : Apart l g env₁ ((env₁.emit (.touchLstnr l)).lock (.state l)) :=
    (Apart.emit env₁ rfl (by simp)).trans (Apart.emit _ rfl (by simp))
  rw [checkDelayed_some ho₁.listener]
  split
  · rename_i hend
    obtain ⟨hidle, hst⟩ := hend
    rw [hlstnr] at hst
    have hw : Waiting l g env := hp.resolve_left fun hu => hu.state.2 hst
    have hgraph : (env₁.lstnr l).graph = some g := by
      rw [hlstnr]
      exact hw.graph
    obtain ⟨ho₂, hdown⟩ := intern_down (ho₁.near hlock.toNear) hgraph hidle
      (Or.inr (by rw [hlock.state, hlstnr]; exact hst))
      ((hlock.news.interns.trans hlog.interns).trans hw.interns) (hlock.news.call (hlog.call hw.call))
    generalize shutdown_listener_intern ((env₁.emit (.touchLstnr l)).lock (.state l)) l = env₂ at ho₂ hdown ⊢
    have hend := end_apart ho₂ g o
    refine ⟨ho₂.near hend.toNear, ?_, fun hu => absurd hst hu.state.2, fun _ => Or.inr (hdown.apart hend)⟩
    rw [hend.claimed, claimed_of_idle hdown.idle, ← hclaimed, claimed_of_idle hidle]
  · rename_i hend
    have hunlock := hlock.trans (Apart.emit _ (rfl : internOf l (.unlock (.state l)) = none) (by simp))
    have ho₂ := ho₁.near hunlock.toNear
    change Own l g (((env₁.emit (.touchLstnr l)).lock (.state l)).unlock (.state l)) at ho₂
    change Apart l g env₁ (((env₁.emit (.touchLstnr l)).lock (.state l)).unlock (.state l)) at hunlock
    generalize ((env₁.emit (.touchLstnr l)).lock (.state l)).unlock (.state l) = env₂ at hunlock ho₂ ⊢
    have hrest := hunlock.trans (end_apart ho₂ g o)
    refine ⟨ho₁.near hrest.toNear, hrest.claimed.trans hclaimed, ?_, ?_⟩
    · intro hu
      have hu₁ : Up l g env₁ := hu.same hlstnr hgfreed hlog
      refine hu₁.near hrest.toNear ?_
      rw [hrest.state]
      exact hu₁.state
    · intro hw
      have hw₁ : Waiting l g env₁ := by
        refine hw.same hlstnr hgfreed hlog ?_
        rw [Bool.eq_false_iff]
        intro hi
        exact hend ⟨hi, by rw [hlstnr]; exact hw.state⟩
      exact Or.inl (hw₁.apart hrest)

/-! ## Runs -/

/-- `crtx_start_listener` is not called on `l` after a shutdown, and the loop of the event loop is left out. -/
def Allowed (l : ListenerId) (s : Sys) : Action → Prop
  | .start l' _ => l' = l → .callShutdown l ∉ s.env.log
  | .dispatch _ => False
  | _ => True

instance (l : ListenerId) (s : Sys) : ∀ a, Decidable (Allowed l s a)
  | .start l' _ => inferInstanceAs (Decidable (l' = l → .callShutdown l ∉ s.env.log))
  | .dispatch _ => inferInstanceAs (Decidable False)
  | .stop _ _ | .shutdown _ _ | .add _ | .process _ | .finish _ => inferInstanceAs (Decidable True)

/-- The step is the end of an event of `g`. -/
def CompletesOn (g : GraphId) (s : Sys) (a : Action) : Prop :=
  ∃ o f stack, a = .finish o ∧ s.stack = f :: stack ∧ f.graph = g

structure Inv (l : ListenerId) (g : GraphId) (s : Sys) : Prop where
  own : Own l g s.env
  phase : Up l g s.env ∨ Waiting l g s.env ∨ Down l g s.env
  claimed : (s.env.root.graphs g).claimed.Perm (entriesOf g s.stack)
  calls : ∀ f ∈ s.stack, f.loop = false

/-- What a step keeps, and where waiting may end. -/
structure Next (l : ListenerId) (g : GraphId) (s : Sys) (a : Action) (s' : Sys) : Prop where
  inv : Inv l g s'
  waiting : Waiting l g s.env → Waiting l g s'.env ∨ CompletesOn g s a ∧ Down l g s'.env

theorem Moves.next {s : Sys} (hi : Inv l g s) (hm : Moves l g s.env env') (a : Action) :
    Next l g s a { s with env := env' } := by
  refine ⟨⟨hm.own, ?_, ?_, hi.calls⟩, fun hw => Or.inl (hm.waiting hw)⟩
  · rcases hi.phase with h | h | h
    · exact hm.up h
    · exact Or.inr (Or.inl (hm.waiting h))
    · exact Or.inr (Or.inr (hm.down h))
  · rw [hm.claimed]
    exact hi.claimed

theorem claim_next {s : Sys} (hi : Inv l g s) (hf : s.env.gfreed g = false) {q : Entry}
    (hgr : env.root.graphs g = { s.env.root.graphs g with
      equeue := (s.env.root.graphs g).equeue.erase q, claimed := (s.env.root.graphs g).claimed ++ [q] })
    (hlstnr : env.lstnr = s.env.lstnr)
    (hlis : ∀ g', (env.root.graphs g').listener = (s.env.root.graphs g').listener)
    (hgfreed : env.gfreed = s.env.gfreed) (hnews : NoNews l s.env.log env.log) :
    Next l g s (.process g) ⟨env, ⟨g, q, false⟩ :: s.stack⟩ := by
  have hwaiting : Waiting l g s.env → Waiting l g env := by
    intro hw
    refine hw.same hlstnr hgfreed hnews ?_
    unfold Env.idle
    rw [hgr]
    simp
  refine ⟨⟨hi.own.same hlstnr hlis, ?_, ?_, ?_⟩, fun hw => Or.inl (hwaiting hw)⟩
  · rcases hi.phase with h | h | h
    · exact Or.inl (h.same hlstnr hgfreed hnews)
    · exact Or.inr (Or.inl (hwaiting h))
    · exact absurd (hf.symm.trans h.gfreed) Bool.false_ne_true
  · have hentries : entriesOf g (⟨g, q, false⟩ :: s.stack) = q :: entriesOf g s.stack := entriesOf_self rfl _
    rw [hgr, hentries]
    exact (List.perm_append_singleton q _).trans (hi.claimed.cons q)
  · exact List.forall_mem_cons.mpr ⟨rfl, hi.calls⟩

theorem enter_next {s : Sys} (hi : Inv l g s) {g' : GraphId} (hf : s.env.gfreed g' = false) :
    Next l g s (.process g') (enter s.env s.stack g' false) := by
  have hc := claim_cases s.env g'
  unfold enter
  generalize claimPart s.env g' = c at hc ⊢
  cases hc with
  | @nothing env' hroot hlstnr hgfreed _ hlog =>
    have ha : Apart l g s.env env' := by
      refine Apart.of_graphs hlstnr (by rw [hroot]) (fun _ => by rw [hroot]) hgfreed ?_
      rw [hlog]
      exact NoNews.append (by simp [internOf]) _
    exact (ha.moves hi.own).next hi _
  | @entry env' q hq hroot hlstnr hgfreed _ hlog =>
    dsimp only
    have hlis : ∀ g'', (env'.root.graphs g'').listener = (s.env.root.graphs g'').listener := by
      intro g''
      rw [hroot]
      by_cases h : g'' = g'
      · rw [h, Root.setGraph_self]
      · rw [Root.setGraph_other _ h]
    have hnews : NoNews l s.env.log env'.log := by
      rw [hlog]
      exact NoNews.append (by simp [internOf]) _
    have htouch : Apart l g env' (env'.emit (.touchGraph g')) := Apart.emit env' rfl (by simp)
    by_cases hg : g = g'
    · subst hg
      refine claim_next hi hf ?_ hlstnr hlis hgfreed (hnews.trans htouch.news)
      rw [Env.emit_root, hroot, Root.setGraph_self]
    · have hgr : env'.root.graphs g = s.env.root.graphs g := by rw [hroot, Root.setGraph_other _ hg]
      have ha : Apart l g s.env (env'.emit (.touchGraph g')) :=
        (Apart.of_graphs hlstnr hgr hlis hgfreed hnews).trans htouch
      obtain ⟨⟨ho, hp, hc, hcalls⟩, hw⟩ := (ha.moves hi.own).next hi (.process g')
      refine ⟨⟨ho, hp, ?_, ?_⟩, hw⟩
      · rw [entriesOf_other (Ne.symm hg)]
        exact hc
      · exact List.forall_mem_cons.mpr ⟨rfl, hcalls⟩

theorem finish_next {s : Sys} (hi : Inv l g s) {f : Frame} {stack : List Frame} (hs : s.stack = f :: stack)
    (o : Outcome) : Next l g s (.finish o) (complete s.env f stack o) := by
  have hcalls := hi.calls
  have hclaimed := hi.claimed
  rw [hs] at hcalls hclaimed
  obtain ⟨hloop, hcalls⟩ := List.forall_mem_cons.mp hcalls
  unfold complete
  dsimp only
  rw [hloop]
  by_cases hg : f.graph = g
  · rw [entriesOf_self hg] at hclaimed
    -- the graph is not freed while an event of it is processed
    have hp : Up l g s.env ∨ Waiting l g s.env := by
      rcases hi.phase with h | h | h
      · exact Or.inl h
      · exact Or.inr h
      · rw [claimed_of_idle h.idle] at hclaimed
        exact absurd hclaimed.symm.eq_nil (List.cons_ne_nil _ _)
    rw [hg]
    obtain ⟨ho, hc, hup, hwaiting⟩ := complete_self hi.own hp f.entry o
    refine ⟨⟨ho, ?_, ?_, hcalls⟩, ?_⟩
    · rcases hp with h | h
      · exact Or.inl (hup h)
      · exact Or.inr (hwaiting h)
    · rw [if_neg Bool.false_ne_true, hc]
      have := hclaimed.erase f.entry
      rwa [List.erase_cons_head] at this
    · intro hw
      exact (hwaiting hw).imp_right fun hd => ⟨⟨o, f, stack, rfl, hs, hg⟩, hd⟩
  · have ha := complete_apart hi.own (Ne.symm hg) f.entry o
    obtain ⟨⟨ho, hp, hc, _⟩, hw⟩ := (ha.moves hi.own).next hi (.finish o)
    refine ⟨⟨ho, hp, ?_, hcalls⟩, hw⟩
    rw [hs, entriesOf_other hg] at hc
    exact hc

theorem step_next {s s' : Sys} {a : Action} (hi : Inv l g s) (hok : Allowed l s a) (hs : step s a = some s') :
    Next l g s a s' := by
  obtain ⟨he, rfl⟩ := guarded_eq_some.mp hs
  cases a with
  | start l' o => exact (start_moves hi.own hok o).next hi _
  | stop l' o => exact (stop_moves hi.own l' o).next hi _
  | shutdown l' o => exact (shutdown_moves hi.own hi.phase l' o).next hi _
  | add p =>
    have hd : Does l [.add p] s.env (s.env.addEvent p) := (Does.refl s.env).snoc (.add p)
    exact ((still_apart hd rfl).moves hi.own).next hi _
  | process g' => exact enter_next hi he
  | dispatch g' => exact absurd hok not_false
  | finish o =>
    unfold apply
    dsimp only
    cases hst : s.stack with
    | nil => exact absurd hst he
    | cons f stack => exact finish_next hi hst o

/-! ## The result -/

/-- What is asked of a state that a run reaches. -/
structure Safe (l : ListenerId) (g : GraphId) (s : Sys) : Prop where
  idle : ∀ b ∈ interns l s.env.log, b = true
  once : (interns l s.env.log).length ≤ 1
  ends : .delayed l ∈ s.env.log → interns l s.env.log = [] →
    s.env.idle g = false ∧
    ∀ a s', Allowed l s a → step s a = some s' →
      (s'.env.idle g = true ↔ interns l s'.env.log = [true]) ∧ (s'.env.idle g = true → CompletesOn g s a)

theorem safe_of_inv {s : Sys} (hi : Inv l g s) : Safe l g s := by
  have hint : interns l s.env.log = [] ∨ interns l s.env.log = [true] := by
    rcases hi.phase with h | h | h
    · exact Or.inl h.interns
    · exact Or.inl h.interns
    · exact Or.inr h.interns
  refine ⟨?_, ?_, ?_⟩
  · intro b hb
    rcases hint with h | h
    · rw [h] at hb
      cases hb
    · rw [h] at hb
      exact List.mem_singleton.mp hb
  · rcases hint with h | h <;> simp [h]
  · intro hdel hnone
    have hw : Waiting l g s.env := by
      rcases hi.phase with h | h | h
      · exact absurd hdel h.delayed
      · exact h
      · rw [h.interns] at hnone
        cases hnone
    refine ⟨hw.busy, ?_⟩
    intro a s' hok hs
    rcases (step_next hi hok hs).waiting hw with h | ⟨hon, h⟩
    · simp [h.busy, h.interns]
    · exact ⟨iff_of_true h.idle h.interns, fun _ => hon⟩

/-- A delayed shutdown is safe, in every run from a listener that was not shut down before. -/
theorem delayed_shutdown_safe (l : ListenerId) (g : GraphId) (env : Env) (hown : Own l g env)
    (hup : Up l g env) (hclaimed : (env.root.graphs g).claimed = []) (as : List Action) (s : Sys)
    (hm : Meets step (Allowed l) as ⟨env, []⟩) (hr : run step as ⟨env, []⟩ = some s) : Safe l g s := by
  have h₀ : Inv l g ⟨env, []⟩ := ⟨hown, Or.inl hup, by rw [hclaimed]; rfl, by simp⟩
  exact safe_of_inv (run_keeps (fun _ _ _ hi hok hs => (step_next hi hok hs).inv) as _ s h₀ hm hr)

theorem busyListener_own : Own 0 0 Env.busyListener := by
  refine ⟨by decide, ?_, ?_, by decide⟩
  · intro g hg
    have hlis : (Env.busyListener.root.graphs g).listener = (Env.idleListener.root.graphs g).listener := by
      unfold Env.busyListener
      dsimp only
      rw [Env.setRoot_root, (addEvent_graphs _ 0 0 g).1, Root.setGraph_other _ hg]
    rw [hlis, idleListener_graphs hg]
    exact (Option.some_ne_none 0).symm
  · intro l hl
    change (Env.idleListener.lstnr l).graph ≠ some 0
    rw [idleListener_lstnr hl]
    exact (Option.some_ne_none 0).symm

/-- A task shuts its own listener down. The shutdown is delayed and ends with the event. -/
theorem delayed_shutdown_safe_from_task :
    ∃ s, run step [.process 0, .shutdown 0 .quiet, .finish .quiet] ⟨Env.busyListener, []⟩ = some s ∧
      .delayed 0 ∈ s.env.log ∧ interns 0 s.env.log = [true] ∧ Safe 0 0 s := by
  have hrun : (run step [.process 0, .shutdown 0 .quiet, .finish .quiet] ⟨Env.busyListener, []⟩).map
      (fun s => (decide (.delayed 0 ∈ s.env.log), interns 0 s.env.log)) = some (true, [true]) := by decide
  obtain ⟨s, hr, hs⟩ := Option.map_eq_some_iff.mp hrun
  obtain ⟨hd, hi⟩ := Prod.mk.injEq _ _ _ _ ▸ hs
  refine ⟨s, hr, of_decide_eq_true hd, hi, ?_⟩
  refine delayed_shutdown_safe 0 0 Env.busyListener busyListener_own ?_ (by decide) _ s (by decide) hr
  exact ⟨by decide, by decide, by decide, by decide, by decide⟩

end Libcortex.DelayedShutdown
