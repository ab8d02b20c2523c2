import Libcortex.Nesting

/-!
# Use after free

`shutdown_listener_intern` frees the graph and may release the listener. The functions that process
events go on to use both: `crtx_process_one_event` ends a delayed shutdown itself and then unlocks
the mutex of the graph, and the loop of `evloop_ctrl_pipe_handler` asks the graph for its next event.
-/

open Libcortex.Lib Libcortex.Nesting

namespace Libcortex.UseAfterFree

/-! ## What the log says -/

/-- The processing of events uses something that was freed. -/
def Stale (log : List Ev) : Ev → Prop
  | .touchGraph g => .freeGraph g ∈ log
  | .touchLstnr l => .freeLstnr l ∈ log
  | _ => False

def Clean : List Ev → Prop
  | [] => True
  | ev :: log => ¬ Stale log ev ∧ Clean log

instance (log : List Ev) : ∀ ev, Decidable (Stale log ev)
  | .touchGraph g => inferInstanceAs (Decidable (.freeGraph g ∈ log))
  | .touchLstnr l => inferInstanceAs (Decidable (.freeLstnr l ∈ log))
  | .lock _ | .unlock _ | .freeGraph _ | .freeLstnr _ | .setState _ _ | .setup _ | .callShutdown _ | .delayed _
  | .intern _ _ => inferInstanceAs (Decidable False)

instance decidableClean : ∀ log, Decidable (Clean log)
  | [] => inferInstanceAs (Decidable True)
  | _ :: log => @instDecidableAnd _ _ _ (decidableClean log)

/-- Neither a use nor a free. -/
def Plain : Ev → Prop
  | .touchGraph _ | .touchLstnr _ | .freeGraph _ | .freeLstnr _ => False
  | _ => True

theorem Plain.not_stale {ev : Ev} (h : Plain ev) (log : List Ev) : ¬ Stale log ev := by
  cases ev <;> simp_all [Plain, Stale]

theorem clean_append {new log : List Ev} (h : ∀ ev ∈ new, Plain ev) (hc : Clean log) : Clean (new ++ log) := by
  induction new with
  | nil => exact hc
  | cons ev new ih =>
    refine ⟨(h ev (List.mem_cons_self ..)).not_stale _, ?_⟩
    exact ih fun ev' h' => h ev' (List.mem_cons_of_mem _ h')

/-! ## The invariant -/

/-- Whatever is used is still there: the graphs whose events are processed, their listeners, and the graphs that the
loop looks up. -/
structure Inv (env : Env) (stack : List Frame) : Prop where
  freedGraph : ∀ g, .freeGraph g ∈ env.log → env.gfreed g = true
  freedLstnr : ∀ l, .freeLstnr l ∈ env.log → env.lfreed l = true
  claimed : ∀ g, env.gfreed g = false → (env.root.graphs g).claimed.Perm (entriesOf g stack)
  live : ∀ f ∈ stack, env.gfreed f.graph = false
  named : ∀ g l, env.gfreed g = false → (env.root.graphs g).listener = some l → env.lfreed l = false
  registered : ∀ g, some g ∈ env.root.registry → env.gfreed g = false
  once : ∀ g, env.root.registry.count (some g) ≤ 1
  clean : Clean env.log

variable {env env' : Env} {stack : List Frame} {l : ListenerId} {g : GraphId}

/-- Nothing is freed and nothing is used. -/
structure Keeps (env env' : Env) : Prop where
  listener : ∀ g, (env'.root.graphs g).listener = (env.root.graphs g).listener
  registry : env'.root.registry = env.root.registry
  gfreed : env'.gfreed = env.gfreed
  lfreed : env'.lfreed = env.lfreed
  log : ∃ new, env'.log = new ++ env.log ∧ ∀ ev ∈ new, Plain ev

theorem Inv.relist {stack' : List Frame} (hi : Inv env stack) (hk : Keeps env env')
    (hc : ∀ g, env.gfreed g = false → (env'.root.graphs g).claimed.Perm (entriesOf g stack'))
    (hlive : ∀ f ∈ stack', env.gfreed f.graph = false) : Inv env' stack' := by
  obtain ⟨new, hn, hp⟩ := hk.log
  constructor
  · intro g hg
    rw [hn, List.mem_append] at hg
    rw [hk.gfreed]
    exact hi.freedGraph g (hg.resolve_left fun h => hp _ h)
  · intro l hl
    rw [hn, List.mem_append] at hl
    rw [hk.lfreed]
    exact hi.freedLstnr l (hl.resolve_left fun h => hp _ h)
  · rw [hk.gfreed]
    exact hc
  · rw [hk.gfreed]
    exact hlive
  · intro g l hg hl
    rw [hk.gfreed] at hg
    rw [hk.listener] at hl
    rw [hk.lfreed]
    exact hi.named g l hg hl
  · rw [hk.registry, hk.gfreed]
    exact hi.registered
  · rw [hk.registry]
    exact hi.once
  · rw [hn]
    exact clean_append hp hi.clean

theorem Inv.keeps (hi : Inv env stack) (hk : Keeps env env')
    (hc : ∀ g, (env'.root.graphs g).claimed = (env.root.graphs g).claimed) : Inv env' stack := by
  refine hi.relist hk ?_ hi.live
  intro g hg
  rw [hc]
  exact hi.claimed g hg

theorem Inv.does {acts : List Act} (hi : Inv env stack) (hd : Does l acts env env') : Inv env' stack := by
  have hc := hd.calm
  obtain ⟨new, hn, hh⟩ := hd.log
  refine hi.keeps ⟨hc.listener, hc.registry, hc.gfreed, hc.lfreed, new, hn, ?_⟩ hc.claimed
  intro ev hev
  have := hh ev hev
  cases ev <;> simp_all [Harmless, Plain]

theorem Inv.emit (hi : Inv env stack) {ev : Ev} (h : Plain ev) : Inv (env.emit ev) stack :=
  hi.keeps ⟨fun _ => rfl, rfl, rfl, rfl, [ev], rfl, by simpa using h⟩ fun _ => rfl

theorem Inv.leaveDelayed (hi : Inv env stack) (l : ListenerId) (g : GraphId) : Inv (leaveDelayed env l g) stack := by
  refine hi.keeps ⟨fun _ => rfl, rfl, rfl, rfl, ?_⟩ fun _ => rfl
  refine ⟨[.unlock (.state l), .setState l .shutdown, .unlock (.queue g), .delayed l, .lock (.queue g)], rfl, ?_⟩
  simp [Plain]

theorem Inv.touch (hi : Inv env stack) {ev : Ev} (hs : ¬ Stale env.log ev) (hg : ∀ g, ev ≠ .freeGraph g)
    (hl : ∀ l, ev ≠ .freeLstnr l) : Inv (env.emit ev) stack := by
  refine { hi with freedGraph := ?_, freedLstnr := ?_, clean := ⟨hs, hi.clean⟩ }
  · intro g h
    exact hi.freedGraph g ((List.mem_cons.mp h).resolve_left (hg g).symm)
  · intro l h
    exact hi.freedLstnr l ((List.mem_cons.mp h).resolve_left (hl l).symm)

theorem Inv.touchGraph (hi : Inv env stack) (hg : env.gfreed g = false) : Inv (env.emit (.touchGraph g)) stack := by
  refine hi.touch ?_ (by simp) (by simp)
  intro h
  exact Bool.false_ne_true (hg.symm.trans (hi.freedGraph g h))

theorem Inv.touchLstnr (hi : Inv env stack) (hl : env.lfreed l = false) : Inv (env.emit (.touchLstnr l)) stack := by
  refine hi.touch ?_ (by simp) (by simp)
  intro h
  exact Bool.false_ne_true (hl.symm.trans (hi.freedLstnr l h))

/-! ## Freeing -/

/-- If the listener is released, no graph that stays refers to it. -/
def Leaves (env : Env) (l : ListenerId) : Prop :=
  (env.lstnr l).free_cb = some true →
    ∀ g, env.gfreed g = false → (env.root.graphs g).listener = some l → (env.lstnr l).graph = some g

theorem freeLog_clean {b : Listener} {log : List Ev} (h : Clean log) : Clean (freeLog b l ++ log) := by
  unfold freeLog
  split
  · exact ⟨not_false, h⟩
  · exact h

theorem mem_freeLog {b : Listener} {ev : Ev} (h : ev ∈ freeLog b l) : ev = .freeLstnr l ∧ b.free_cb = some true := by
  unfold freeLog at h
  split at h
  · rename_i hf
    exact ⟨List.mem_singleton.mp h, hf⟩
  · cases h

/-- Freed objects are marked, and a released listener is referred to by no graph that stays. -/
structure Marked (env : Env) (l : ListenerId) (env' : Env) : Prop where
  freedGraph : ∀ g, .freeGraph g ∈ env'.log → .freeGraph g ∈ env.log ∨ env'.gfreed g = true
  freedLstnr : ∀ l', .freeLstnr l' ∈ env'.log → .freeLstnr l' ∈ env.log ∨ env'.lfreed l' = true
  lfreed : ∀ l', env.lfreed l' = true → env'.lfreed l' = true
  named : Leaves env l → ∀ g l', env.gfreed g = false → ¬ Owns env l g → (env.root.graphs g).listener = some l' →
    env.lfreed l' = false → env'.lfreed l' = false
  clean : Clean env.log → Clean env'.log

theorem intern_marked (env : Env) (l : ListenerId) : Marked env l (shutdown_listener_intern env l) := by
  have hc := intern_cases env l
  generalize shutdown_listener_intern env l = env' at hc ⊢
  obtain ⟨new, hlog, hnew, hlfreed⟩ : ∃ new, env'.log = freeLog (env.lstnr l) l ++ (new ++ env.log) ∧
      (∀ ev ∈ new, (∃ b, ev = .intern l b) ∨ ∃ g, ev = .freeGraph g ∧ env'.gfreed g = true) ∧
      ∀ l', env'.lfreed l' = true ↔ env.lfreed l' = true ∨ l' = l ∧ (env.lstnr l).free_cb = some true := by
    cases hc with
    | @frees g _ _ _ _ hgfreed hlfreed hlog =>
      exact ⟨[.freeGraph g, .intern l (graphIdle env l)], hlog, by simp [hgfreed], hlfreed⟩
    | keeps _ _ _ _ hlfreed hlog => exact ⟨[.intern l (graphIdle env l)], hlog, by simp, hlfreed⟩
  constructor
  · intro g hg
    rw [hlog, List.mem_append, List.mem_append] at hg
    rcases hg with hg | hg | hg
    · cases (mem_freeLog hg).1
    · rcases hnew _ hg with ⟨_, h⟩ | ⟨_, h, hf⟩
      · cases h
      · cases h
        exact Or.inr hf
    · exact Or.inl hg
  · intro l' hl'
    rw [hlog, List.mem_append, List.mem_append] at hl'
    rcases hl' with hl' | hl' | hl'
    · obtain ⟨heq, hcb⟩ := mem_freeLog hl'
      cases heq
      exact Or.inr ((hlfreed _).mpr (Or.inr ⟨rfl, hcb⟩))
    · rcases hnew _ hl' with ⟨_, h⟩ | ⟨_, h, _⟩ <;> cases h
    · exact Or.inl hl'
  · exact fun l' h => (hlfreed l').mpr (Or.inl h)
  · intro hleaves g l' hg hno hl' hlive
    rw [Bool.eq_false_iff]
    intro h
    rcases (hlfreed l').mp h with h | ⟨rfl, hcb⟩
    · exact Bool.false_ne_true (hlive.symm.trans h)
    · exact hno ⟨hleaves hcb g hg hl', hl'⟩
  · intro hclean
    rw [hlog]
    refine freeLog_clean ?_
    clear hlog
    induction new with
    | nil => exact hclean
    | cons ev new ih =>
      refine ⟨?_, ih fun ev' h' => hnew ev' (List.mem_cons_of_mem _ h')⟩
      rcases hnew ev (List.mem_cons_self ..) with ⟨_, rfl⟩ | ⟨_, rfl, _⟩ <;> exact not_false

theorem no_frames {stack : List Frame} (hi : Inv env stack) (hnil : (env.root.graphs g).claimed = []) :
    ∀ f ∈ stack, f.graph ≠ g := by
  intro f hf hg
  have hlive := hi.live f hf
  rw [hg] at hlive
  have hclaimed := hi.claimed g hlive
  rw [hnil] at hclaimed
  exact entriesOf_eq_nil hclaimed.symm.eq_nil f hf hg

theorem registered_intern (hi : Inv env stack) {g g' : GraphId}
    (h : some g' ∈ (shutdown_graph_intern env.root g).registry) : g' ≠ g ∧ env.gfreed g' = false := by
  have hcount := List.count_pos_iff.mpr h
  have hreg : (shutdown_graph_intern env.root g).registry.count (some g') =
      env.root.registry.count (some g') - if g' = g then 1 else 0 := count_unregister env.root g g'
  rw [hreg] at hcount
  refine ⟨?_, hi.registered g' (List.count_pos_iff.mp (by omega))⟩
  rintro rfl
  have := hi.once g'
  rw [if_pos rfl] at hcount
  omega

/-- No event of the graph that goes with the listener is being processed. -/
def Unused (env : Env) (l : ListenerId) : Prop := ∀ g, Owns env l g → (env.root.graphs g).claimed = []

theorem unused_of_idle (h : graphIdle env l = true) : Unused env l := by
  intro g ho
  unfold graphIdle at h
  rw [ho.1] at h
  unfold Env.idle at h
  simp only [Bool.and_eq_true, List.isEmpty_iff] at h
  exact h.2

theorem Inv.intern (hi : Inv env stack) (hunused : Unused env l) (hleaves : Leaves env l) :
    Inv (shutdown_listener_intern env l) stack := by
  have hlis := intern_listener env l
  have hm := intern_marked env l
  have hc := intern_cases env l
  generalize shutdown_listener_intern env l = env' at hlis hm hc ⊢
  have hfreedLstnr : ∀ l', .freeLstnr l' ∈ env'.log → env'.lfreed l' = true := by
    intro l' hl'
    exact (hm.freedLstnr l' hl').elim (fun h => hm.lfreed l' (hi.freedLstnr l' h)) id
  cases hc with
  | @frees g _ ho hroot _ hgfreed =>
    have hframes : ∀ f ∈ stack, f.graph ≠ g := no_frames hi (hunused g ho)
    have hother : ∀ g', g' ≠ g → env'.gfreed g' = env.gfreed g' := by
      intro g' hne
      rw [hgfreed, Function.update_of_ne hne]
    have hlive : ∀ g', env'.gfreed g' = false → g' ≠ g := by
      rintro g' hg' rfl
      rw [hgfreed, Function.update_self] at hg'
      cases hg'
    refine ⟨?_, hfreedLstnr, ?_, ?_, ?_, ?_, ?_, hm.clean hi.clean⟩
    · intro g' hg'
      refine (hm.freedGraph g' hg').elim (fun h => ?_) id
      by_cases hne : g' = g
      · rw [hne, hgfreed, Function.update_self]
      · rw [hother g' hne]
        exact hi.freedGraph g' h
    · intro g' hg'
      have hne := hlive g' hg'
      rw [hother g' hne] at hg'
      rw [hroot, shutdown_graph_intern_other _ hne]
      exact hi.claimed g' hg'
    · intro f hf
      rw [hother _ (hframes f hf)]
      exact hi.live f hf
    · intro g' l' hg' hl'
      have hne := hlive g' hg'
      rw [hother g' hne] at hg'
      rw [hlis] at hl'
      refine hm.named hleaves g' l' hg' ?_ hl' (hi.named g' l' hg' hl')
      intro h
      exact hne (Option.some.inj (h.1.symm.trans ho.1))
    · intro g' hg'
      rw [hroot] at hg'
      obtain ⟨hne, h⟩ := registered_intern hi hg'
      rw [hother g' hne]
      exact h
    · intro g'
      have := hi.once g'
      have hreg : env'.root.registry.count (some g') = env.root.registry.count (some g') - if g' = g then 1 else 0 := by
        rw [hroot]
        exact count_unregister env.root g g'
      omega
  | keeps hno hroot _ hgfreed =>
    refine ⟨?_, hfreedLstnr, ?_, ?_, ?_, ?_, ?_, hm.clean hi.clean⟩
    · intro g' hg'
      refine (hm.freedGraph g' hg').elim (fun h => ?_) id
      rw [hgfreed]
      exact hi.freedGraph g' h
    · rw [hgfreed, hroot]
      exact hi.claimed
    · rw [hgfreed]
      exact hi.live
    · intro g' l' hg' hl'
      rw [hgfreed] at hg'
      rw [hlis] at hl'
      exact hm.named hleaves g' l' hg' (hno g') hl' (hi.named g' l' hg' hl')
    · rw [hroot, hgfreed]
      exact hi.registered
    · rw [hroot]
      exact hi.once

theorem Leaves.calm {adds : List (GraphId × EventId)} (h : Leaves env l) (hc : Calm adds env env') : Leaves env' l := by
  intro hcb g hg hl
  rw [(hc.kept l).free_cb] at hcb
  rw [hc.gfreed] at hg
  rw [hc.listener] at hl
  rw [(hc.kept l).graph]
  exact h hcb g hg hl

theorem Inv.shutdown (hi : Inv env stack) {o : Outcome} (h : Interns env l o → Leaves env l) :
    Inv (crtx_shutdown_listener env l o) stack := by
  have hc := shutdown_cases env l o
  generalize crtx_shutdown_listener env l o = env' at hc ⊢
  cases hc with
  | refused _ _ _ hd => exact hi.does hd
  | delayed _ _ _ hd _ => exact (hi.does hd).leaveDelayed l _
  | reached _ hint _ hd hidle => exact (hi.does hd).intern (unused_of_idle hidle) ((h hint).calm hd.calm)

theorem intern_gfreed (h : (env.lstnr l).graph ≠ some g) :
    (shutdown_listener_intern env l).gfreed g = env.gfreed g := by
  have hc := intern_cases env l
  generalize shutdown_listener_intern env l = env' at hc ⊢
  cases hc with
  | @frees g' _ ho _ _ hgfreed =>
    have hne : g ≠ g' := by
      rintro rfl
      exact h ho.1
    rw [hgfreed, Function.update_of_ne hne]
  | keeps _ _ _ hgfreed => rw [hgfreed]

theorem shutdown_gfreed {o : Outcome} (h : Interns env l o → (env.lstnr l).graph ≠ some g) :
    (crtx_shutdown_listener env l o).gfreed g = env.gfreed g := by
  have hc := shutdown_cases env l o
  generalize crtx_shutdown_listener env l o = env' at hc ⊢
  cases hc with
  | refused _ _ _ hd => rw [hd.calm.gfreed]
  | delayed _ _ _ hd _ => exact congrFun hd.calm.gfreed g
  | reached _ hint _ hd _ =>
    rw [intern_gfreed, hd.calm.gfreed]
    rw [(hd.calm.kept l).graph]
    exact h hint

/-! ## Processing -/

theorem Inv.enter (hi : Inv env stack) (hg : env.gfreed g = false) (loop : Bool) :
    Inv (enter env stack g loop).env (enter env stack g loop).stack := by
  have htouch := hi.touchGraph hg
  have hc := claim_cases env g
  unfold Nesting.enter
  generalize claimPart env g = c at hc ⊢
  cases hc with
  | @nothing env' hroot _ hgfreed hlfreed hlog =>
    have hr : env'.root = (env.emit (.touchGraph g)).root := hroot
    refine htouch.keeps ⟨fun _ => by rw [hr], by rw [hr], hgfreed, hlfreed, ?_⟩ fun _ => by rw [hr]
    exact ⟨[.unlock (.queue g), .lock (.queue g)], hlog, by simp [Plain]⟩
  | @entry env' q _ hroot _ hgfreed hlfreed hlog =>
    have hi' : Inv env' (⟨g, q, loop⟩ :: stack) := by
      refine htouch.relist ⟨?_, ?_, hgfreed, hlfreed, ?_⟩ ?_ (List.forall_mem_cons.mpr ⟨hg, hi.live⟩)
      · intro g'
        rw [hroot]
        by_cases h : g' = g
        · rw [h, Root.setGraph_self]
          rfl
        · rw [Root.setGraph_other _ h]
          rfl
      · rw [hroot]
        rfl
      · exact ⟨[.unlock (.queue g), .lock (.queue g)], hlog, by simp [Plain]⟩
      · intro g' hg'
        rw [hroot]
        by_cases h : g' = g
        · subst h
          have hentries : entriesOf g' (⟨g', q, loop⟩ :: stack) = q :: entriesOf g' stack := entriesOf_self rfl _
          rw [Root.setGraph_self, hentries]
          exact (List.perm_append_singleton q _).trans ((hi.claimed g' hg').cons q)
        · rw [Root.setGraph_other _ h, entriesOf_other (Ne.symm h)]
          exact hi.claimed g' hg'
    exact hi'.touchGraph (by rw [hgfreed]; exact hg)

theorem Inv.unlinked {f : Frame} (hi : Inv env (f :: stack)) : Inv (unlinked env f.graph f.entry) stack := by
  obtain ⟨hlive, hrest⟩ := List.forall_mem_cons.mp hi.live
  have htouch := hi.touchGraph hlive
  refine htouch.relist ⟨unlinked_listener env f.graph f.entry, rfl, rfl, rfl, ?_⟩ ?_ hrest
  · exact ⟨[.lock (.queue f.graph)], rfl, by simp [Plain]⟩
  · intro g hg
    have hclaimed := hi.claimed g hg
    by_cases h : f.graph = g
    · subst h
      rw [entriesOf_self rfl] at hclaimed
      have := hclaimed.erase f.entry
      rw [List.erase_cons_head] at this
      rw [unlinked_claimed]
      exact this
    · rw [entriesOf_other h] at hclaimed
      rw [unlinked_other env f.graph f.entry (Ne.symm h)]
      exact hclaimed

/-! ## The end of an event -/

/-- `env` is the state once the entry is off its list. The end of a delayed shutdown must free neither the graph nor
its listener, nor a graph whose events are being processed, and `free_after_event` not the graph of the loop. -/
def EndSafe (env : Env) (g : GraphId) (loop : Bool) (o : Outcome) : Prop :=
  ∀ l, (env.root.graphs g).listener = some l →
    if env.idle g ∧ (env.lstnr l).state = .shutdown then
      (env.lstnr l).graph ≠ some g ∧ (env.lstnr l).free_cb ≠ some true ∧ Unused env l
    else (env.lstnr l).free_after_event = true → Interns env l o →
      Leaves env l ∧ (loop = true → (env.lstnr l).graph ≠ some g)

theorem Inv.afterEvent (hi : Inv env stack) (hg : env.gfreed g = false) (hl : (env.root.graphs g).listener = some l)
    {loop : Bool} {o : Outcome} (h : (env.lstnr l).free_after_event = true → Interns env l o →
      Leaves env l ∧ (loop = true → (env.lstnr l).graph ≠ some g)) :
    Inv (afterEvent env g o) stack ∧ (loop = true → (afterEvent env g o).gfreed g = false) := by
  have htouch := (hi.touchGraph hg).touchLstnr (hi.named g l hg hl)
  rw [afterEvent_some hl]
  split
  · rename_i hfree
    refine ⟨htouch.shutdown fun hint => (h hfree hint).1, ?_⟩
    intro hloop
    have hgraph : Interns ((env.emit (.touchGraph g)).emit (.touchLstnr l)) l o → (env.lstnr l).graph ≠ some g :=
      fun hint => (h hfree hint).2 hloop
    exact (shutdown_gfreed hgraph).trans hg
  · exact ⟨htouch, fun _ => hg⟩

theorem Inv.finish (hi : Inv env stack) (hg : env.gfreed g = false) {loop : Bool} {o : Outcome}
    (h : EndSafe env g loop o) :
    Inv (Libcortex.afterEvent (((checkDelayed env g).emit (.touchGraph g)).unlock (.queue g)) g o) stack ∧
    (loop = true →
      (Libcortex.afterEvent (((checkDelayed env g).emit (.touchGraph g)).unlock (.queue g)) g o).gfreed g = false) := by
  cases hl : (env.root.graphs g).listener with
  | none =>
    have hend : Inv ((env.emit (.touchGraph g)).unlock (.queue g)) stack := (hi.touchGraph hg).emit trivial
    have hl₁ : (((env.emit (.touchGraph g)).unlock (.queue g)).root.graphs g).listener = none := hl
    rw [checkDelayed_none hl, afterEvent_none hl₁]
    exact ⟨hend.touchGraph hg, fun _ => hg⟩
  | some l =>
    have hlock : Inv ((env.emit (.touchLstnr l)).lock (.state l)) stack :=
      (hi.touchLstnr (hi.named g l hg hl)).emit trivial
    have hsafe := h l hl
    rw [checkDelayed_some hl]
    split
    · rename_i hend
      rw [if_pos hend] at hsafe
      obtain ⟨hgraph, hcb, hunused⟩ := hsafe
      have hint := hlock.intern hunused fun h => absurd h hcb
      have hself := intern_self ((env.emit (.touchLstnr l)).lock (.state l)) l
      have hlis := intern_listener ((env.emit (.touchLstnr l)).lock (.state l)) l g
      have hgf : (shutdown_listener_intern ((env.emit (.touchLstnr l)).lock (.state l)) l).gfreed g = false := by
        rw [intern_gfreed]
        · exact hg
        · exact hgraph
      generalize shutdown_listener_intern ((env.emit (.touchLstnr l)).lock (.state l)) l = env₁
        at hint hself hlis hgf ⊢
      have hend₁ : Inv ((env₁.emit (.touchGraph g)).unlock (.queue g)) stack := (hint.touchGraph hgf).emit trivial
      refine hend₁.afterEvent hgf (hlis.trans hl) ?_
      refine fun _ _ => ⟨?_, ?_⟩
      · intro h
        exact absurd (hself.free_cb.symm.trans h) hcb
      · exact fun _ h => hgraph (hself.graph g h)
    · rename_i hend
      rw [if_neg hend] at hsafe
      have hunlock : Inv (((env.emit (.touchLstnr l)).lock (.state l)).unlock (.state l)) stack := hlock.emit trivial
      have hend₁ : Inv (((((env.emit (.touchLstnr l)).lock (.state l)).unlock (.state l)).emit (.touchGraph g)).unlock
          (.queue g)) stack := (hunlock.touchGraph hg).emit trivial
      exact hend₁.afterEvent hg hl hsafe

/-! ## Runs -/

/-- A step does not free what the processing of events goes on to use. -/
def Safe (s : Sys) : Action → Prop
  | .shutdown l o => Interns s.env l o → Leaves s.env l
  | .finish o => ∀ f ∈ s.stack.head?, EndSafe (unlinked s.env f.graph f.entry) f.graph f.loop o
  | _ => True

theorem step_inv (s : Sys) (a : Action) (hi : Inv s.env s.stack) (hok : Safe s a) (he : enabled s a) :
    Inv (apply s a).env (apply s a).stack := by
  cases a with
  | start l o =>
    rcases start_does s.env l o with ⟨_, hd⟩ | ⟨_, _, _, _, _, hd⟩
    · exact hi.does hd
    · exact hi.does hd
  | stop l o =>
    rcases stop_does s.env l o with ⟨_, hd⟩ | ⟨_, _, hd⟩ | ⟨_, _, hd⟩
    · exact hi.does hd
    · exact hi.does hd
    · exact hi.does hd
  | shutdown l o => exact hi.shutdown hok
  | add p => exact hi.does (l := 0) ((Does.refl s.env).snoc (.add p))
  | process g => exact hi.enter he false
  | dispatch g =>
    unfold apply
    dsimp only
    split
    · rename_i hmem
      exact hi.enter (hi.registered g hmem) true
    · exact hi
  | finish o =>
    unfold apply
    dsimp only
    cases hst : s.stack with
    | nil => exact absurd hst he
    | cons f stack =>
      rw [hst] at hi
      have hlive := hi.live f (List.mem_cons_self ..)
      obtain ⟨hi', hg⟩ := hi.unlinked.finish hlive (hok f (by rw [hst]; rfl))
      unfold complete
      dsimp only
      rw [completePart_eq]
      split
      · rename_i hloop
        exact hi'.enter (hg hloop) true
      · exact hi'

/-- Nobody processes an event yet, nothing was freed, and every graph is registered at most once. -/
structure Ready (env : Env) : Prop where
  log : env.log = []
  gfreed : ∀ g, env.gfreed g = false
  lfreed : ∀ l, env.lfreed l = false
  claimed : ∀ g, (env.root.graphs g).claimed = []
  once : ∀ g, env.root.registry.count (some g) ≤ 1

theorem ready_inv (h : Ready env) : Inv env [] := by
  constructor
  · simp [h.log]
  · simp [h.log]
  · intro g _
    rw [h.claimed]
    rfl
  · simp
  · exact fun _ l _ _ => h.lfreed l
  · exact fun g _ => h.gfreed g
  · exact h.once
  · rw [h.log]
    trivial

/-- In every run whose steps are all safe, no freed graph or listener is used by the processing of events. -/
theorem clean_if_safe (env : Env) (hready : Ready env) (as : List Action) (s : Sys)
    (hm : Meets step Safe as ⟨env, []⟩) (hr : run step as ⟨env, []⟩ = some s) : Clean s.env.log := by
  have hkeep : ∀ s a, Inv s.env s.stack → Safe s a → enabled s a → Inv (apply s a).env (apply s a).stack := step_inv
  exact (guarded_keeps hkeep as ⟨env, []⟩ s (ready_inv hready) hm hr).clean

/-! ## Two runs -/

/-- A simpler condition: no listener is released, no event ends a delayed shutdown, and `free_after_event` is unset. -/
def Careful (s : Sys) : Action → Prop
  | .shutdown l _ => (s.env.lstnr l).free_cb ≠ some true
  | .finish _ => ∀ f ∈ s.stack.head?, ∀ l ∈ (s.env.root.graphs f.graph).listener,
    (s.env.lstnr l).state ≠ .shutdown ∧ (s.env.lstnr l).free_after_event = false
  | _ => True

instance (s : Sys) : ∀ a, Decidable (Careful s a)
  | .shutdown l _ => inferInstanceAs (Decidable ((s.env.lstnr l).free_cb ≠ some true))
  | .finish _ => inferInstanceAs (Decidable (∀ f ∈ s.stack.head?, ∀ l ∈ (s.env.root.graphs f.graph).listener,
      (s.env.lstnr l).state ≠ .shutdown ∧ (s.env.lstnr l).free_after_event = false))
  | .start _ _ | .stop _ _ | .add _ | .process _ | .dispatch _ => inferInstanceAs (Decidable True)

theorem safe_of_careful (s : Sys) (a : Action) (h : Careful s a) : Safe s a := by
  cases a with
  | shutdown l o => exact fun _ hcb => absurd hcb h
  | finish o =>
    intro f hf l hl
    rw [unlinked_listener] at hl
    obtain ⟨hst, hfree⟩ := h f hf l hl
    rw [if_neg fun h => hst h.2]
    intro hfree'
    exact absurd (hfree.symm.trans hfree') Bool.false_ne_true
  | start | stop | add | process | dispatch => trivial

theorem busyListener_ready : Ready Env.busyListener := by
  refine ⟨rfl, fun _ => rfl, fun _ => rfl, ?_, ?_⟩
  · intro g
    have hclaimed : (Env.busyListener.root.graphs g).claimed = (Env.idleListener.root.graphs g).claimed := by
      unfold Env.busyListener
      dsimp only
      rw [Env.setRoot_root, (addEvent_graphs _ 0 0 g).2.2.1]
      by_cases hg : g = 0
      · rw [hg, Root.setGraph_self]
      · rw [Root.setGraph_other _ hg]
    rw [hclaimed]
    by_cases hg : g = 0
    · rw [hg]
      decide
    · rw [idleListener_graphs hg]
      rfl
  · intro g
    have hreg : Env.busyListener.root.registry = [some 0] := by decide
    rw [hreg]
    exact List.count_le_length

/-- The event loop processes the event, and then the listener is shut down. -/
theorem clean_shutdown_after_loop :
    ∃ s, run step [.dispatch 0, .finish .quiet, .shutdown 0 .quiet] ⟨Env.busyListener, []⟩ = some s ∧
      .freeGraph 0 ∈ s.env.log ∧ Clean s.env.log := by
  have hrun : (run step [.dispatch 0, .finish .quiet, .shutdown 0 .quiet] ⟨Env.busyListener, []⟩).map
      (fun s => decide (.freeGraph 0 ∈ s.env.log)) = some true := by decide
  obtain ⟨s, hr, hs⟩ := Option.map_eq_some_iff.mp hrun
  refine ⟨s, hr, of_decide_eq_true hs, clean_if_safe Env.busyListener busyListener_ready _ s ?_ hr⟩
  have hcareful : Meets step Careful [.dispatch 0, .finish .quiet, .shutdown 0 .quiet] ⟨Env.busyListener, []⟩ := by
    decide
  exact hcareful.mono safe_of_careful

/-- A task shuts its own listener down. The end of its event frees the graph and then unlocks `queue_mutex`. -/
theorem graph_used_after_own_shutdown :
    ∃ s, run step [.process 0, .shutdown 0 .quiet, .finish .quiet] ⟨Env.busyListener, []⟩ = some s ∧
      ¬ Clean s.env.log := by
  have hrun : (run step [.process 0, .shutdown 0 .quiet, .finish .quiet] ⟨Env.busyListener, []⟩).map
      (fun s => decide (Clean s.env.log)) = some false := by decide
  obtain ⟨s, hr, hs⟩ := Option.map_eq_some_iff.mp hrun
  exact ⟨s, hr, of_decide_eq_false hs⟩

end Libcortex.UseAfterFree
