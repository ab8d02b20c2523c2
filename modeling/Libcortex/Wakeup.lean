import Libcortex.Dispatch

/-!
# No wake-up is lost

The event loop looks at a graph only when a message names it. One message may stand for many
events, and a message may arrive after its event was processed. Still, a graph with events in its
queue has a message on the way, or is being looked at.
-/

open Libcortex.Lib Libcortex.Dispatch

namespace Libcortex.Wakeup

def modeOf (s : Sys) (g : GraphId) : ProcessingMode := crtx_get_mode s.root (s.root.graphs g).mode

/-- A message names `g`, or an adder will write one, or `evloop_ctrl_pipe_handler` has not yet got `-EAGAIN`. -/
def Signalled (s : Sys) (g : GraphId) : Prop :=
  (∃ m ∈ s.root.pipe, m.graph = some g) ∨ g ∈ s.queued ∨ g ∈ s.draining

def Awake (s : Sys) : Prop :=
  ∀ g, some g ∈ s.root.registry → modeOf s g ≠ .preferThread → (s.root.graphs g).equeue ≠ [] → Signalled s g

/-- No event that a drain of the graph comes across was invalidated. -/
def NoneInvalidated (s : Sys) : Action → Prop
  | .poll g => ∀ q ∈ (s.root.graphs g).equeue, (s.root.events q.event).error = false
  | _ => True

instance (s : Sys) : ∀ a, Decidable (NoneInvalidated s a)
  | .poll g => inferInstanceAs (Decidable (∀ q ∈ (s.root.graphs g).equeue, (s.root.events q.event).error = false))
  | .reference _ | .dereference _ | .invalidate _ | .addBegin _ _ | .addQueue _ _ | .addTrigger _ | .claim _
  | .drop _ _ | .finish _ _ | .readPipe | .flushBegin | .flushNext _ => inferInstanceAs (Decidable True)

/-! ## The steps -/

theorem Awake.keep {s s' : Sys} (ha : Awake s) (hs : s.root.SameSetup s'.root)
    (hold : ∀ g, modeOf s g ≠ .preferThread → some g ∈ s.root.registry → (s.root.graphs g).equeue ≠ [] →
      (s'.root.graphs g).equeue ≠ [] → Signalled s g → Signalled s' g)
    (hnew : ∀ g, (s.root.graphs g).equeue = [] → (s'.root.graphs g).equeue ≠ [] → Signalled s' g) : Awake s' := by
  intro g hreg hmode hq
  rw [hs.registry] at hreg
  have hsame : modeOf s' g = modeOf s g := hs.get_mode g
  rw [hsame] at hmode
  by_cases h : (s.root.graphs g).equeue = []
  · exact hnew g h hq
  · exact hold g hmode hreg h hq (ha g hreg hmode h)

theorem Awake.frame {s s' : Sys} (ha : Awake s) (hs : s.root.SameSetup s'.root)
    (hempty : ∀ g, (s.root.graphs g).equeue = [] → (s'.root.graphs g).equeue = [])
    (hp : s'.root.pipe = s.root.pipe) (hq : s'.queued = s.queued) (hd : s'.draining = s.draining) : Awake s' := by
  apply ha.keep hs
  · intro g _ _ _ _ h
    unfold Signalled
    rw [hp, hq, hd]
    exact h
  · intro g h h'
    exact absurd (hempty g h) h'

theorem Awake.setEvent {s s' : Sys} (ha : Awake s) {e : EventId} {ev : Event} (hr : s'.root = s.root.setEvent e ev)
    (hq : s'.queued = s.queued) (hd : s'.draining = s.draining) : Awake s' := by
  apply ha.frame
  · rw [hr]
    exact Root.SameSetup.setEvent ..
  · intro g h
    rw [hr]
    exact h
  · rw [hr, Root.setEvent_pipe]
  · exact hq
  · exact hd

theorem queueEntry_awake {s : Sys} {g : GraphId} (ha : Awake s) (ht : (s.root.graphs g).tasks ≠ []) (e : EventId) :
    Awake (queueEntry s g e) := by
  apply ha.keep (Root.SameSetup.addQueue s.root g e)
  · intro g' _ _ _ _ h
    unfold Signalled queueEntry
    dsimp only
    rw [addQueue_pipe]
    exact h.imp id (Or.imp (List.mem_cons_of_mem _) id)
  · intro g' h h'
    by_cases hg : g' = g
    · subst hg
      exact Or.inr (Or.inl (List.mem_cons_self ..))
    · change ((addQueue s.root g e).graphs g').equeue ≠ [] at h'
      rw [addQueue_graphs ht, Function.update_of_ne hg] at h'
      exact absurd h h'

theorem addTrigger_awake {s : Sys} (g : GraphId) (ha : Awake s) : Awake (apply s (.addTrigger g)) := by
  have hne : ∀ g', g' ≠ g → g' ∈ s.queued → g' ∈ s.queued.erase g := by
    intro g' h hm
    exact (List.mem_erase_of_ne h).mpr hm
  apply ha.keep (Root.SameSetup.addTrigger s.root g)
  · intro g' hmode _ _ _ h
    unfold Signalled apply addTrigger
    dsimp only
    split
    · -- In thread mode there is no message, and `g` is not `g'`.
      rename_i hthread
      have hg : g' ≠ g := by
        rintro rfl
        exact hmode hthread
      exact h.imp id (Or.imp (hne g' hg) id)
    · by_cases hg : g' = g
      · subst hg
        exact Or.inl ⟨⟨some g', none⟩, by simp [crtx_evloop_queue_graph], rfl⟩
      · rcases h with ⟨m, hm, hmg⟩ | h | h
        · exact Or.inl ⟨m, by simp [crtx_evloop_queue_graph, hm], hmg⟩
        · exact Or.inr (Or.inl (hne g' hg h))
        · exact Or.inr (Or.inr h)
  · intro g' h h'
    have : (addTrigger s.root g).graphs = s.root.graphs := addTrigger_graphs s.root g
    simp only [apply, this] at h'
    exact absurd h h'

theorem claimEntry_awake {s : Sys} (ha : Awake s) (g : GraphId) : Awake (claimEntry s g) := by
  unfold claimEntry
  cases hq : nextEntry? s.root g with
  | none => simpa only [claim_none hq] using ha
  | some q =>
    simp only [claim_some hq]
    refine ha.frame (Root.SameSetup.setGraph _ rfl rfl) ?_ rfl rfl rfl
    intro g' h
    by_cases hg : g' = g
    · subst hg
      simp [h]
    · rw [Root.setGraph_other _ hg]
      exact h

theorem finish_awake {s : Sys} (ha : Awake s) (g : GraphId) (q : Entry) : Awake (apply s (.finish g q)) := by
  refine ha.frame (Root.SameSetup.finishEntry ..) ?_ rfl rfl rfl
  intro g' h
  unfold apply finishEntry
  dsimp only
  by_cases hg : g' = g
  · subst hg
    rw [Root.setGraph_self]
    exact h
  · rw [Root.setGraph_other _ hg]
    exact h

theorem flushOne_awake {s : Sys} (ha : Awake s) (g : GraphId) : Awake (flushOne s g) := by
  refine ha.frame (Root.SameSetup.flushGraph s.root g) ?_ rfl rfl rfl
  intro g' h
  unfold flushOne flushGraph
  dsimp only
  by_cases hg : g' = g
  · subst hg
    rw [Root.setGraph_self]
  · rw [Root.setGraph_other _ hg]
    exact h

theorem readMsg_awake {s : Sys} (ha : Awake s) : Awake (readMsg s) := by
  unfold readMsg
  split
  · exact ha
  · rename_i m rest hpipe
    -- A message for `g'` that is not this one is still in the pipe.
    have hrest : ∀ g', m.graph ≠ some g' → (∃ m' ∈ s.root.pipe, m'.graph = some g') → ∃ m' ∈ rest, m'.graph = some g' := by
      rintro g' hne ⟨m', hm', hg'⟩
      rw [hpipe, List.mem_cons] at hm'
      rcases hm' with rfl | hm'
      · exact absurd hg' hne
      · exact ⟨m', hm', hg'⟩
    dsimp only
    split
    · rename_i g hmg
      split
      · refine ha.keep (Root.SameSetup.setPipe s.root rest) ?_ ?_
        · intro g' _ _ _ _ h
          by_cases hg : g' = g
          · subst hg
            exact Or.inr (Or.inr (List.mem_cons_self ..))
          · have hne : m.graph ≠ some g' := by rw [hmg]; simpa using Ne.symm hg
            exact h.imp (hrest g' hne) (Or.imp id (List.mem_cons_of_mem _))
        · intro g' h h'
          exact absurd h h'
      · -- The message is for a graph that is not live.
        rename_i hreg
        refine ha.keep (Root.SameSetup.setPipe s.root rest) ?_ ?_
        · intro g' _ hreg' _ _ h
          have hne : m.graph ≠ some g' := by
            rw [hmg]
            rintro h
            exact hreg (h ▸ hreg')
          exact h.imp (hrest g' hne) id
        · intro g' h h'
          exact absurd h h'
    · rename_i hmg
      refine ha.keep (Root.SameSetup.setPipe s.root rest) ?_ ?_
      · intro g' _ _ _ _ h
        exact h.imp (hrest g' (by rw [hmg]; simp)) id
      · intro g' h h'
        exact absurd h h'

theorem poll_awake {s : Sys} {g : GraphId} (ha : Awake s)
    (hok : ∀ q ∈ (s.root.graphs g).equeue, (s.root.events q.event).error = false) : Awake (apply s (.poll g)) := by
  unfold apply
  dsimp only
  split
  · rename_i hnone
    have hempty : (s.root.graphs g).equeue = [] := by
      unfold nextEntry? at hnone
      rw [List.find?_eq_none] at hnone
      rw [List.eq_nil_iff_forall_not_mem]
      intro q hq
      exact hnone q hq (by simp [hok q hq])
    refine ha.keep (Root.SameSetup.refl s.root) ?_ ?_
    · intro g' _ _ hq _ h
      have hg : g' ≠ g := by
        rintro rfl
        exact hq hempty
      exact h.imp id (Or.imp id (List.mem_erase_of_ne hg).mpr)
    · intro g' h h'
      exact absurd h h'
  · exact claimEntry_awake ha g

theorem step_awake (s : Sys) (a : Action) (ha : Awake s) (hok : NoneInvalidated s a) (_ : enabled s a) :
    Awake (apply s a) := by
  cases a with
  | addQueue g e =>
    unfold apply
    dsimp only
    split
    · rename_i ht
      exact ha.setEvent (by simp only [dropUnqueued, addQueue, ht, if_true]; rfl) rfl rfl
    · rename_i ht
      exact queueEntry_awake ha ht e
  | addTrigger g => exact addTrigger_awake g ha
  | claim g => exact claimEntry_awake ha g
  | finish g q => exact finish_awake ha g q
  | readPipe => exact readMsg_awake ha
  | poll g => exact poll_awake ha hok
  | flushNext i =>
    have ha' : Awake { s with flushing := s.flushing.erase i } :=
      ha.frame (Root.SameSetup.refl s.root) (fun _ h => h) rfl rfl rfl
    unfold apply
    dsimp only
    split
    · exact ha'
    · exact ha'.frame (Root.SameSetup.refl s.root) (fun _ h => h) rfl rfl rfl
    · exact (flushOne_awake ha' _).frame (Root.SameSetup.refl _) (fun _ h => h) rfl rfl rfl
  | flushBegin => exact ha.frame (Root.SameSetup.refl s.root) (fun _ h => h) rfl rfl rfl
  | reference e => exact ha.setEvent rfl rfl rfl
  | dereference e => exact ha.setEvent rfl rfl rfl
  | invalidate e => exact ha.setEvent rfl rfl rfl
  | addBegin g e => exact ha.setEvent rfl rfl rfl
  | drop g q => exact ha.setEvent rfl rfl rfl

/-! ## The result -/

theorem init_awake (c : Setup) : Awake (init c) := by
  intro g _ _ hq
  exact absurd rfl hq

theorem no_lost_wakeup (c : Setup) (as : List Action) (s : Sys) (hm : Meets step NoneInvalidated as (init c))
    (hr : run step as (init c) = some s) (g : GraphId) (hlive : some g ∈ s.root.registry)
    (hmode : modeOf s g ≠ .preferThread) (hq : (s.root.graphs g).equeue ≠ []) :
    (∃ m ∈ s.root.pipe, m.graph = some g) ∨ g ∈ s.queued ∨ g ∈ s.draining :=
  guarded_keeps step_awake as (init c) s (init_awake c) hm hr g hlive hmode hq

/-- Two live graphs in event-loop mode. -/
def eloopGraphs : Setup where
  tasks _ := [0]
  mode _ := .preferEloop
  listener _ := none
  registry := [some 0, none, some 1]
  pipe_capacity := 65536
  force_mode := .preferNone
  default_mode := .preferEloop

/-- The handler drains graph 0 when a second event arrives, whose message is still to be written. -/
theorem no_lost_wakeup_second_event :
    ∃ s, run step [.addBegin 0 7, .addQueue 0 7, .addTrigger 0, .readPipe, .poll 0, .addBegin 0 8, .addQueue 0 8]
      (init eloopGraphs) = some s ∧ (s.root.graphs 0).equeue = [⟨1, 8⟩] ∧
      ((∃ m ∈ s.root.pipe, m.graph = some 0) ∨ 0 ∈ s.queued ∨ 0 ∈ s.draining) := by
  have hrun : (run step [.addBegin 0 7, .addQueue 0 7, .addTrigger 0, .readPipe, .poll 0, .addBegin 0 8, .addQueue 0 8]
      (init eloopGraphs)).map (fun s => ((s.root.graphs 0).equeue, s.root.registry, modeOf s 0)) =
        some ([⟨1, 8⟩], [some 0, none, some 1], .preferEloop) := by decide
  obtain ⟨s, hs, hv⟩ := Option.map_eq_some_iff.mp hrun
  obtain ⟨hq, hreg, hmode⟩ : (s.root.graphs 0).equeue = [⟨1, 8⟩] ∧ s.root.registry = [some 0, none, some 1] ∧
      modeOf s 0 = .preferEloop := by simpa using hv
  exact ⟨s, hs, hq, no_lost_wakeup eloopGraphs _ s (by decide) hs 0 (by simp [hreg]) (by simp [hmode]) (by simp [hq])⟩

end Libcortex.Wakeup
