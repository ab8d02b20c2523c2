import Libcortex.Registration

/-!
# Two processes and one epoll instance

A child that was forked has its own copies of the entries and callbacks, but the descriptor of the event loop still
refers to the instance of the parent. `crtx_shutdown_after_fork` sets `after_fork_close` and `stop` before it disables
what the child has inherited.
-/

open Libcortex.Lib Libcortex.Epoll

namespace Libcortex.AfterFork

/-! ## The machine -/

/-- What is in the kernel is the `kernel` of the parent. -/
structure Sys where
  parent : Evloop
  children : List Evloop

/-- The first two are the begin of `crtx_shutdown_after_fork`. `evloop_stop` also writes a message into the pipe, which
names neither a graph nor a callback. -/
inductive ChildAction where
  | afterForkClose
  | evloopStop
  | disable (c : CallbackId)
  | remove (c : CallbackId)
  | closed (e : EntryId)

/-- A child enables nothing of what it has inherited: it makes an event loop of its own. -/
def childStep (s : Evloop) : ChildAction → Option Evloop
  | .afterForkClose => some { s with after_fork_close := true }
  | .evloopStop => if s.after_fork_close then some { s with stop := true } else none
  | .disable c => if s.after_fork_close ∧ s.stop then Epoll.step s (.disable c) else none
  | .remove c => if s.after_fork_close ∧ s.stop then Epoll.step s (.remove c) else none
  | .closed e => if s.after_fork_close ∧ s.stop then Epoll.step s (.closed e) else none

inductive Action where
  | parent (a : Epoll.Action)
  | fork
  | child (i : Nat) (a : ChildAction)

/-- What an action is for the parent. -/
def Action.ofParent : Action → List Epoll.Action
  | .parent a => [a]
  | .fork | .child _ _ => []

def step (s : Sys) : Action → Option Sys
  | .parent a => (Epoll.step s.parent a).map fun parent => { s with parent }
  | .fork => some { s with children := s.children ++ [s.parent] }
  | .child i a => do
    let c ← s.children[i]?
    let c ← childStep { c with kernel := s.parent.kernel } a
    some { parent := { s.parent with kernel := c.kernel }, children := s.children.set i c }

def init (d : Descriptors) : Sys where
  parent := Epoll.init d
  children := []

/-! ## What a callback wants -/

theorem foldl_or_eq_zero (l : List (BitVec 32)) : ∀ acc, l.foldl (· ||| ·) acc = 0 ↔ acc = 0 ∧ ∀ x ∈ l, x = 0 := by
  induction l with
  | nil => simp
  | cons x l ih =>
    intro acc
    rw [List.foldl_cons, ih, List.forall_mem_cons, ← and_assoc]
    simp [BitVec.or_eq_zero_iff]

theorem mask_eq_zero {s : Evloop} {e : EntryId} : s.mask e = 0 ↔
    ∀ c ∈ (s.entries e).callbacks, (s.cbs c).active = true →
      crtx_event_flags2epoll_flags (s.cbs c).crtx_event_flags = 0 := by
  unfold Evloop.mask
  rw [foldl_or_eq_zero]
  simp only [List.forall_mem_map, List.mem_filter, and_imp, true_and]

/-! ## A child -/

/-- What is wanted is already there, so nothing has to be added. -/
def Quiet (s : Evloop) : Prop := ∀ e, s.mask e ≠ 0 → (s.entries e).fd_added = true

/-- Callbacks are only taken away. -/
structure Fewer (s s' : Evloop) : Prop where
  callbacks : ∀ e, ∀ c ∈ (s'.entries e).callbacks, c ∈ (s.entries e).callbacks
  active : ∀ c, (s'.cbs c).active = true → s'.cbs c = s.cbs c
  fd_added : ∀ e, (s'.entries e).fd_added = (s.entries e).fd_added

theorem Fewer.quiet {s s' : Evloop} (h : Fewer s s') (hq : Quiet s) : Quiet s' := by
  intro e hne
  rw [h.fd_added]
  apply hq
  intro hzero
  apply hne
  rw [mask_eq_zero] at hzero ⊢
  intro c hc hactive
  have hcb := h.active c hactive
  rw [hcb] at hactive ⊢
  exact hzero c (h.callbacks e c hc) hactive

/-- What no other process sees of a step of a child, if nothing that it wants is new. -/
structure Unseen (s s' : Evloop) : Prop where
  quiet : Quiet s'
  kernel : s'.kernel = s.kernel

/-- The descriptor is neither removed, because of `after_fork_close`, nor modified, because of `stop`. -/
theorem manage_unseen {s : Evloop} (hq : Quiet s) (hf : s.after_fork_close = true) (hs : s.stop = true) (e : EntryId) :
    Unseen s (crtx_epoll_manage_fd s e) := by
  unfold crtx_epoll_manage_fd
  rw [collectEvents_eq]
  by_cases hm : s.mask e = 0
  · rw [if_neg (not_not_intro hm)]
    refine ⟨?_, by simp [hf]⟩
    intro e' hne
    by_cases he : e' = e
    · subst he
      refine absurd ?_ hne
      rw [mask_congr (s := s)]
      · exact hm
      · simp [Evloop.modEntry]
      · exact fun _ _ => rfl
    · rw [mask_congr (s := s)] at hne
      · simpa [Evloop.modEntry, he] using hq e' hne
      · simp [Evloop.modEntry, he]
      · exact fun _ _ => rfl
  · simp only [hm, hq e hm, crtx_epoll_mod_fd_intern, hs, ne_eq, not_false_eq_true, if_true]
    exact ⟨hq, rfl⟩

theorem setActive_fewer {s : Evloop} {f : CallbackId → Bool} (hf : ∀ c, f c = true → (s.cbs c).active = true) :
    Fewer s (s.setActive f) where
  callbacks _ _ hc := hc
  active c hactive := by
    have hs : (s.cbs c).active = true := hf c hactive
    have hf : f c = true := hactive
    simp only [Evloop.setActive, hf, ← hs]
  fd_added _ := rfl

theorem disable_unseen {s : Evloop} (hq : Quiet s) (hf : s.after_fork_close = true) (hs : s.stop = true) (e : EntryId)
    (c : CallbackId) : Unseen s (crtx_evloop_disable_cb s e c) := by
  unfold crtx_evloop_disable_cb
  split
  · exact ⟨hq, rfl⟩
  · rw [modCb_active]
    have hquiet : Quiet (s.setActive (Function.update (fun c => (s.cbs c).active) c false)) := by
      apply (setActive_fewer _).quiet hq
      intro c' hc'
      by_cases heq : c' = c
      · simp [heq] at hc'
      · simpa [heq] using hc'
    dsimp only
    split
    · obtain ⟨hq', hk⟩ := manage_unseen hquiet hf hs e
      exact ⟨hq', hk⟩
    · exact ⟨hquiet, rfl⟩

theorem unlink_fewer (s : Evloop) (e : EntryId) (c : CallbackId) :
    Fewer s (s.modEntry e fun en => { en with callbacks := (SList.unlink en.callbacks c).1 }) where
  callbacks e' c' hc' := by
    by_cases he : e' = e
    · subst he
      simp only [Evloop.modEntry, Function.update_self, unlink_eq] at hc'
      exact List.mem_of_mem_erase hc'
    · simpa [Evloop.modEntry, he] using hc'
  active _ _ := rfl
  fd_added e' := by
    by_cases he : e' = e
    · subst he
      simp [Evloop.modEntry]
    · simp [Evloop.modEntry, he]

theorem closed_unseen {s : Evloop} (hq : Quiet s) (hf : s.after_fork_close = true) (hs : s.stop = true) (e : EntryId) :
    Unseen s (crtx_evloop_handle_fd_closed s e) := by
  unfold crtx_evloop_handle_fd_closed
  rw [close_callbacks]
  have hquiet : Quiet (s.setActive fun c => decide (c ∉ (s.entries e).callbacks) && (s.cbs c).active) := by
    apply (setActive_fewer _).quiet hq
    simp
  dsimp only
  split
  · obtain ⟨hq', hk⟩ := manage_unseen hquiet hf hs e
    exact ⟨hq', hk⟩
  · exact ⟨hquiet, rfl⟩

theorem childStep_unseen {s s' : Evloop} {a : ChildAction} (hq : Quiet s) (h : childStep s a = some s') :
    Unseen s s' := by
  unfold childStep at h
  split at h
  · simp only [Option.some.injEq] at h
    subst h
    exact ⟨hq, rfl⟩
  · simp only [Option.ite_none_right_eq_some, Option.some.injEq] at h
    obtain ⟨-, rfl⟩ := h
    exact ⟨hq, rfl⟩
  · rename_i c
    simp only [Option.ite_none_right_eq_some, Epoll.step] at h
    obtain ⟨⟨hf, hs⟩, h⟩ := h
    split at h
    · obtain ⟨e, -, rfl⟩ := Option.map_eq_some_iff.mp h
      exact disable_unseen hq hf hs e c
    · simp only [Option.some.injEq] at h
      subst h
      exact ⟨hq, rfl⟩
  · rename_i c
    simp only [Option.ite_none_right_eq_some, Epoll.step] at h
    obtain ⟨⟨hf, hs⟩, h⟩ := h
    obtain ⟨e, -, rfl⟩ := Option.map_eq_some_iff.mp h
    obtain ⟨hq', hk⟩ := disable_unseen hq hf hs e c
    exact ⟨(unlink_fewer _ e c).quiet hq', hk⟩
  · rename_i e
    simp only [Option.ite_none_right_eq_some, Epoll.step, Option.some.injEq] at h
    obtain ⟨⟨hf, hs⟩, rfl⟩ := h
    exact closed_unseen hq hf hs e

/-! ## The parent -/

/-- The children are quiet, and were copied from a parent whose entries are registered. -/
structure Inv (s : Sys) : Prop where
  parent : Epoll.Inv s.parent
  children : ∀ c ∈ s.children, Quiet c

theorem init_inv (d : Descriptors) : Inv (init d) := ⟨inv_init d, by simp [init]⟩

theorem quiet_of_inv {s : Evloop} (h : Epoll.Inv s) : Quiet s := fun e hne => (h.registered e).added.mpr hne

theorem step_parent (s : Sys) (a : Action) (s' : Sys) (hi : Inv s) (h : step s a = some s') :
    Inv s' ∧ run Epoll.step a.ofParent s.parent = some s'.parent := by
  unfold step at h
  split at h
  · rename_i a
    obtain ⟨p, hp, rfl⟩ := Option.map_eq_some_iff.mp h
    exact ⟨⟨Epoll.step_inv hi.parent hp, hi.children⟩, by simp [Action.ofParent, run, hp]⟩
  · simp only [Option.some.injEq] at h
    subst h
    refine ⟨⟨hi.parent, ?_⟩, rfl⟩
    intro c hc
    rcases List.mem_append.mp hc with hc | hc
    · exact hi.children c hc
    · rw [List.mem_singleton.mp hc]
      exact quiet_of_inv hi.parent
  · rename_i i a
    simp only [Option.bind_eq_bind, Option.bind_eq_some_iff, Option.some.injEq] at h
    obtain ⟨c, hc, c', hc', rfl⟩ := h
    have hquiet : Quiet { c with kernel := s.parent.kernel } := hi.children c (List.mem_of_getElem? hc)
    obtain ⟨hq, hk⟩ := childStep_unseen hquiet hc'
    have hparent : { s.parent with kernel := c'.kernel } = s.parent := by rw [hk]
    rw [hparent]
    refine ⟨⟨hi.parent, ?_⟩, rfl⟩
    intro x hx
    rcases List.mem_or_eq_of_mem_set hx with hx | rfl
    · exact hi.children x hx
    · exact hq

/-- Whatever the children do while they are shut down, the parent goes on as if it was alone, and the kernel watches for
what the active callbacks of the parent want. -/
theorem children_leave_parent (d : Descriptors) (as : List Action) (s : Sys) (hr : run step as (init d) = some s) :
    run Epoll.step (as.flatMap Action.ofParent) (Epoll.init d) = some s.parent ∧ ∀ e, Registered s.parent e := by
  have hi := run_invariant (fun s a s' hi h => (step_parent s a s' hi h).1) as _ s (init_inv d) hr
  exact ⟨run_refines step_parent as _ s (init_inv d) hr, hi.parent.registered⟩

/-- The child disables one of two callbacks of an entry, and then removes the other one. -/
def shutDownChild : List Action :=
  [.parent (.create 3 0 CRTX_EVLOOP_READ), .parent (.create 3 1 CRTX_EVLOOP_WRITE), .parent (.enable 0),
    .parent (.enable 1), .fork, .child 0 .afterForkClose, .child 0 .evloopStop, .child 0 (.disable 0),
    .parent (.disable 1), .child 0 (.remove 1)]

theorem children_leave_parent_shut_down :
    ∃ s, run step shutDownChild (init identity) = some s ∧ s.parent.mask 3 = EPOLLIN ∧
      (s.children.map fun c => c.mask 3) = [0] ∧ Registered s.parent 3 := by
  refine ⟨_, rfl, by decide, by decide, (children_leave_parent identity shutDownChild _ rfl).2 3⟩

end Libcortex.AfterFork
