import Libcortex.Queue

/-!
# Every entry is processed once, in the order of the queue

Any number of threads add events to one graph and process them. Each critical section under
`queue_mutex` is one step. `procs` holds the local `queue_entry` of every `crtx_process_one_event`
that has claimed an entry and not yet finished it, whatever thread it runs on.
-/

open Libcortex.Lib Libcortex.LList Libcortex.Queue

namespace Libcortex.Fifo

/-- `appended`, `claims` and `finished` record the history: which entries were appended, claimed and
finished so far, in this order. -/
structure Sys where
  tasks : List TaskId
  lists : DllGraph
  error : EventId → Bool
  procs : List Nat
  appended : List Nat
  claims : List Nat
  finished : List Nat

inductive Action where
  | add (e : EventId)
  | claim
  | finish (entry : Nat)
  | invalidate (e : EventId)
deriving DecidableEq

def step (s : Sys) : Action → Option Sys
  | .add e =>
    if s.tasks = [] then some s
    else do
      let (lists, it) ← addToEqueue s.lists e
      return { s with lists, appended := s.appended ++ [it] }
  | .claim => do
    match ← claimNext s.lists s.error with
    | (lists, none) => return { s with lists }
    | (lists, some it) => return { s with lists, procs := it :: s.procs, claims := s.claims ++ [it] }
  | .finish it =>
    if it ∈ s.procs then do
      let lists ← finishClaimed s.lists it
      return { s with lists, procs := s.procs.erase it, finished := s.finished ++ [it] }
    else none
  | .invalidate e => some { s with error := Function.update s.error e true }

/-- A graph as `crtx_create_graph` makes it, with its tasks added. -/
def init (tasks : List TaskId) : Sys where
  tasks := tasks
  lists := { heap := Heap.empty, equeue := none, claimed := none }
  error := fun _ => false
  procs := []
  appended := []
  claims := []
  finished := []

def NotInvalidated (_ : Sys) (a : Action) : Prop := ∀ e, a ≠ .invalidate e

instance (s : Sys) : ∀ a, Decidable (NotInvalidated s a)
  | .invalidate e => .isFalse fun h => h e rfl
  | .add _ | .claim | .finish _ => .isTrue fun _ h => Action.noConfusion h

theorem step_add {s : Sys} {e : EventId} {d : DllGraph} {it : Nat} (ht : s.tasks ≠ [])
    (hrun : addToEqueue s.lists e = some (d, it)) :
    step s (.add e) = some { s with lists := d, appended := s.appended ++ [it] } := by
  simp [step, ht, hrun]

theorem step_claim_none {s : Sys} {d : DllGraph} (hrun : claimNext s.lists s.error = some (d, none)) :
    step s .claim = some { s with lists := d } := by
  simp [step, hrun]

theorem step_claim_some {s : Sys} {d : DllGraph} {it : Nat}
    (hrun : claimNext s.lists s.error = some (d, some it)) :
    step s .claim = some { s with lists := d, procs := it :: s.procs, claims := s.claims ++ [it] } := by
  simp [step, hrun]

theorem step_finish {s : Sys} {d : DllGraph} {it : Nat} (hit : it ∈ s.procs)
    (hrun : finishClaimed s.lists it = some d) :
    step s (.finish it) =
      some { s with lists := d, procs := s.procs.erase it, finished := s.finished ++ [it] } := by
  simp [step, hit, hrun]

/-! ## The invariant -/

structure Inv (tasks : List TaskId) (s : Sys) (gr : Graph) : Prop where
  tasks : s.tasks = tasks
  refines : Refines s.lists gr
  valid : ∀ e, s.error e = false
  order : s.appended = s.claims ++ ids gr.equeue
  split : s.claims.Perm (ids gr.claimed ++ s.finished)
  nodup : s.appended.Nodup
  procs : s.procs.Perm (ids gr.claimed)
  old : ∀ a ∈ s.appended, a < s.lists.heap.next

variable {tasks : List TaskId}

theorem init_inv (tasks : List TaskId) : Inv tasks (init tasks) ⟨tasks, .preferNone, [], [], none⟩ where
  tasks := rfl
  refines := ⟨isDll_nil _, isDll_nil _, by simp [ids], by simp, Heap.fresh_empty⟩
  valid _ := rfl
  order := rfl
  split := List.Perm.refl _
  nodup := List.nodup_nil
  procs := List.Perm.refl _
  old := by simp [init]

theorem add_inv {s : Sys} {gr : Graph} (hi : Inv tasks s gr) (ht : tasks ≠ []) (e : EventId) :
    ∃ s' gr', step s (.add e) = some s' ∧ Inv tasks s' gr' ∧ s'.appended.length = s.appended.length + 1 := by
  obtain ⟨d, hrun, hnext, href⟩ := addToEqueue_refines hi.refines e
  have hnew : s.lists.heap.next ∉ s.appended := fun h => Nat.lt_irrefl _ (hi.old _ h)
  refine ⟨_, _, step_add (by rw [hi.tasks]; exact ht) hrun,
    ⟨hi.tasks, href, hi.valid, ?_, hi.split, ?_, hi.procs, ?_⟩, by simp⟩
  · rw [hi.order, ids_append, List.append_assoc]
    rfl
  · rw [List.nodup_append]
    refine ⟨hi.nodup, by simp, ?_⟩
    intro a ha b hb
    rw [List.mem_singleton] at hb
    rintro rfl
    exact hnew (hb ▸ ha)
  · intro a ha
    rw [List.mem_append, List.mem_singleton] at ha
    change a < d.heap.next
    rw [hnext]
    rcases ha with ha | rfl
    · have := hi.old a ha
      omega
    · omega

theorem find_head {s : Sys} {gr : Graph} (hi : Inv tasks s gr) :
    gr.equeue.find? (fun q => !s.error q.event) = gr.equeue.head? := by
  cases gr.equeue with
  | nil => rfl
  | cons q rest => simp [hi.valid]

theorem claim_inv {s : Sys} {gr : Graph} (hi : Inv tasks s gr) :
    ∃ s' gr', step s .claim = some s' ∧ Inv tasks s' gr' ∧ s'.claims = s.claims ++ (ids gr.equeue).take 1 := by
  have href := claimNext_refines hi.refines s.error
  rw [find_head hi] at href
  cases hq : gr.equeue with
  | nil =>
    rw [hq] at href
    exact ⟨_, gr, step_claim_none href, hi, by simp [ids]⟩
  | cons q rest =>
    rw [hq] at href
    obtain ⟨d, hrun, hnext, href⟩ := href
    rw [List.erase_cons_head] at href
    refine ⟨_, _, step_claim_some hrun, ⟨hi.tasks, href, hi.valid, ?_, ?_, hi.nodup, ?_, ?_⟩, by simp [ids]⟩
    · rw [hi.order, hq]
      simp [ids]
    · rw [ids_append, List.append_assoc]
      refine (hi.split.append_right [q.id]).trans ?_
      rw [List.append_assoc]
      exact List.perm_append_comm.append_left _
    · rw [ids_append]
      exact (hi.procs.cons q.id).trans (List.perm_append_singleton q.id _).symm
    · rw [hnext]
      exact hi.old

theorem finish_inv {s : Sys} {gr : Graph} (hi : Inv tasks s gr) {it : Nat} (hit : it ∈ s.procs) :
    ∃ s' gr', step s (.finish it) = some s' ∧ Inv tasks s' gr' ∧ s'.finished = s.finished ++ [it] := by
  have hmem := hi.procs.mem_iff.mp hit
  obtain ⟨q, hq, rfl⟩ := List.mem_map.mp hmem
  obtain ⟨d, hrun, hnext, href⟩ := finishClaimed_refines hi.refines hq
  have herase := ids_erase hi.refines.claimed.nodup hq
  refine ⟨_, _, step_finish hit hrun, ⟨hi.tasks, href, hi.valid, hi.order, ?_, hi.nodup, ?_, ?_⟩, rfl⟩
  · -- `q` moves from the claimed entries to the finished ones.
    rw [herase, ← List.append_assoc]
    have hout := (List.perm_cons_erase hmem).append_right s.finished
    refine hi.split.trans (hout.trans ?_)
    rw [List.cons_append]
    exact (List.perm_append_singleton q.id _).symm
  · rw [herase]
    exact hi.procs.erase q.id
  · rw [hnext]
    exact hi.old

theorem step_inv (s : Sys) (a : Action) (s' : Sys) (hi : ∃ gr, Inv tasks s gr) (ha : NotInvalidated s a)
    (hs : step s a = some s') : ∃ gr, Inv tasks s' gr := by
  obtain ⟨gr, hi⟩ := hi
  cases a with
  | add e =>
    by_cases ht : tasks = []
    · obtain rfl : s = s' := by simpa [step, hi.tasks, ht] using hs
      exact ⟨gr, hi⟩
    · obtain ⟨t, gr', ht, hi', -⟩ := add_inv hi ht e
      obtain rfl : t = s' := Option.some.inj (ht.symm.trans hs)
      exact ⟨gr', hi'⟩
  | claim =>
    obtain ⟨t, gr', ht, hi', -⟩ := claim_inv hi
    obtain rfl : t = s' := Option.some.inj (ht.symm.trans hs)
    exact ⟨gr', hi'⟩
  | finish it =>
    have hit : it ∈ s.procs := by
      by_contra h
      simp [step, h] at hs
    obtain ⟨t, gr', ht, hi', -⟩ := finish_inv hi hit
    obtain rfl : t = s' := Option.some.inj (ht.symm.trans hs)
    exact ⟨gr', hi'⟩
  | invalidate e => exact absurd rfl (ha e)

/-! ## The result -/

/-- `eq` and `cl` are what the links of `equeue` and `claimed` spell out. The last three parts say that
no step can fault: each operation that a thread can start ends. -/
theorem entries_once_in_order (tasks : List TaskId) (htasks : tasks ≠ []) (as : List Action) (s : Sys)
    (hm : Meets step NotInvalidated as (init tasks)) (hr : run step as (init tasks) = some s) :
    ∃ eq cl : List Nat,
      IsDll s.lists.heap s.lists.equeue eq ∧ IsDll s.lists.heap s.lists.claimed cl ∧
      s.appended.Nodup ∧ s.appended.Perm (eq ++ cl ++ s.finished) ∧ s.appended = s.claims ++ eq ∧
      (∀ e, ∃ s', step s (.add e) = some s' ∧ s'.appended.length = s.appended.length + 1) ∧
      (∃ s', step s .claim = some s' ∧ s'.claims = s.claims ++ eq.take 1) ∧
      (∀ q ∈ cl, ∃ s', step s (.finish q) = some s' ∧ s'.finished = s.finished ++ [q]) := by
  obtain ⟨gr, hi⟩ := run_keeps step_inv as _ s ⟨_, init_inv tasks⟩ hm hr
  refine ⟨ids gr.equeue, ids gr.claimed, hi.refines.equeue, hi.refines.claimed, hi.nodup, ?_, hi.order, ?_, ?_, ?_⟩
  · rw [hi.order, List.append_assoc]
    exact (hi.split.append_right _).trans List.perm_append_comm
  · intro e
    obtain ⟨s', _, hs, -, hlen⟩ := add_inv hi htasks e
    exact ⟨s', hs, hlen⟩
  · obtain ⟨s', _, hs, -, hc⟩ := claim_inv hi
    exact ⟨s', hs, hc⟩
  · intro q hq
    obtain ⟨s', _, hs, -, hf⟩ := finish_inv hi (hi.procs.mem_iff.mpr hq)
    exact ⟨s', hs, hf⟩

/-- Two workers: the second finishes before the first. -/
theorem entries_once_in_order_two_workers :
    ∃ s, run step [.add 7, .add 8, .claim, .claim, .finish 1] (init [0]) = some s ∧ s.claims = [0, 1] ∧
      s.finished = [1] ∧ ∃ eq cl, s.appended.Perm (eq ++ cl ++ s.finished) := by
  have hm : Meets step NotInvalidated [.add 7, .add 8, .claim, .claim, .finish 1] (init [0]) := by decide
  have hrun : (run step [.add 7, .add 8, .claim, .claim, .finish 1] (init [0])).isSome = true := by decide
  obtain ⟨s, hs⟩ := Option.isSome_iff_exists.mp hrun
  have hhist : (run step [.add 7, .add 8, .claim, .claim, .finish 1] (init [0])).map
      (fun s => (s.claims, s.finished)) = some ([0, 1], [1]) := by decide
  rw [hs] at hhist
  obtain ⟨hc, hf⟩ : s.claims = [0, 1] ∧ s.finished = [1] := by simpa using hhist
  obtain ⟨eq, cl, -, -, -, hperm, -⟩ := entries_once_in_order [0] (by decide) _ s hm hs
  exact ⟨s, hs, hc, hf, eq, cl, hperm⟩

end Libcortex.Fifo
