import Libcortex.Graph
import Libcortex.LList
import Libcortex.Lib.Run

/-!
# The linked lists of a graph are its two queues

`Graph` has lists where the code has heap nodes. Here the three critical sections under
`queue_mutex` run on the heap, and each is shown to do what its counterpart on lists does.
-/

open Libcortex.Lib Libcortex.LList

namespace Libcortex.Queue

/-! ## The code -/

/-- `graph->equeue` and `graph->claimed`, with the heap they point into. -/
structure DllGraph where
  heap : Heap (Node EventId)
  equeue : Option Nat
  claimed : Option Nat

-- No list is longer than the number of blocks that were ever allocated.
def DllGraph.fuel (d : DllGraph) : Nat := d.heap.next + 1

def addToEqueue (d : DllGraph) (e : EventId) : Option (DllGraph × Nat) := do
  let (heap, equeue, it) ← crtx_dll_append_new (d.fuel + 1) d.heap d.equeue e
  return ({ d with heap, equeue }, ← it)

def claimLoop (h : Heap (Node EventId)) (error : EventId → Bool) : Nat → Option Nat → Option (Option Nat)
  | 0, _ => none
  | _ + 1, none => some none
  | fuel + 1, some eit => do
    let n ← h.load eit
    if error n.data then claimLoop h error fuel n.next else some (some eit)

def claimNext (d : DllGraph) (error : EventId → Bool) : Option (DllGraph × Option Nat) := do
  match ← claimLoop d.heap error d.fuel d.equeue with
  | none => return (d, none)
  | some eit =>
    let (heap, equeue, _) ← crtx_dll_unlink d.heap d.equeue eit
    let (heap, claimed, _) ← crtx_dll_append d.fuel heap d.claimed eit
    return ({ heap, equeue, claimed }, some eit)

def finishClaimed (d : DllGraph) (entry : Nat) : Option DllGraph := do
  let (heap, claimed, _) ← crtx_dll_unlink d.heap d.claimed entry
  let heap ← heap.free entry
  return { d with heap, claimed }

/-! ## Lists of entries and lists of addresses -/

def ids (l : List Entry) : List Nat := l.map Entry.id

theorem ids_append (l m : List Entry) : ids (l ++ m) = ids l ++ ids m := List.map_append

theorem mem_ids {l : List Entry} {q : Entry} (hq : q ∈ l) : q.id ∈ ids l := List.mem_map_of_mem hq

theorem ids_erase {l : List Entry} (hnd : (ids l).Nodup) {q : Entry} (hq : q ∈ l) :
    ids (l.erase q) = (ids l).erase q.id := by
  obtain ⟨xs, ys, rfl⟩ := List.append_of_mem hq
  have hid : q.id ∉ ids xs := by
    intro h
    rw [ids_append] at hnd
    exact (List.nodup_append.mp hnd).2.2 q.id h q.id (by simp [ids]) rfl
  have hx : q ∉ xs := fun h => hid (mem_ids h)
  rw [List.erase_append_right _ hx, List.erase_cons_head, ids_append, ids_append,
    List.erase_append_right _ hid]
  simp [ids]

/-! ## The refinement -/

/-- The links spell out the lists of `gr`. -/
structure Refines (d : DllGraph) (gr : Graph) : Prop where
  equeue : IsDll d.heap d.equeue (ids gr.equeue)
  claimed : IsDll d.heap d.claimed (ids gr.claimed)
  disjoint : ∀ a ∈ ids gr.equeue, a ∉ ids gr.claimed
  events : ∀ q ∈ gr.equeue ++ gr.claimed, dataAt d.heap q.id = some q.event
  fresh : d.heap.Fresh

namespace Refines

variable {d : DllGraph} {gr : Graph}

theorem lt_next (hr : Refines d gr) {l : List Entry} (hl : Linked d.heap (ids l)) : ∀ a ∈ ids l, a < d.heap.next := by
  intro a ha
  obtain ⟨n, hn⟩ := hl.cell ha
  exact Heap.lt_next hr.fresh hn

theorem length_equeue (hr : Refines d gr) : (ids gr.equeue).length < d.fuel :=
  Nat.lt_succ_of_le (hr.equeue.length_le hr.fresh)

theorem length_claimed (hr : Refines d gr) : (ids gr.claimed).length < d.fuel :=
  Nat.lt_succ_of_le (hr.claimed.length_le hr.fresh)

end Refines

theorem addToEqueue_refines {d : DllGraph} {gr : Graph} (hr : Refines d gr) (e : EventId) :
    ∃ d', addToEqueue d e = some (d', d.heap.next) ∧ d'.heap.next = d.heap.next + 1 ∧
      Refines d' { gr with equeue := gr.equeue ++ [⟨d.heap.next, e⟩] } := by
  obtain ⟨h, hrun, ha⟩ := crtx_dll_append_new_spec hr.fresh hr.equeue (Nat.lt_succ_of_lt hr.length_equeue) e
  have hids : ids (gr.equeue ++ [⟨d.heap.next, e⟩]) = ids gr.equeue ++ [d.heap.next] := by
    rw [ids_append]; rfl
  have hnewc : d.heap.next ∉ ids gr.claimed := fun h => Nat.lt_irrefl _ (hr.lt_next hr.claimed.linked _ h)
  refine ⟨{ d with heap := h, equeue := (ids gr.equeue ++ [d.heap.next]).head? }, ?_, ha.next, ?_⟩
  · simp only [addToEqueue, hrun]
    rfl
  · refine ⟨by rw [hids]; exact ha.isDll, ?_, ?_, ?_, ha.fresh⟩
    · apply hr.claimed.frame
      intro a hac
      apply ha.cell
      rw [List.mem_append, List.mem_singleton]
      rintro (h | rfl)
      · exact hr.disjoint a h hac
      · exact hnewc hac
    · rw [hids]
      intro a hae
      rw [List.mem_append, List.mem_singleton] at hae
      rcases hae with hae | rfl
      · exact hr.disjoint a hae
      · exact hnewc
    · intro q hq
      simp only [List.mem_append, List.mem_singleton] at hq
      have hkeep : ∀ q ∈ gr.equeue ++ gr.claimed, dataAt h q.id = some q.event := by
        intro q hq
        obtain ⟨n, hn, _⟩ := Option.map_eq_some_iff.mp (hr.events q hq)
        rw [ha.old q.id (Nat.ne_of_lt (Heap.lt_next hr.fresh hn))]
        exact hr.events q hq
      rcases hq with (hq | rfl) | hq
      · exact hkeep q (List.mem_append_left _ hq)
      · exact ha.new
      · exact hkeep q (List.mem_append_right _ hq)

theorem claimLoop_spec {h : Heap (Node EventId)} {error : EventId → Bool} {l : List Entry}
    (hl : Linked h (ids l)) (hdata : ∀ q ∈ l, dataAt h q.id = some q.event) :
    ∀ (rest xs : List Entry) (fuel : Nat), l = xs ++ rest → rest.length < fuel →
      claimLoop h error fuel (ids rest).head? = some ((rest.find? fun q => !error q.event).map Entry.id) := by
  intro rest
  induction rest with
  | nil =>
    intro xs fuel _ hfuel
    obtain ⟨f, rfl⟩ : ∃ f, fuel = f + 1 := ⟨fuel - 1, by simp at hfuel; omega⟩
    rfl
  | cons q rest ih =>
    intro xs fuel heq hfuel
    obtain ⟨f, rfl⟩ : ∃ f, fuel = f + 1 := ⟨fuel - 1, by omega⟩
    obtain ⟨d, hd⟩ := hl (ids xs) q.id (ids rest) (by simp [heq, ids])
    have hev : d = q.event := by
      have := hdata q (by simp [heq])
      simpa [dataAt, hd] using this
    subst hev
    have hnext := ih (xs ++ [q]) f (by simp [heq]) (by simpa using hfuel)
    cases herr : error q.event with
    | true => simpa [claimLoop, ids, Heap.load, hd, herr] using hnext
    | false => simp [claimLoop, ids, Heap.load, hd, herr]

theorem claimNext_refines {d : DllGraph} {gr : Graph} (hr : Refines d gr) (error : EventId → Bool) :
    match gr.equeue.find? fun q => !error q.event with
    | none => claimNext d error = some (d, none)
    | some q => ∃ d', claimNext d error = some (d', some q.id) ∧ d'.heap.next = d.heap.next ∧
        Refines d' { gr with equeue := gr.equeue.erase q, claimed := gr.claimed ++ [q] } := by
  have hloop : claimLoop d.heap error d.fuel d.equeue =
      some ((gr.equeue.find? fun q => !error q.event).map Entry.id) := by
    rw [hr.equeue.head_eq]
    exact claimLoop_spec hr.equeue.linked (fun q hq => hr.events q (List.mem_append_left _ hq)) _ [] _ rfl
      (by simpa [ids] using hr.length_equeue)
  split
  · rename_i hnone
    simp [claimNext, hloop, hnone]
  · rename_i q hq
    have hmem : q ∈ gr.equeue := List.mem_of_find?_eq_some hq
    have hnc : q.id ∉ ids gr.claimed := hr.disjoint _ (mem_ids hmem)
    obtain ⟨h1, hrun1, hdll1, hsame1, hlinks⟩ := crtx_dll_unlink_spec hr.equeue (mem_ids hmem)
    obtain ⟨n, hn, _⟩ := Option.map_eq_some_iff.mp hlinks
    -- `claimed` shares no node with `equeue`, so the unlink did not touch it.
    have hcl1 : IsDll h1 d.claimed (ids gr.claimed) := by
      apply hr.claimed.frame
      intro a ha
      exact hsame1.cell a fun h => hr.disjoint a h ha
    obtain ⟨h2, hrun2, hdll2, hsame2⟩ := crtx_dll_append_spec hcl1 hnc hn hr.length_claimed
    have herase := ids_erase hr.equeue.nodup hmem
    have hids : ids (gr.claimed ++ [q]) = ids gr.claimed ++ [q.id] := by rw [ids_append]; rfl
    have hqe : q.id ∉ (ids gr.equeue).erase q.id := hr.equeue.nodup.not_mem_erase
    refine ⟨{ heap := h2, equeue := ((ids gr.equeue).erase q.id).head?,
              claimed := (ids gr.claimed ++ [q.id]).head? }, ?_, ?_, ?_, ?_, ?_, ?_, ?_⟩
    · simp only [claimNext, hloop, hq, Option.map_some, Option.bind_eq_bind, Option.bind_some, hrun1, hrun2]
      rfl
    · rw [hsame2.next, hsame1.next]
    · rw [herase]
      apply hdll1.frame
      intro a ha
      apply hsame2.cell
      rw [List.mem_append, List.mem_singleton]
      rintro (h | rfl)
      · exact hr.disjoint a (List.mem_of_mem_erase ha) h
      · exact hqe ha
    · rw [hids]
      exact hdll2
    · rw [herase, hids]
      intro a ha h
      rw [List.mem_append, List.mem_singleton] at h
      rcases h with h | rfl
      · exact hr.disjoint a (List.mem_of_mem_erase ha) h
      · exact hqe ha
    · intro p hp
      rw [hsame2.data, hsame1.data]
      apply hr.events
      simp only [List.mem_append, List.mem_singleton] at hp ⊢
      rcases hp with hp | hp | rfl
      · exact Or.inl (List.mem_of_mem_erase hp)
      · exact Or.inr hp
      · exact Or.inl hmem
    · exact hsame2.fresh (hsame1.fresh hr.fresh)

theorem finishClaimed_refines {d : DllGraph} {gr : Graph} (hr : Refines d gr) {q : Entry} (hq : q ∈ gr.claimed) :
    ∃ d', finishClaimed d q.id = some d' ∧ d'.heap.next = d.heap.next ∧
      Refines d' { gr with claimed := gr.claimed.erase q } := by
  obtain ⟨h1, hrun, hdll, hsame, hlinks⟩ := crtx_dll_unlink_spec hr.claimed (mem_ids hq)
  obtain ⟨n, hn, _⟩ := Option.map_eq_some_iff.mp hlinks
  have herase := ids_erase hr.claimed.nodup hq
  have hqe : q.id ∉ ids gr.equeue := fun h => hr.disjoint _ h (mem_ids hq)
  have hqc : q.id ∉ (ids gr.claimed).erase q.id := hr.claimed.nodup.not_mem_erase
  refine ⟨{ d with heap := h1.put q.id none, claimed := ((ids gr.claimed).erase q.id).head? },
    ?_, hsame.next, ?_, ?_, ?_, ?_, ?_⟩
  · simp only [finishClaimed, hrun, Option.bind_eq_bind, Option.bind_some, Heap.free_some hn]
    rfl
  · apply hr.equeue.frame
    intro a ha
    have hne : a ≠ q.id := by rintro rfl; exact hqe ha
    rw [Heap.put_cell, Function.update_of_ne hne]
    exact hsame.cell a (hr.disjoint a ha)
  · rw [herase]
    apply hdll.frame
    intro a ha
    have hne : a ≠ q.id := by rintro rfl; exact hqc ha
    rw [Heap.put_cell, Function.update_of_ne hne]
  · intro a ha h
    rw [herase] at h
    exact hr.disjoint a ha (List.mem_of_mem_erase h)
  · intro p hp
    rw [List.mem_append] at hp
    have hne : p.id ≠ q.id := by
      rcases hp with hp | hp
      · intro h; exact hqe (h ▸ mem_ids hp)
      · intro h; exact hqc (herase ▸ h ▸ mem_ids hp)
    have hold : dataAt (h1.put q.id none) p.id = dataAt h1 p.id := by
      rw [dataAt, Heap.put_cell, Function.update_of_ne hne]; rfl
    rw [hold, hsame.data]
    apply hr.events
    rw [List.mem_append]
    exact hp.imp id List.mem_of_mem_erase
  · intro a ha
    have := hsame.fresh hr.fresh a ha
    by_cases h : a = q.id
    · subst h; simp
    · rw [Heap.put_cell, Function.update_of_ne h]; exact this

end Libcortex.Queue
