import Mathlib.Data.List.Basic
import Mathlib.Data.List.Nodup
import Mathlib.Data.List.Perm.Subperm
import Mathlib.Logic.Function.Basic

/-!
# A heap of doubly linked nodes

A block is named by a number, and no name is used twice: a pointer to a freed block
stays a pointer to nothing. An access to such a block is a fault (`none`).
-/

namespace Libcortex.Lib

structure Heap (ν : Type) where
  next : Nat
  cell : Nat → Option ν

namespace Heap

variable {ν : Type}

def empty : Heap ν := { next := 0, cell := fun _ => none }

def put (h : Heap ν) (a : Nat) (v : Option ν) : Heap ν := { h with cell := Function.update h.cell a v }

def alloc (h : Heap ν) (v : ν) : Heap ν × Nat := ({ h.put h.next (some v) with next := h.next + 1 }, h.next)

def load (h : Heap ν) (a : Nat) : Option ν := h.cell a

def store (h : Heap ν) (a : Nat) (v : ν) : Option (Heap ν) :=
  if (h.cell a).isSome then some (h.put a (some v)) else none

def free (h : Heap ν) (a : Nat) : Option (Heap ν) :=
  if (h.cell a).isSome then some (h.put a none) else none

@[simp] theorem put_next (h : Heap ν) (a : Nat) (v : Option ν) : (h.put a v).next = h.next := rfl

@[simp] theorem put_cell (h : Heap ν) (a : Nat) (v : Option ν) :
    (h.put a v).cell = Function.update h.cell a v := rfl

@[simp] theorem put_put (h : Heap ν) (a : Nat) (v w : Option ν) : (h.put a v).put a w = h.put a w := by
  simp [put]

theorem put_comm (h : Heap ν) {a b : Nat} (hne : a ≠ b) (v w : Option ν) :
    (h.put a v).put b w = (h.put b w).put a v := by
  simp only [put, Function.update_comm hne]

/-- Only blocks below `next` were ever allocated. -/
def Fresh (h : Heap ν) : Prop := ∀ a, h.next ≤ a → h.cell a = none

theorem fresh_empty : (empty : Heap ν).Fresh := fun _ _ => rfl

theorem fresh_alloc {h : Heap ν} (hf : h.Fresh) (v : ν) : (h.alloc v).1.Fresh := by
  intro a ha
  simp only [alloc, put_cell] at ha ⊢
  rw [Function.update_of_ne (by omega)]
  exact hf a (by omega)

theorem Fresh.put_none {h : Heap ν} (hf : h.Fresh) (a : Nat) : (h.put a none).Fresh := by
  intro b hb
  rw [put_cell, Function.update_apply, hf b hb, ite_self]

theorem lt_next {h : Heap ν} (hf : h.Fresh) {a : Nat} {v : ν} (ha : h.cell a = some v) : a < h.next := by
  by_contra hn
  rw [hf a (by omega)] at ha
  cases ha

theorem store_some {h : Heap ν} {a : Nat} {w : ν} (ha : h.cell a = some w) (v : ν) :
    h.store a v = some (h.put a (some v)) := by
  simp [store, ha]

theorem free_some {h : Heap ν} {a : Nat} {w : ν} (ha : h.cell a = some w) :
    h.free a = some (h.put a none) := by
  simp [free, ha]

/-- Only the blocks in `l` have changed, and those carry what they carried. -/
structure Edited {δ : Type} (data : ν → δ) (l : List Nat) (h h' : Heap ν) : Prop where
  next : h'.next = h.next
  cell : ∀ a, a ∉ l → h'.cell a = h.cell a
  data : ∀ a, (h'.cell a).map data = (h.cell a).map data

theorem Edited.fresh {δ : Type} {data : ν → δ} {l : List Nat} {h h' : Heap ν} (he : Edited data l h h')
    (hf : h.Fresh) : h'.Fresh := by
  intro a ha
  rw [he.next] at ha
  have hd := he.data a
  rw [hf a ha] at hd
  exact Option.map_eq_none_iff.mp hd

theorem Edited.isSome {δ : Type} {data : ν → δ} {l : List Nat} {h h' : Heap ν} (he : Edited data l h h') {a : Nat}
    (ha : ∃ n, h.cell a = some n) : ∃ n, h'.cell a = some n := by
  obtain ⟨n, hn⟩ := ha
  have hd := he.data a
  rw [hn] at hd
  obtain ⟨n', hn', -⟩ := Option.map_eq_some_iff.mp hd
  exact ⟨n', hn'⟩

end Heap

/-- A node of a doubly linked list. -/
structure Node (δ : Type) where
  prev : Option Nat
  next : Option Nat
  data : δ
deriving DecidableEq, Repr

section

variable {δ : Type}

/-- Each node of `l` points to its neighbours in `l`. -/
def Linked (h : Heap (Node δ)) (l : List Nat) : Prop :=
  ∀ xs a ys, l = xs ++ a :: ys → ∃ d, h.cell a = some ⟨xs.getLast?, ys.head?, d⟩

/-- The nodes that follow `head` are `l`, in both directions. -/
structure IsDll (h : Heap (Node δ)) (head : Option Nat) (l : List Nat) : Prop where
  head_eq : head = l.head?
  nodup : l.Nodup
  linked : Linked h l

theorem isDll_nil (h : Heap (Node δ)) : IsDll h none [] :=
  ⟨rfl, List.nodup_nil, by intro xs a ys hl; simp at hl⟩

theorem Linked.cell {h : Heap (Node δ)} {l : List Nat} (hl : Linked h l) {a : Nat} (ha : a ∈ l) :
    ∃ n, h.cell a = some n := by
  obtain ⟨xs, ys, rfl⟩ := List.append_of_mem ha
  obtain ⟨d, hd⟩ := hl xs a ys rfl
  exact ⟨_, hd⟩

theorem Linked.frame {h h' : Heap (Node δ)} {l : List Nat} (hl : Linked h l)
    (hsame : ∀ a ∈ l, h'.cell a = h.cell a) : Linked h' l := by
  intro xs a ys heq
  obtain ⟨d, hd⟩ := hl xs a ys heq
  exact ⟨d, by rw [hsame a (by simp [heq]), hd]⟩

theorem IsDll.frame {h h' : Heap (Node δ)} {head : Option Nat} {l : List Nat} (hl : IsDll h head l)
    (hsame : ∀ a ∈ l, h'.cell a = h.cell a) : IsDll h' head l :=
  ⟨hl.head_eq, hl.nodup, hl.linked.frame hsame⟩

theorem IsDll.length_le {h : Heap (Node δ)} {head : Option Nat} {l : List Nat} (hl : IsDll h head l) (hf : h.Fresh) :
    l.length ≤ h.next := by
  have hsub : l ⊆ List.range h.next := by
    intro a ha
    obtain ⟨n, hn⟩ := hl.linked.cell ha
    exact List.mem_range.mpr (Heap.lt_next hf hn)
  have := (hl.nodup.subperm hsub).length_le
  simpa using this

theorem Linked.snoc {h h' : Heap (Node δ)} {l : List Nat} {x : Nat} {d : δ} (hl : Linked h l)
    (hnd : l.Nodup) (hx : h'.cell x = some ⟨l.getLast?, none, d⟩)
    (hlast : ∀ xs a, l = xs ++ [a] → h'.cell a = (h.cell a).map ({ · with next := some x }))
    (hsame : ∀ a ∈ l, l.getLast? ≠ some a → h'.cell a = h.cell a) : Linked h' (l ++ [x]) := by
  intro xs a ys heq
  rcases List.eq_nil_or_concat ys with rfl | ⟨zs, c, rfl⟩
  · obtain ⟨rfl, rfl⟩ : l = xs ∧ x = a := by simpa using heq
    exact ⟨d, by simpa using hx⟩
  · obtain ⟨rfl, rfl⟩ : l = xs ++ a :: zs ∧ x = c := by
      rw [List.concat_eq_append, ← List.cons_append, ← List.append_assoc] at heq
      simpa using List.append_inj' heq rfl
    obtain ⟨e, he⟩ := hl xs a zs rfl
    cases zs with
    | nil => exact ⟨e, by rw [hlast xs a rfl, he]; simp⟩
    | cons z zs =>
      refine ⟨e, ?_⟩
      rw [hsame a (by simp) ?_, he]
      · simp
      · -- `a` is not the last node, because the last node is in `z :: zs`.
        intro hlast'
        have hmem : a ∈ z :: zs := by
          rw [List.getLast?_append_of_ne_nil _ (by simp), List.getLast?_cons_cons] at hlast'
          exact List.mem_of_getLast? hlast'
        have := (List.nodup_append.mp hnd).2.1
        simp only [List.nodup_cons] at this
        exact this.1 hmem

theorem Linked.remove {h h' : Heap (Node δ)} {xs ys : List Nat} {a : Nat}
    (hl : Linked h (xs ++ a :: ys)) (hnd : (xs ++ a :: ys).Nodup)
    (hprev : ∀ b, xs.getLast? = some b → h'.cell b = (h.cell b).map ({ · with next := ys.head? }))
    (hnext : ∀ b, ys.head? = some b → h'.cell b = (h.cell b).map ({ · with prev := xs.getLast? }))
    (hsame : ∀ b ∈ xs ++ ys, xs.getLast? ≠ some b → ys.head? ≠ some b → h'.cell b = h.cell b) :
    Linked h' (xs ++ ys) := by
  have hdisj : ∀ b ∈ xs, b ∉ ys := by
    intro b hb hb'
    exact (List.nodup_append.mp hnd).2.2 b hb b (List.mem_cons_of_mem _ hb') rfl
  have hin_ys : ∀ us b vs, ys = us ++ b :: vs → ∃ d, h'.cell b = some ⟨(xs ++ us).getLast?, vs.head?, d⟩ := by
    intro us b vs hys
    have hbx : xs.getLast? ≠ some b := fun hb =>
      hdisj b (List.mem_of_getLast? hb) (by simp [hys])
    obtain ⟨d, hd⟩ := hl (xs ++ a :: us) b vs (by simp [hys])
    refine ⟨d, ?_⟩
    cases us with
    | nil => rw [hnext b (by simp [hys]), hd]; simp
    | cons u us =>
      have hub : ys.head? ≠ some b := by
        intro hb
        have hnd' := (List.nodup_append.mp hnd).2.1
        rw [hys] at hnd' hb
        simp at hnd' hb
        exact hnd'.2.1.2.1 hb
      rw [hsame b (by simp [hys]) hbx hub, hd]
      simp
  intro us b vs heq
  rcases List.append_eq_append_iff.mp heq with ⟨ws, rfl, hys⟩ | ⟨ws, rfl, hws⟩
  · exact hin_ys ws b vs hys
  · cases ws with
    | nil =>
      obtain ⟨d, hd⟩ := hin_ys [] b vs (by simpa using hws.symm)
      exact ⟨d, by simpa using hd⟩
    | cons w ws =>
      obtain ⟨rfl, rfl⟩ : b = w ∧ vs = ws ++ ys := by simpa using hws
      obtain ⟨d, hd⟩ := hl us b (ws ++ a :: ys) (by simp)
      refine ⟨d, ?_⟩
      have hby : ys.head? ≠ some b := fun hb => hdisj b (by simp) (List.mem_of_mem_head? (by simpa using hb))
      cases ws with
      | nil => rw [hprev b (by simp), hd]; simp
      | cons w ws =>
        have hlast : (us ++ b :: w :: ws).getLast? ≠ some b := by
          intro hb
          rw [List.getLast?_append_of_ne_nil _ (by simp), List.getLast?_cons_cons] at hb
          have := (List.nodup_append.mp (List.nodup_append.mp hnd).1).2.1
          exact (List.nodup_cons.mp this).1 (List.mem_of_getLast? hb)
        rw [hsame b (by simp) hlast hby, hd]
        simp

theorem Linked.insert {h h' : Heap (Node δ)} {xs ys : List Nat} {a x : Nat} {d : δ} (hl : Linked h (xs ++ a :: ys))
    (hx : h'.cell x = some ⟨xs.getLast?, some a, d⟩)
    (hprev : ∀ us b, xs = us ++ [b] → h'.cell b = (h.cell b).map ({ · with next := some x }))
    (hnext : h'.cell a = (h.cell a).map ({ · with prev := some x }))
    (hbefore : ∀ us b vs, xs = us ++ b :: vs → vs ≠ [] → h'.cell b = h.cell b)
    (hbehind : ∀ b ∈ ys, h'.cell b = h.cell b) : Linked h' (xs ++ x :: a :: ys) := by
  intro us b vs heq
  rcases List.append_eq_append_iff.mp heq with ⟨ws, rfl, hws⟩ | ⟨ws, rfl, hws⟩
  · -- `b` is `x` or one of the nodes behind it.
    rcases ws with _ | ⟨w, _ | ⟨v, ws⟩⟩
    · obtain ⟨rfl, rfl⟩ : x = b ∧ a :: ys = vs := by simpa using hws
      exact ⟨d, by simpa using hx⟩
    · obtain ⟨rfl, rfl, rfl⟩ : x = w ∧ a = b ∧ ys = vs := by simpa using hws
      obtain ⟨e, he⟩ := hl xs a ys rfl
      exact ⟨e, by rw [hnext, he]; simp⟩
    · obtain ⟨rfl, rfl, rfl⟩ : x = w ∧ a = v ∧ ys = ws ++ b :: vs := by simpa using hws
      obtain ⟨e, he⟩ := hl (xs ++ a :: ws) b vs (by simp)
      exact ⟨e, by rw [hbehind b (by simp), he]; simp⟩
  · -- `b` is `x` again, or one of the nodes before it.
    cases ws with
    | nil =>
      obtain ⟨rfl, rfl⟩ : b = x ∧ vs = a :: ys := by simpa using hws
      exact ⟨d, by simpa using hx⟩
    | cons w ws =>
      obtain ⟨rfl, rfl⟩ : b = w ∧ vs = ws ++ x :: a :: ys := by simpa using hws
      obtain ⟨e, he⟩ := hl us b (ws ++ a :: ys) (by simp)
      refine ⟨e, ?_⟩
      cases ws with
      | nil => rw [hprev us b rfl, he]; simp
      | cons w ws => rw [hbefore us b (w :: ws) rfl (by simp), he]; simp

end

end Libcortex.Lib
