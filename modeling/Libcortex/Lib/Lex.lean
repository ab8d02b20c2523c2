import Mathlib.Algebra.Order.Group.Int
import Mathlib.Data.List.Lex

/-!
# Comparisons by a code

A comparison returns a number, of which only the sign counts. If every value has a code such that two values compare as
their codes do, whatever follows the codes, then values in sequence may be compared one after the other, and the
comparison is a total preorder because the lists are in a linear order.
-/

namespace Libcortex.Lib

variable {α : Type} [LinearOrder α]

structure Orders (r : Int) (u v : List α) : Prop where
  lt : r < 0 → ∀ x y, u ++ x < v ++ y
  eq : r = 0 → u = v
  gt : 0 < r → ∀ x y, v ++ y < u ++ x

section Codes

variable {r : Int} {u v : List α} {a b : α}

theorem orders_refl (u : List α) : Orders 0 u u := by
  refine ⟨?_, fun _ => rfl, ?_⟩ <;> simp

theorem orders_of_lt (hr : r < 0) (h : a < b) (u v : List α) : Orders r (a :: u) (b :: v) where
  lt _ x y := by
    rw [List.cons_append, List.cons_append]
    exact List.cons_lt_cons_iff.mpr (.inl h)
  eq hz := by omega
  gt hp := by omega

theorem orders_of_gt (hr : 0 < r) (h : b < a) (u v : List α) : Orders r (a :: u) (b :: v) where
  lt hn := by omega
  eq hz := by omega
  gt _ x y := by
    rw [List.cons_append, List.cons_append]
    exact List.cons_lt_cons_iff.mpr (.inl h)

theorem Orders.append (h : Orders r u v) (hr : r ≠ 0) (x y : List α) : Orders r (u ++ x) (v ++ y) where
  lt hn x' y' := by
    rw [List.append_assoc, List.append_assoc]
    exact h.lt hn _ _
  eq hz := absurd hz hr
  gt hp x' y' := by
    rw [List.append_assoc, List.append_assoc]
    exact h.gt hp _ _

theorem Orders.append_left (h : Orders r u v) (x : List α) : Orders r (x ++ u) (x ++ v) where
  lt hn x' y' := by
    rw [List.append_assoc, List.append_assoc]
    exact List.append_left_lt (h.lt hn _ _)
  eq hz := by rw [h.eq hz]
  gt hp x' y' := by
    rw [List.append_assoc, List.append_assoc]
    exact List.append_left_lt (h.gt hp _ _)

theorem Orders.cons (h : Orders r u v) (a : α) : Orders r (a :: u) (a :: v) := h.append_left [a]

end Codes

/-! ## The laws -/

variable {r r' r'' : Int} {u v w : List α}

theorem Orders.lt_iff (h : Orders r u v) : r < 0 ↔ u < v := by
  have hlt : r < 0 → u < v := fun hn => by simpa using h.lt hn [] []
  have hgt : 0 < r → v < u := fun hp => by simpa using h.gt hp [] []
  refine ⟨hlt, fun huv => ?_⟩
  rcases lt_trichotomy r 0 with hn | hz | hp
  · exact hn
  · exact absurd huv (h.eq hz ▸ lt_irrefl _)
  · exact absurd huv (lt_asymm (hgt hp))

theorem Orders.swap (h : Orders r u v) : Orders (-r) v u where
  lt hn := fun x y => h.gt (by omega) y x
  eq hz := (h.eq (by omega)).symm
  gt hp := fun x y => h.lt (by omega) y x

theorem Orders.gt_iff (h : Orders r u v) : 0 < r ↔ v < u := by
  rw [← h.swap.lt_iff]
  omega

theorem Orders.le_iff (h : Orders r u v) : r ≤ 0 ↔ u ≤ v := by
  rw [← not_lt, h.gt_iff, not_lt]

theorem Orders.eq_zero (h : Orders r u u) : r = 0 := by
  have hlt := h.lt_iff
  have hgt := h.gt_iff
  simp only [lt_self_iff_false, iff_false] at hlt hgt
  omega

theorem Orders.sign_swap (h : Orders r u v) (h' : Orders r' v u) : r'.sign = -r.sign := by
  have hlt : r < 0 ↔ 0 < r' := h.lt_iff.trans h'.gt_iff.symm
  have hgt : 0 < r ↔ r' < 0 := h.gt_iff.trans h'.lt_iff.symm
  rcases lt_trichotomy r 0 with hn | hz | hp
  · rw [Int.sign_eq_neg_one_of_neg hn, Int.sign_eq_one_of_pos (hlt.mp hn), neg_neg]
  · have hz' : r' = 0 := by omega
    rw [hz, hz', Int.sign_zero, neg_zero]
  · rw [Int.sign_eq_one_of_pos hp, Int.sign_eq_neg_one_of_neg (hgt.mp hp)]

theorem Orders.trans (h : Orders r u v) (h' : Orders r' v w) (h'' : Orders r'' u w) (hr : r ≤ 0) (hr' : r' ≤ 0) :
    r'' ≤ 0 :=
  h''.le_iff.mpr (le_trans (h.le_iff.mp hr) (h'.le_iff.mp hr'))

end Libcortex.Lib
