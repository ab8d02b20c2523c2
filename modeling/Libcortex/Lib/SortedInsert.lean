import Mathlib.Data.List.Sort

/-!
# Stable insertion

A list is sorted by a key. A new element goes in front of the first one with a greater key.
-/

namespace Libcortex.Lib

variable {α κ : Type} [LinearOrder κ]

/-- The new element comes after those with the same key. -/
abbrev sortedInsert (key : α → κ) (a : α) (l : List α) : List α := l.orderedInsert (fun x y => key x < key y) a

def SortedBy (key : α → κ) (l : List α) : Prop := l.Pairwise fun x y => key x ≤ key y

variable {key : α → κ} {a : α} {l : List α}

theorem sortedInsert_split (key : α → κ) (a : α) (l : List α) :
    ∃ x y, l = x ++ y ∧ sortedInsert key a l = x ++ a :: y ∧ (∀ b ∈ x, ¬ key a < key b) ∧
      ∀ b ∈ y.head?, key a < key b := by
  induction l with
  | nil => exact ⟨[], [], rfl, rfl, by simp, by simp⟩
  | cons b l ih =>
    unfold sortedInsert
    rw [List.orderedInsert_cons]
    split
    · rename_i hab
      exact ⟨[], b :: l, rfl, rfl, by simp, by simpa using hab⟩
    · rename_i hab
      obtain ⟨x, y, hl, hi, hx, hy⟩ := ih
      refine ⟨b :: x, y, congrArg (b :: ·) hl, congrArg (b :: ·) hi, ?_, hy⟩
      rintro c (_ | ⟨_, hc⟩)
      · exact hab
      · exact hx c hc

theorem SortedBy.insert (h : SortedBy key l) : SortedBy key (sortedInsert key a l) := by
  induction l with
  | nil => exact List.pairwise_singleton ..
  | cons b l ih =>
    obtain ⟨hb, hl⟩ := List.pairwise_cons.mp h
    unfold sortedInsert
    rw [List.orderedInsert_cons]
    split
    · rename_i hab
      refine List.pairwise_cons.mpr ⟨?_, h⟩
      rintro c (_ | ⟨_, hc⟩)
      · exact hab.le
      · exact hab.le.trans (hb c hc)
    · rename_i hab
      refine List.pairwise_cons.mpr ⟨?_, ih hl⟩
      intro c hc
      rcases (List.mem_orderedInsert _).mp hc with rfl | hc
      · exact not_lt.mp hab
      · exact hb c hc

theorem SortedBy.filter_insert (h : SortedBy key l) (k : κ) :
    (sortedInsert key a l).filter (key · = k) = (l ++ [a]).filter (key · = k) := by
  induction l with
  | nil => rfl
  | cons b l ih =>
    obtain ⟨hb, hl⟩ := List.pairwise_cons.mp h
    unfold sortedInsert
    rw [List.orderedInsert_cons]
    split
    · rename_i hab
      -- All keys behind the new element are greater.
      have hgt : ∀ c ∈ b :: l, key a < key c := by
        rintro c (_ | ⟨_, hc⟩)
        · exact hab
        · exact hab.trans_le (hb c hc)
      by_cases hk : key a = k
      · have hnil : (b :: l).filter (key · = k) = [] := by
          simp only [List.filter_eq_nil_iff, decide_eq_true_eq]
          intro c hc hck
          exact (hgt c hc).ne (hk.trans hck.symm)
        rw [List.filter_cons, List.filter_append, hnil]
        simp [hk]
      · rw [List.filter_cons, List.filter_append]
        simp [hk]
    · rw [List.cons_append, List.filter_cons, List.filter_cons, ← ih hl]

end Libcortex.Lib
