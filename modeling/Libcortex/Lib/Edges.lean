import Mathlib.Data.List.Chain

/-!
# What an observer hears of a value that changes

The observer isn't told the value, but each time that it gets a property or loses it. `present` is the property, and
`change a b` is what the observer hears when the value goes from `a` to `b`.
-/

namespace Libcortex.Lib

variable {α β : Type}

/-- What is heard while the value goes from `a` through the list. -/
def edges (change : α → α → List β) : α → List α → List β
  | _, [] => []
  | a, b :: l => change a b ++ edges change b l

/-- One call for each change of the property, and it tells the new one. -/
def Tells (present : α → Bool) (change : α → α → List β) (on : β → Bool) : Prop :=
  ∀ a b, (present a = present b ∧ change a b = []) ∨
    (present a ≠ present b ∧ ∃ c, change a b = [c] ∧ on c = present b)

@[simp] theorem edges_nil (change : α → α → List β) (a : α) : edges change a [] = [] := rfl

theorem edges_snoc (change : α → α → List β) (a : α) (l : List α) (b : α) :
    edges change a (l ++ [b]) = edges change a l ++ change (l.getLastD a) b := by
  induction l generalizing a with
  | nil => simp [edges]
  | cons x l ih =>
    rw [List.cons_append, edges, ih, edges, List.getLastD_cons, List.append_assoc]

section Tells

variable {present : α → Bool} {change : α → α → List β} {on : β → Bool}

theorem Tells.alternate (h : Tells present change on) (a : α) (l : List α) :
    (edges change a l).IsChain (fun x y => on x ≠ on y) ∧ ∀ c ∈ (edges change a l).head?, on c ≠ present a := by
  induction l generalizing a with
  | nil => simp
  | cons b l ih =>
    obtain ⟨hchain, hhead⟩ := ih b
    unfold edges
    rcases h a b with ⟨hsame, hnil⟩ | ⟨hne, c, hc, hon⟩
    · rw [hnil, List.nil_append, hsame]
      exact ⟨hchain, hhead⟩
    · rw [hc, List.singleton_append]
      refine ⟨hchain.cons ?_, ?_⟩
      · intro y hy
        rw [hon]
        exact (hhead y hy).symm
      · intro x hx
        simp only [List.head?_cons, Option.mem_def, Option.some.injEq] at hx
        rw [← hx, hon]
        exact hne.symm

theorem Tells.last (h : Tells present change on) (a : α) (l : List α) :
    ((edges change a l).getLast?.map on).getD (present a) = present (l.getLastD a) := by
  induction l generalizing a with
  | nil => simp
  | cons b l ih =>
    have hb := ih b
    unfold edges
    rw [List.getLastD_cons, ← hb]
    rcases h a b with ⟨hsame, hnil⟩ | ⟨hne, c, hc, hon⟩
    · rw [hnil, List.nil_append, hsame]
    · rw [hc, List.singleton_append, List.getLast?_cons, Option.map_some, Option.getD_some, ← hon]
      cases (edges change b l).getLast? <;> rfl

end Tells

end Libcortex.Lib
