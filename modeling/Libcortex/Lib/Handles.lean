import Mathlib.Data.List.Basic
import Mathlib.Logic.Function.Basic

/-!
# Handles and their owners

Handles are taken from a pool, like file descriptors. An owner holds at most one. A handle that is open and that nobody
holds is leaked.
-/

namespace Libcortex.Lib

variable {ι κ : Type} {m : ι → Option κ} {opened : List κ}

/-- What an owner holds is open, and held by nobody else. -/
structure Owned (m : ι → Option κ) (opened : List κ) : Prop where
  mem : ∀ i k, m i = some k → k ∈ opened
  own : ∀ i j k, m i = some k → m j = some k → i = j

def NoLeak (m : ι → Option κ) (opened : List κ) : Prop := ∀ k ∈ opened, ∃ i, m i = some k

theorem Owned.mem_iff (h : Owned m opened) (hno : NoLeak m opened) (k : κ) : k ∈ opened ↔ ∃ i, m i = some k := by
  constructor
  · exact hno k
  · rintro ⟨i, hi⟩
    exact h.mem i k hi

variable [DecidableEq ι]

theorem update_none_eq_some {i j : ι} {k : κ} : Function.update m i none j = some k ↔ j ≠ i ∧ m j = some k := by
  by_cases hj : j = i
  · simp [hj]
  · simp [hj]

theorem update_some_eq_some {i j : ι} {k k' : κ} :
    Function.update m i (some k) j = some k' ↔ j = i ∧ k = k' ∨ j ≠ i ∧ m j = some k' := by
  by_cases hj : j = i
  · simp [hj]
  · simp [hj]

theorem Owned.release (h : Owned m opened) (i : ι) : Owned (Function.update m i none) opened where
  mem j k hj := h.mem j k (update_none_eq_some.mp hj).2
  own a b k ha hb := h.own a b k (update_none_eq_some.mp ha).2 (update_none_eq_some.mp hb).2

theorem Owned.noLeak_release (h : Owned m opened) (i : ι) :
    NoLeak (Function.update m i none) opened ↔ NoLeak m opened ∧ m i = none := by
  constructor
  · intro hno
    refine ⟨fun k hk => ?_, ?_⟩
    · obtain ⟨j, hj⟩ := hno k hk
      exact ⟨j, (update_none_eq_some.mp hj).2⟩
    · cases hi : m i with
      | none => rfl
      | some k =>
        obtain ⟨j, hj⟩ := hno k (h.mem i k hi)
        obtain ⟨hne, hj⟩ := update_none_eq_some.mp hj
        exact absurd (h.own j i k hj hi) hne
  · rintro ⟨hno, hi⟩
    rwa [← hi, Function.update_eq_self]

theorem Owned.acquire (h : Owned m opened) {i : ι} {k : κ} (hk : k ∉ opened) :
    Owned (Function.update m i (some k)) (k :: opened) where
  mem j k' hj := by
    obtain ⟨-, rfl⟩ | ⟨-, hj⟩ := update_some_eq_some.mp hj
    · exact List.mem_cons_self
    · exact List.mem_cons_of_mem k (h.mem j k' hj)
  own a b k' ha hb := by
    obtain ⟨rfl, rfl⟩ | ⟨-, ha⟩ := update_some_eq_some.mp ha
    · obtain ⟨rfl, -⟩ | ⟨-, hb⟩ := update_some_eq_some.mp hb
      · rfl
      · exact absurd (h.mem b k hb) hk
    · obtain ⟨-, rfl⟩ | ⟨-, hb⟩ := update_some_eq_some.mp hb
      · exact absurd (h.mem a k ha) hk
      · exact h.own a b k' ha hb

theorem noLeak_acquire {i : ι} {k : κ} (hk : k ∉ opened) (hi : m i = none) :
    NoLeak (Function.update m i (some k)) (k :: opened) ↔ NoLeak m opened := by
  constructor
  · intro hno k' hk'
    obtain ⟨j, hj⟩ := hno k' (List.mem_cons_of_mem k hk')
    obtain ⟨-, rfl⟩ | ⟨-, hj⟩ := update_some_eq_some.mp hj
    · exact absurd hk' hk
    · exact ⟨j, hj⟩
  · intro hno k' hk'
    rcases List.mem_cons.mp hk' with rfl | hk'
    · exact ⟨i, Function.update_self ..⟩
    · obtain ⟨j, hj⟩ := hno k' hk'
      have hne : j ≠ i := by
        rintro rfl
        rw [hi] at hj
        cases hj
      exact ⟨j, by rw [Function.update_of_ne hne, hj]⟩

end Libcortex.Lib
