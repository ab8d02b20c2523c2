import Mathlib.Tactic.Ring
import Mathlib.Data.Int.Order.Basic

/-!
# Arithmetic that is checked

Integer types by their ranges. An operation gives a value only if the exact result is in the range of its type.
-/

namespace Libcortex.Lib

structure IntType where
  min : Int
  max : Int
deriving DecidableEq

namespace IntType

def signed (w : Nat) : IntType := ⟨-2 ^ (w - 1), 2 ^ (w - 1) - 1⟩

def unsigned (w : Nat) : IntType := ⟨0, 2 ^ w - 1⟩

def Fits (τ : IntType) (x : Int) : Prop := τ.min ≤ x ∧ x ≤ τ.max

instance (τ : IntType) (x : Int) : Decidable (τ.Fits x) := inferInstanceAs (Decidable (_ ∧ _))

/-- `none`: an overflow. -/
def checked (τ : IntType) (x : Int) : Option Int := if τ.Fits x then some x else none

theorem checked_eq {τ : IntType} {x : Int} (h : τ.Fits x) : τ.checked x = some x := if_pos h

theorem checked_bind {α : Type} {τ : IntType} {x : Int} (h : τ.Fits x) (f : Int → Option α) :
    (τ.checked x).bind f = f x := by
  rw [checked_eq h, Option.bind_some]

end IntType

/-- The value that a conversion to an unsigned type gives. -/
def toUnsigned (w : Nat) (x : Int) : Int := x % 2 ^ w

theorem toUnsigned_eq {w : Nat} {x : Int} (h : 0 ≤ x) (hlt : x < 2 ^ w) : toUnsigned w x = x := Int.emod_eq_of_lt h hlt

section Fold

variable {α β γ : Type} {f : β → α → Option β} {g : γ → α → γ} {r : γ → β} {Inv : γ → Prop}

theorem foldlM_eq {as : List α} (hstep : ∀ c, Inv c → ∀ a ∈ as, f (r c) a = some (r (g c a)) ∧ Inv (g c a))
    {c : γ} (hc : Inv c) : as.foldlM f (r c) = some (r (as.foldl g c)) := by
  induction as generalizing c with
  | nil => rfl
  | cons a as ih =>
    obtain ⟨ha, hinv⟩ := hstep c hc a List.mem_cons_self
    rw [List.foldlM_cons, ha, List.foldl_cons]
    exact ih (fun c hc b hb => hstep c hc b (List.mem_cons_of_mem a hb)) hinv

end Fold

end Libcortex.Lib
