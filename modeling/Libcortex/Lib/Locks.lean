import Mathlib.Data.List.Basic

/-!
# Traces of non-recursive locks

A trace lists what one thread does with its locks, the newest first. It is in order if no lock is
taken twice, none is given back that isn't held, and none is used after it was destroyed.
-/

namespace Libcortex.Lib

variable {μ : Type} [DecidableEq μ]

inductive LockOp (μ : Type) where
  | lock (m : μ)
  | unlock (m : μ)
  | destroy (ms : List μ)
deriving DecidableEq, Repr

/-- The locks that are held, and those that no longer exist. -/
structure Locks (μ : Type) where
  held : List μ
  dead : List μ
deriving DecidableEq, Repr

def Locks.apply (k : Locks μ) : LockOp μ → Option (Locks μ)
  | .lock m => if m ∈ k.held ∨ m ∈ k.dead then none else some { k with held := m :: k.held }
  | .unlock m => if m ∈ k.held then some { k with held := k.held.erase m } else none
  | .destroy ms => some ⟨k.held.filter fun m => m ∉ ms, ms ++ k.dead⟩

/-- What the trace leaves behind. `none` if it is not in order. -/
def locksAfter : List (LockOp μ) → Option (Locks μ)
  | [] => some ⟨[], []⟩
  | op :: ops => (locksAfter ops).bind fun k => k.apply op

theorem Locks.apply_lock {k : Locks μ} {m : μ} (hh : m ∉ k.held) (hd : m ∉ k.dead) :
    k.apply (.lock m) = some { k with held := m :: k.held } := by
  exact if_neg (not_or.mpr ⟨hh, hd⟩)

theorem Locks.apply_unlock {k : Locks μ} {m : μ} (hh : m ∈ k.held) :
    k.apply (.unlock m) = some { k with held := k.held.erase m } := by
  exact if_pos hh

theorem locksAfter_append_none {ops : List (LockOp μ)} (h : locksAfter ops = none) (new : List (LockOp μ)) :
    locksAfter (new ++ ops) = none := by
  induction new with
  | nil => exact h
  | cons op new ih => rw [List.cons_append, locksAfter, ih, Option.bind_none]

end Libcortex.Lib
