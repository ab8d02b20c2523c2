import Mathlib.Algebra.Group.Nat.Defs
import Mathlib.Data.List.Basic

/-!
# Numbers and blocks in a stream of bytes

The least byte of a number comes first. A block is read whole or not at all.
-/

namespace Libcortex.Lib

def leBytes : Nat → Nat → List UInt8
  | 0, _ => []
  | k + 1, n => UInt8.ofNat n :: leBytes k (n / 256)

def leNat : List UInt8 → Nat
  | [] => 0
  | b :: bs => b.toNat + 256 * leNat bs

@[simp] theorem leBytes_length (k n : Nat) : (leBytes k n).length = k := by
  induction k generalizing n with
  | zero => rfl
  | succ k ih => rw [leBytes, List.length_cons, ih]

theorem leNat_leBytes (k n : Nat) (h : n < 256 ^ k) : leNat (leBytes k n) = n := by
  induction k generalizing n with
  | zero =>
    rw [Nat.pow_zero] at h
    rw [leBytes, leNat]
    omega
  | succ k ih =>
    rw [Nat.pow_succ] at h
    have hdiv : n / 256 < 256 ^ k := by omega
    rw [leBytes, leNat, ih (n / 256) hdiv, UInt8.toNat_ofNat']
    omega

theorem leNat_leBytes_mod (k n : Nat) : leNat (leBytes k n) = n % 256 ^ k := by
  induction k generalizing n with
  | zero => simp [leBytes, leNat, Nat.mod_one]
  | succ k ih =>
    have hsplit : n % 256 ^ (k + 1) = n % 256 + 256 * (n / 256 % 256 ^ k) := by rw [Nat.pow_succ', Nat.mod_mul]
    rw [leBytes, leNat, ih, UInt8.toNat_ofNat', hsplit]

theorem take_leBytes {j k : Nat} (h : j ≤ k) (n : Nat) : (leBytes k n).take j = leBytes j n := by
  induction k generalizing j n with
  | zero =>
    obtain rfl := Nat.le_zero.mp h
    rfl
  | succ k ih =>
    cases j with
    | zero => rfl
    | succ j => rw [leBytes, leBytes, List.take_succ_cons, ih (Nat.le_of_succ_le_succ h)]

theorem leBytes_leNat (bs : List UInt8) : leBytes bs.length (leNat bs) = bs := by
  induction bs with
  | nil => rfl
  | cons b bs ih =>
    have hlt := b.toNat_lt
    have hdiv : (b.toNat + 256 * leNat bs) / 256 = leNat bs := by omega
    have hb : UInt8.ofNat (b.toNat + 256 * leNat bs) = b := by
      apply UInt8.toNat_inj.mp
      rw [UInt8.toNat_ofNat']
      omega
    rw [List.length_cons, leNat, leBytes, hdiv, hb, ih]

/-- The first `n` bytes and the rest. -/
def splitBlock (n : Nat) (bs : List UInt8) : Option (List UInt8 × List UInt8) :=
  if n ≤ bs.length then some (bs.take n, bs.drop n) else none

theorem splitBlock_append {n : Nat} {a : List UInt8} (h : a.length = n) (bs : List UInt8) :
    splitBlock n (a ++ bs) = some (a, bs) := by
  subst h
  unfold splitBlock
  rw [if_pos (by simp), List.take_left, List.drop_left]

/-! ## Bytes as text -/

/-- A digit of `%02x`. -/
def hexDigit (n : Nat) : UInt8 := UInt8.ofNat (if n < 10 then 48 + n else 87 + n)

theorem hexDigit_ne_zero {n : Nat} (h : n < 16) : hexDigit n ≠ 0 := by
  intro h0
  have hnat := congrArg UInt8.toNat h0
  unfold hexDigit at hnat
  split at hnat <;> simp at hnat <;> omega

end Libcortex.Lib
