import Mathlib.Algebra.Group.Nat.Defs
import Libcortex.Lib.Bytes
import Libcortex.Lib.Memory

/-!
# The name of a wireless network

A name is any bytes. `wifi.c` makes a string of it, in which a byte that can't be printed is a backslash, an `x` and two
digits, and so is a backslash. There is room for four bytes for every byte of the name.
-/

open Libcortex.Lib

namespace Libcortex.Wifi

/-! ## The code -/

/-- `'\\'` -/
def BACKSLASH : UInt8 := 92

def LETTER_X : UInt8 := 120

/-- `"\\x%02x"` -/
def hexEscape (c : UInt8) : List UInt8 := [BACKSLASH, LETTER_X, hexDigit (c.toNat / 16), hexDigit (c.toNat % 16)]

def Plain (isprint : UInt8 → Bool) (c : UInt8) : Prop := isprint c ∧ c ≠ BACKSLASH

instance (isprint : UInt8 → Bool) (c : UInt8) : Decidable (Plain isprint c) := inferInstanceAs (Decidable (_ ∧ _))

/-- The loop, over the bytes of the name that are left. `none`: it writes behind the buffer. -/
def escapeLoop (isprint : UInt8 → Bool) (alloc : Nat) : List UInt8 → List UInt8 → Nat → Option (List UInt8)
  | [], s, _ => some s
  | c :: ssid, s, off =>
    if off + 1 < alloc then
      if Plain isprint c then (overwrite s off [c]).bind fun s => escapeLoop isprint alloc ssid s (off + 1)
      else if off + 4 < alloc then
        (snprintf s off (alloc - off) (hexEscape c)).bind fun s => escapeLoop isprint alloc ssid s (off + 4)
      else escapeLoop isprint alloc ssid s off
    else some s

/-- `len * 4 + 1`, of type `size_t` -/
def allocFor (len : Nat) : Nat := (len * 4 + 1) % 2 ^ 64

/-- What the string's memory holds, or NULL if there is no name. -/
def wifi_strdup_ssid (isprint : UInt8 → Bool) (ssid : Option (List UInt8)) : Option (Option (List UInt8)) :=
  match ssid with
  | none => some none
  | some ssid =>
    let alloc := allocFor ssid.length
    (escapeLoop isprint alloc ssid (List.replicate alloc 0) 0).map some

/-! ## What the string means -/

def escape (isprint : UInt8 → Bool) (c : UInt8) : List UInt8 := if Plain isprint c then [c] else hexEscape c

def hexValue (d : UInt8) : Nat := if d.toNat < 58 then d.toNat - 48 else d.toNat - 87

/-- Every backslash and `x` becomes the byte that the two digits behind them stand for. -/
def unescape : List UInt8 → List UInt8
  | b :: x :: h :: l :: rest =>
    if b = BACKSLASH ∧ x = LETTER_X then UInt8.ofNat (16 * hexValue h + hexValue l) :: unescape rest
    else b :: unescape (x :: h :: l :: rest)
  | rest => rest

@[simp] theorem hexValue_hexDigit {n : Nat} (h : n < 16) : hexValue (hexDigit n) = n := by
  unfold hexDigit hexValue
  split <;> simp <;> split <;> omega

theorem unescape_hex (c : UInt8) (rest : List UInt8) : unescape (hexEscape c ++ rest) = c :: unescape rest := by
  have hlt := c.toNat_lt
  have hc : UInt8.ofNat (16 * (c.toNat / 16) + c.toNat % 16) = c := by
    rw [Nat.div_add_mod, UInt8.ofNat_toNat]
  rw [hexEscape, List.cons_append, List.cons_append, List.cons_append, List.cons_append, List.nil_append, unescape,
    if_pos ⟨rfl, rfl⟩, hexValue_hexDigit (by omega), hexValue_hexDigit (by omega), hc]

theorem unescape_cons {c : UInt8} (h : c ≠ BACKSLASH) (rest : List UInt8) :
    unescape (c :: rest) = c :: unescape rest := by
  rcases rest with - | ⟨x, - | ⟨h', - | ⟨l, rest⟩⟩⟩
  · rfl
  · rfl
  · rfl
  · rw [unescape, if_neg fun hb => h hb.1]

theorem unescape_escape (isprint : UInt8 → Bool) (ssid : List UInt8) :
    unescape (ssid.flatMap (escape isprint)) = ssid := by
  induction ssid with
  | nil => rfl
  | cons c ssid ih =>
    rw [List.flatMap_cons, escape]
    split
    · rename_i h
      rw [List.singleton_append, unescape_cons h.2, ih]
    · rw [unescape_hex, ih]

theorem zero_notMem_escape {isprint : UInt8 → Bool} (h0 : isprint 0 = false) (c : UInt8) :
    0 ∉ escape isprint c := by
  have hlt := c.toNat_lt
  unfold escape
  split
  · rename_i h
    rw [List.mem_singleton]
    rintro rfl
    exact Bool.false_ne_true (h0.symm.trans h.1)
  · have hhigh := hexDigit_ne_zero (n := c.toNat / 16) (by omega)
    have hlow := hexDigit_ne_zero (n := c.toNat % 16) (by omega)
    simp [hexEscape, BACKSLASH, LETTER_X, hhigh.symm, hlow.symm]

/-! ## The loop -/

theorem overwrite_zeros {text new : List UInt8} {n : Nat} (h : new.length ≤ n) :
    overwrite (text ++ List.replicate n 0) text.length new =
      some (text ++ new ++ List.replicate (n - new.length) 0) := by
  have hsplit : List.replicate n (0 : UInt8) = List.replicate new.length 0 ++ List.replicate (n - new.length) 0 := by
    rw [List.replicate_append_replicate, Nat.add_sub_cancel' h]
  rw [hsplit, overwrite_append (by simp)]

theorem snprintf_zeros {text new : List UInt8} {n : Nat} (h : new.length < n) :
    snprintf (text ++ List.replicate n 0) text.length n new =
      some (text ++ new ++ List.replicate (n - new.length) 0) := by
  have hzeros : List.replicate (n - new.length) (0 : UInt8) = 0 :: List.replicate (n - (new.length + 1)) 0 := by
    rw [← List.replicate_succ]
    congr 1
    omega
  rw [snprintf, if_neg (by omega), List.take_of_length_le (by omega), overwrite_zeros (by simp; omega), hzeros]
  simp

theorem escapeLoop_zeros (isprint : UInt8 → Bool) (ssid : List UInt8) :
    ∀ (text : List UInt8) (n : Nat), 4 * ssid.length < n →
      ∃ k, escapeLoop isprint (text.length + n) ssid (text ++ List.replicate n 0) text.length =
        some (text ++ ssid.flatMap (escape isprint) ++ List.replicate (k + 1) 0) := by
  induction ssid with
  | nil =>
    intro text n hn
    obtain ⟨k, rfl⟩ : ∃ k, n = k + 1 := ⟨n - 1, by simp at hn; omega⟩
    exact ⟨k, by rw [escapeLoop, List.flatMap_nil, List.append_nil]⟩
  | cons c ssid ih =>
    intro text n hn
    rw [List.length_cons] at hn
    rw [escapeLoop, if_pos (by omega), List.flatMap_cons, escape]
    split
    · rw [overwrite_zeros (by rw [List.length_singleton]; omega), Option.bind_some, List.length_singleton]
      obtain ⟨k, hk⟩ := ih (text ++ [c]) (n - 1) (by omega)
      rw [List.length_append, List.length_singleton, Nat.add_assoc, Nat.add_sub_cancel' (by omega)] at hk
      exact ⟨k, by rw [hk, List.append_assoc text]⟩
    · have hlen : (hexEscape c).length = 4 := rfl
      rw [if_pos (by omega), Nat.add_sub_cancel_left, snprintf_zeros (by omega), Option.bind_some, hlen]
      obtain ⟨k, hk⟩ := ih (text ++ hexEscape c) (n - 4) (by omega)
      rw [List.length_append, hlen, Nat.add_assoc, Nat.add_sub_cancel' (by omega)] at hk
      exact ⟨k, by rw [hk, List.append_assoc text]⟩

/-- The string is made without a write outside its memory. It consists of the escapes of all bytes, and they can be read
back. The length of a name comes from a netlink attribute and has 16 bits. -/
theorem wifi_strdup_ssid_lossless (isprint : UInt8 → Bool) (h0 : isprint 0 = false) (ssid : List UInt8)
    (hlen : ssid.length < 2 ^ 62) :
    ∃ s text, wifi_strdup_ssid isprint (some ssid) = some (some s) ∧ cstr s = some text ∧
      text = ssid.flatMap (escape isprint) ∧ unescape text = ssid := by
  have halloc : allocFor ssid.length = 4 * ssid.length + 1 := by
    rw [allocFor, Nat.mod_eq_of_lt (by omega), Nat.mul_comm]
  obtain ⟨k, hk⟩ := escapeLoop_zeros isprint ssid [] (4 * ssid.length + 1) (Nat.lt_succ_self _)
  rw [List.nil_append, List.length_nil, Nat.zero_add, List.nil_append] at hk
  refine ⟨_, _, ?_, cstr_append ?_ (List.replicate k 0), rfl, unescape_escape isprint ssid⟩
  · dsimp only [wifi_strdup_ssid]
    rw [halloc, hk, List.replicate_succ]
    rfl
  · rw [List.mem_flatMap]
    rintro ⟨c, -, hc⟩
    exact zero_notMem_escape h0 c hc

/-- Two letters, a backslash and a byte that isn't printed. -/
theorem wifi_strdup_ssid_lossless_letters :
    ∃ s text, wifi_strdup_ssid (fun c => 32 ≤ c ∧ c < 127) (some [97, 92, 255, 98]) = some (some s) ∧
      cstr s = some text ∧ text = [97, 92, 255, 98].flatMap (escape fun c => 32 ≤ c ∧ c < 127) ∧
      unescape text = [97, 92, 255, 98] :=
  wifi_strdup_ssid_lossless (fun c => 32 ≤ c ∧ c < 127) (by decide) [97, 92, 255, 98] (by decide)

end Libcortex.Wifi
