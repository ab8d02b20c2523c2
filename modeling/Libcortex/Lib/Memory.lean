import Mathlib.Data.List.TakeWhile

/-!
# Text in a piece of memory

The memory has a fixed size. A write that isn't inside it fails, and so does the search for the end of a string.
-/

namespace Libcortex.Lib

/-- Writes at an offset. -/
def overwrite {α : Type} (mem : List α) (off : Nat) (new : List α) : Option (List α) :=
  if off + new.length ≤ mem.length then some (mem.take off ++ new ++ mem.drop (off + new.length)) else none

/-- `snprintf` at an offset, with room for `n` bytes. The end of the string is always among them. -/
def snprintf (mem : List UInt8) (off n : Nat) (text : List UInt8) : Option (List UInt8) :=
  if n = 0 then some mem else overwrite mem off (text.take (n - 1) ++ [0])

/-- The string that the memory begins with. -/
def cstr (mem : List UInt8) : Option (List UInt8) := if 0 ∈ mem then some (mem.takeWhile (· ≠ 0)) else none

/-- The distance to a character in that string, if it is there. The search itself fails where the memory ends. -/
def strchrMem (c : UInt8) : List UInt8 → Option (Option Nat)
  | [] => none
  | b :: mem => if b = c then some (some 0) else if b = 0 then some none else (strchrMem c mem).map (·.map (· + 1))

/-- All the strings in the memory, one behind the other. -/
def strings : List UInt8 → List (List UInt8)
  | [] => []
  | b :: mem => if b = 0 then [] :: strings mem else (strings mem).modifyHead (b :: ·)

theorem overwrite_append {α : Type} {old new : List α} (h : old.length = new.length) (before after : List α) :
    overwrite (before ++ (old ++ after)) before.length new = some (before ++ new ++ after) := by
  have hdrop : (before ++ (old ++ after)).drop (before.length + new.length) = after := by
    rw [← List.append_assoc, ← h, ← List.length_append, List.drop_left]
  rw [overwrite, if_pos (by simp; omega), List.take_left, hdrop]

theorem overwrite_some {α : Type} {mem mem' new : List α} {off : Nat} (h : overwrite mem off new = some mem') :
    off + new.length ≤ mem.length ∧ mem' = mem.take off ++ new ++ mem.drop (off + new.length) := by
  rw [overwrite, Option.ite_none_right_eq_some] at h
  exact ⟨h.1, (Option.some.inj h.2).symm⟩

theorem length_overwrite {α : Type} {mem mem' new : List α} {off : Nat} (h : overwrite mem off new = some mem') :
    mem'.length = mem.length := by
  obtain ⟨hle, rfl⟩ := overwrite_some h
  simp
  omega

theorem length_snprintf {mem mem' text : List UInt8} {off n : Nat} (h : snprintf mem off n text = some mem') :
    mem'.length = mem.length := by
  unfold snprintf at h
  split at h
  · cases h
    rfl
  · exact length_overwrite h

theorem cstr_append {text : List UInt8} (h : 0 ∉ text) (rest : List UInt8) : cstr (text ++ 0 :: rest) = some text := by
  have hall : ∀ b ∈ text, (decide (b ≠ 0)) = true := fun b hb => decide_eq_true fun h0 => h (h0 ▸ hb)
  rw [cstr, if_pos (by simp), List.takeWhile_append_of_pos hall]
  simp

theorem cstr_some {mem text : List UInt8} (h : cstr mem = some text) :
    0 ∉ text ∧ ∃ rest, mem = text ++ 0 :: rest := by
  rw [cstr, Option.ite_none_right_eq_some] at h
  obtain ⟨hmem, heq⟩ := h
  obtain rfl := Option.some.inj heq
  refine ⟨fun h0 => by simpa using List.mem_takeWhile_imp h0, ?_⟩
  induction mem with
  | nil => cases hmem
  | cons b mem ih =>
    by_cases hb : b = 0
    · exact ⟨mem, by simp [hb]⟩
    · obtain ⟨rest, hrest⟩ := ih ((List.mem_cons.mp hmem).resolve_left (Ne.symm hb)) rfl
      refine ⟨rest, ?_⟩
      rw [List.takeWhile_cons_of_pos (by simpa using hb), List.cons_append, ← hrest]

theorem strchr_found {c : UInt8} {text : List UInt8} (hc : c ∉ text) (h0 : 0 ∉ text) (rest : List UInt8) :
    strchrMem c (text ++ c :: rest) = some (some text.length) := by
  induction text with
  | nil => simp [strchrMem]
  | cons b text ih =>
    rw [List.mem_cons, not_or] at hc h0
    rw [List.cons_append, strchrMem, if_neg (Ne.symm hc.1), if_neg (Ne.symm h0.1), ih hc.2 h0.2]
    rfl

theorem strchr_missing {c : UInt8} (hne : c ≠ 0) {text : List UInt8} (hc : c ∉ text) (h0 : 0 ∉ text)
    (rest : List UInt8) : strchrMem c (text ++ 0 :: rest) = some none := by
  induction text with
  | nil => simp [strchrMem, Ne.symm hne]
  | cons b text ih =>
    rw [List.mem_cons, not_or] at hc h0
    rw [List.cons_append, strchrMem, if_neg (Ne.symm hc.1), if_neg (Ne.symm h0.1), ih hc.2 h0.2]
    rfl

theorem strchr_mem {c : UInt8} {text : List UInt8} (hc : c ∈ text) (h0 : 0 ∉ text) (rest : List UInt8) :
    ∃ i, strchrMem c (text ++ rest) = some (some i) := by
  induction text with
  | nil => cases hc
  | cons b text ih =>
    rw [List.mem_cons, not_or] at h0
    rw [List.cons_append, strchrMem]
    split
    · exact ⟨0, rfl⟩
    · rename_i hb
      obtain ⟨i, hi⟩ := ih ((List.mem_cons.mp hc).resolve_left (Ne.symm hb)) h0.2
      rw [if_neg (Ne.symm h0.1), hi]
      exact ⟨i + 1, rfl⟩

theorem strings_length_le (mem : List UInt8) : (strings mem).length ≤ mem.length := by
  induction mem with
  | nil => exact Nat.le_refl _
  | cons b mem ih =>
    rw [strings]
    split <;> simp <;> omega

theorem zero_notMem_strings {mem text : List UInt8} (h : text ∈ strings mem) : 0 ∉ text := by
  induction mem generalizing text with
  | nil => cases h
  | cons b mem ih =>
    rw [strings] at h
    split at h
    · rcases List.mem_cons.mp h with rfl | h
      · exact List.not_mem_nil
      · exact ih h
    · rename_i hb
      cases hs : strings mem with
      | nil =>
        rw [hs] at h
        cases h
      | cons first rest =>
        rw [hs, List.modifyHead_cons] at h
        rcases List.mem_cons.mp h with rfl | h
        · exact List.not_mem_cons_of_ne_of_not_mem (Ne.symm hb) (ih (hs ▸ List.mem_cons_self))
        · exact ih (hs ▸ List.mem_cons_of_mem _ h)

theorem flatMap_strings (mem : List UInt8) :
    (strings (mem ++ [0])).flatMap (fun text => text ++ [0]) = mem ++ [0] := by
  induction mem with
  | nil => rfl
  | cons b mem ih =>
    rw [List.cons_append, strings]
    split
    · rename_i hb
      rw [List.flatMap_cons, ih, hb]
      rfl
    · cases hs : strings (mem ++ [0]) with
      | nil =>
        rw [hs] at ih
        simp at ih
      | cons first rest =>
        rw [hs, List.flatMap_cons] at ih
        rw [List.modifyHead_cons, List.flatMap_cons, List.cons_append, List.cons_append, ih]

end Libcortex.Lib
