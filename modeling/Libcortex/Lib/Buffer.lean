import Mathlib.Data.List.Basic

/-!
# Buffers that grow

The first part of the memory is in use. Growing and writing are separate steps: a write that does not fit fails.
-/

namespace Libcortex.Lib

structure Buffer (α : Type) where
  mem : List α
  len : Nat
  len_le : len ≤ mem.length

namespace Buffer

variable {α : Type}

def room (b : Buffer α) : Nat := b.mem.length - b.len

/-- What is in use. -/
def text (b : Buffer α) : List α := b.mem.take b.len

/-- Any elements are in the new memory. -/
def grow (b : Buffer α) (fresh : List α) : Buffer α where
  mem := b.mem ++ fresh
  len := b.len
  len_le := by
    have := b.len_le
    rw [List.length_append]
    omega

/-- Grows until there is room for more than one element, at most `n` times. -/
def reserve (fresh : List α) : Nat → Buffer α → Buffer α
  | 0, b => b
  | n + 1, b => if b.mem.length ≤ b.len + 1 then reserve fresh n (b.grow fresh) else b

/-- Writes at the end of what is in use. Only `kept` is in use afterwards, and the next write overwrites `extra`. -/
def store (b : Buffer α) (kept extra : List α) : Option (Buffer α) :=
  let stop := b.len + kept.length + extra.length
  if h : stop ≤ b.mem.length then
    some
      { mem := b.mem.take b.len ++ kept ++ extra ++ b.mem.drop stop
        len := b.len + kept.length
        len_le := by
          simp
          omega }
  else none

theorem len_add_room (b : Buffer α) : b.len + b.room = b.mem.length := by
  have := b.len_le
  unfold room
  omega

@[simp] theorem room_grow (b : Buffer α) (fresh : List α) : (b.grow fresh).room = b.room + fresh.length := by
  have := b.len_le
  simp only [room, grow, List.length_append]
  omega

@[simp] theorem text_grow (b : Buffer α) (fresh : List α) : (b.grow fresh).text = b.text := by
  simp only [text, grow]
  exact List.take_append_of_le_length b.len_le

@[simp] theorem text_reserve (fresh : List α) (n : Nat) (b : Buffer α) : (reserve fresh n b).text = b.text := by
  induction n generalizing b with
  | zero => rfl
  | succ n ih =>
    unfold reserve
    split
    · rw [ih, text_grow]
    · rfl

theorem reserve_of_room {b : Buffer α} (h : 1 < b.room) (fresh : List α) (n : Nat) : reserve fresh n b = b := by
  cases n with
  | zero => rfl
  | succ n =>
    have := b.len_add_room
    rw [reserve, if_neg (by omega)]

theorem reserve_of_full {b : Buffer α} (h : b.room ≤ 1) (fresh : List α) (n : Nat) :
    reserve fresh (n + 1) b = reserve fresh n (b.grow fresh) := by
  have := b.len_add_room
  rw [reserve, if_pos (by omega)]

theorem room_reserve {fresh : List α} (hf : 1 < fresh.length) (n : Nat) (b : Buffer α) :
    (reserve fresh (n + 1) b).room = if b.room ≤ 1 then b.room + fresh.length else b.room := by
  split
  · rename_i h
    rw [reserve_of_full h, reserve_of_room (by rw [room_grow]; omega), room_grow]
  · rename_i h
    rw [reserve_of_room (by omega)]

theorem room_reserve_one {fresh : List α} (hf : fresh.length = 1) (n : Nat) (b : Buffer α) :
    (reserve fresh (n + 2) b).room = max 2 b.room := by
  rcases Nat.lt_or_ge 1 b.room with h | h
  · rw [reserve_of_room h]
    omega
  · rw [reserve_of_full h]
    rcases Nat.lt_or_ge 1 (b.grow fresh).room with h' | h'
    · rw [reserve_of_room h']
      rw [room_grow] at h' ⊢
      omega
    · rw [reserve_of_full h', reserve_of_room] <;> rw [room_grow, room_grow] <;> rw [room_grow] at h' <;> omega

theorem store_isSome {b : Buffer α} {kept extra : List α} :
    (b.store kept extra).isSome ↔ kept.length + extra.length ≤ b.room := by
  have := b.len_add_room
  dsimp only [store]
  split <;> simp <;> omega

theorem room_store {b b' : Buffer α} {kept extra : List α} (h : b.store kept extra = some b') :
    b'.room = b.room - kept.length := by
  have := b.len_le
  dsimp only [store] at h
  split at h
  · cases h
    simp only [room, List.length_append, List.length_take, List.length_drop]
    omega
  · cases h

theorem text_store {b b' : Buffer α} {kept extra : List α} (h : b.store kept extra = some b') :
    b'.text = b.text ++ kept := by
  dsimp only [store] at h
  split at h
  · cases h
    have hlen : (b.mem.take b.len ++ kept).length = b.len + kept.length := by
      rw [List.length_append, List.length_take, Nat.min_eq_left b.len_le]
    simp only [text, List.append_assoc]
    rw [← List.append_assoc, List.take_append_of_le_length (Nat.le_of_eq hlen.symm), ← hlen, List.take_length]
  · cases h

end Buffer

end Libcortex.Lib
