import Mathlib.Data.List.Forall2
import Libcortex.Lib.Bytes

/-!
# Attributes in a message

An attribute begins with its length, which includes the four bytes of its header, and its type, in two bytes each. The
next one begins at the next multiple of four bytes. A list of attributes ends where the message does, or before a header
that isn't well-formed.
-/

namespace Libcortex.Lib

def align4 (n : Nat) : Nat := (n + 3) / 4 * 4

theorem align4_le (n : Nat) : n ≤ align4 n ∧ align4 n ≤ n + 3 ∧ align4 n % 4 = 0 := by
  unfold align4
  omega

structure Attribute where
  type : Nat
  payload : List UInt8
deriving DecidableEq, Repr

/-- The header has room for the type and the length. -/
def Attribute.Fits (a : Attribute) : Prop := a.type < 2 ^ 16 ∧ 4 + a.payload.length < 2 ^ 16

instance (a : Attribute) : Decidable a.Fits := inferInstanceAs (Decidable (_ ∧ _))

def padding (n : Nat) : List UInt8 := List.replicate (align4 n - n) 0

@[simp] theorem length_padding (n : Nat) : (padding n).length = align4 n - n := List.length_replicate

def Attribute.bytes (a : Attribute) : List UInt8 :=
  leBytes 2 (4 + a.payload.length) ++ leBytes 2 a.type ++ a.payload ++ padding a.payload.length

/-! ## Headers -/

def attrLen (mem : List UInt8) : Nat := leNat (mem.take 2)

def attrType (mem : List UInt8) : Nat := leNat ((mem.drop 2).take 2)

/-- Another attribute begins here, with `len` bytes left. -/
def AttrOk (mem : List UInt8) (len : Int) : Prop := 4 ≤ len ∧ 4 ≤ attrLen mem ∧ attrLen mem ≤ len

instance (mem : List UInt8) (len : Int) : Decidable (AttrOk mem len) := inferInstanceAs (Decidable (_ ∧ _ ∧ _))

/-- An attribute where it lies: its type, the length of its payload, and the memory from the payload on. -/
structure Placed where
  type : Nat
  length : Nat
  mem : List UInt8
deriving DecidableEq, Repr

def Placed.payload (p : Placed) : List UInt8 := p.mem.take p.length

def placed (mem : List UInt8) : Placed := ⟨attrType mem, attrLen mem - 4, mem.drop 4⟩

/-! ## The walk -/

/-- The attributes that a walk comes to. -/
def walkAttrs : Nat → List UInt8 → List Placed
  | 0, _ => []
  | fuel + 1, mem =>
    if AttrOk mem mem.length then placed mem :: walkAttrs fuel (mem.drop (align4 (attrLen mem))) else []

def attributes (mem : List UInt8) : List Placed := walkAttrs (mem.length + 1) mem

theorem walkAttrs_nil (fuel : Nat) : walkAttrs fuel [] = [] := by
  cases fuel with
  | zero => rfl
  | succ fuel => rw [walkAttrs, if_neg fun h => absurd h.1 (by decide)]

theorem walkAttrs_fuel (fuel : Nat) : ∀ mem : List UInt8, mem.length < fuel → walkAttrs fuel mem = attributes mem := by
  have hstep : ∀ (n m : Nat) (mem : List UInt8), mem.length < n → mem.length < m → walkAttrs n mem = walkAttrs m mem := by
    intro n
    induction n with
    | zero => exact fun _ _ h => absurd h (Nat.not_lt_zero _)
    | succ n ih =>
      intro m mem hn hm
      obtain ⟨m, rfl⟩ : ∃ k, m = k + 1 := ⟨m - 1, by omega⟩
      unfold walkAttrs
      split
      · rename_i hok
        obtain ⟨_, h4, _⟩ := hok
        have := (align4_le (attrLen mem)).1
        rw [ih m _ (by simp; omega) (by simp; omega)]
      · rfl
  exact fun mem h => hstep _ _ mem h (Nat.lt_succ_self _)

theorem attributes_nil : attributes [] = [] := rfl

theorem attributes_ok {mem : List UInt8} (h : AttrOk mem mem.length) :
    attributes mem = placed mem :: attributes (mem.drop (align4 (attrLen mem))) := by
  unfold attributes
  rw [walkAttrs, if_pos h]
  obtain ⟨hpos, h4, _⟩ := h
  have := (align4_le (attrLen mem)).1
  rw [walkAttrs_fuel mem.length _ (by simp; omega), attributes]

theorem attributes_end {mem : List UInt8} (h : ¬ AttrOk mem mem.length) : attributes mem = [] := by
  unfold attributes
  rw [walkAttrs, if_neg h]

theorem walkAttrs_length (fuel : Nat) : ∀ mem : List UInt8, 4 * (walkAttrs fuel mem).length ≤ mem.length + 3 := by
  induction fuel with
  | zero => simp [walkAttrs]
  | succ fuel ih =>
    intro mem
    unfold walkAttrs
    split
    · rename_i hok
      obtain ⟨_, h4, hle⟩ := hok
      have halign := align4_le (attrLen mem)
      have := ih (mem.drop (align4 (attrLen mem)))
      rw [List.length_drop] at this
      rw [List.length_cons]
      rcases Nat.lt_or_ge mem.length (align4 (attrLen mem)) with hend | hmore
      · rw [List.drop_of_length_le (by omega), walkAttrs_nil]
        simp
        omega
      · omega
    · simp

theorem attributes_length (mem : List UInt8) : 4 * (attributes mem).length ≤ mem.length + 3 := walkAttrs_length _ mem

/-! ## Attributes that have been written -/

section

variable {a : Attribute}

theorem length_bytes (a : Attribute) : a.bytes.length = align4 (4 + a.payload.length) := by
  have := align4_le a.payload.length
  simp only [Attribute.bytes, List.length_append, leBytes_length, length_padding]
  unfold align4 at *
  omega

theorem attrLen_bytes (h : a.Fits) (rest : List UInt8) : attrLen (a.bytes ++ rest) = 4 + a.payload.length := by
  have htake : (a.bytes ++ rest).take 2 = leBytes 2 (4 + a.payload.length) := by
    simp only [Attribute.bytes, List.append_assoc]
    exact List.take_left' (leBytes_length _ _)
  rw [attrLen, htake, leNat_leBytes _ _ h.2]

theorem attrType_bytes (h : a.Fits) (rest : List UInt8) : attrType (a.bytes ++ rest) = a.type := by
  have hdrop : (a.bytes ++ rest).drop 2 = leBytes 2 a.type ++ (a.payload ++ padding a.payload.length ++ rest) := by
    simp only [Attribute.bytes, List.append_assoc]
    exact List.drop_left' (leBytes_length _ _)
  rw [attrType, hdrop, List.take_left' (leBytes_length _ _), leNat_leBytes _ _ h.1]

theorem drop_bytes (a : Attribute) (rest : List UInt8) :
    (a.bytes ++ rest).drop 4 = a.payload ++ (padding a.payload.length ++ rest) := by
  have hsplit : a.bytes ++ rest =
      (leBytes 2 (4 + a.payload.length) ++ leBytes 2 a.type) ++ (a.payload ++ (padding a.payload.length ++ rest)) := by
    simp only [Attribute.bytes, List.append_assoc]
  rw [hsplit]
  exact List.drop_left' (by simp)

/-- Where an attribute lies that has been written, with what follows it. -/
def Attribute.placed (a : Attribute) (rest : List UInt8) : Placed :=
  ⟨a.type, a.payload.length, a.payload ++ (padding a.payload.length ++ rest)⟩

@[simp] theorem payload_placed (a : Attribute) (rest : List UInt8) : (a.placed rest).payload = a.payload := by
  simp [Placed.payload, Attribute.placed]

theorem attributes_bytes (h : a.Fits) (rest : List UInt8) :
    attributes (a.bytes ++ rest) = a.placed rest :: attributes rest := by
  have hlen := length_bytes a
  have halign := align4_le (4 + a.payload.length)
  have hok : AttrOk (a.bytes ++ rest) (a.bytes ++ rest).length := by
    unfold AttrOk
    rw [attrLen_bytes h, List.length_append, hlen]
    omega
  rw [attributes_ok hok, placed, attrLen_bytes h, attrType_bytes h, drop_bytes, ← hlen, List.drop_left,
    Nat.add_sub_cancel_left, Attribute.placed]

/-- An attribute of which no more than the payload is known. -/
def Attribute.alone (a : Attribute) : Placed := ⟨a.type, a.payload.length, a.payload⟩

/-- The attribute, with more memory behind its payload. -/
def Extends (p : Placed) (a : Attribute) : Prop := ∃ more, p = { a.alone with mem := a.alone.mem ++ more }

theorem attributes_written {as : List Attribute} (h : ∀ a ∈ as, a.Fits) :
    List.Forall₂ Extends (attributes (as.flatMap Attribute.bytes)) as := by
  induction as with
  | nil => exact .nil
  | cons a as ih =>
    rw [List.forall_mem_cons] at h
    rw [List.flatMap_cons, attributes_bytes h.1]
    exact .cons ⟨_, rfl⟩ (ih h.2)

end

/-! ## A loop over attributes -/

section

variable {σ : Type} (body : σ → Placed → Option σ)

/-- A loop that is given the memory and the length that is left of it. It fails if it doesn't come to an end. -/
def attrLoop : Nat → List UInt8 → Int → σ → Option σ
  | 0, _, _, _ => none
  | fuel + 1, mem, len, s =>
    if len ≠ 0 ∧ AttrOk mem len then
      (body s (placed mem)).bind (attrLoop fuel (mem.drop (align4 (attrLen mem))) (len - align4 (attrLen mem)))
    else some s

theorem attrLoop_done {body : σ → Placed → Option σ} {len : Int} (h : len ≤ 0) (fuel : Nat) (mem : List UInt8) (s : σ) :
    attrLoop body (fuel + 1) mem len s = some s := by
  rw [attrLoop, if_neg]
  rintro ⟨_, hok, _⟩
  omega

theorem attrLoop_eq (fuel : Nat) : ∀ (mem : List UInt8), mem.length < fuel → ∀ s,
    attrLoop body fuel mem mem.length s = (attributes mem).foldlM body s := by
  induction fuel with
  | zero => exact fun _ h => absurd h (Nat.not_lt_zero _)
  | succ fuel ih =>
    intro mem hlt s
    by_cases hok : AttrOk mem mem.length
    · have hpos : (mem.length : Int) ≠ 0 := by
        have := hok.1
        omega
      have halign := align4_le (attrLen mem)
      have h4 := hok.2.1
      rw [attrLoop, if_pos ⟨hpos, hok⟩, attributes_ok hok, List.foldlM_cons]
      refine congrArg _ (funext fun s => ?_)
      rcases Nat.lt_or_ge mem.length (align4 (attrLen mem)) with hend | hmore
      · -- the padding of the last attribute isn't part of the message
        obtain ⟨fuel, rfl⟩ : ∃ k, fuel = k + 1 := ⟨fuel - 1, by omega⟩
        rw [List.drop_of_length_le (by omega), attrLoop_done (by omega), attributes_nil]
        rfl
      · have hlen : (mem.length : Int) - align4 (attrLen mem) = (mem.drop (align4 (attrLen mem))).length := by
          rw [List.length_drop]
          omega
        rw [hlen, ih _ (by simp; omega)]
    · rw [attrLoop, if_neg fun h => hok h.2, attributes_end hok]
      rfl

end

end Libcortex.Lib
