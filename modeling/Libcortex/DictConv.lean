import Libcortex.Dicts
import Libcortex.Lib.Bytes

/-!
# Values of another integer type

`crtx_get_item_value` of `dict.c` copies the value of an item into a buffer. If the caller asks for another type, the
value is converted, in some cases by way of a third type. Here are the four integer types.
-/

open Libcortex.Lib

namespace Libcortex.DictConv

/-- `u`, `i`, `U` and `I` in signatures. -/
inductive NumType where
  | u
  | i
  | U
  | I
deriving DecidableEq, Repr

def NumType.size : NumType → Nat
  | .u | .i => 4
  | .U | .I => 8

/-- An item of such a type. `union` is what its union holds. -/
structure NumItem where
  type : NumType
  union : BitVec 64

/-! ## The code -/

/-- The bytes of the union, as the pointers `&di->uint32` and `&di->uint64` see them. -/
def NumItem.memory (di : NumItem) : List UInt8 := leBytes 8 di.union.toNat

/-- `memcpy` from the first bytes at `src` to a buffer. -/
def memcpy (buffer src : List UInt8) (n : Nat) : List UInt8 := src.take n ++ buffer.drop n

/-- `memcpy` to and from a variable. -/
def load (w : Nat) (src : List UInt8) : BitVec w := BitVec.ofNat w (leNat (src.take (w / 8)))

def bytesOf {w : Nat} (v : BitVec w) : List UInt8 := leBytes (w / 8) v.toNat

def UINT32_MAX : Nat := 2 ^ 32 - 1
def INT32_MAX : Int := 2 ^ 31 - 1
def INT32_MIN : Int := -2 ^ 31

/-- The size of the buffer is its length. -/
def crtx_copy_value (di : NumItem) (buffer : List UInt8) : Int × List UInt8 :=
  if buffer.length = di.type.size then (1, memcpy buffer di.memory buffer.length) else (0, buffer)

/-- The variable is copied to the buffer if the buffer is large enough. -/
def store {w : Nat} (buffer : List UInt8) (v : BitVec w) : Int × List UInt8 :=
  if w / 8 ≤ buffer.length then (1, memcpy buffer (bytesOf v) (w / 8)) else (0, buffer)

/-- The branches of `crtx_conv_value` that make the conversion themselves. `stack` is what the upper half of the
variable `u64` holds, which is not initialised. -/
def convert (stack : BitVec 32) (dtype : NumType) (dbuffer : List UInt8) (stype : NumType) (sbuffer : List UInt8) :
    Int × List UInt8 :=
  if stype = dtype then (1, memcpy dbuffer sbuffer dbuffer.length)
  else
    match stype, dtype with
    | .u, .U => store dbuffer ((load 32 sbuffer).setWidth 64)
    | .U, .u =>
      let u64 : BitVec 64 := stack ++ load 32 sbuffer
      if u64.toNat < UINT32_MAX then store dbuffer (u64.setWidth 32) else (0, dbuffer)
    | .I, .i =>
      let i64 := load 64 sbuffer
      if (i64.toInt < 0 ∧ INT32_MIN < i64.toInt) ∨ (0 < i64.toInt ∧ i64.toInt < INT32_MAX) then
        store dbuffer (i64.setWidth 32)
      else (0, dbuffer)
    | .i, .u =>
      let i32 := load 32 sbuffer
      if 0 ≤ i32.toInt then store dbuffer i32 else (0, dbuffer)
    | .I, .U =>
      let i64 := load 64 sbuffer
      if 0 ≤ i64.toInt then store dbuffer i64 else (0, dbuffer)
    | _, _ => (0, dbuffer)

/-- `I` becomes `u` by way of the variable `i32`. -/
def crtx_conv_value (stack : BitVec 32) (dtype : NumType) (dbuffer : List UInt8) (stype : NumType)
    (sbuffer : List UInt8) : Int × List UInt8 :=
  if stype = .I ∧ dtype = .u then
    let (ret, i32) := convert stack .i (bytesOf (0 : BitVec 32)) stype sbuffer
    if ret = 0 then (0, dbuffer) else convert stack dtype dbuffer .i i32
  else convert stack dtype dbuffer stype sbuffer

def crtx_get_item_value (stack : BitVec 32) (di : NumItem) (type : NumType) (buffer : List UInt8) : Int × List UInt8 :=
  if di.type = type then crtx_copy_value di buffer else crtx_conv_value stack type buffer di.type di.memory

/-! ## What has to hold -/

/-- The number that the bytes stand for. -/
def NumType.decode (t : NumType) (bytes : List UInt8) : Int :=
  match t with
  | .u => (load 32 bytes).toNat
  | .i => (load 32 bytes).toInt
  | .U => (load 64 bytes).toNat
  | .I => (load 64 bytes).toInt

def NumItem.value (di : NumItem) : Int := di.type.decode di.memory

/-- The type has the number. -/
def NumType.Represents : NumType → Int → Prop
  | .u, v => 0 ≤ v ∧ v < 2 ^ 32
  | .i, v => -2 ^ 31 ≤ v ∧ v < 2 ^ 31
  | .U, v => 0 ≤ v ∧ v < 2 ^ 64
  | .I, v => -2 ^ 63 ≤ v ∧ v < 2 ^ 63

/-- `r` is what the call returns, with the buffer afterwards. -/
structure Sound (di : NumItem) (type : NumType) (buffer : List UInt8) (r : Int × List UInt8) : Prop where
  converted : r.1 = 1 → type.decode r.2 = di.value
  unchanged : r.1 = 0 → r.2 = buffer

/-! ## Variables and buffers -/

section Buffers

variable {w : Nat} {buffer : List UInt8}

theorem bytesOf_length (v : BitVec w) : (bytesOf v).length = w / 8 := leBytes_length _ _

theorem memcpy_exact {src : List UInt8} {n : Nat} (hb : buffer.length = n) : memcpy buffer src n = src.take n := by
  unfold memcpy
  rw [List.drop_eq_nil_of_le hb.le, List.append_nil]

theorem store_exact (hb : buffer.length = w / 8) (v : BitVec w) : store buffer v = (1, bytesOf v) := by
  unfold store
  rw [if_pos hb.ge, memcpy_exact hb, List.take_of_length_le (bytesOf_length v).le]

theorem load_leBytes {n k : Nat} (hw : 256 ^ (w / 8) = 2 ^ w) (h : w / 8 ≤ k) :
    load w (leBytes k n) = BitVec.ofNat w n := by
  unfold load
  rw [take_leBytes h, leNat_leBytes_mod, hw]
  exact BitVec.eq_of_toNat_eq (by simp)

theorem load_bytesOf (hw : 256 ^ (w / 8) = 2 ^ w) (v : BitVec w) : load w (bytesOf v) = v := by
  unfold bytesOf
  rw [load_leBytes hw le_rfl, BitVec.ofNat_toNat, BitVec.setWidth_eq]

end Buffers

@[simp] theorem load_memory (di : NumItem) : load 64 di.memory = di.union := by
  unfold NumItem.memory
  rw [load_leBytes (by decide) (by decide), BitVec.ofNat_toNat, BitVec.setWidth_eq]

@[simp] theorem load_memory_half (di : NumItem) : load 32 di.memory = di.union.setWidth 32 := by
  unfold NumItem.memory
  rw [load_leBytes (by decide) (by decide), BitVec.ofNat_toNat]

@[simp] theorem decode_bytesOf_u (v : BitVec 32) : NumType.u.decode (bytesOf v) = v.toNat := by
  simp [NumType.decode, load_bytesOf]

@[simp] theorem decode_bytesOf_i (v : BitVec 32) : NumType.i.decode (bytesOf v) = v.toInt := by
  simp [NumType.decode, load_bytesOf]

@[simp] theorem decode_bytesOf_U (v : BitVec 64) : NumType.U.decode (bytesOf v) = v.toNat := by
  simp [NumType.decode, load_bytesOf]

@[simp] theorem value_u (w : BitVec 64) : NumItem.value ⟨.u, w⟩ = (w.setWidth 32).toNat := by
  simp [NumItem.value, NumType.decode]

@[simp] theorem value_i (w : BitVec 64) : NumItem.value ⟨.i, w⟩ = (w.setWidth 32).toInt := by
  simp [NumItem.value, NumType.decode]

@[simp] theorem value_U (w : BitVec 64) : NumItem.value ⟨.U, w⟩ = w.toNat := by
  simp [NumItem.value, NumType.decode]

@[simp] theorem value_I (w : BitVec 64) : NumItem.value ⟨.I, w⟩ = w.toInt := by
  simp [NumItem.value, NumType.decode]

theorem decode_take (type : NumType) (bytes : List UInt8) :
    type.decode (bytes.take type.size) = type.decode bytes := by
  cases type <;> simp [NumType.decode, NumType.size, load, List.take_take]

/-! ## The numbers -/

/-- What the number becomes, if it is accepted. -/
def converted (stack : BitVec 32) (stype dtype : NumType) (v : Int) : Option Int :=
  if stype = dtype then some v
  else
    match stype, dtype with
    | .u, .U => some v
    | .U, .u => if stack = 0 ∧ v % 2 ^ 32 < UINT32_MAX then some (v % 2 ^ 32) else none
    | .I, .i => if (v < 0 ∧ INT32_MIN < v) ∨ (0 < v ∧ v < INT32_MAX) then some v else none
    | .i, .u | .I, .U => if 0 ≤ v then some v else none
    | .I, .u => if 0 < v ∧ v < INT32_MAX then some v else none
    | _, _ => none

section

variable (stack : BitVec 32) (dbuffer sbuffer : List UInt8) (v : Int)

theorem convert_uU : convert stack .U dbuffer .u sbuffer = store dbuffer ((load 32 sbuffer).setWidth 64) := rfl

theorem convert_Uu : convert stack .u dbuffer .U sbuffer =
    if (stack ++ load 32 sbuffer).toNat < UINT32_MAX then store dbuffer ((stack ++ load 32 sbuffer).setWidth 32)
    else (0, dbuffer) := rfl

theorem convert_Ii : convert stack .i dbuffer .I sbuffer =
    if ((load 64 sbuffer).toInt < 0 ∧ INT32_MIN < (load 64 sbuffer).toInt) ∨
        (0 < (load 64 sbuffer).toInt ∧ (load 64 sbuffer).toInt < INT32_MAX) then
      store dbuffer ((load 64 sbuffer).setWidth 32)
    else (0, dbuffer) := rfl

theorem convert_iu : convert stack .u dbuffer .i sbuffer =
    if 0 ≤ (load 32 sbuffer).toInt then store dbuffer (load 32 sbuffer) else (0, dbuffer) := rfl

theorem convert_IU : convert stack .U dbuffer .I sbuffer =
    if 0 ≤ (load 64 sbuffer).toInt then store dbuffer (load 64 sbuffer) else (0, dbuffer) := rfl

theorem converted_uU : converted stack .u .U v = some v := rfl

theorem converted_Uu : converted stack .U .u v =
    if stack = 0 ∧ v % 2 ^ 32 < UINT32_MAX then some (v % 2 ^ 32) else none := rfl

theorem converted_Ii : converted stack .I .i v =
    if (v < 0 ∧ INT32_MIN < v) ∨ (0 < v ∧ v < INT32_MAX) then some v else none := rfl

theorem converted_iu : converted stack .i .u v = if 0 ≤ v then some v else none := rfl

theorem converted_IU : converted stack .I .U v = if 0 ≤ v then some v else none := rfl

theorem converted_Iu : converted stack .I .u v = if 0 < v ∧ v < INT32_MAX then some v else none := rfl

end

/-- The call stores the number, or leaves the buffer alone. -/
inductive Outcome (type : NumType) (buffer : List UInt8) : Option Int → Int × List UInt8 → Prop where
  | stored {n : Int} {bytes : List UInt8} (h : type.decode bytes = n) : Outcome type buffer (some n) (1, bytes)
  | failed : Outcome type buffer none (0, buffer)

theorem copy_value_outcome {di : NumItem} {buffer : List UInt8} (hb : buffer.length = di.type.size) :
    Outcome di.type buffer (some di.value) (crtx_copy_value di buffer) := by
  unfold crtx_copy_value
  rw [if_pos hb, memcpy_exact rfl, hb]
  exact .stored (decode_take _ _)

theorem stored_iff {type : NumType} {buffer bytes : List UInt8} {n : Int} {p q : Prop} [Decidable p] [Decidable q]
    (hpq : p ↔ q) (h : p → type.decode bytes = n) :
    Outcome type buffer (if p then some n else none) (if q then (1, bytes) else (0, buffer)) := by
  by_cases hp : p
  · rw [if_pos hp, if_pos (hpq.mp hp)]
    exact .stored (h hp)
  · rw [if_neg hp, if_neg (mt hpq.mpr hp)]
    exact .failed

theorem append_lt {stack low : BitVec 32} : (stack ++ low).toNat < UINT32_MAX ↔ stack = 0 ∧ low.toNat < UINT32_MAX := by
  have hmax : UINT32_MAX = 4294967295 := rfl
  rw [BitVec.toNat_append, ← Nat.shiftLeft_add_eq_or_of_lt low.isLt, Nat.shiftLeft_eq, ← BitVec.toNat_inj]
  simp
  omega

theorem append_setWidth (stack low : BitVec 32) : (stack ++ low).setWidth 32 = low := by
  apply BitVec.eq_of_toNat_eq
  have hlt := low.isLt
  rw [BitVec.toNat_setWidth, BitVec.toNat_append, ← Nat.shiftLeft_add_eq_or_of_lt hlt, Nat.shiftLeft_eq]
  omega

theorem toInt_setWidth_of_range {w : BitVec 64} (h : -2 ^ 31 ≤ w.toInt ∧ w.toInt < 2 ^ 31) :
    (w.setWidth 32).toInt = w.toInt := by
  rw [BitVec.toInt_eq_toNat_cond] at *
  rw [BitVec.toInt_eq_toNat_cond, BitVec.toNat_setWidth]
  have hlt := w.isLt
  split_ifs at * <;> omega

theorem toNat_of_toInt_nonneg {w : Nat} {v : BitVec w} (h : 0 ≤ v.toInt) : (v.toNat : Int) = v.toInt := by
  rw [BitVec.toInt_eq_toNat_cond] at *
  have hlt := v.isLt
  split_ifs at * <;> omega

/-! ## The branches -/

section Branches

variable {buffer : List UInt8} (stack : BitVec 32) (w : BitVec 64)

theorem u_to_U (hb : buffer.length = 8) :
    Outcome .U buffer (converted stack .u .U (NumItem.value ⟨.u, w⟩))
      (convert stack .U buffer .u (NumItem.memory ⟨.u, w⟩)) := by
  rw [convert_uU, converted_uU]
  rw [store_exact hb]
  refine .stored ?_
  rw [decode_bytesOf_U, BitVec.toNat_setWidth_of_le (by decide)]
  rfl

theorem U_to_u (hb : buffer.length = 4) :
    Outcome .u buffer (converted stack .U .u (NumItem.value ⟨.U, w⟩))
      (convert stack .u buffer .U (NumItem.memory ⟨.U, w⟩)) := by
  have hv : NumItem.value ⟨.U, w⟩ % 2 ^ 32 = ((w.setWidth 32).toNat : Int) := by simp
  rw [convert_Uu, converted_Uu]
  rw [store_exact hb, hv, load_memory_half, append_setWidth]
  refine stored_iff ?_ fun _ => decode_bytesOf_u _
  rw [append_lt, Int.ofNat_lt]

theorem I_to_i (hb : buffer.length = 4) :
    Outcome .i buffer (converted stack .I .i (NumItem.value ⟨.I, w⟩))
      (convert stack .i buffer .I (NumItem.memory ⟨.I, w⟩)) := by
  rw [convert_Ii, converted_Ii]
  rw [store_exact hb, value_I, load_memory]
  dsimp only
  refine stored_iff Iff.rfl fun h => ?_
  unfold INT32_MIN INT32_MAX at h
  rw [decode_bytesOf_i, toInt_setWidth_of_range (by omega)]

theorem i_to_u {sbuffer : List UInt8} (hb : buffer.length = 4) :
    Outcome .u buffer (converted stack .i .u (NumType.i.decode sbuffer)) (convert stack .u buffer .i sbuffer) := by
  have hv : NumType.i.decode sbuffer = (load 32 sbuffer).toInt := rfl
  rw [convert_iu, converted_iu]
  rw [store_exact hb, hv]
  exact stored_iff Iff.rfl fun h => by rw [decode_bytesOf_u, toNat_of_toInt_nonneg h]

theorem I_to_U (hb : buffer.length = 8) :
    Outcome .U buffer (converted stack .I .U (NumItem.value ⟨.I, w⟩))
      (convert stack .U buffer .I (NumItem.memory ⟨.I, w⟩)) := by
  rw [convert_IU, converted_IU]
  rw [store_exact hb, value_I, load_memory]
  exact stored_iff Iff.rfl fun h => by rw [decode_bytesOf_U, toNat_of_toInt_nonneg h]

theorem converted_via (v : Int) :
    converted stack .I .u v = (converted stack .I .i v).bind (converted stack .i .u) := by
  rw [converted_Iu, converted_Ii]
  unfold INT32_MIN INT32_MAX
  split_ifs <;> simp [converted_iu] <;> omega

theorem I_to_u (hb : buffer.length = 4) :
    Outcome .u buffer (converted stack .I .u (NumItem.value ⟨.I, w⟩))
      (crtx_conv_value stack .u buffer .I (NumItem.memory ⟨.I, w⟩)) := by
  have h32 : (bytesOf (0 : BitVec 32)).length = 4 := rfl
  have hi := I_to_i stack w h32
  unfold crtx_conv_value
  rw [if_pos ⟨rfl, rfl⟩, converted_via]
  revert hi
  generalize convert stack .i (bytesOf (0 : BitVec 32)) .I (NumItem.memory ⟨.I, w⟩) = r
  generalize converted stack .I .i (NumItem.value ⟨.I, w⟩) = n
  rintro (@⟨n, i32, rfl⟩ | _)
  · exact i_to_u stack hb
  · exact .failed

end Branches

theorem conv_value_direct {stack : BitVec 32} {dtype stype : NumType} (h : ¬ (stype = .I ∧ dtype = .u))
    (dbuffer sbuffer : List UInt8) :
    crtx_conv_value stack dtype dbuffer stype sbuffer = convert stack dtype dbuffer stype sbuffer := if_neg h

theorem converted_self (stack : BitVec 32) (type : NumType) (v : Int) : converted stack type type v = some v := by
  unfold converted
  rw [if_pos rfl]

theorem conv_value_outcome (stack : BitVec 32) (di : NumItem) {type : NumType} {buffer : List UInt8}
    (hb : buffer.length = type.size) (hne : di.type ≠ type) :
    Outcome type buffer (converted stack di.type type di.value)
      (crtx_conv_value stack type buffer di.type di.memory) := by
  by_cases hvia : di.type = .I ∧ type = .u
  · obtain ⟨stype, w⟩ := di
    obtain ⟨rfl, rfl⟩ := hvia
    exact I_to_u stack w hb
  rw [conv_value_direct hvia]
  obtain ⟨stype, w⟩ := di
  cases stype with
  | u =>
    cases type with
    | u => exact absurd rfl hne
    | U => exact u_to_U stack w hb
    | i | I => exact .failed
  | i =>
    cases type with
    | i => exact absurd rfl hne
    | u => exact i_to_u stack hb
    | U | I => exact .failed
  | U =>
    cases type with
    | U => exact absurd rfl hne
    | u => exact U_to_u stack w hb
    | i | I => exact .failed
  | I =>
    cases type with
    | I => exact absurd rfl hne
    | u => exact absurd ⟨rfl, rfl⟩ hvia
    | i => exact I_to_i stack w hb
    | U => exact I_to_U stack w hb

theorem get_item_value_outcome (stack : BitVec 32) (di : NumItem) {type : NumType} {buffer : List UInt8}
    (hb : buffer.length = type.size) :
    Outcome type buffer (converted stack di.type type di.value) (crtx_get_item_value stack di type buffer) := by
  unfold crtx_get_item_value
  by_cases h : di.type = type
  · subst h
    rw [if_pos rfl, converted_self]
    exact copy_value_outcome hb
  · rw [if_neg h]
    exact conv_value_outcome stack di hb h

/-! ## Soundness -/

/-- The test of `U` to `u` takes the upper half of the number from the stack, where it finds 0. -/
def Truncates (stack : BitVec 32) (stype dtype : NumType) (v : Int) : Prop :=
  stype = .U ∧ dtype = .u ∧ stack = 0 ∧ 2 ^ 32 ≤ v ∧ v % 2 ^ 32 < UINT32_MAX

theorem value_nonneg {di : NumItem} (h : di.type = .U) : 0 ≤ di.value := by
  unfold NumItem.value NumType.decode
  rw [h]
  exact Int.natCast_nonneg _

theorem converted_exact {stack : BitVec 32} {stype dtype : NumType} {v n : Int} (h : ¬ (stype = .U ∧ dtype = .u))
    (hn : converted stack stype dtype v = some n) : n = v := by
  cases stype <;> cases dtype <;> simp [converted] at h hn <;> omega

theorem converted_half {stack : BitVec 32} {v n : Int} :
    converted stack .U .u v = some n ↔ (stack = 0 ∧ v % 2 ^ 32 < UINT32_MAX) ∧ v % 2 ^ 32 = n := by
  simp only [converted_Uu, Option.ite_none_right_eq_some, Option.some.injEq]

theorem converted_exact_iff {stack : BitVec 32} {stype dtype : NumType} {v : Int} (hv : stype = .U → 0 ≤ v) :
    (∀ n, converted stack stype dtype v = some n → n = v) ↔ ¬ Truncates stack stype dtype v := by
  by_cases h : stype = .U ∧ dtype = .u
  · obtain ⟨rfl, rfl⟩ := h
    have hpos := hv rfl
    constructor
    · rintro hall ⟨-, -, hstack, hge, hlt⟩
      have := hall _ (converted_half.mpr ⟨⟨hstack, hlt⟩, rfl⟩)
      omega
    · intro hnot n hn
      obtain ⟨⟨hstack, hlt⟩, rfl⟩ := converted_half.mp hn
      by_contra hne
      exact hnot ⟨rfl, rfl, hstack, by omega, hlt⟩
  · exact ⟨fun _ ht => h ⟨ht.1, ht.2.1⟩, fun _ _ => converted_exact h⟩

theorem sound_iff {di : NumItem} {type : NumType} {buffer : List UInt8} {o : Option Int} {r : Int × List UInt8}
    (h : Outcome type buffer o r) : Sound di type buffer r ↔ ∀ n, o = some n → n = di.value := by
  cases h with
  | stored hn =>
    subst hn
    exact ⟨fun hs _ hm => Option.some.inj hm ▸ hs.converted rfl, fun hall => ⟨fun _ => hall _ rfl, by simp⟩⟩
  | failed => exact ⟨by simp, fun _ => ⟨by simp, fun _ => rfl⟩⟩

theorem get_item_value_sound_iff (stack : BitVec 32) (di : NumItem) (type : NumType) {buffer : List UInt8}
    (hb : buffer.length = type.size) :
    Sound di type buffer (crtx_get_item_value stack di type buffer) ↔ ¬ Truncates stack di.type type di.value := by
  rw [sound_iff (get_item_value_outcome stack di hb), converted_exact_iff value_nonneg]

theorem get_item_value_sound_iff_small :
    [0, 0, 0, 0].length = NumType.u.size ∧
      (Sound ⟨.I, 7⟩ .u [0, 0, 0, 0] (crtx_get_item_value 0 ⟨.I, 7⟩ .u [0, 0, 0, 0]) ↔
        ¬ Truncates 0 .I .u (NumItem.value ⟨.I, 7⟩)) :=
  ⟨rfl, get_item_value_sound_iff 0 ⟨.I, 7⟩ .u rfl⟩

/-- 2^32 + 5 is read as 5. -/
theorem get_item_value_truncates :
    ¬ ∀ (stack : BitVec 32) (di : NumItem) (type : NumType) (buffer : List UInt8), buffer.length = type.size →
      Sound di type buffer (crtx_get_item_value stack di type buffer) := by
  intro h
  have hs := (h 0 ⟨.U, 4294967301⟩ .u [0, 0, 0, 0] rfl).converted
  revert hs
  decide

/-! ## Completeness -/

/-- The pairs of types that `crtx_conv_value` has a branch for. -/
inductive Branch : NumType → NumType → Prop where
  | uU : Branch .u .U
  | Uu : Branch .U .u
  | Ii : Branch .I .i
  | iu : Branch .i .u
  | IU : Branch .I .U
  | Iu : Branch .I .u

/-- The numbers that the tests leave out although the type has them. -/
def LeftOut (stack : BitVec 32) : NumType → NumType → Int → Prop
  | .U, .u, v => v < 2 ^ 32 ∧ (stack ≠ 0 ∨ v = UINT32_MAX)
  | .I, .i, v => v = 0 ∨ v = INT32_MIN ∨ v = INT32_MAX
  | .I, .u, v => v = 0 ∨ (INT32_MAX ≤ v ∧ v < 2 ^ 32)
  | _, _, _ => False

theorem returns_one_iff {type : NumType} {buffer : List UInt8} {o : Option Int} {r : Int × List UInt8}
    (h : Outcome type buffer o r) : r.1 = 1 ↔ o.isSome := by
  cases h <;> simp

theorem isSome_ite {p : Prop} [Decidable p] (n : Int) : (if p then some n else none).isSome ↔ p := by
  split <;> simp [*]

theorem rejects_half_iff {stack : BitVec 32} {v : Int} (hv : 0 ≤ v) :
    NumType.u.Represents v ∧ ¬ (converted stack .U .u v).isSome ↔ LeftOut stack .U .u v := by
  have hmax : (UINT32_MAX : Int) = 4294967295 := rfl
  simp only [converted_Uu, isSome_ite, LeftOut, NumType.Represents, hmax]
  by_cases hs : stack = 0
  · simp only [hs, ne_eq, not_true_eq_false, true_and, false_or]
    omega
  · simp only [hs, ne_eq, not_false_eq_true, false_and, true_or, and_true]
    omega

theorem rejects_iff {stack : BitVec 32} {stype dtype : NumType} {v : Int} (hv : stype.Represents v)
    (hbranch : Branch stype dtype) :
    dtype.Represents v ∧ ¬ (converted stack stype dtype v).isSome ↔ LeftOut stack stype dtype v := by
  cases hbranch with
  | Uu => exact rejects_half_iff hv.1
  | uU | iu | IU => simp +contextual [converted_uU, converted_iu, converted_IU, LeftOut, NumType.Represents]
  | Ii | Iu =>
    simp only [converted_Ii, converted_Iu, isSome_ite]
    simp only [LeftOut, NumType.Represents, INT32_MIN, INT32_MAX]
    omega

theorem value_represents (di : NumItem) : di.type.Represents di.value := by
  obtain ⟨type, w⟩ := di
  cases type with
  | u | U =>
    simp only [value_u, value_U, NumType.Represents]
    omega
  | i =>
    rw [value_i]
    exact ⟨BitVec.le_toInt _, BitVec.toInt_lt⟩
  | I =>
    rw [value_I]
    exact ⟨BitVec.le_toInt _, BitVec.toInt_lt⟩

theorem get_item_value_complete_iff (stack : BitVec 32) (di : NumItem) {type : NumType} {buffer : List UInt8}
    (hbranch : Branch di.type type) (hb : buffer.length = type.size) :
    (type.Represents di.value → (crtx_get_item_value stack di type buffer).1 = 1) ↔
      ¬ LeftOut stack di.type type di.value := by
  rw [returns_one_iff (get_item_value_outcome stack di hb), ← rejects_iff (value_represents di) hbranch,
    not_and_not_right]

theorem get_item_value_complete_iff_below_max :
    ((NumType.i.Represents 2147483646 → (crtx_get_item_value 0 ⟨.I, 2147483646⟩ .i [0, 0, 0, 0]).1 = 1) ↔
      ¬ LeftOut 0 .I .i 2147483646) :=
  get_item_value_complete_iff 0 ⟨.I, 2147483646⟩ .Ii rfl

/-- Zero is left out. -/
theorem get_item_value_rejects_zero :
    ¬ ∀ (stack : BitVec 32) (di : NumItem) (type : NumType) (buffer : List UInt8), Branch di.type type →
      buffer.length = type.size → type.Represents di.value → (crtx_get_item_value stack di type buffer).1 = 1 := by
  intro h
  have hrep : NumType.i.Represents (NumItem.value ⟨.I, 0⟩) := by
    rw [show NumItem.value ⟨.I, 0⟩ = 0 by decide]
    unfold NumType.Represents
    omega
  have hone := h 0 ⟨.I, 0⟩ .i [0, 0, 0, 0] .Ii rfl hrep
  revert hone
  decide

end Libcortex.DictConv
