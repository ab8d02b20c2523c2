import Libcortex.DictConv
import Libcortex.Payload

/-!
# Values of an event

`crtx_event_get_value_by_key` of `core.c` looks up a key in the payload of an event and converts the value to the type
that is asked for. The functions of `dict.c` that it calls return 1 if that worked and 0 if not, so a negative number
never comes back, which is what it checks for.
-/

namespace Libcortex.EventValue

open Dicts DictConv

/-! ## Doubles -/

def exponent (d : BitVec 64) : Nat := d.toNat / 2 ^ 52 % 2 ^ 11

def mantissa (d : BitVec 64) : Nat := d.toNat % 2 ^ 52

/-- Every finite double is a multiple of this part of 1. -/
def unit : Nat := 2 ^ 1074

/-- A finite double, as a multiple. -/
def scaled (d : BitVec 64) : Int :=
  let magnitude := if exponent d = 0 then mantissa d else (2 ^ 52 + mantissa d) * 2 ^ (exponent d - 1)
  if d.msb then -(magnitude : Int) else magnitude

/-- `d < INT64_MAX && INT64_MIN < d`. As a double, the former is 2^63. It holds of no infinite number and no NaN. -/
def inInt64 (d : BitVec 64) : Bool :=
  exponent d ≠ 2047 ∧ scaled d < 2 ^ 63 * unit ∧ -2 ^ 63 * unit < scaled d

/-- `i64 = d` -/
def truncate (d : BitVec 64) : BitVec 64 := BitVec.ofInt 64 ((scaled d).tdiv unit)

/-! ## The code -/

/-- What the language leaves open: what a pointer looks like, and the upper half of the variable `u64`, which
is not initialised. -/
structure Machine where
  address : Value → BitVec 64
  stack : BitVec 32

def numType : Char → Option NumType
  | 'u' => some .u
  | 'i' => some .i
  | 'U' => some .U
  | 'I' => some .I
  | _ => none

/-- What the union holds. -/
def bits (m : Machine) (di : Item) : BitVec 64 :=
  match di.value with
  | .word w => w
  | v => m.address v

def memory (m : Machine) (di : Item) : List UInt8 := bytesOf (bits m di)

/-- The size that `crtx_copy_value` wants for the type. -/
def sizeOf : Char → Option Nat
  | 'u' | 'i' => some 4
  | 'U' | 'I' | 'z' | 'Z' | 'd' | 's' | 'D' => some 8
  | _ => none

def crtx_copy_value (m : Machine) (di : Item) (buffer : List UInt8) : Int × List UInt8 :=
  if di.type.bind sizeOf = some buffer.length then (1, memcpy buffer (memory m di) buffer.length) else (0, buffer)

def convertDouble (dbuffer sbuffer : List UInt8) : Int × List UInt8 :=
  let d : BitVec 64 := load 64 sbuffer
  if inInt64 d then store dbuffer (truncate d) else (0, dbuffer)

/-- `d` becomes `U` by way of the variable `i64`. -/
def crtx_conv_value (m : Machine) (dtype : Char) (dbuffer : List UInt8) (stype : Char) (sbuffer : List UInt8) :
    Int × List UInt8 :=
  if stype = dtype then (1, memcpy dbuffer sbuffer dbuffer.length)
  else if stype = 'd' ∧ dtype = 'I' then convertDouble dbuffer sbuffer
  else if stype = 'd' ∧ dtype = 'U' then
    let (ret, i64) := convertDouble (bytesOf (0 : BitVec 64)) sbuffer
    if ret = 0 then (0, dbuffer) else DictConv.crtx_conv_value m.stack .U dbuffer .I i64
  else
    match numType stype, numType dtype with
    | some s, some t => DictConv.crtx_conv_value m.stack t dbuffer s sbuffer
    | _, _ => (0, dbuffer)

def crtx_get_item_value (m : Machine) (di : Item) (type : Option Char) (buffer : List UInt8) : Int × List UInt8 :=
  if di.type = type then crtx_copy_value m di buffer
  else
    match di.type, type with
    | some stype, some dtype =>
      if stype ∈ ['i', 'u', 'I', 'U', 'd'] then crtx_conv_value m dtype buffer stype (memory m di) else (0, buffer)
    | _, _ => (0, buffer)

def crtx_get_value (m : Machine) (ds : Dict) (key : CString) (type : Option Char) (buffer : List UInt8) :
    Int × List UInt8 :=
  match crtx_get_item ds key with
  | none => (0, buffer)
  | some i => crtx_get_item_value m (ds.item i) type buffer

/-- `none`: `crtx_event_get_payload` follows a pointer that is none. -/
def crtx_event_get_value_by_key (m : Machine) (event : Payload.St) (key : CString) (type : Option Char)
    (buffer : List UInt8) : Option (Int × List UInt8) := do
  let (_, dict) ← Payload.crtx_event_get_payload event
  match dict with
  | none => return (-1, buffer)
  | some x =>
    let (r, buffer) := crtx_get_value m (event.heap x) key type buffer
    if r < 0 then return (r, buffer) else return (0, buffer)

/-! ## What has to hold -/

/-- The value of the item has the type, or is converted to it, and the buffer has room. -/
inductive Convertible (m : Machine) (di : Item) (size : Nat) : Option Char → Prop where
  | same {c : Char} (h : di.type = some c) (hs : sizeOf c = some size) : Convertible m di size (some c)
  | number {c c' : Char} {s t : NumType} (h : di.type = some c) (hc : numType c = some s) (hc' : numType c' = some t)
      (hne : c ≠ c') (hv : (converted m.stack s t (NumItem.value ⟨s, bits m di⟩)).isSome) (hs : t.size ≤ size) :
      Convertible m di size (some c')
  | signed (h : di.type = some 'd') (hv : inInt64 (bits m di)) (hs : 8 ≤ size) : Convertible m di size (some 'I')
  | unsigned (h : di.type = some 'd') (hv : inInt64 (bits m di)) (hpos : 0 ≤ (truncate (bits m di)).toInt)
      (hs : 8 ≤ size) : Convertible m di size (some 'U')

/-- The key is there, and its value was converted. -/
def Converted (m : Machine) (ds : Dict) (key : CString) (type : Option Char) (buffer : List UInt8) : Prop :=
  ∃ i, crtx_get_item ds key = some i ∧ (crtx_get_item_value m (ds.item i) type buffer).1 = 1

/-- `r` is what the call returns. -/
def Reports (m : Machine) (ds : Dict) (key : CString) (type : Option Char) (buffer : List UInt8)
    (r : Option (Int × List UInt8)) : Prop :=
  ∃ ret ∈ r, (ret.1 = 0 ↔ Converted m ds key type buffer) ∧ (¬ Converted m ds key type buffer → ret.1 < 0)

/-! ## The result of a conversion -/

/-- A call returns 1 if `p` holds, and 0 if not. -/
def Returns (r : Int × List UInt8) (p : Prop) : Prop := (r.1 = 1 ∧ p) ∨ (r.1 = 0 ∧ ¬ p)

theorem Returns.one_iff {r : Int × List UInt8} {p : Prop} (h : Returns r p) : r.1 = 1 ↔ p := by
  rcases h with ⟨h, hp⟩ | ⟨h, hp⟩ <;> simp [h, hp]

theorem Returns.nonneg {r : Int × List UInt8} {p : Prop} (h : Returns r p) : 0 ≤ r.1 := by
  rcases h with ⟨h, -⟩ | ⟨h, -⟩ <;> simp [h]

theorem Returns.congr {r : Int × List UInt8} {p q : Prop} (h : Returns r p) (hpq : p ↔ q) : Returns r q := by
  unfold Returns at *
  rwa [← hpq]

theorem returns_ite {p : Prop} [Decidable p] {bytes buffer : List UInt8} :
    Returns (if p then (1, bytes) else (0, buffer)) p := by
  by_cases hp : p
  · exact .inl ⟨by rw [if_pos hp], hp⟩
  · exact .inr ⟨by rw [if_neg hp], hp⟩

theorem store_returns {w : Nat} (buffer : List UInt8) (v : BitVec w) :
    Returns (store buffer v) (w / 8 ≤ buffer.length) := returns_ite

theorem guarded_store_returns {p : Prop} [Decidable p] {w : Nat} (buffer : List UInt8) (v : BitVec w) :
    Returns (if p then store buffer v else (0, buffer)) (p ∧ w / 8 ≤ buffer.length) := by
  by_cases hp : p
  · rw [if_pos hp]
    exact (store_returns buffer v).congr (by simp [hp])
  · exact .inr ⟨by rw [if_neg hp], fun h => hp h.1⟩

theorem convert_returns (stack : BitVec 32) {stype dtype : NumType} (hne : stype ≠ dtype) (sbuffer : List UInt8) :
    ∃ p, ∀ buffer, Returns (convert stack dtype buffer stype sbuffer) (p ∧ dtype.size ≤ buffer.length) := by
  simp only [convert, if_neg hne]
  cases stype <;> cases dtype
  case u.U => exact ⟨True, fun buffer => (store_returns ..).congr (by simp [NumType.size])⟩
  case U.u => exact ⟨_, fun buffer => guarded_store_returns ..⟩
  case I.i => exact ⟨_, fun buffer => guarded_store_returns ..⟩
  case i.u => exact ⟨_, fun buffer => guarded_store_returns ..⟩
  case I.U => exact ⟨_, fun buffer => guarded_store_returns ..⟩
  all_goals first
    | exact absurd rfl hne
    | exact ⟨False, fun buffer => .inr ⟨rfl, by simp⟩⟩

theorem via_returns (stack : BitVec 32) (sbuffer : List UInt8) :
    ∃ p, ∀ buffer, Returns (DictConv.crtx_conv_value stack .u buffer .I sbuffer) (p ∧ NumType.u.size ≤ buffer.length) := by
  unfold DictConv.crtx_conv_value
  simp only [if_true, and_self]
  obtain ⟨p, hp⟩ := convert_returns stack (show NumType.I ≠ .i by decide) sbuffer
  have hi := hp (bytesOf (0 : BitVec 32))
  generalize convert stack .i (bytesOf (0 : BitVec 32)) .I sbuffer = r at hi
  obtain ⟨ret, i32⟩ := r
  rcases hi with ⟨rfl, -⟩ | ⟨rfl, -⟩
  · exact convert_returns stack (show NumType.i ≠ .u by decide) i32
  · exact ⟨False, fun buffer => .inr ⟨rfl, by simp⟩⟩

theorem conv_value_returns (stack : BitVec 32) (di : NumItem) {type : NumType} (hne : di.type ≠ type)
    (buffer : List UInt8) :
    Returns (DictConv.crtx_conv_value stack type buffer di.type di.memory)
      ((converted stack di.type type di.value).isSome ∧ type.size ≤ buffer.length) := by
  obtain ⟨p, hp⟩ : ∃ p, ∀ buffer, Returns (DictConv.crtx_conv_value stack type buffer di.type di.memory)
      (p ∧ type.size ≤ buffer.length) := by
    by_cases hvia : di.type = .I ∧ type = .u
    · obtain ⟨htype, rfl⟩ := hvia
      rw [htype]
      exact via_returns stack _
    · simp only [conv_value_direct hvia]
      exact convert_returns stack hne _
  have hexact := hp (List.replicate type.size 0)
  have hsize : (List.replicate type.size (0 : UInt8)).length = type.size := by simp
  have houtcome := conv_value_outcome stack di hsize hne
  -- With a buffer of the exact size it is known what comes out.
  have hiff : p ↔ (converted stack di.type type di.value).isSome := by
    revert hexact houtcome
    generalize DictConv.crtx_conv_value stack type (List.replicate type.size 0) di.type di.memory = r
    generalize converted stack di.type type di.value = n
    rintro hexact (_ | _)
    · simpa [Returns] using hexact
    · simpa [Returns] using hexact
  exact (hp buffer).congr (by rw [hiff])

theorem convertDouble_returns (buffer : List UInt8) (d : BitVec 64) :
    Returns (convertDouble buffer (bytesOf d)) (inInt64 d ∧ 8 ≤ buffer.length) := by
  unfold convertDouble
  rw [load_bytesOf (by decide)]
  exact guarded_store_returns buffer (truncate d)

theorem memory_eq (s : NumType) (w : BitVec 64) : NumItem.memory ⟨s, w⟩ = bytesOf w := rfl

theorem double_to_U_returns (m : Machine) (buffer : List UInt8) (d : BitVec 64) :
    Returns (crtx_conv_value m 'U' buffer 'd' (bytesOf d))
      (inInt64 d ∧ 0 ≤ (truncate d).toInt ∧ 8 ≤ buffer.length) := by
  unfold crtx_conv_value
  rw [if_neg (by decide), if_neg (by decide), if_pos ⟨rfl, rfl⟩]
  unfold convertDouble
  rw [load_bytesOf (by decide)]
  cases hd : inInt64 d with
  | true =>
    have hconv := conv_value_returns m.stack ⟨.I, truncate d⟩ (show NumType.I ≠ .U by decide) buffer
    rw [value_I, memory_eq] at hconv
    simp only [hd, if_true, store_exact (show (bytesOf (0 : BitVec 64)).length = 64 / 8 from rfl)]
    rw [if_neg (by decide)]
    exact hconv.congr (by simp [converted, NumType.size])
  | false =>
    simp only [hd, Bool.false_eq_true, if_false]
    exact .inr ⟨rfl, by simp⟩

theorem numType_eq {c : Char} {s : NumType} (h : numType c = some s) : c ∈ ['i', 'u', 'I', 'U'] := by
  unfold numType at h
  split at h <;> simp_all

theorem numType_inj {c c' : Char} {s : NumType} (h : numType c = some s) (h' : numType c' = some s) : c = c' := by
  unfold numType at h h'
  split at h <;> cases h <;> split at h' <;> simp_all

theorem convertible_iff {m : Machine} {di : Item} {size : Nat} {c c' : Char} (h : di.type = some c) (hne : c ≠ c') :
    Convertible m di size (some c') ↔
      (∃ s t, numType c = some s ∧ numType c' = some t ∧
        (converted m.stack s t (NumItem.value ⟨s, bits m di⟩)).isSome ∧ t.size ≤ size) ∨
      (c = 'd' ∧ c' = 'I' ∧ inInt64 (bits m di) ∧ 8 ≤ size) ∨
      (c = 'd' ∧ c' = 'U' ∧ inInt64 (bits m di) ∧ 0 ≤ (truncate (bits m di)).toInt ∧ 8 ≤ size) := by
  constructor
  · rintro (⟨h', -⟩ | ⟨h', hc, hc', -, hv, hs⟩ | ⟨h', hv, hs⟩ | ⟨h', hv, hpos, hs⟩)
    all_goals obtain rfl := Option.some.inj (h.symm.trans h')
    · exact absurd rfl hne
    · exact .inl ⟨_, _, hc, hc', hv, hs⟩
    · exact .inr (.inl ⟨rfl, rfl, hv, hs⟩)
    · exact .inr (.inr ⟨rfl, rfl, hv, hpos, hs⟩)
  · rintro (⟨s, t, hc, hc', hv, hs⟩ | ⟨rfl, rfl, hv, hs⟩ | ⟨rfl, rfl, hv, hpos, hs⟩)
    · exact .number h hc hc' hne hv hs
    · exact .signed h hv hs
    · exact .unsigned h hv hpos hs

theorem conv_value_convertible (m : Machine) {di : Item} {c c' : Char} (h : di.type = some c) (hne : c ≠ c')
    (buffer : List UInt8) :
    Returns (crtx_conv_value m c' buffer c (memory m di)) (Convertible m di buffer.length (some c')) := by
  refine Returns.congr ?_ (convertible_iff h hne).symm
  by_cases hI : c = 'd' ∧ c' = 'I'
  · obtain ⟨rfl, rfl⟩ := hI
    exact (convertDouble_returns buffer (bits m di)).congr (by simp [numType])
  by_cases hU : c = 'd' ∧ c' = 'U'
  · obtain ⟨rfl, rfl⟩ := hU
    exact (double_to_U_returns m buffer (bits m di)).congr (by simp [numType])
  have hdouble : ¬ ((c = 'd' ∧ c' = 'I' ∧ inInt64 (bits m di) = true ∧ 8 ≤ buffer.length) ∨
      (c = 'd' ∧ c' = 'U' ∧ inInt64 (bits m di) = true ∧ 0 ≤ (truncate (bits m di)).toInt ∧ 8 ≤ buffer.length)) := by
    rintro (⟨h1, h2, -⟩ | ⟨h1, h2, -⟩)
    · exact hI ⟨h1, h2⟩
    · exact hU ⟨h1, h2⟩
  rw [or_iff_left hdouble]
  simp only [crtx_conv_value, if_neg hne, if_neg hI, if_neg hU]
  split
  · rename_i s t hs ht
    have hst : s ≠ t := by
      rintro rfl
      exact hne (numType_inj hs ht)
    have hconv := conv_value_returns m.stack ⟨s, bits m di⟩ hst buffer
    rw [memory_eq] at hconv
    exact hconv.congr (by simp [hs, ht])
  · rename_i hnone
    refine .inr ⟨rfl, ?_⟩
    rintro ⟨s, t, hs, ht, -⟩
    exact hnone s t hs ht

theorem copy_value_returns (m : Machine) {di : Item} {type : Option Char} (h : di.type = type) (buffer : List UInt8) :
    Returns (crtx_copy_value m di buffer) (Convertible m di buffer.length type) := by
  refine returns_ite.congr ?_
  subst h
  constructor
  · intro hsize
    obtain ⟨c, hc, hs⟩ := Option.bind_eq_some_iff.mp hsize
    rw [hc]
    exact .same hc hs
  · generalize ht : di.type = type
    rintro (⟨h, hs⟩ | ⟨h, -, -, hne, -⟩ | ⟨h, -⟩ | ⟨h, -⟩)
    · simpa using hs
    · exact absurd (Option.some.inj (h.symm.trans ht)) hne
    · exact absurd (Option.some.inj (h.symm.trans ht)) (by decide)
    · exact absurd (Option.some.inj (h.symm.trans ht)) (by decide)

theorem get_item_value_returns (m : Machine) (di : Item) (type : Option Char) (buffer : List UInt8) :
    Returns (crtx_get_item_value m di type buffer) (Convertible m di buffer.length type) := by
  unfold crtx_get_item_value
  by_cases h : di.type = type
  · rw [if_pos h]
    exact copy_value_returns m h buffer
  rw [if_neg h]
  split
  · rename_i c c' hc
    have hne : c ≠ c' := by
      rintro rfl
      exact h hc
    split
    · exact conv_value_convertible m hc hne buffer
    · rename_i hmem
      refine .inr ⟨rfl, ?_⟩
      rw [convertible_iff hc hne]
      rintro (⟨s, t, hs, -⟩ | ⟨rfl, -⟩ | ⟨rfl, -⟩)
      · have := numType_eq hs
        simp_all
      · exact hmem (by decide)
      · exact hmem (by decide)
  · rename_i hnone
    refine .inr ⟨rfl, ?_⟩
    rintro (⟨hc, -⟩ | ⟨hc, -⟩ | ⟨hc, -⟩ | ⟨hc, -⟩) <;> exact hnone _ _ hc rfl

/-! ## The result of the whole call -/

theorem get_value_nonneg (m : Machine) (ds : Dict) (key : CString) (type : Option Char) (buffer : List UInt8) :
    0 ≤ (crtx_get_value m ds key type buffer).1 := by
  unfold crtx_get_value
  split
  · exact Int.le_refl _
  · exact (get_item_value_returns ..).nonneg

theorem event_get_value_by_key_zero (m : Machine) {event : Payload.St} {raw : BitVec 64} {x : DictId}
    (hp : Payload.crtx_event_get_payload event = some (raw, some x)) (key : CString) (type : Option Char)
    (buffer : List UInt8) :
    ∃ buffer', crtx_event_get_value_by_key m event key type buffer = some (0, buffer') := by
  have hnonneg := get_value_nonneg m (event.heap x) key type buffer
  refine ⟨(crtx_get_value m (event.heap x) key type buffer).2, ?_⟩
  simp [crtx_event_get_value_by_key, hp, Int.not_lt.mpr hnonneg]

theorem converted_iff (m : Machine) (ds : Dict) (key : CString) (type : Option Char) (buffer : List UInt8) :
    Converted m ds key type buffer ↔
      ∃ i, crtx_get_item ds key = some i ∧ Convertible m (ds.item i) buffer.length type := by
  unfold Converted
  simp only [(get_item_value_returns ..).one_iff]

theorem event_get_value_by_key_reports_iff (m : Machine) {event : Payload.St} {raw : BitVec 64} {x : DictId}
    (hp : Payload.crtx_event_get_payload event = some (raw, some x)) (key : CString) (type : Option Char)
    (buffer : List UInt8) :
    Reports m (event.heap x) key type buffer (crtx_event_get_value_by_key m event key type buffer) ↔
      ∃ i, crtx_get_item (event.heap x) key = some i ∧ Convertible m ((event.heap x).item i) buffer.length type := by
  obtain ⟨buffer', hzero⟩ := event_get_value_by_key_zero m hp key type buffer
  rw [hzero, ← converted_iff]
  constructor
  · rintro ⟨ret, hret, hiff, -⟩
    obtain rfl := Option.some.inj hret
    exact hiff.mp rfl
  · intro hconv
    exact ⟨_, rfl, iff_of_true rfl hconv, fun hn => absurd hconv hn⟩

/-- An event with a dictionary that maps `a` to 5. -/
def fiveEvent : Payload.St :=
  (Payload.fresh (fun _ => (crtx_dict_new_item (crtx_init_dict none 0) (some 'u') (some keyA) ⟨.word 5, 0, 0⟩).1) 1
    |> fun s => Payload.crtx_event_set_dict_data s 0 0).getD (Payload.fresh (fun _ => crtx_init_dict none 0) 0)

theorem event_get_value_by_key_reports_iff_five :
    Payload.crtx_event_get_payload fiveEvent = some (0, some 0) ∧
      (Reports ⟨fun _ => 0, 0⟩ (fiveEvent.heap 0) keyA (some 'U') [0, 0, 0, 0, 0, 0, 0, 0]
          (crtx_event_get_value_by_key ⟨fun _ => 0, 0⟩ fiveEvent keyA (some 'U') [0, 0, 0, 0, 0, 0, 0, 0]) ↔
        ∃ i, crtx_get_item (fiveEvent.heap 0) keyA = some i ∧
          Convertible ⟨fun _ => 0, 0⟩ ((fiveEvent.heap 0).item i) 8 (some 'U')) :=
  have hp : Payload.crtx_event_get_payload fiveEvent = some (0, some 0) := by decide
  ⟨hp, event_get_value_by_key_reports_iff ⟨fun _ => 0, 0⟩ hp keyA (some 'U') _⟩

/-- There is no key `b`, and the call returns 0. -/
theorem event_get_value_by_key_missing :
    ¬ ∀ (m : Machine) (event : Payload.St) (raw : BitVec 64) (x : DictId) (key : CString) (type : Option Char)
      (buffer : List UInt8), Payload.crtx_event_get_payload event = some (raw, some x) →
        Reports m (event.heap x) key type buffer (crtx_event_get_value_by_key m event key type buffer) := by
  intro h
  obtain ⟨ret, hret, hiff, -⟩ := h ⟨fun _ => 0, 0⟩ fiveEvent 0 0 keyB (some 'u') [0, 0, 0, 0] (by decide)
  have hzero : crtx_event_get_value_by_key ⟨fun _ => 0, 0⟩ fiveEvent keyB (some 'u') [0, 0, 0, 0] =
      some (0, [0, 0, 0, 0]) := by decide
  rw [hzero] at hret
  obtain rfl := Option.some.inj hret
  obtain ⟨i, hi, -⟩ := hiff.mp rfl
  have hnone : crtx_get_item (fiveEvent.heap 0) keyB = none := by decide
  simp [hnone] at hi

end Libcortex.EventValue
