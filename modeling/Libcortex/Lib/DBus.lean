import Mathlib.Data.BitVec
import Mathlib.Data.List.Basic

/-!
# Values of D-Bus

A message is a sequence of values. It is read by a cursor that is moved into a container and out
of it again.
-/

namespace Libcortex.Lib.DBus

abbrev Text := { b : List UInt8 // 0 ∉ b }

theorem zero_notMem_nil : (0 : UInt8) ∉ [] := List.not_mem_nil

inductive BasicType where
  | s | o | h | b | y | q | n | u | i | t | x | d
deriving DecidableEq

def BasicType.code : BasicType → Char
  | .s => 's'
  | .o => 'o'
  | .h => 'h'
  | .b => 'b'
  | .y => 'y'
  | .q => 'q'
  | .n => 'n'
  | .u => 'u'
  | .i => 'i'
  | .t => 't'
  | .x => 'x'
  | .d => 'd'

/-- The types `n`, `i` and `x` are signed, `d` is a `double`. -/
inductive Basic where
  | s (text : Text)
  | o (text : Text)
  | h (w : BitVec 32)
  | b (v : Bool)
  | y (w : BitVec 8)
  | q (w : BitVec 16)
  | n (w : BitVec 16)
  | u (w : BitVec 32)
  | i (w : BitVec 32)
  | t (w : BitVec 64)
  | x (w : BitVec 64)
  | d (w : BitVec 64)
deriving DecidableEq

def Basic.type : Basic → BasicType
  | .s _ => .s
  | .o _ => .o
  | .h _ => .h
  | .b _ => .b
  | .y _ => .y
  | .q _ => .q
  | .n _ => .n
  | .u _ => .u
  | .i _ => .i
  | .t _ => .t
  | .x _ => .x
  | .d _ => .d

def Basic.text : Basic → Text
  | .s text | .o text => text
  | _ => ⟨[], zero_notMem_nil⟩

def Basic.word : Basic → BitVec 64
  | .s _ | .o _ => 0
  | .b v => if v then 1 else 0
  | .y w => w.setWidth 64
  | .q w | .n w => w.setWidth 64
  | .h w | .u w | .i w => w.setWidth 64
  | .t w | .x w | .d w => w

/-- The number that a value is. -/
def Basic.number : Basic → Option Int
  | .s _ | .o _ | .d _ => none
  | .b v => some v.toNat
  | .y w => some w.toNat
  | .q w => some w.toNat
  | .h w | .u w => some w.toNat
  | .t w => some w.toNat
  | .n w => some w.toInt
  | .i w => some w.toInt
  | .x w => some w.toInt

inductive Ty where
  | basic (type : BasicType)
  | variant
  | entry (key : BasicType) (value : Ty)
  | array (elem : Ty)

def byte (c : Char) : UInt8 := UInt8.ofNat c.toNat

def Ty.signature : Ty → List UInt8
  | .basic type => [byte type.code]
  | .variant => [byte 'v']
  | .entry key value => byte '{' :: byte key.code :: (value.signature ++ [byte '}'])
  | .array elem => byte 'a' :: elem.signature

theorem code_ne_zero (type : BasicType) : byte type.code ≠ 0 := by cases type <;> decide

theorem Ty.zero_notMem_signature (ty : Ty) : 0 ∉ ty.signature := by
  induction ty with
  | basic type => simpa [Ty.signature] using (code_ne_zero type).symm
  | variant => decide
  | entry key value ih =>
    have h : (0 : UInt8) ≠ byte '{' ∧ (0 : UInt8) ≠ byte '}' := by decide
    simp [Ty.signature, ih, h, (code_ne_zero key).symm]
  | array elem ih =>
    have h : (0 : UInt8) ≠ byte 'a' := by decide
    simp [Ty.signature, ih, h]

mutual

inductive Val where
  | basic (b : Basic)
  | variant (v : Val)
  | entry (key : Basic) (v : Val)
  | array (elem : Ty) (l : Vals)

inductive Vals where
  | nil
  | cons (v : Val) (rest : Vals)

end

def Val.ty : Val → Ty
  | .basic b => .basic b.type
  | .variant _ => .variant
  | .entry key v => .entry key.type v.ty
  | .array elem _ => .array elem

/-- The letter that stands for the type of a value. -/
def Val.code : Val → Char
  | .basic b => b.type.code
  | .variant _ => 'v'
  | .entry _ _ => 'e'
  | .array _ _ => 'a'

/-- The signature of what is in a container. -/
def Val.contents : Val → Text
  | .basic _ => ⟨[], zero_notMem_nil⟩
  | .variant v => ⟨v.ty.signature, v.ty.zero_notMem_signature⟩
  | .entry key v =>
    ⟨byte key.type.code :: v.ty.signature, by
      simpa [v.ty.zero_notMem_signature] using (code_ne_zero key.type).symm⟩
  | .array elem _ => ⟨elem.signature, elem.zero_notMem_signature⟩

def Val.children : Val → Option Vals
  | .basic _ => none
  | .variant v => some (.cons v .nil)
  | .entry key v => some (.cons (.basic key) (.cons v .nil))
  | .array _ l => some l

mutual

/-- How deep a reader has to go for a value: a step for each value and each end of a container. -/
def Val.size : Val → Nat
  | .basic _ => 1
  | .variant v => v.size + 3
  | .entry _ v => v.size + 5
  | .array _ l => l.size + 1

def Vals.size : Vals → Nat
  | .nil => 1
  | .cons v rest => v.size + rest.size + 1

end

theorem Val.size_children {v : Val} {l : Vals} (h : v.children = some l) : v.size = l.size + 1 := by
  cases v with
  | basic b => cases h
  | variant v => cases h; simp [Val.size, Vals.size]
  | entry key v => cases h; simp [Val.size, Vals.size]; omega
  | array elem l' => cases h; simp [Val.size]

theorem Val.eq_basic {v : Val} (h : v.children = none) : ∃ b, v = .basic b := by
  cases v with
  | basic b => exact ⟨b, rfl⟩
  | _ => cases h

theorem Val.code_children {v : Val} {l : Vals} (h : v.children = some l) :
    v.code = 'e' ∨ v.code = 'v' ∨ v.code = 'a' := by
  cases v with
  | basic b => cases h
  | variant v => simp [Val.code]
  | entry key v => simp [Val.code]
  | array elem l' => simp [Val.code]

theorem Vals.size_pos (l : Vals) : 0 < l.size := by cases l <;> simp [Vals.size]

theorem Val.size_pos (v : Val) : 0 < v.size := by cases v <;> simp [Val.size]

/-! ## Cursors -/

/-- The functions that read a message. A negative number is an error, and `contents` and `text` mean nothing for types
that have none. -/
structure Cursor (σ : Type) where
  peek_type : σ → Int × Char × Text
  enter_container : σ → Char → Text → Int × σ
  at_end : σ → Int
  read_basic : σ → Char → Int × Text × BitVec 64 × σ
  exit_container : σ → Int × σ

/-- `At msg l up`: in the container that `msg` is in, the values `l` are left, and behind it those of `up`. A container
can be left at its end only. -/
structure Faithful {σ : Type} (bus : Cursor σ) (At : σ → Vals → List Vals → Prop) : Prop where
  peek {msg : σ} {v : Val} {rest : Vals} {up : List Vals} (h : At msg (.cons v rest) up) :
    ∃ rv, 0 < rv ∧ bus.peek_type msg = (rv, v.code, v.contents)
  more {msg : σ} {v : Val} {rest : Vals} {up : List Vals} (h : At msg (.cons v rest) up) : bus.at_end msg = 0
  at_end {msg : σ} {up : List Vals} (h : At msg .nil up) : bus.at_end msg = 1
  enter {msg : σ} {v : Val} {l rest : Vals} {up : List Vals} (h : At msg (.cons v rest) up)
    (hl : v.children = some l) :
    ∃ rv msg', 0 ≤ rv ∧ bus.enter_container msg v.code v.contents = (rv, msg') ∧ At msg' l (rest :: up)
  read {msg : σ} {b : Basic} {rest : Vals} {up : List Vals} (h : At msg (.cons (.basic b) rest) up) :
    ∃ rv msg', 0 ≤ rv ∧ bus.read_basic msg b.type.code = (rv, b.text, b.word, msg') ∧ At msg' rest up
  exit {msg : σ} {rest : Vals} {up : List Vals} (h : At msg .nil (rest :: up)) :
    ∃ rv msg', 0 ≤ rv ∧ bus.exit_container msg = (rv, msg') ∧ At msg' rest up

/-- The cursor that is what it has not read yet. -/
def treeCursor : Cursor (Vals × List Vals) where
  peek_type
    | (.nil, _) => (0, 'z', ⟨[], zero_notMem_nil⟩)
    | (.cons v _, _) => (1, v.code, v.contents)
  enter_container msg code contents :=
    match msg with
    | (.nil, _) => (-6, msg)
    | (.cons v rest, up) =>
      match v.children with
      | none => (-6, msg)
      | some l => if code = v.code ∧ contents = v.contents then (1, (l, rest :: up)) else (-6, msg)
  at_end
    | (.nil, _) => 1
    | (.cons _ _, _) => 0
  read_basic msg code :=
    match msg with
    | (.cons (.basic b) rest, up) =>
      if code = b.type.code then (1, b.text, b.word, (rest, up)) else (-6, ⟨[], zero_notMem_nil⟩, 0, msg)
    | _ => (-6, ⟨[], zero_notMem_nil⟩, 0, msg)
  exit_container
    | (.nil, rest :: up) => (1, (rest, up))
    | msg => (-16, msg)

theorem treeCursor_faithful : Faithful treeCursor fun msg l up => msg = (l, up) where
  peek := by
    rintro _ v rest up rfl
    exact ⟨1, by omega, rfl⟩
  more := by
    rintro _ v rest up rfl
    rfl
  at_end := by
    rintro _ up rfl
    rfl
  enter := by
    rintro _ v l rest up rfl hl
    exact ⟨1, _, by omega, by simp [treeCursor, hl], rfl⟩
  read := by
    rintro _ b rest up rfl
    exact ⟨1, _, by omega, by simp [treeCursor], rfl⟩
  exit := by
    rintro _ rest up rfl
    exact ⟨1, _, by omega, rfl, rfl⟩

end Libcortex.Lib.DBus
