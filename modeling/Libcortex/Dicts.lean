import Mathlib.Data.BitVec
import Mathlib.Data.List.Basic
import Libcortex.Types

/-!
# Dictionaries

`dict.c`: a dictionary is an array of items. Its end is kept in two ways, by `signature_length`
and by a flag on the last item. An item whose type is 0 is free, and is used for the next new one.
-/

namespace Libcortex.Dicts

/-- A C string: the bytes before the terminating zero. -/
abbrev CString := { b : List UInt8 // 0 ∉ b }

/-- The bytes of a string literal. -/
def literal (s : String) : List UInt8 := s.toList.map fun c => UInt8.ofNat c.toNat

def keyA : CString := ⟨[97], by decide⟩

def keyB : CString := ⟨[98], by decide⟩

abbrev DictId := Nat

/-- The anonymous union of an item. A pointer is modelled by the memory that it points to. -/
inductive Value where
  | word (w : BitVec 64)
  | string (s : Option CString)
  | pointer (block : List UInt8)
  | dict (d : DictId)
deriving DecidableEq

/-- `struct crtx_dict_item`. The type 0 is `none`. -/
structure Item where
  type : Option Char
  flags : BitVec 8
  key : Option CString
  size : BitVec 64
  value : Value
deriving DecidableEq

/-- What `calloc` and `memset` leave. -/
def Item.zero : Item where
  type := none
  flags := 0
  key := none
  size := 0
  value := .word 0

/-- `struct crtx_dict`. The pointer `items` is NULL if the list is empty. -/
structure Dict where
  signature : Option CString
  signature_length : BitVec 32
  items : List Item
deriving DecidableEq

def CRTX_DIF_ALLOCATED_KEY : BitVec 8 := 1
def CRTX_DIF_CREATE_DATA_COPY : BitVec 8 := 4
def CRTX_DIF_CREATE_KEY_COPY : BitVec 8 := 8
def CRTX_DIF_LAST_ITEM : BitVec 8 := 128

/-- `CRTX_DIF_IS_LAST` -/
def Item.isLast (di : Item) : Bool := di.flags &&& CRTX_DIF_LAST_ITEM != 0

/-- The item that the pointer `&items[i]` points to. -/
def Dict.item (d : Dict) (i : Nat) : Item := d.items[i]?.getD .zero

/-- `*crtx_get_item_by_idx(dict, i) = di` -/
def setItem (d : Dict) (i : Nat) (di : Item) : Dict := { d with items := d.items.set i di }

/-- What the union holds, read as a number or as a pointer to a block. -/
def wordOf (di : Item) : BitVec 64 :=
  match di.value with
  | .word w => w
  | _ => 0

def stringOf (di : Item) : Option CString :=
  match di.value with
  | .string s => s
  | _ => none

def dictOf (di : Item) : Option DictId :=
  match di.value with
  | .dict d => some d
  | _ => none

/-! ## Walking over the items -/

def crtx_get_first_item (d : Dict) : Option Nat := if d.items = [] then none else some 0

def crtx_get_next_item (d : Dict) (i : Nat) : Option Nat :=
  if (d.item i).isLast = false ∧ i + 1 < d.signature_length.toNat then some (i + 1) else none

/-- The items that a loop visits which starts at `di` and takes `crtx_get_next_item` until it is NULL. -/
def visitFrom (d : Dict) : Nat → Option Nat → List Nat
  | 0, _ => []
  | _ + 1, none => []
  | fuel + 1, some i => i :: visitFrom d fuel (crtx_get_next_item d i)

-- No loop is longer than the array.
def visit (d : Dict) : List Nat := visitFrom d d.signature_length.toNat (crtx_get_first_item d)

def crtx_get_item (d : Dict) (key : CString) : Option Nat :=
  (List.range d.signature_length.toNat).find? fun i => (d.item i).key = some key

/-! ## Creating and resizing -/

/-- The payload only makes the block larger that holds the structure. -/
def crtx_init_dict (signature : Option CString) (sign_length : BitVec 32) : Dict :=
  let sign_length :=
    match signature with
    | some s => if sign_length = 0 then BitVec.ofNat 32 s.1.length else sign_length
    | none => sign_length
  let items := List.replicate sign_length.toNat Item.zero
  { signature
    signature_length := sign_length
    items := items.modify (sign_length.toNat - 1) fun di => { di with flags := di.flags ||| CRTX_DIF_LAST_ITEM } }

def clearLast (di : Item) : Item := { di with flags := di.flags &&& ~~~CRTX_DIF_LAST_ITEM }

def markLast (di : Item) : Item := { di with flags := CRTX_DIF_LAST_ITEM }

/-- `n_items` is a `size_t`, but `signature_length` has 32 bits. With `n_items = 0` the code writes in front of the
array. -/
def crtx_resize_dict (d : Dict) (n_items : BitVec 64) : Dict × Int :=
  let n := n_items.toNat
  let l := d.signature_length.toNat
  if n < l then (d, 1)
  else
    let items := d.items.take l ++ List.replicate (n - l) Item.zero
    let items := if 0 < l then items.modify (l - 1) clearLast else items
    ({ d with items := items.modify (n - 1) markLast, signature_length := n_items.setWidth 32 }, 0)

/-- The first free item that the walk finds, or else a new one at the end. -/
def crtx_dict_alloc_next_item (d : Dict) : Dict × Nat :=
  match (visit d).find? fun i => (d.item i).type = none with
  | some i => (d, i)
  | none =>
    let d := (crtx_resize_dict d ((d.signature_length + 1).setWidth 64)).1
    (d, (d.signature_length - 1).toNat)

/-! ## Filling an item -/

/-- The arguments of `crtx_fill_data_item` after the key. -/
structure Args where
  value : Value
  size : BitVec 64
  flags : BitVec 32
deriving DecidableEq

def knownType (c : Char) : Bool := c ∈ ['i', 'u', 'I', 'U', 'z', 'Z', 'd', 's', 'p', 'D']

/-- The size does not fit the type, which is reported. -/
def sizeMismatch (c : Char) (size : BitVec 64) : Bool :=
  if c ∈ ['i', 'u'] then 4 < size.toNat
  else if c ∈ ['I', 'U', 'z', 'Z', 'd'] then 0 < size.toNat ∧ size.toNat ≠ 8
  else false

/-- What `va_arg` takes: 32 bits for `i` and `u`. -/
def takeArg (c : Char) : Value → Value
  | .word w => if c ∈ ['i', 'u'] then .word (w.setWidth 32 |>.setWidth 64) else .word w
  | v => v

def strlen (v : Value) : Nat :=
  match v with
  | .string (some s) => s.1.length
  | _ => 0

/-- The copy of a string has the same text, so it only shows in the size and the flags. -/
def copyData (di : Item) : Item :=
  if di.flags &&& CRTX_DIF_CREATE_DATA_COPY ≠ 0 ∧ di.type = some 's' then
    { di with size := BitVec.ofNat 64 (strlen di.value), flags := di.flags &&& ~~~CRTX_DIF_CREATE_DATA_COPY }
  else di

def copyKey (di : Item) : Item :=
  if di.flags &&& CRTX_DIF_CREATE_KEY_COPY ≠ 0 then { di with flags := di.flags ||| CRTX_DIF_ALLOCATED_KEY } else di

/-- An unknown type leaves the value, the size and the flags as they were, a size that does not fit leaves the
flags. -/
def crtx_fill_data_item (di : Item) (type : Option Char) (key : Option CString) (a : Args) : Item × Int :=
  let di := { di with type, key }
  match type with
  | none => (di, -1)
  | some c =>
    if knownType c then
      let di := { di with value := takeArg c a.value, size := a.size }
      if sizeMismatch c a.size then (di, 0)
      else (copyKey (copyData { di with flags := a.flags.setWidth 8 }), 0)
    else (di, -1)

def fillSlot (d : Dict) (i : Nat) (type : Option Char) (key : Option CString) (a : Args) : Dict × Int :=
  let (di, ret) := crtx_fill_data_item (d.item i) type key a
  ({ d with items := d.items.set i di }, ret)

def crtx_dict_new_item (d : Dict) (type : Option Char) (key : Option CString) (a : Args) : Dict × Int :=
  let (d, i) := crtx_dict_alloc_next_item d
  fillSlot d i type key a

/-! ## Removing an item -/

/-- `none`: the key is not there, and the code follows a NULL pointer. A nested dictionary loses a reference, which
shows nowhere in this one. -/
def crtx_dict_remove_item (d : Dict) (key : CString) : Option Dict :=
  (crtx_get_item d key).map fun i => { d with items := d.items.set i .zero }

/-! ## What a copy keeps -/

theorem copyData_key (di : Item) : (copyData di).key = di.key := by
  unfold copyData
  split <;> rfl

theorem copyKey_fields (di : Item) : ∃ flags, copyKey di = { di with flags } := by
  unfold copyKey
  split
  · exact ⟨_, rfl⟩
  · exact ⟨di.flags, rfl⟩

theorem copyKey_key (di : Item) : (copyKey di).key = di.key := by
  obtain ⟨flags, h⟩ := copyKey_fields di
  rw [h]

/-! ## Lists of items -/

theorem getD_modify (l : List Item) (i : Nat) (f : Item → Item) (j : Nat) :
    (l.modify i f)[j]?.getD .zero = if i = j ∧ j < l.length then f (l[j]?.getD .zero) else l[j]?.getD .zero := by
  rw [List.getElem?_modify]
  by_cases hj : j < l.length
  · rw [List.getElem?_eq_getElem hj]
    by_cases hi : i = j <;> simp [hi, hj]
  · rw [List.getElem?_eq_none (Nat.le_of_not_lt hj)]
    simp [hj]

theorem getD_set (l : List Item) (i : Nat) (di : Item) (j : Nat) :
    (l.set i di)[j]?.getD .zero = if i = j ∧ j < l.length then di else l[j]?.getD .zero := by
  rw [List.getElem?_set]
  by_cases hi : i = j
  · subst hi
    by_cases hj : i < l.length <;> simp [hj]
  · simp [hi]

theorem item_getElem {d : Dict} {i : Nat} (h : i < d.items.length) : d.item i = d.items[i] := by
  unfold Dict.item
  rw [List.getElem?_eq_getElem h, Option.getD_some]

theorem item_beyond {d : Dict} {i : Nat} (h : d.items.length ≤ i) : d.item i = .zero := by
  unfold Dict.item
  rw [List.getElem?_eq_none h, Option.getD_none]

theorem item_setItem (d : Dict) (i : Nat) (di : Item) (j : Nat) :
    (setItem d i di).item j = if i = j ∧ j < d.items.length then di else d.item j := by
  unfold setItem Dict.item
  exact getD_set ..

theorem item_setItem_ne (d : Dict) {i j : Nat} (h : i ≠ j) (di : Item) : (setItem d i di).item j = d.item j := by
  rw [item_setItem, if_neg fun h' => h h'.1]

@[simp] theorem setItem_length (d : Dict) (i : Nat) (di : Item) : (setItem d i di).items.length = d.items.length := by
  simp [setItem]

@[simp] theorem setItem_signature_length (d : Dict) (i : Nat) (di : Item) :
    (setItem d i di).signature_length = d.signature_length := rfl

theorem getD_replicate (n j : Nat) : (List.replicate n Item.zero)[j]?.getD .zero = .zero := by
  rw [List.getElem?_replicate]
  split <;> rfl

end Libcortex.Dicts
