import Libcortex.DictInvariant

/-!
# Dictionaries from argument lists

`dict.c` fills an item from a `va_list`: the key, the value, the size and the flags. There are two
such functions, `crtx_fill_data_item_va` takes the key from the list and `crtx_fill_data_item_va2`
has it as a parameter. `crtx_create_dict_va` and `crtx_append_to_dict` fill one item for each
character of a signature.
-/

namespace Libcortex.Dicts

/-! ## Reading arguments -/

/-- What the language leaves open about `va_arg`: an argument that is read as another type, and one behind the last. -/
structure Abi where
  word : Value → BitVec 64
  string : Value → Option CString
  beyond : Value

def Abi.zero : Abi := ⟨fun _ => 0, fun _ => none, .word 0⟩

def va_arg (abi : Abi) : List Value → Value × List Value
  | [] => (abi.beyond, [])
  | v :: va => (v, va)

def asWord (abi : Abi) : Value → BitVec 64
  | .word w => w
  | v => abi.word v

def asString (abi : Abi) : Value → Option CString
  | .string s => s
  | v => abi.string v

/-- The arguments as the caller passes them. -/
def Args.va (a : Args) : List Value := [a.value, .word a.size, .word (a.flags.setWidth 64)]

structure Quad where
  key : Option CString
  args : Args
deriving DecidableEq

def Quad.va (q : Quad) : List Value := .string q.key :: q.args.va

/-! ## Filling an item -/

/-- The memory that the key of an item points to: the caller's, or a copy of it. -/
inductive KeyMemory where
  | caller
  | copy
deriving DecidableEq

/-- What a call leaves: the item, its key's memory, the result and the arguments that are still unread. -/
structure Filled where
  item : Item
  memory : KeyMemory
  result : Int
  va : List Value
deriving DecidableEq

/-- The key that is freed together with the item. -/
def Filled.ownedKey (r : Filled) : Option KeyMemory :=
  if r.item.key ≠ none ∧ r.item.flags &&& CRTX_DIF_ALLOCATED_KEY ≠ 0 then some r.memory else none

def copyFilledData (r : Filled) : Filled := { r with item := copyData r.item }

def copyFilledKey (r : Filled) : Filled :=
  if r.item.flags &&& CRTX_DIF_CREATE_KEY_COPY ≠ 0 then { r with item := copyKey r.item, memory := .copy } else r

/-- The `switch` over the type. An unknown type takes no argument, a size that does not fit leaves the flags unread,
and is no error. `finish` is what follows the flags. -/
def fillItem (abi : Abi) (finish : Filled → Filled) (di : Item) (type : Option Char) (key : Option CString)
    (va : List Value) : Filled :=
  let di := { di with type, key }
  match type with
  | none => ⟨di, .caller, -1, va⟩
  | some c =>
    if knownType c then
      let value := va_arg abi va
      let size := va_arg abi value.2
      let di := { di with value := takeArg c value.1, size := asWord abi size.1 }
      if sizeMismatch c di.size then ⟨di, .caller, 0, size.2⟩
      else
        let flags := va_arg abi size.2
        finish ⟨{ di with flags := (asWord abi flags.1).setWidth 8 }, .caller, 0, flags.2⟩
    else ⟨di, .caller, -1, va⟩

def crtx_fill_data_item_va2 (abi : Abi) (di : Item) (type : Option Char) (key : Option CString) (va : List Value) :
    Filled :=
  fillItem abi (fun r => copyFilledKey (copyFilledData r)) di type key va

def crtx_fill_data_item_va (abi : Abi) (di : Item) (type : Option Char) (va : List Value) : Filled :=
  let key := va_arg abi va
  fillItem abi copyFilledData di type (asString abi key.1) key.2

/-! ## One item -/

@[simp] theorem asWord_word (abi : Abi) (w : BitVec 64) : asWord abi (.word w) = w := rfl

@[simp] theorem asString_string (abi : Abi) (s : Option CString) : asString abi (.string s) = s := rfl

@[simp] theorem va_arg_cons (abi : Abi) (v : Value) (va : List Value) : va_arg abi (v :: va) = (v, va) := rfl

@[simp] theorem flags_width (f : BitVec 32) : (f.setWidth 64).setWidth 8 = f.setWidth 8 := by
  apply BitVec.eq_of_toNat_eq
  simp only [BitVec.toNat_setWidth]
  omega

/-- The item that the arguments describe, before any copy. -/
def Args.item (a : Args) (c : Char) (key : Option CString) (flags : BitVec 8) : Item :=
  { type := some c, flags, key, size := a.size, value := takeArg c a.value }

theorem fillItem_unknown (abi : Abi) (finish : Filled → Filled) (di : Item) {type : Option Char}
    (key : Option CString) (va : List Value) (h : ∀ c ∈ type, knownType c = false) :
    fillItem abi finish di type key va = ⟨{ di with type, key }, .caller, -1, va⟩ := by
  cases type with
  | none => rfl
  | some c => simp [fillItem, h c rfl]

theorem fillItem_mismatch (abi : Abi) (finish : Filled → Filled) (di : Item) {c : Char} (key : Option CString)
    {a : Args} (va : List Value) (hc : knownType c = true) (hs : sizeMismatch c a.size = true) :
    fillItem abi finish di (some c) key (a.va ++ va) =
      ⟨a.item c key di.flags, .caller, 0, .word (a.flags.setWidth 64) :: va⟩ := by
  simp [fillItem, hc, Args.va, hs, Args.item]

theorem fillItem_fits (abi : Abi) (finish : Filled → Filled) (di : Item) {c : Char} (key : Option CString)
    {a : Args} (va : List Value) (hc : knownType c = true) (hs : sizeMismatch c a.size = false) :
    fillItem abi finish di (some c) key (a.va ++ va) =
      finish ⟨a.item c key (a.flags.setWidth 8), .caller, 0, va⟩ := by
  simp [fillItem, hc, Args.va, hs, Args.item]

/-! ## The two builders -/

/-- The same result, the same arguments left, and the same item with the same key of its own. -/
structure Agree (a b : Filled) : Prop where
  result : a.result = b.result
  va : a.va = b.va
  item : a.item = b.item
  ownedKey : a.ownedKey = b.ownedKey

/-- The flags are not read, do not ask for a copy of the key, or there is no key and the item owns it anyway. -/
def KeepsKey (type : Option Char) (key : Option CString) (a : Args) : Prop :=
  (∀ c ∈ type, knownType c = false) ∨ (∃ c ∈ type, sizeMismatch c a.size = true) ∨
    a.flags.setWidth 8 &&& CRTX_DIF_CREATE_KEY_COPY = 0 ∨
      (key = none ∧ a.flags.setWidth 8 &&& CRTX_DIF_ALLOCATED_KEY ≠ 0)

theorem Agree.refl (r : Filled) : Agree r r := ⟨rfl, rfl, rfl, rfl⟩

theorem or_allocated (f : BitVec 8) : f ||| CRTX_DIF_ALLOCATED_KEY = f ↔ f &&& CRTX_DIF_ALLOCATED_KEY ≠ 0 := by
  revert f
  decide

theorem agree_copyFilledKey {r : Filled} (hm : r.memory = .caller) :
    Agree r (copyFilledKey r) ↔ r.item.flags &&& CRTX_DIF_CREATE_KEY_COPY = 0 ∨
      (r.item.key = none ∧ r.item.flags &&& CRTX_DIF_ALLOCATED_KEY ≠ 0) := by
  unfold copyFilledKey
  split
  · rename_i hcopy
    rw [or_iff_right hcopy, copyKey, if_pos hcopy]
    constructor
    · intro h
      have hflags : r.item.flags ||| CRTX_DIF_ALLOCATED_KEY = r.item.flags := (congrArg Item.flags h.item).symm
      have howned := (or_allocated _).mp hflags
      refine ⟨?_, howned⟩
      -- Both own a key, so it is the caller's in one and a copy in the other.
      by_contra hkey
      have hmem := h.ownedKey
      simp only [Filled.ownedKey, hflags, hm] at hmem
      rw [if_pos ⟨hkey, howned⟩, if_pos ⟨hkey, howned⟩] at hmem
      exact absurd hmem (by decide)
    · rintro ⟨hkey, howned⟩
      have hflags := (or_allocated _).mpr howned
      exact ⟨rfl, rfl, by simp [hflags], by simp [Filled.ownedKey, hkey]⟩
  · rename_i hcopy
    simp [not_not.mp hcopy, Agree.refl]

theorem copyData_flags (di : Item) {m : BitVec 8} (hm : m &&& CRTX_DIF_CREATE_DATA_COPY = 0) :
    (copyData di).flags &&& m = di.flags &&& m := by
  unfold copyData
  split
  · have h : ~~~CRTX_DIF_CREATE_DATA_COPY &&& m = m := by
      revert m
      decide
    simp only [BitVec.and_assoc, h]
  · rfl

theorem fill_data_item_agree_iff (abi : Abi) (di : Item) (type : Option Char) (key : Option CString) (a : Args)
    (rest : List Value) :
    Agree (crtx_fill_data_item_va abi di type (.string key :: (a.va ++ rest)))
      (crtx_fill_data_item_va2 abi di type key (a.va ++ rest)) ↔ KeepsKey type key a := by
  simp only [crtx_fill_data_item_va, crtx_fill_data_item_va2, va_arg_cons, asString_string]
  by_cases hunknown : ∀ c ∈ type, knownType c = false
  · simp only [fillItem_unknown abi _ di key _ hunknown, KeepsKey]
    exact iff_of_true (Agree.refl _) (Or.inl hunknown)
  · obtain ⟨c, rfl, hc⟩ : ∃ c, type = some c ∧ knownType c = true := by
      cases type with
      | none => simp at hunknown
      | some c => exact ⟨c, rfl, by simpa using hunknown⟩
    cases hs : sizeMismatch c a.size with
    | true =>
      simp only [fillItem_mismatch abi _ di key rest hc hs]
      exact iff_of_true (Agree.refl _) (Or.inr (Or.inl ⟨c, rfl, hs⟩))
    | false =>
      simp only [fillItem_fits abi _ di key rest hc hs]
      rw [agree_copyFilledKey rfl]
      have hkey := copyData_flags (a.item c key (a.flags.setWidth 8))
        (show CRTX_DIF_CREATE_KEY_COPY &&& _ = 0 by decide)
      have hallocated := copyData_flags (a.item c key (a.flags.setWidth 8))
        (show CRTX_DIF_ALLOCATED_KEY &&& _ = 0 by decide)
      simp only [copyFilledData, hkey, hallocated, copyData_key]
      simp [KeepsKey, hc, hs, Args.item]

/-- `'u'` with `CRTX_DIF_CREATE_KEY_COPY`: only one of them makes the key its own. -/
theorem fill_data_item_disagree :
    ¬ ∀ (abi : Abi) (di : Item) (type : Option Char) (key : Option CString) (a : Args) (rest : List Value),
      Agree (crtx_fill_data_item_va abi di type (.string key :: (a.va ++ rest)))
        (crtx_fill_data_item_va2 abi di type key (a.va ++ rest)) := by
  intro h
  have hitem := (h .zero .zero (some 'u') (some keyA) ⟨.word 1, 0, 8⟩ []).item
  revert hitem
  decide

/-! ## Filling a dictionary -/

def typeOf (b : UInt8) : Char := Char.ofNat b.toNat

def countItem (counts : Bool) (d : Dict) : Dict :=
  if counts then { d with signature_length := d.signature_length + 1 } else d

/-- `while (*s)`, from the item `di = &items[i]` on. `none`: it writes outside of the array. The flag says whether it
came to the end of the signature. `counts`: the loop counts `signature_length` up. -/
def fillLoop (abi : Abi) (counts : Bool) (d : Dict) (i : Nat) : List UInt8 → List Value →
    Option (Dict × Bool × List Value)
  | [], va => some (d, true, va)
  | b :: s, va =>
    if i < d.items.length then
      let r := crtx_fill_data_item_va abi (d.item i) (some (typeOf b)) va
      let d := setItem d i r.item
      if r.result < 0 then some (d, false, r.va)
      else fillLoop abi counts (countItem counts d) (i + 1) s r.va
    else none

def orLast (di : Item) : Item := { di with flags := di.flags ||| CRTX_DIF_LAST_ITEM }

/-- `di--; di->flags |= CRTX_DIF_LAST_ITEM`, with `di = &items[i]` before. -/
def markEnd (d : Dict) (i : Nat) : Option Dict :=
  if 0 < i ∧ i ≤ d.items.length then some (setItem d (i - 1) (orLast (d.item (i - 1)))) else none

/-- `none`: it writes outside of the array, `some none`: it returns NULL. -/
def crtx_create_dict_va (abi : Abi) (signature : CString) (va : List Value) : Option (Option Dict) :=
  let d := crtx_init_dict (some signature) (BitVec.ofNat 32 signature.1.length)
  match fillLoop abi false d 0 signature.1 va with
  | none => none
  | some (_, false, _) => some none
  | some (d, true, _) => (markEnd d signature.1.length).map some

/-- `sprintf(&dict->signature[i], "%s", s)`. What is behind the end of the old signature stays unseen. -/
def printAt (signature s : CString) (i : Nat) : CString :=
  if i ≤ signature.1.length then
    ⟨signature.1.take i ++ s.1, by simpa [s.2] using fun h => signature.2 (List.mem_of_mem_take h)⟩
  else signature

/-- The sum of the lengths has 32 bits, and what `crtx_resize_dict` returns is not looked at. -/
def growBy (d : Dict) (signature : CString) : Option (Dict × Nat) :=
  let sign_length := BitVec.ofNat 32 signature.1.length
  let d := (crtx_resize_dict d ((d.signature_length + sign_length).setWidth 64)).1
  let start := (d.signature_length - sign_length).toNat
  -- A dictionary without a signature has no memory to print to, and one that has not grown may be too short.
  if d.signature_length < sign_length then none
  else d.signature.map fun text => ({ d with signature := some (printAt text signature start) }, start)

/-- `*dictionary`, and the item `di` before the loop. -/
def startOf (old : Option Dict) (signature : CString) : Option (Dict × Nat) :=
  match old with
  | none => some (crtx_init_dict (some signature) (BitVec.ofNat 32 signature.1.length), 0)
  | some d => growBy d signature

/-- `none`: it writes outside of the array or the signature. The result is `dictionary` and what is returned. -/
def crtx_append_to_dict (abi : Abi) (dictionary : Option (Option Dict)) (signature : CString) (va : List Value) :
    Option (Option (Option Dict) × Int) :=
  match dictionary with
  | none => some (none, 1)
  | some dictionary => do
    let (d, start) ← startOf dictionary signature
    let (d, complete, _) ← fillLoop abi true d start signature.1 va
    -- An unknown literal ends the call, with 0 as well.
    let d ← if complete then markEnd d (start + signature.1.length) else some d
    return (some (some d), 0)

/-! ## One quadruple for each literal -/

/-- A character that stands for a type. -/
abbrev Literal := { b : UInt8 // knownType (typeOf b) = true }

/-- A signature with its arguments. -/
abbrev Quads := List (Literal × Quad)

def Quads.signature (l : Quads) : CString :=
  ⟨l.map fun x => x.1.1, by
    intro h
    obtain ⟨x, -, hx⟩ := List.mem_map.mp h
    have hknown := x.1.2
    rw [hx] at hknown
    exact absurd hknown (by decide)⟩

def Quads.va (l : Quads) : List Value := l.flatMap fun x => x.2.va

/-- The size contradicts the type. -/
def Mismatch (x : Literal × Quad) : Prop := sizeMismatch (typeOf x.1.1) x.2.args.size = true

instance : DecidablePred Mismatch := fun _ => inferInstanceAs (Decidable (_ = true))

/-- The item that one literal and its quadruple describe. -/
def itemOf (x : Literal × Quad) : Item :=
  copyData (x.2.args.item (typeOf x.1.1) x.2.key (x.2.args.flags.setWidth 8))

theorem fill_data_item_va_fits (abi : Abi) (di : Item) {x : Literal × Quad} (rest : List Value) (hx : ¬ Mismatch x) :
    crtx_fill_data_item_va abi di (some (typeOf x.1.1)) (x.2.va ++ rest) = ⟨itemOf x, .caller, 0, rest⟩ := by
  have h := fillItem_fits abi copyFilledData di x.2.key rest x.1.2 (by simpa [Mismatch] using hx)
  simpa [crtx_fill_data_item_va, Quad.va, copyFilledData, itemOf] using h

theorem fill_data_item_va_result (abi : Abi) (di : Item) {c : Char} (va : List Value) (hc : knownType c = true) :
    (crtx_fill_data_item_va abi di (some c) va).result = 0 := by
  simp only [crtx_fill_data_item_va, fillItem, hc, if_true]
  split <;> rfl

/-! ### The loop -/

theorem countItem_eq (counts : Bool) (d : Dict) :
    countItem counts d = { d with signature_length := d.signature_length + BitVec.ofNat 32 counts.toNat } := by
  cases counts <;> simp [countItem]

theorem counted (counts : Bool) (w : BitVec 32) (n : Nat) :
    w + BitVec.ofNat 32 counts.toNat + BitVec.ofNat 32 (n * counts.toNat) =
      w + BitVec.ofNat 32 ((n + 1) * counts.toNat) := by
  rw [Nat.succ_mul, Nat.add_comm (n * counts.toNat), BitVec.ofNat_add, BitVec.add_assoc]

theorem fillLoop_fits (abi : Abi) (counts : Bool) (rest : List Value) (l : Quads) (hfits : ∀ x ∈ l, ¬ Mismatch x) :
    ∀ (d : Dict) (i : Nat), i + l.length ≤ d.items.length →
      fillLoop abi counts d i l.signature.1 (l.va ++ rest) =
        some ({ d with items := d.items.take i ++ l.map itemOf ++ d.items.drop (i + l.length)
                       signature_length := d.signature_length + BitVec.ofNat 32 (l.length * counts.toNat) },
          true, rest) := by
  induction l with
  | nil =>
    intro d i hi
    simp [Quads.signature, Quads.va, fillLoop]
  | cons x l ih =>
    intro d i hi
    rw [List.length_cons] at hi
    have hlt : i < d.items.length := by omega
    have hx := fill_data_item_va_fits abi (d.item i) (Quads.va l ++ rest) (hfits x (by simp))
    have hva : Quads.va (x :: l) ++ rest = x.2.va ++ (Quads.va l ++ rest) := by simp [Quads.va]
    have htake : (d.items.set i (itemOf x)).take (i + 1) = d.items.take i ++ [itemOf x] := by
      rw [List.take_add_one, List.getElem?_set_self hlt, List.take_set_of_le (by omega), Option.toList_some]
    have hdrop : (d.items.set i (itemOf x)).drop (i + 1 + l.length) = d.items.drop (i + (l.length + 1)) := by
      rw [List.drop_set_of_lt (by omega), Nat.add_right_comm, Nat.add_assoc]
    have hloop := ih (fun y hy => hfits y (by simp [hy])) (countItem counts (setItem d i (itemOf x))) (i + 1)
      (by rw [countItem_eq, setItem_length]; omega)
    rw [hva, show (Quads.signature (x :: l)).1 = x.1.1 :: (Quads.signature l).1 from rfl, fillLoop, if_pos hlt, hx,
      if_neg (by simp), hloop, countItem_eq]
    simp only [setItem, htake, hdrop, counted, List.map_cons, List.length_cons, List.append_assoc,
      List.singleton_append]

theorem fillLoop_literal (abi : Abi) (counts : Bool) (d : Dict) (i : Nat) (x : Literal) (s : List UInt8)
    (va : List Value) :
    let r := crtx_fill_data_item_va abi (d.item i) (some (typeOf x.1)) va
    fillLoop abi counts d i (x.1 :: s) va =
      if i < d.items.length then fillLoop abi counts (countItem counts (setItem d i r.item)) (i + 1) s r.va
      else none := by
  simp [fillLoop, fill_data_item_va_result abi _ va x.2]

theorem fillLoop_some (abi : Abi) (counts : Bool) (l : Quads) : ∀ {d : Dict} {i : Nat} {va : List Value}
    {d' : Dict} {complete : Bool} {va' : List Value},
    fillLoop abi counts d i l.signature.1 va = some (d', complete, va') →
      complete = true ∧ (i ≤ d.items.length → i + l.length ≤ d.items.length) ∧
        d'.signature_length = d.signature_length + BitVec.ofNat 32 (l.length * counts.toNat) := by
  induction l with
  | nil =>
    intro d i va d' complete va' h
    simp only [Quads.signature, List.map_nil, fillLoop, Option.some.injEq, Prod.mk.injEq] at h
    obtain ⟨rfl, rfl, rfl⟩ := h
    simp
  | cons x l ih =>
    intro d i va d' complete va' h
    rw [show (Quads.signature (x :: l)).1 = x.1.1 :: (Quads.signature l).1 from rfl, fillLoop_literal] at h
    split at h
    · rename_i hlt
      obtain ⟨hcomplete, hroom, hlength⟩ := ih h
      rw [countItem_eq] at hroom hlength
      have hroom' := hroom (by simpa using Nat.succ_le_of_lt hlt)
      simp only [setItem_length] at hroom'
      refine ⟨hcomplete, fun _ => by simp; omega, ?_⟩
      rw [hlength]
      exact counted ..
    · simp at h

/-! ## Framing -/

def atEnd (last : Bool) (di : Item) : Item := if last then orLast di else di

/-- Item `k` comes from quadruple `k` alone, and a size that contradicts its type makes the call fail. -/
def Frames (l : Quads) : Option (Option Dict) → Prop
  | none => False
  | some none => ∃ x ∈ l, Mismatch x
  | some (some d) => (∀ x ∈ l, ¬ Mismatch x) ∧ d.items.length = l.length ∧
      ∀ k (h : k < l.length), d.item k = atEnd (k + 1 = l.length) (itemOf l[k])

theorem signature_length (l : Quads) : l.signature.1.length = l.length := by simp [Quads.signature]

theorem init_dict_length (l : Quads) :
    (crtx_init_dict (some l.signature) (BitVec.ofNat 32 l.signature.1.length)).items.length = l.length % 2 ^ 32 := by
  simp [crtx_init_dict, signature_length]

theorem markEnd_some {d d' : Dict} {i : Nat} (h : markEnd d i = some d') :
    0 < i ∧ i ≤ d.items.length ∧ d' = setItem d (i - 1) (orLast (d.item (i - 1))) := by
  unfold markEnd at h
  split at h
  · rename_i hi
    exact ⟨hi.1, hi.2, (Option.some.inj h).symm⟩
  · simp at h

theorem markEnd_item {d : Dict} {i : Nat} (hi : 0 < i) (hlen : i ≤ d.items.length) :
    ∃ d', markEnd d i = some d' ∧ d'.items.length = d.items.length ∧ d'.signature_length = d.signature_length ∧
      ∀ k, d'.item k = atEnd (k + 1 = i) (d.item k) := by
  refine ⟨_, if_pos ⟨hi, hlen⟩, setItem_length .., rfl, ?_⟩
  intro k
  rw [item_setItem]
  by_cases hk : k + 1 = i
  · subst hk
    simp [atEnd, show k < d.items.length by omega]
  · rw [if_neg (by omega)]
    simp [atEnd, hk]

theorem create_dict_va_frames_iff (abi : Abi) (l : Quads) (rest : List Value) :
    Frames l (crtx_create_dict_va abi l.signature (l.va ++ rest)) ↔
      l ≠ [] ∧ l.length < 2 ^ 32 ∧ ∀ x ∈ l, ¬ Mismatch x := by
  have hlen := init_dict_length l
  simp only [crtx_create_dict_va]
  generalize crtx_init_dict (some l.signature) (BitVec.ofNat 32 l.signature.1.length) = d at hlen ⊢
  constructor
  · intro h
    cases hloop : fillLoop abi false d 0 l.signature.1 (l.va ++ rest) with
    | none => simp [hloop, Frames] at h
    | some r =>
      obtain ⟨d', complete, va⟩ := r
      obtain ⟨rfl, hroom, -⟩ := fillLoop_some abi false l hloop
      cases hend : markEnd d' l.signature.1.length with
      | none => simp [hloop, hend, Frames] at h
      | some d'' =>
        have hpos := (markEnd_some hend).1
        rw [signature_length] at hpos
        simp only [hloop, hend, Option.map_some, Frames] at h
        have hmod := Nat.mod_lt l.length (show 0 < 2 ^ 32 by omega)
        exact ⟨List.ne_nil_of_length_pos hpos, by omega, h.1⟩
  · rintro ⟨hne, hlt, hfits⟩
    rw [Nat.mod_eq_of_lt hlt] at hlen
    have hpos := List.length_pos_iff.mpr hne
    have hloop := fillLoop_fits abi false rest l hfits d 0 (by omega)
    generalize hf : Dict.mk d.signature _ _ = f at hloop
    have hitems : f.items = l.map itemOf := by
      rw [← hf]
      simp [← hlen]
    obtain ⟨d', hend, hlen', -, hitem⟩ := markEnd_item (d := f) (i := l.length) hpos (by simp [hitems])
    simp only [hloop, signature_length, hend, Option.map_some, Frames]
    refine ⟨hfits, by simpa [hitems] using hlen', ?_⟩
    intro k hk
    rw [hitem, item_getElem (by simpa [hitems] using hk)]
    simp [hitems]

/-- One `'u'` for each key, the first one with the size 8. -/
def wideFirst : Quads :=
  [(⟨117, by decide⟩, ⟨some keyA, ⟨.word 1, 8, 0⟩⟩), (⟨117, by decide⟩, ⟨some keyB, ⟨.word 2, 0, 0⟩⟩)]

/-- The flags of the first item are read as the key of the second one. -/
theorem create_dict_va_shifts :
    ¬ ∀ (abi : Abi) (l : Quads), Frames l (crtx_create_dict_va abi l.signature l.va) := by
  intro h
  have hframes := h .zero wideFirst
  obtain ⟨d, hcall⟩ : ∃ d, crtx_create_dict_va .zero wideFirst.signature wideFirst.va = some (some d) := ⟨_, rfl⟩
  rw [hcall] at hframes
  exact hframes.1 _ (List.mem_cons_self ..) (by decide)

/-! ## Appending -/

/-- The length that `signature_length` has before the call. -/
def lengthOf (dictionary : Option Dict) : Nat := (dictionary.map fun d => d.signature_length.toNat).getD 0

/-- The former items are there, apart from the mark, the new ones follow, and the length counts each item once. -/
structure Appended (old : Option Dict) (l : Quads) (d : Dict) : Prop where
  former : ∀ i < lengthOf old, ∀ o ∈ old, clearLast (d.item i) = clearLast (o.item i)
  added : ∀ k (h : k < l.length), clearLast (d.item (lengthOf old + k)) = clearLast (itemOf l[k])
  length : d.signature_length.toNat = lengthOf old + l.length
  inside : d.signature_length.toNat ≤ d.items.length

/-- A call that returns, and has appended. -/
def Appends (old : Option Dict) (l : Quads) : Option (Option (Option Dict) × Int) → Prop
  | some (some (some d), _) => Appended old l d
  | _ => False

theorem appends_some {old : Option Dict} {l : Quads} {abi : Abi} {va : List Value}
    (h : Appends old l (crtx_append_to_dict abi (some old) l.signature va)) :
    ∃ d start d' va' d'', startOf old l.signature = some (d, start) ∧
      fillLoop abi true d start l.signature.1 va = some (d', true, va') ∧
      markEnd d' (start + l.signature.1.length) = some d'' ∧ Appended old l d'' := by
  cases hstart : startOf old l.signature with
  | none => simp [crtx_append_to_dict, hstart, Appends] at h
  | some r =>
    obtain ⟨d, start⟩ := r
    cases hloop : fillLoop abi true d start l.signature.1 va with
    | none => simp [crtx_append_to_dict, hstart, hloop, Appends] at h
    | some r =>
      obtain ⟨d', complete, va'⟩ := r
      obtain ⟨rfl, -⟩ := fillLoop_some abi true l hloop
      cases hend : markEnd d' (start + l.signature.1.length) with
      | none => simp [crtx_append_to_dict, hstart, hloop, hend, Appends] at h
      | some d'' =>
        refine ⟨d, start, d', va', d'', rfl, hloop, hend, ?_⟩
        simpa [crtx_append_to_dict, hstart, hloop, hend, Appends] using h

theorem resize_signature_length {d : Dict} {n : BitVec 64} (hn : d.signature_length.toNat ≤ n.toNat) :
    (crtx_resize_dict d n).1.signature_length = n.setWidth 32 := by
  unfold crtx_resize_dict
  dsimp only
  rw [if_neg (by omega)]

theorem growBy_eq {d : Dict} {s : CString} (hroom : d.signature_length.toNat + s.1.length < 2 ^ 32) :
    ∃ n : BitVec 64, n.toNat = d.signature_length.toNat + s.1.length ∧
      growBy d s = (crtx_resize_dict d n).1.signature.map fun text =>
        ({ (crtx_resize_dict d n).1 with signature := some (printAt text s d.signature_length.toNat) },
          d.signature_length.toNat) := by
  have hs : (BitVec.ofNat 32 s.1.length).toNat = s.1.length := by
    rw [BitVec.toNat_ofNat, Nat.mod_eq_of_lt (by omega)]
  have hn : ((d.signature_length + BitVec.ofNat 32 s.1.length).setWidth 64).toNat =
      d.signature_length.toNat + s.1.length := by
    rw [BitVec.toNat_setWidth, BitVec.toNat_add, hs]
    omega
  have hlength := resize_signature_length (d := d) (n := (d.signature_length + BitVec.ofNat 32 s.1.length).setWidth 64)
    (by omega)
  refine ⟨_, hn, ?_⟩
  have hnew : (crtx_resize_dict d ((d.signature_length + BitVec.ofNat 32 s.1.length).setWidth 64)).1.signature_length =
      d.signature_length + BitVec.ofNat 32 s.1.length := by
    rw [hlength]
    apply BitVec.eq_of_toNat_eq
    rw [BitVec.toNat_setWidth, hn, BitVec.toNat_add, hs]
  have hguard : ¬ d.signature_length + BitVec.ofNat 32 s.1.length < BitVec.ofNat 32 s.1.length := by
    rw [BitVec.lt_def, BitVec.toNat_add, hs]
    omega
  simp only [growBy, hnew, BitVec.add_sub_cancel, if_neg hguard]

theorem startOf_length {old : Option Dict} {s : CString} {d : Dict} {start : Nat}
    (h : startOf old s = some (d, start)) (hroom : lengthOf old + s.1.length < 2 ^ 32) :
    d.signature_length.toNat = lengthOf old + s.1.length := by
  cases old with
  | none =>
    simp only [startOf, Option.some.injEq, Prod.mk.injEq] at h
    obtain ⟨rfl, -⟩ := h
    simp only [lengthOf, Option.map_none, Option.getD_none, Nat.zero_add] at hroom ⊢
    simp [crtx_init_dict]
    omega
  | some o =>
    obtain ⟨n, hn, hgrow⟩ := growBy_eq hroom
    rw [startOf, hgrow, Option.map_eq_some_iff] at h
    obtain ⟨text, -, h⟩ := h
    rw [Prod.mk.injEq] at h
    obtain ⟨rfl, -⟩ := h
    simp only [lengthOf, Option.map_some, Option.getD_some]
    rw [resize_signature_length (by omega), BitVec.toNat_setWidth, hn]
    exact Nat.mod_eq_of_lt hroom

theorem append_to_dict_never (abi : Abi) (old : Option Dict) (x : Literal × Quad) (l : Quads) (rest : List Value) :
    ¬ Appends old (x :: l)
      (crtx_append_to_dict abi (some old) (Quads.signature (x :: l)) (Quads.va (x :: l) ++ rest)) := by
  intro h
  obtain ⟨d, start, d', va', d'', hstart, hloop, hend, happended⟩ := appends_some h
  obtain ⟨-, -, hlength⟩ := fillLoop_some abi true _ hloop
  have hlen := happended.length
  have hroom : lengthOf old + (x :: l).length < 2 ^ 32 := hlen ▸ d''.signature_length.isLt
  have hd := startOf_length hstart (by rwa [signature_length])
  obtain ⟨-, -, rfl⟩ := markEnd_some hend
  -- The length is right before the loop, and the loop counts each item once more.
  rw [setItem_signature_length, hlength, BitVec.toNat_add, hd, signature_length, BitVec.toNat_ofNat] at hlen
  simp only [List.length_cons, Bool.toNat_true, Nat.mul_one] at hlen hroom
  omega

/-- One item in a new dictionary, and `signature_length` is 2. -/
theorem append_to_dict_one :
    ¬ ∀ (abi : Abi) (old : Option Dict) (l : Quads), l ≠ [] → (∀ x ∈ l, ¬ Mismatch x) →
      Appends old l (crtx_append_to_dict abi (some old) l.signature l.va) := by
  intro h
  have happends := h .zero none wideFirst.tail (by decide) (by decide)
  obtain ⟨d, hcall, hlength⟩ : ∃ d, crtx_append_to_dict .zero (some none) (Quads.signature wideFirst.tail)
      (Quads.va wideFirst.tail) = some (some (some d), 0) ∧ d.signature_length = 2 := ⟨_, rfl, rfl⟩
  rw [hcall] at happends
  have hlen := happends.length
  rw [hlength] at hlen
  exact absurd hlen (by decide)

/-! ### What is right -/

theorem resize_former {d : Dict} {n : BitVec 64} (hl : d.items.length = d.signature_length.toNat)
    (hn : d.items.length < n.toNat) {i : Nat} (hi : i < d.items.length) :
    clearLast ((crtx_resize_dict d n).1.item i) = clearLast (d.item i) := by
  have hclear (di : Item) : clearLast (clearLast di) = clearLast di := by simp [clearLast, BitVec.and_assoc]
  rw [resize_items hl (by omega), Dict.item]
  dsimp only
  rw [getD_modify, if_neg (by omega), if_pos (by omega), getD_modify, item_append_zeros, ← Dict.item]
  split
  · exact hclear _
  · rfl

theorem startOf_room {old : Option Dict} {s : CString}
    (hold : ∀ o ∈ old, o.items.length = o.signature_length.toNat ∧ o.signature ≠ none)
    (hs : s.1 ≠ []) (hroom : lengthOf old + s.1.length < 2 ^ 32) :
    ∃ d, startOf old s = some (d, lengthOf old) ∧ d.items.length = lengthOf old + s.1.length ∧
      ∀ i < lengthOf old, ∀ o ∈ old, clearLast (d.item i) = clearLast (o.item i) := by
  have hpos := List.length_pos_iff.mpr hs
  cases old with
  | none =>
    refine ⟨_, rfl, ?_, by simp [lengthOf]⟩
    simp [crtx_init_dict, lengthOf] at hroom ⊢
    omega
  | some o =>
    obtain ⟨hl, htext⟩ := hold o rfl
    obtain ⟨text, htext⟩ := Option.ne_none_iff_exists'.mp htext
    obtain ⟨n, hn, hgrow⟩ := growBy_eq hroom
    have hsig : (crtx_resize_dict o n).1.signature = some text := by
      rw [resize_items hl (by omega)]
      exact htext
    refine ⟨_, by rw [startOf, hgrow, hsig]; rfl, ?_, ?_⟩
    · simp only [resize_length hl (show o.items.length ≤ n.toNat by omega), hn, lengthOf, Option.map_some,
        Option.getD_some]
    · rintro i hi _ ⟨⟩
      exact resize_former hl (by omega) (hl ▸ hi)

theorem append_to_dict_items (abi : Abi) {old : Option Dict} {l : Quads} (rest : List Value)
    (hold : ∀ o ∈ old, o.items.length = o.signature_length.toNat ∧ o.signature ≠ none) (hne : l ≠ [])
    (hfits : ∀ x ∈ l, ¬ Mismatch x) (hroom : lengthOf old + l.length < 2 ^ 32) :
    ∃ d, crtx_append_to_dict abi (some old) l.signature (l.va ++ rest) = some (some (some d), 0) ∧
      d.items.length = lengthOf old + l.length ∧
      d.signature_length.toNat = (lengthOf old + 2 * l.length) % 2 ^ 32 ∧
      (∀ i < lengthOf old, ∀ o ∈ old, clearLast (d.item i) = clearLast (o.item i)) ∧
      ∀ k (h : k < l.length), d.item (lengthOf old + k) = atEnd (k + 1 = l.length) (itemOf l[k]) := by
  rw [← signature_length] at hroom
  have hne' : l.signature.1 ≠ [] := by simpa [Quads.signature] using hne
  obtain ⟨d, hstart, hlen, hformer⟩ := startOf_room hold hne' hroom
  have hlength := startOf_length hstart hroom
  rw [signature_length] at hlen hlength hroom
  have hpos := List.length_pos_iff.mpr hne
  have hloop := fillLoop_fits abi true rest l hfits d (lengthOf old) (by omega)
  generalize hf : Dict.mk d.signature _ _ = f at hloop
  obtain ⟨d', hend, hlen', hlength', hitem⟩ := markEnd_item (d := f) (i := lengthOf old + l.length) (by omega)
    (by simp [← hf]; omega)
  have htake : (d.items.take (lengthOf old)).length = lengthOf old := by
    rw [List.length_take]
    omega
  refine ⟨d', ?_, ?_, ?_, ?_, ?_⟩
  · simp [crtx_append_to_dict, hstart, hloop, signature_length, hend]
  · rw [hlen', ← hf]
    simp
    omega
  · rw [hlength', ← hf, BitVec.toNat_add, hlength, BitVec.toNat_ofNat]
    simp
    omega
  · intro i hi o ho
    rw [hitem, ← hformer i hi o ho, ← hf]
    simp only [Dict.item, List.append_assoc]
    rw [List.getElem?_append_left (by omega), List.getElem?_take_of_lt hi]
    simp [atEnd, show i + 1 ≠ lengthOf old + l.length by omega]
  · intro k hk
    rw [hitem, ← hf, Dict.item, List.append_assoc, List.getElem?_append_right (by omega), htake,
      Nat.add_sub_cancel_left, List.getElem?_append_left (by simpa using hk)]
    simp [hk, Nat.add_assoc]

end Libcortex.Dicts
