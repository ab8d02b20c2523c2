import Libcortex.DictWire
import Libcortex.Lib.Heap
import Libcortex.Lib.Run

/-!
# The references to a dictionary

`crtx_init_dict` leaves a dictionary with one reference, that of its creator. `crtx_read_dict` and the conversion of
sd-bus messages allocate the structure by hand and leave the count at 0. `crtx_dict_unref` does not count below 0, so
the creator alone does not notice. A second owner does: the first of the two that leaves frees the dictionary.
-/

open Libcortex.Lib

namespace Libcortex.DictRefs

open Dicts

/-! ## Counting -/

/-- A `struct crtx_dict` with its counter. -/
structure Cell where
  ref_count : BitVec 32
  dict : Dict
deriving DecidableEq

/-- `pending`: what freed dictionaries still have to give back. The rest is history: the count that the constructor
left, and how often the two functions were called. -/
structure St where
  heap : Heap Cell
  pending : List DictId
  first : DictId → Nat
  refs : DictId → Nat
  unrefs : DictId → Nat

def St.init : St where
  heap := .empty
  pending := []
  first := fun _ => 0
  refs := fun _ => 0
  unrefs := fun _ => 0

def St.alloc (s : St) (c : Cell) : St where
  heap := (s.heap.alloc c).1
  pending := s.pending
  first := Function.update s.first s.heap.next c.ref_count.toNat
  refs := s.refs
  unrefs := s.unrefs

/-- The memory that the pointer `d` points to. -/
def St.dict (s : St) (d : DictId) : Dict := ((s.heap.cell d).map Cell.dict).getD ⟨none, 0, []⟩

def St.setDict (s : St) (d : DictId) (dict : Dict) : St :=
  { s with heap := s.heap.put d ((s.heap.cell d).map fun c => { c with dict }) }

/-- The dictionary that `crtx_free_dict_item_data` gives back. -/
def nestedDict (di : Item) : Option DictId :=
  match di.type, di.value with
  | some 'D', .dict d => some d
  | _, _ => none

def crtx_dict_ref (d : DictId) (s : St) : St :=
  { s with
    heap := s.heap.put d ((s.heap.cell d).map fun c => { c with ref_count := c.ref_count + 1#32 })
    refs := Function.update s.refs d (s.refs d + 1) }

/-- The loop gives the nested dictionaries back, which are left for later here. -/
def crtx_free_dict (d : DictId) (s : St) : St :=
  let nested := (visit (s.dict d)).filterMap fun i => nestedDict ((s.dict d).item i)
  { s with heap := s.heap.put d none, pending := nested ++ s.pending }

/-- The counter after `crtx_dict_unref`. -/
def Cell.unref (c : Cell) : Cell := if 0#32 < c.ref_count then { c with ref_count := c.ref_count - 1#32 } else c

/-- A call for a dictionary that is gone counts, too. -/
def crtx_dict_unref (d : DictId) (s : St) : St :=
  let s := { s with unrefs := Function.update s.unrefs d (s.unrefs d + 1) }
  match s.heap.cell d with
  | none => s
  | some c =>
    if c.unref.ref_count = 0#32 then crtx_free_dict d s else { s with heap := s.heap.put d (some c.unref) }

/-- Only the part about nested dictionaries. -/
def crtx_free_dict_item_data (di : Item) (s : St) : St :=
  match nestedDict di with
  | some d => crtx_dict_unref d s
  | none => s

/-! ## Messages of sd-bus -/

mutual

/-- What the functions of sd-bus answer for the next element of a message: that there is none (`rv` is not positive), a
container, or a basic type with the text or the number that is read. The code treats arrays, variants and dictionary
entries alike. -/
inductive Msg where
  | nothing (rv : Int)
  | container (contents : CString) (enter : Int) (elems : Elems) (exit : Int)
  | basic (type : Char) (rv : Int) (text : CString) (w : BitVec 64)

/-- The elements of a container up to its end. -/
inductive Elems where
  | atEnd
  | cons (m : Msg) (rest : Elems)

end

def sv : CString := ⟨literal "sv", by decide⟩
def object : CString := ⟨literal "object", by decide⟩
def fd : CString := ⟨literal "fd", by decide⟩
def bool : CString := ⟨literal "bool", by decide⟩

def CRTX_DIF_DONT_FREE_DATA : BitVec 8 := 2

/-- The type of the item for a basic type of sd-bus. `none`: the type is not handled. -/
def itemType : Char → Option Char
  | 's' | 'o' => some 's'
  | 'h' | 'b' | 'q' | 'u' | 'y' => some 'u'
  | 'n' | 'i' => some 'i'
  | 't' => some 'U'
  | 'x' => some 'I'
  | 'd' => some 'd'
  | _ => none

def itemKey (type : Char) (key : Option CString) : Option CString :=
  match type with
  | 'o' => some object
  | 'h' => some fd
  | 'b' => some bool
  | _ => key

/-- The variable that is read into has the width of the type. -/
def itemValue (type : Char) (text : CString) (w : BitVec 64) : Value :=
  match type with
  | 's' | 'o' => .string (some text)
  | 'y' => .word ((w.setWidth 8).setWidth 64)
  | 'q' => .word ((w.setWidth 16).setWidth 64)
  | 'n' => .word (((w.setWidth 16).signExtend 32).setWidth 64)
  | 't' | 'x' | 'd' => .word w
  | _ => .word ((w.setWidth 32).setWidth 64)

/-- `realloc` and `memcpy` -/
def appendItem (d : Dict) (di : Item) : Dict :=
  { d with signature_length := d.signature_length + 1, items := d.items ++ [di] }

/-- The dictionary of `subitem`, if it has one entry only. -/
def singleEntry (s : St) (subitem : Item) : Option DictId :=
  (nestedDict subitem).filter fun v => (s.dict v).signature_length = 1

/-- `{sv}` becomes one item: the key is the string that was read first. -/
def reduceEntry (d : DictId) (ditem subitem : Item) (s : St) : Item × St :=
  let key_item := (s.dict d).item 0
  match singleEntry s subitem with
  | some v =>
    let entry := (s.dict v).item 0
    let ditem :=
      { ditem with
        key := stringOf key_item
        flags := ditem.flags ||| CRTX_DIF_ALLOCATED_KEY
        type := entry.type
        value := entry.value
        size := entry.size }
    let s := s.setDict d (setItem (s.dict d) 0 { key_item with value := .string none })
    let s :=
      if entry.flags &&& CRTX_DIF_DONT_FREE_DATA = 0 then
        s.setDict v (setItem (s.dict v) 0 { entry with value := .word 0 })
      else s
    (ditem, crtx_free_dict_item_data subitem (crtx_dict_unref d s))
  | none =>
    let key_item :=
      { key_item with
        key := stringOf key_item
        flags := key_item.flags ||| CRTX_DIF_ALLOCATED_KEY
        type := subitem.type
        value := subitem.value
        size := subitem.size }
    (ditem, s.setDict d (setItem (s.dict d) 0 key_item))

mutual

/-- The value that is returned, the item and what became of the dictionaries. -/
def crtx_sdbus_next_to_dict_item (no_reduce : Bool) : Msg → Item → St → Int × Item × St
  | .nothing rv, ditem, s => (min rv 0, ditem, s)
  | .basic type rv text w, ditem, s =>
    match itemType type with
    | none => (0, ditem, s)
    | some t =>
      if rv < 0 then (rv, { ditem with type := some t }, s)
      else (1, { ditem with type := some t, key := itemKey type ditem.key, value := itemValue type text w }, s)
  | .container contents enter elems exit, ditem, s =>
    if enter < 0 then (enter, ditem, s)
    else
      let d := s.heap.next
      let (rv, ditem, s) :=
        readElems no_reduce contents d elems { ditem with type := some 'D', value := .dict d }
          (s.alloc ⟨0, ⟨none, 0, []⟩⟩)
      if rv < 0 then (rv, ditem, s)
      else if exit < 0 then (exit, ditem, s)
      else (1, ditem, s)

/-- The loop over the elements of a container. A negative number is returned at once. -/
def readElems (no_reduce : Bool) (contents : CString) (d : DictId) : Elems → Item → St → Int × Item × St
  | .atEnd, ditem, s => (0, ditem, s)
  | .cons m rest, ditem, s =>
    let (rv, subitem, s) := crtx_sdbus_next_to_dict_item no_reduce m .zero s
    if rv < 0 then (rv, ditem, s)
    else if rv < 1 then (0, ditem, s)
    else if no_reduce = false ∧ contents = sv ∧ (s.dict d).signature_length = 1 then
      (0, reduceEntry d ditem subitem s)
    else readElems no_reduce contents d rest ditem (s.setDict d (appendItem (s.dict d) subitem))

end

/-! ## Runs -/

/-- The dictionary is there, and someone owns it: the creator, or whoever called `crtx_dict_ref`. -/
def St.Owned (s : St) (d : DictId) : Prop := s.unrefs d ≤ s.refs d ∧ s.heap.cell d ≠ none

instance (s : St) (d : DictId) : Decidable (s.Owned d) := inferInstanceAs (Decidable (_ ∧ _))

def St.owners (s : St) (d : DictId) : Nat := s.refs d + 1 - s.unrefs d

inductive Action where
  | init (signature : Option CString) (sign_length : BitVec 32)
  | read (bs : List UInt8)
  | sdbus (msg : Msg) (ditem : Item) (no_reduce : Bool)
  | edit (d : DictId) (dict : Dict)
  | ref (d : DictId)
  | unref (d : DictId)
  | release (d : DictId)

/-- The reader gives a dictionary back before anyone sees it if it can't be read. What it returns has no items, with one
it crashes. `edit` is all that is done to the items of a dictionary. `release` is one of the calls in `crtx_free_dict`. -/
def step (s : St) : Action → Option St
  | .init signature sign_length => some (s.alloc ⟨1, crtx_init_dict signature sign_length⟩)
  | .read bs =>
    match DictWire.crtx_read_dict bs with
    | .ok t _ => some (s.alloc ⟨0, ⟨some t.signature, BitVec.ofNat 32 (leNat (bs.take 4)), []⟩⟩)
    | .refused _ => some s
    | _ => none
  | .sdbus msg ditem no_reduce => some (crtx_sdbus_next_to_dict_item no_reduce msg ditem s).2.2
  | .edit d dict => some (s.setDict d dict)
  | .ref d => if s.Owned d then some (crtx_dict_ref d s) else none
  | .unref d => if s.Owned d then some (crtx_dict_unref d s) else none
  | .release d =>
    if d ∈ s.pending ∧ s.Owned d then some (crtx_dict_unref d { s with pending := s.pending.erase d }) else none

/-! ## What has to hold -/

/-- A dictionary is gone if there were as many calls of `crtx_dict_unref` as it had owners, and only then. -/
def FreedByLastOwner (s : St) : Prop := ∀ d < s.heap.next, s.heap.cell d = none ↔ s.unrefs d = s.refs d + 1

/-- Where `d` has other owners, the counter is at least 2 before one of them leaves. -/
def LeavesOthers (s : St) (d : DictId) : Prop :=
  s.owners d = 1 ∨ 2 ≤ (s.first d + s.owners d - 1) % 2 ^ 32

def Safe (s : St) : Action → Prop
  | .unref d | .release d => LeavesOthers s d
  | _ => True

instance (s : St) (a : Action) : Decidable (Safe s a) := by
  unfold Safe LeavesOthers
  cases a <;> infer_instance

/-! ## What is known of one dictionary -/

/-- The part of the state that is about one dictionary. -/
structure View where
  cell : Option Cell
  first : Nat
  refs : Nat
  unrefs : Nat

def St.view (s : St) (d : DictId) : View := ⟨s.heap.cell d, s.first d, s.refs d, s.unrefs d⟩

def View.ref (v : View) : View :=
  { v with cell := v.cell.map fun c => { c with ref_count := c.ref_count + 1#32 }, refs := v.refs + 1 }

def View.unref (v : View) : View :=
  { v with cell := v.cell.bind fun c => if c.unref.ref_count = 0#32 then none else some c.unref, unrefs := v.unrefs + 1 }

def View.setDict (v : View) (dict : Dict) : View := { v with cell := v.cell.map fun c => { c with dict } }

theorem alloc_view (s : St) (c : Cell) :
    (s.alloc c).view = Function.update s.view s.heap.next ⟨some c, c.ref_count.toNat, s.refs s.heap.next,
      s.unrefs s.heap.next⟩ := by
  funext a
  by_cases ha : a = s.heap.next
  · subst ha
    simp [St.view, St.alloc, Heap.alloc]
  · simp [St.view, St.alloc, Heap.alloc, ha]

@[simp] theorem alloc_next (s : St) (c : Cell) : (s.alloc c).heap.next = s.heap.next + 1 := rfl

theorem setDict_view (s : St) (d : DictId) (dict : Dict) :
    (s.setDict d dict).view = Function.update s.view d ((s.view d).setDict dict) := by
  funext a
  by_cases ha : a = d
  · subst ha
    simp [St.view, St.setDict, View.setDict]
  · simp [St.view, St.setDict, ha]

@[simp] theorem setDict_next (s : St) (d : DictId) (dict : Dict) : (s.setDict d dict).heap.next = s.heap.next := rfl

theorem crtx_dict_ref_view (s : St) (d : DictId) :
    (crtx_dict_ref d s).view = Function.update s.view d (s.view d).ref := by
  funext a
  by_cases ha : a = d
  · subst ha
    simp [St.view, crtx_dict_ref, View.ref]
  · simp [St.view, crtx_dict_ref, ha]

@[simp] theorem crtx_dict_ref_next (s : St) (d : DictId) : (crtx_dict_ref d s).heap.next = s.heap.next := rfl

theorem crtx_dict_unref_view (s : St) (d : DictId) :
    (crtx_dict_unref d s).view = Function.update s.view d (s.view d).unref := by
  funext a
  unfold crtx_dict_unref
  dsimp only
  split
  · rename_i hc
    by_cases ha : a = d
    · subst ha
      simp [St.view, View.unref, hc]
    · simp [St.view, ha]
  · rename_i c hc
    split
    · rename_i h0
      by_cases ha : a = d
      · subst ha
        simp [St.view, crtx_free_dict, View.unref, hc, h0]
      · simp [St.view, crtx_free_dict, ha]
    · rename_i h0
      by_cases ha : a = d
      · subst ha
        simp [St.view, View.unref, hc, h0]
      · simp [St.view, ha]

@[simp] theorem crtx_dict_unref_next (s : St) (d : DictId) : (crtx_dict_unref d s).heap.next = s.heap.next := by
  unfold crtx_dict_unref
  dsimp only
  split
  · rfl
  · split
    · rfl
    · rfl

theorem unref_eq_zero (c : Cell) : c.unref.ref_count = 0#32 ↔ c.ref_count.toNat < 2 := by
  unfold Cell.unref
  split
  · rename_i h
    rw [BitVec.lt_def, BitVec.toNat_ofNat] at h
    rw [← BitVec.toNat_inj, BitVec.toNat_sub, BitVec.toNat_ofNat, BitVec.toNat_ofNat]
    have := c.ref_count.isLt
    omega
  · rename_i h
    rw [BitVec.lt_def, BitVec.toNat_ofNat] at h
    rw [← BitVec.toNat_inj, BitVec.toNat_ofNat]
    omega

/-! ## Invariant -/

/-- The counter of a dictionary that is there is what the constructor left and the calls have made of it. -/
def View.Counted (v : View) : Prop :=
  v.first ≤ 1 ∧ ∀ c, v.cell = some c → v.unrefs ≤ v.refs ∧ c.ref_count = BitVec.ofNat 32 (v.first + v.refs - v.unrefs)

/-- It is not gone while someone owns it. -/
def View.Kept (v : View) : Prop := v.cell = none → v.unrefs = v.refs + 1

/-- Nobody has called anything for dictionaries that do not exist yet. -/
def Untouched (s : St) : Prop := ∀ d, s.heap.next ≤ d → ∃ n, s.view d = ⟨none, n, 0, 0⟩

structure Inv (s : St) : Prop where
  untouched : Untouched s
  counted : ∀ d < s.heap.next, (s.view d).Counted

def Good (s : St) : Prop := ∀ d < s.heap.next, (s.view d).Kept

theorem freedByLastOwner_iff {s : St} (hi : Inv s) : FreedByLastOwner s ↔ Good s := by
  constructor
  · intro h d hd hc
    exact (h d hd).mp hc
  · intro h d hd
    refine ⟨h d hd, ?_⟩
    intro hu
    by_contra hc
    obtain ⟨c, hc⟩ := Option.ne_none_iff_exists'.mp hc
    have := ((hi.counted d hd).2 c hc).1
    simp only [St.view] at this
    omega

theorem inv_init : Inv St.init where
  untouched := fun _ _ => ⟨0, rfl⟩
  counted := fun _ hd => absurd hd (Nat.not_lt_zero _)

theorem View.Counted.ref {v : View} (hv : v.Counted) : v.ref.Counted := by
  refine ⟨hv.1, ?_⟩
  intro c hc
  obtain ⟨c, hc', rfl⟩ := Option.map_eq_some_iff.mp hc
  obtain ⟨hle, hcount⟩ := hv.2 c hc'
  have hplus : v.first + (v.refs + 1) - v.unrefs = v.first + v.refs - v.unrefs + 1 := by omega
  refine ⟨Nat.le_succ_of_le hle, ?_⟩
  simp only [View.ref]
  rw [hcount, hplus, BitVec.ofNat_add]

theorem View.Counted.setDict {v : View} (hv : v.Counted) (dict : Dict) : (v.setDict dict).Counted := by
  refine ⟨hv.1, ?_⟩
  intro c hc
  obtain ⟨c, hc', rfl⟩ := Option.map_eq_some_iff.mp hc
  exact hv.2 c hc'

theorem View.unref_cell {v : View} (hv : v.Counted) {c : Cell} (hc : v.cell = some c) :
    v.unref.cell = none ↔ (v.first + v.refs - v.unrefs) % 2 ^ 32 < 2 := by
  have hcount := (hv.2 c hc).2
  have hnat : c.ref_count.toNat = (v.first + v.refs - v.unrefs) % 2 ^ 32 := by rw [hcount, BitVec.toNat_ofNat]
  simp only [View.unref, hc, Option.bind_some]
  rw [← hnat, ← unref_eq_zero]
  split
  · rename_i h
    simp [h]
  · rename_i h
    simp [h]

theorem View.Counted.unref {v : View} (hv : v.Counted) : v.unref.Counted := by
  refine ⟨hv.1, ?_⟩
  intro c' hc'
  obtain ⟨c, hc, hif⟩ := Option.bind_eq_some_iff.mp hc'
  obtain ⟨hle, hcount⟩ := hv.2 c hc
  split at hif
  · cases hif
  · rename_i h0
    cases hif
    have hbig : 2 ≤ c.ref_count.toNat := by
      rw [unref_eq_zero] at h0
      omega
    have hone := hv.1
    have hmod : c.ref_count.toNat = (v.first + v.refs - v.unrefs) % 2 ^ 32 := by rw [hcount, BitVec.toNat_ofNat]
    have hless : (v.first + v.refs - v.unrefs) % 2 ^ 32 ≤ v.first + v.refs - v.unrefs := Nat.mod_le _ _
    refine ⟨?_, ?_⟩
    · simp only [View.unref]
      omega
    · have hpos : 0#32 < c.ref_count := by
        rw [BitVec.lt_def, BitVec.toNat_ofNat]
        omega
      unfold Cell.unref
      rw [if_pos hpos]
      apply BitVec.eq_of_toNat_eq
      simp only [View.unref, BitVec.toNat_sub, BitVec.toNat_ofNat]
      omega

theorem Untouched.lt {s : St} (hu : Untouched s) {d : DictId} {c : Cell} (hc : s.heap.cell d = some c) :
    d < s.heap.next := by
  by_contra hd
  obtain ⟨n, hn⟩ := hu d (Nat.le_of_not_lt hd)
  have hcell : s.heap.cell d = none := congrArg View.cell hn
  rw [hc] at hcell
  cases hcell

theorem Untouched.update {s s' : St} (hu : Untouched s) (hn : s'.heap.next = s.heap.next) {d : DictId}
    (hd : d < s.heap.next) {v : View} (hv : s'.view = Function.update s.view d v) : Untouched s' := by
  intro a ha
  rw [hn] at ha
  rw [hv, Function.update_of_ne (Nat.ne_of_gt (Nat.lt_of_lt_of_le hd ha))]
  exact hu a ha

theorem Untouched.alloc_view {s : St} (hu : Untouched s) (c : Cell) :
    (s.alloc c).view = Function.update s.view s.heap.next ⟨some c, c.ref_count.toNat, 0, 0⟩ := by
  obtain ⟨n, hn⟩ := hu s.heap.next (Nat.le_refl _)
  have hrefs : s.refs s.heap.next = 0 := congrArg View.refs hn
  have hunrefs : s.unrefs s.heap.next = 0 := congrArg View.unrefs hn
  rw [DictRefs.alloc_view, hrefs, hunrefs]

theorem Untouched.alloc {s : St} (hu : Untouched s) (c : Cell) : Untouched (s.alloc c) := by
  intro a ha
  rw [alloc_next] at ha
  rw [hu.alloc_view, Function.update_of_ne (Nat.ne_of_gt ha)]
  exact hu a (Nat.le_of_succ_le ha)

theorem Inv.update {s s' : St} (hi : Inv s) (hn : s'.heap.next = s.heap.next) {d : DictId} (hd : d < s.heap.next)
    {v : View} (hv : s'.view = Function.update s.view d v) (hc : v.Counted) : Inv s' where
  untouched := hi.untouched.update hn hd hv
  counted := by
    rw [hn, hv]
    exact (Function.forall_update_iff s.view (p := fun a v => a < s.heap.next → v.Counted)).mpr
      ⟨fun _ => hc, fun a _ => hi.counted a⟩

theorem Good.update {s s' : St} (hg : Good s) (hn : s'.heap.next = s.heap.next) {d : DictId} (hd : d < s.heap.next)
    {v : View} (hv : s'.view = Function.update s.view d v) : Good s' ↔ v.Kept := by
  constructor
  · intro h
    have := h d (hn ▸ hd)
    rwa [hv, Function.update_self] at this
  · intro h
    rw [Good, hn, hv]
    exact (Function.forall_update_iff s.view (p := fun a v => a < s.heap.next → v.Kept)).mpr
      ⟨fun _ => h, fun a _ => hg a⟩

/-! ## What a conversion makes -/

/-- A dictionary that was made by hand and seen by its creator alone: gone after one call of `crtx_dict_unref`. -/
def View.Lone (v : View) : Prop :=
  v.first = 0 ∧ v.refs = 0 ∧
    match v.cell with
    | some c => c.ref_count = 0#32 ∧ v.unrefs = 0
    | none => v.unrefs = 1

theorem View.Lone.counted {v : View} (hv : v.Lone) : v.Counted := by
  obtain ⟨hf, hr, hv⟩ := hv
  refine ⟨by omega, ?_⟩
  intro c hc
  rw [hc] at hv
  refine ⟨by omega, ?_⟩
  rw [hv.1, hv.2, hf, hr]

theorem View.Lone.kept {v : View} (hv : v.Lone) : v.Kept := by
  obtain ⟨-, hr, hv⟩ := hv
  intro hc
  rw [hc] at hv
  omega

theorem View.Lone.setDict {v : View} (hv : v.Lone) (dict : Dict) : (v.setDict dict).Lone := by
  obtain ⟨hf, hr, hv⟩ := hv
  refine ⟨hf, hr, ?_⟩
  cases hc : v.cell with
  | none => simpa [View.setDict, hc] using hv
  | some c => simpa [View.setDict, hc] using hv

theorem View.Lone.unref {v : View} (hv : v.Lone) {c : Cell} (hc : v.cell = some c) :
    v.unref.Lone ∧ v.unref.cell = none := by
  obtain ⟨hf, hr, hv⟩ := hv
  rw [hc] at hv
  have hzero : c.unref.ref_count = 0#32 := by
    rw [unref_eq_zero, hv.1]
    decide
  have hgone : v.unref.cell = none := by simp [View.unref, hc, hzero]
  refine ⟨⟨hf, hr, ?_⟩, hgone⟩
  rw [hgone]
  simp [View.unref, hv.2]

/-- Between `s` and `s'` nothing happened but that dictionaries from `n` on were made by hand. -/
structure Made (n : Nat) (s s' : St) : Prop where
  untouched : Untouched s'
  le_next : n ≤ s'.heap.next
  old : ∀ d < n, s'.view d = s.view d
  new : ∀ d, n ≤ d → d < s'.heap.next → (s'.view d).Lone

theorem made_refl {s : St} (hu : Untouched s) : Made s.heap.next s s :=
  ⟨hu, Nat.le_refl _, fun _ _ => rfl, fun _ h h' => absurd h' (Nat.not_lt.mpr h)⟩

theorem Made.trans {n : Nat} {s t u : St} (h : Made n s t) (h' : Made t.heap.next t u) : Made n s u where
  untouched := h'.untouched
  le_next := Nat.le_trans h.le_next h'.le_next
  old := by
    intro d hd
    rw [h'.old d (Nat.lt_of_lt_of_le hd h.le_next), h.old d hd]
  new := by
    intro d hn hd
    by_cases hdt : d < t.heap.next
    · rw [h'.old d hdt]
      exact h.new d hn hdt
    · exact h'.new d (Nat.le_of_not_lt hdt) hd

theorem Made.update {n : Nat} {s t u : St} (h : Made n s t) (hn : u.heap.next = t.heap.next) {d : DictId} (hd : n ≤ d)
    (hd' : d < t.heap.next) {v : View} (hv : u.view = Function.update t.view d v) (hl : v.Lone) : Made n s u where
  untouched := h.untouched.update hn hd' hv
  le_next := hn ▸ h.le_next
  old := by
    intro a ha
    rw [hv, Function.update_of_ne (Nat.ne_of_lt (Nat.lt_of_lt_of_le ha hd))]
    exact h.old a ha
  new := by
    rw [hn, hv]
    exact (Function.forall_update_iff t.view (p := fun a v => n ≤ a → a < t.heap.next → v.Lone)).mpr
      ⟨fun _ _ => hl, fun a _ => h.new a⟩

theorem Made.setDict {n : Nat} {s t : St} (h : Made n s t) {d : DictId} (hd : n ≤ d) (hd' : d < t.heap.next)
    (dict : Dict) : Made n s (t.setDict d dict) :=
  h.update (setDict_next ..) hd hd' (setDict_view ..) ((h.new d hd hd').setDict dict)

theorem Made.unref {n : Nat} {s t : St} (h : Made n s t) {d : DictId} (hd : n ≤ d) {c : Cell}
    (hc : t.heap.cell d = some c) : Made n s (crtx_dict_unref d t) :=
  have hd' := h.untouched.lt hc
  h.update (crtx_dict_unref_next ..) hd hd' (crtx_dict_unref_view ..) ((h.new d hd hd').unref hc).1

theorem made_alloc {s : St} (hu : Untouched s) (dict : Dict) : Made s.heap.next s (s.alloc ⟨0, dict⟩) where
  untouched := hu.alloc _
  le_next := Nat.le_succ _
  old := by
    intro d hd
    rw [hu.alloc_view, Function.update_of_ne (Nat.ne_of_lt hd)]
  new := by
    intro d hn hd
    rw [alloc_next] at hd
    obtain rfl : d = s.heap.next := by omega
    rw [hu.alloc_view, Function.update_self]
    exact ⟨rfl, rfl, rfl, rfl⟩

theorem Made.inv {s s' : St} (h : Made s.heap.next s s') (hi : Inv s) : Inv s' where
  untouched := h.untouched
  counted := by
    intro d hd
    by_cases hds : d < s.heap.next
    · rw [h.old d hds]
      exact hi.counted d hds
    · exact (h.new d (Nat.le_of_not_lt hds) hd).counted

theorem Made.good {s s' : St} (h : Made s.heap.next s s') : Good s' ↔ Good s := by
  constructor
  · intro hg d hd
    have := hg d (Nat.lt_of_lt_of_le hd h.le_next)
    rwa [h.old d hd] at this
  · intro hg d hd
    by_cases hds : d < s.heap.next
    · rw [h.old d hds]
      exact hg d hds
    · exact (h.new d (Nat.le_of_not_lt hds) hd).kept

/-! ## The items that a conversion makes -/

/-- All dictionaries below the item are there, and each one was made after the one above it, `lo` or later. -/
inductive Sound (h : Heap Cell) : Nat → Item → Prop where
  | flat {lo : Nat} {di : Item} (ht : di.type ≠ some 'D') : Sound h lo di
  | dict {lo : Nat} {di : Item} {d : DictId} {c : Cell} (hv : di.value = .dict d) (hlo : lo ≤ d)
      (hc : h.cell d = some c) (hitems : ∀ i ∈ c.dict.items, Sound h (d + 1) i) : Sound h lo di

theorem Sound.mono {h : Heap Cell} {lo lo' : Nat} {di : Item} (hs : Sound h lo di) (hle : lo' ≤ lo) :
    Sound h lo' di := by
  cases hs with
  | flat ht => exact .flat ht
  | dict hv hlo hc hitems => exact .dict hv (Nat.le_trans hle hlo) hc hitems

theorem Sound.frame {h h' : Heap Cell} {lo : Nat} {di : Item} (hs : Sound h lo di)
    (hsame : ∀ d c, lo ≤ d → h.cell d = some c → h'.cell d = some c) : Sound h' lo di := by
  induction hs with
  | flat ht => exact .flat ht
  | @dict lo di d c hv hlo hc hitems ih =>
    refine .dict hv hlo (hsame d c hlo hc) ?_
    intro i hi
    exact ih i hi fun a c ha => hsame a c (by omega)

theorem Sound.congr {h : Heap Cell} {lo : Nat} {di di' : Item} (hs : Sound h lo di) (ht : di'.type = di.type)
    (hv : di'.value = di.value) : Sound h lo di' := by
  cases hs with
  | flat h => exact .flat (ht ▸ h)
  | dict h hlo hc hitems => exact .dict (hv.trans h) hlo hc hitems

theorem sound_zero (h : Heap Cell) (lo : Nat) : Sound h lo .zero := .flat (by simp [Item.zero])

theorem sound_item {h : Heap Cell} {lo : Nat} {d : Dict} (hs : ∀ i ∈ d.items, Sound h lo i) (i : Nat) :
    Sound h lo (d.item i) := by
  unfold Dict.item
  cases hi : d.items[i]? with
  | none => exact sound_zero h lo
  | some di => exact hs di (List.mem_of_getElem? hi)

theorem Sound.of_nestedDict {h : Heap Cell} {lo : Nat} {di : Item} {d : DictId} (hs : Sound h lo di)
    (hn : nestedDict di = some d) :
    lo ≤ d ∧ ∃ c, h.cell d = some c ∧ ∀ i ∈ c.dict.items, Sound h (d + 1) i := by
  unfold nestedDict at hn
  split at hn
  · rename_i v ht hv
    cases hn
    cases hs with
    | flat h => exact absurd ht h
    | dict hv' hlo hc hitems =>
      rw [hv] at hv'
      cases hv'
      exact ⟨hlo, _, hc, hitems⟩
  · cases hn

theorem cell_of_view {s s' : St} {d : DictId} {v : View} (hv : s'.view = Function.update s.view d v) {a : DictId}
    (ha : a ≠ d) : s'.heap.cell a = s.heap.cell a := by
  have h := congrFun hv a
  rw [Function.update_of_ne ha] at h
  exact congrArg View.cell h

theorem setDict_cell (s : St) (d : DictId) (dict : Dict) {a : DictId} (ha : a ≠ d) :
    (s.setDict d dict).heap.cell a = s.heap.cell a := cell_of_view (setDict_view ..) ha

theorem crtx_dict_unref_cell (s : St) (d : DictId) {a : DictId} (ha : a ≠ d) :
    (crtx_dict_unref d s).heap.cell a = s.heap.cell a := cell_of_view (crtx_dict_unref_view ..) ha

theorem setDict_self {s : St} {d : DictId} {c : Cell} (hc : s.heap.cell d = some c) (dict : Dict) :
    (s.setDict d dict).heap.cell d = some { c with dict } := by
  simp [St.setDict, hc]

theorem dict_of_cell {s : St} {d : DictId} {c : Cell} (hc : s.heap.cell d = some c) : s.dict d = c.dict := by
  simp [St.dict, hc]

/-- The container that is being filled: its dictionary and all that its items have below them. -/
structure Filling (d : DictId) (s₀ s : St) (c : Cell) : Prop where
  made : Made d s₀ s
  cell : s.heap.cell d = some c
  items : ∀ i ∈ c.dict.items, Sound s.heap (d + 1) i

theorem Filling.next {d : DictId} {s₀ s t : St} {c : Cell} (h : Filling d s₀ s c) (ht : Made s.heap.next s t) :
    Filling d s₀ t c := by
  have hsame : ∀ a c, s.heap.cell a = some c → t.heap.cell a = some c := by
    intro a c ha
    have hview := ht.old a (h.made.untouched.lt ha)
    rw [← ha]
    exact congrArg View.cell hview
  exact ⟨h.made.trans ht, hsame d c h.cell, fun i hi => (h.items i hi).frame fun a c _ => hsame a c⟩

theorem Filling.setDict {d : DictId} {s₀ s : St} {c : Cell} (h : Filling d s₀ s c) {dict : Dict}
    (hs : ∀ i ∈ dict.items, Sound s.heap (d + 1) i) : Filling d s₀ (s.setDict d dict) { c with dict } where
  made := h.made.setDict (Nat.le_refl d) (h.made.untouched.lt h.cell) dict
  cell := setDict_self h.cell dict
  items := by
    intro i hi
    refine (hs i hi).frame ?_
    intro a c ha hc
    rwa [setDict_cell _ _ _ (Nat.ne_of_gt ha)]

theorem Filling.setItem {d : DictId} {s₀ s : St} {c : Cell} (h : Filling d s₀ s c) {i : Nat} {di : Item}
    (hdi : Sound s.heap (d + 1) di) :
    Filling d s₀ (s.setDict d (Dicts.setItem (s.dict d) i di))
      { c with dict := Dicts.setItem (s.dict d) i di } := by
  apply h.setDict
  intro j hj
  rw [dict_of_cell h.cell] at hj
  rcases List.mem_or_eq_of_mem_set hj with hj | rfl
  · exact h.items j hj
  · exact hdi

theorem Filling.append {d : DictId} {s₀ s : St} {c : Cell} (h : Filling d s₀ s c) {di : Item}
    (hdi : Sound s.heap (d + 1) di) :
    Filling d s₀ (s.setDict d (appendItem (s.dict d) di)) { c with dict := appendItem (s.dict d) di } := by
  apply h.setDict
  intro j hj
  rw [dict_of_cell h.cell] at hj
  rcases List.mem_append.mp hj with hj | hj
  · exact h.items j hj
  · rw [List.mem_singleton.mp hj]
    exact hdi

theorem Filling.sound {d : DictId} {s₀ s : St} {c : Cell} (h : Filling d s₀ s c) {di : Item}
    (hv : di.value = .dict d) : Sound s.heap d di := .dict hv (Nat.le_refl d) h.cell h.items

theorem reduceEntry_spec {d : DictId} {s₀ s : St} {c : Cell} (h : Filling d s₀ s c) {ditem subitem : Item}
    (hv : ditem.value = .dict d) (hsub : Sound s.heap (d + 1) subitem) :
    Made d s₀ (reduceEntry d ditem subitem s).2 ∧
      Sound (reduceEntry d ditem subitem s).2.heap d (reduceEntry d ditem subitem s).1 := by
  unfold reduceEntry
  dsimp only
  split
  · rename_i v hsingle
    obtain ⟨hnested, -⟩ := Option.filter_eq_some_iff.mp hsingle
    obtain ⟨hdv, cv, hcv, hitems⟩ := hsub.of_nestedDict hnested
    have hne : v ≠ d := Nat.ne_of_gt hdv
    have hentry := sound_item hitems 0
    -- `t` is the state in which the two dictionaries have lost what they held.
    generalize ht : (if ((s.dict v).item 0).flags &&& CRTX_DIF_DONT_FREE_DATA = 0 then
      (s.setDict d _).setDict v _ else s.setDict d _) = t
    have hmade : Made d s₀ t := by
      have hd := h.made.setDict (Nat.le_refl d) (h.made.untouched.lt h.cell)
        (setItem (s.dict d) 0 { (s.dict d).item 0 with value := .string none })
      rw [← ht]
      split
      · exact hd.setDict (by omega) (h.made.untouched.lt hcv) _
      · exact hd
    have hcells : ∀ a, a ≠ d → a ≠ v → t.heap.cell a = s.heap.cell a := by
      intro a had hav
      rw [← ht]
      split
      · rw [setDict_cell _ _ _ hav, setDict_cell _ _ _ had]
      · rw [setDict_cell _ _ _ had]
    have hd : ∃ c, t.heap.cell d = some c := by
      rw [← ht]
      split
      · exact ⟨_, by rw [setDict_cell _ _ _ hne.symm, setDict_self h.cell]⟩
      · exact ⟨_, setDict_self h.cell _⟩
    have hv : ∃ c, t.heap.cell v = some c := by
      have hkeep : ∀ dict, (s.setDict d dict).heap.cell v = some cv := by
        intro dict
        rw [setDict_cell _ _ _ hne, hcv]
      rw [← ht]
      split
      · exact ⟨_, setDict_self (hkeep _) _⟩
      · exact ⟨_, hkeep _⟩
    obtain ⟨c', hd⟩ := hd
    obtain ⟨cv', hv⟩ := hv
    rw [← crtx_dict_unref_cell t d hne] at hv
    have hfree : crtx_free_dict_item_data subitem (crtx_dict_unref d t) = crtx_dict_unref v (crtx_dict_unref d t) := by
      unfold crtx_free_dict_item_data
      rw [hnested]
    rw [hfree]
    refine ⟨(hmade.unref (Nat.le_refl d) hd).unref (by omega) hv, ?_⟩
    have hentry' : Sound (crtx_dict_unref v (crtx_dict_unref d t)).heap (v + 1) ((s.dict v).item 0) := by
      rw [dict_of_cell hcv]
      refine hentry.frame ?_
      intro a c ha hc
      have hav : a ≠ v := Nat.ne_of_gt ha
      have had : a ≠ d := Nat.ne_of_gt (Nat.lt_trans hdv ha)
      rw [crtx_dict_unref_cell _ _ hav, crtx_dict_unref_cell _ _ had, hcells a had hav, hc]
    exact (hentry'.mono (by omega)).congr rfl rfl
  · refine ⟨Filling.made (h.setItem ?_), Filling.sound (h.setItem ?_) hv⟩
    · exact hsub.congr rfl rfl
    · exact hsub.congr rfl rfl

theorem itemType_ne_dict {type t : Char} (h : itemType type = some t) : t ≠ 'D' := by
  unfold itemType at h
  split at h <;> simp at h <;> subst h <;> decide

mutual

theorem next_made (no_reduce : Bool) (m : Msg) (ditem : Item) (s : St) (hu : Untouched s) :
    Made s.heap.next s (crtx_sdbus_next_to_dict_item no_reduce m ditem s).2.2 ∧
      (1 ≤ (crtx_sdbus_next_to_dict_item no_reduce m ditem s).1 →
        Sound (crtx_sdbus_next_to_dict_item no_reduce m ditem s).2.2.heap s.heap.next
          (crtx_sdbus_next_to_dict_item no_reduce m ditem s).2.1) := by
  cases m with
  | nothing rv =>
    unfold crtx_sdbus_next_to_dict_item
    exact ⟨made_refl hu, fun h => by dsimp only at h; omega⟩
  | basic type rv text w =>
    unfold crtx_sdbus_next_to_dict_item
    split
    · exact ⟨made_refl hu, fun h => absurd h (by simp)⟩
    · rename_i t ht
      split
      · rename_i hrv
        exact ⟨made_refl hu, fun h => by dsimp only at h; omega⟩
      · exact ⟨made_refl hu, fun _ => .flat (by simpa using itemType_ne_dict ht)⟩
  | container contents enter elems exit =>
    unfold crtx_sdbus_next_to_dict_item
    split
    · exact ⟨made_refl hu, fun h => by dsimp only at h; omega⟩
    · have hfill : Filling s.heap.next s (s.alloc ⟨0, ⟨none, 0, []⟩⟩) ⟨0, ⟨none, 0, []⟩⟩ :=
        ⟨made_alloc hu _, by simp [St.alloc, Heap.alloc], by simp⟩
      have helems := readElems_made no_reduce contents elems { ditem with type := some 'D', value := .dict s.heap.next }
        rfl hfill
      dsimp only
      split
      · exact ⟨helems.1, fun h => by omega⟩
      · rename_i hrv
        split
        · exact ⟨helems.1, fun h => by dsimp only at h; omega⟩
        · exact ⟨helems.1, fun _ => helems.2 (by omega)⟩

theorem readElems_made (no_reduce : Bool) (contents : CString) (elems : Elems) {d : DictId} {s₀ s : St} {c : Cell}
    (ditem : Item) (hv : ditem.value = .dict d) (h : Filling d s₀ s c) :
    Made d s₀ (readElems no_reduce contents d elems ditem s).2.2 ∧
      (0 ≤ (readElems no_reduce contents d elems ditem s).1 →
        Sound (readElems no_reduce contents d elems ditem s).2.2.heap d
          (readElems no_reduce contents d elems ditem s).2.1) := by
  cases elems with
  | atEnd =>
    unfold readElems
    exact ⟨h.made, fun _ => h.sound hv⟩
  | cons m rest =>
    have hnext := next_made no_reduce m .zero s h.made.untouched
    have hfill := h.next hnext.1
    have hd : d + 1 ≤ s.heap.next := h.made.untouched.lt h.cell
    unfold readElems
    dsimp only
    split
    · exact ⟨hfill.made, fun h0 => by dsimp only at h0; omega⟩
    · split
      · exact ⟨hfill.made, fun _ => hfill.sound hv⟩
      · rename_i hrv
        have hsub := (hnext.2 (by omega)).mono hd
        split
        · obtain ⟨hmade, hsound⟩ := reduceEntry_spec hfill hv hsub
          exact ⟨hmade, fun _ => hsound⟩
        · exact readElems_made no_reduce contents rest ditem hv (hfill.append hsub)

end

/-! ## Steps -/

theorem Inv.ref {s : St} (hi : Inv s) {d : DictId} (hd : s.Owned d) : Inv (crtx_dict_ref d s) := by
  obtain ⟨c, hc⟩ := Option.ne_none_iff_exists'.mp hd.2
  have hlt := hi.untouched.lt hc
  exact hi.update (crtx_dict_ref_next ..) hlt (crtx_dict_ref_view ..) (hi.counted d hlt).ref

theorem Good.ref {s : St} (hg : Good s) (hi : Inv s) {d : DictId} (hd : s.Owned d) : Good (crtx_dict_ref d s) := by
  obtain ⟨c, hc⟩ := Option.ne_none_iff_exists'.mp hd.2
  rw [hg.update (crtx_dict_ref_next ..) (hi.untouched.lt hc) (crtx_dict_ref_view ..)]
  intro hnone
  simp [View.ref, St.view, hc] at hnone

theorem Inv.setPending {s : St} (hi : Inv s) (pending : List DictId) : Inv { s with pending } :=
  ⟨hi.untouched, hi.counted⟩

theorem Inv.unref {s : St} (hi : Inv s) {d : DictId} (hd : s.Owned d) : Inv (crtx_dict_unref d s) := by
  obtain ⟨c, hc⟩ := Option.ne_none_iff_exists'.mp hd.2
  have hlt := hi.untouched.lt hc
  exact hi.update (crtx_dict_unref_next ..) hlt (crtx_dict_unref_view ..) (hi.counted d hlt).unref

theorem Good.unref {s : St} (hg : Good s) (hi : Inv s) {d : DictId} (hd : s.Owned d) :
    Good (crtx_dict_unref d s) ↔ LeavesOthers s d := by
  obtain ⟨c, hc⟩ := Option.ne_none_iff_exists'.mp hd.2
  have hlt := hi.untouched.lt hc
  have hcount := hi.counted d hlt
  have hfirst : s.first d ≤ 1 := hcount.1
  have hle : s.unrefs d ≤ s.refs d := hd.1
  rw [hg.update (crtx_dict_unref_next ..) hlt (crtx_dict_unref_view ..)]
  have hfreed : (s.view d).unref.cell = none ↔ (s.first d + s.refs d - s.unrefs d) % 2 ^ 32 < 2 :=
    View.unref_cell hcount hc
  have howners : s.first d + s.owners d - 1 = s.first d + s.refs d - s.unrefs d := by
    unfold St.owners
    omega
  have hlast : (s.view d).unref.unrefs = (s.view d).unref.refs + 1 ↔ s.owners d = 1 := by
    simp only [View.unref, St.view, St.owners]
    omega
  unfold View.Kept LeavesOthers
  rw [hfreed, hlast, howners]
  omega

theorem Inv.alloc {s : St} (hi : Inv s) {c : Cell} (hc : c.ref_count.toNat ≤ 1) : Inv (s.alloc c) where
  untouched := hi.untouched.alloc c
  counted := by
    intro d hd
    rw [alloc_next] at hd
    rw [hi.untouched.alloc_view]
    by_cases hds : d = s.heap.next
    · subst hds
      rw [Function.update_self]
      refine ⟨hc, ?_⟩
      intro c' hc'
      cases hc'
      exact ⟨Nat.le_refl _, by simp⟩
    · rw [Function.update_of_ne hds]
      exact hi.counted d (Nat.lt_of_le_of_ne (Nat.le_of_lt_succ hd) hds)

theorem good_alloc {s : St} (hu : Untouched s) (c : Cell) : Good (s.alloc c) ↔ Good s := by
  have hview := hu.alloc_view c
  constructor
  · intro hg d hd
    have := hg d (Nat.lt_succ_of_lt hd)
    rwa [hview, Function.update_of_ne (Nat.ne_of_lt hd)] at this
  · intro hg d hd
    rw [alloc_next] at hd
    rw [hview]
    by_cases hds : d = s.heap.next
    · subst hds
      rw [Function.update_self]
      intro hc
      cases hc
    · rw [Function.update_of_ne hds]
      exact hg d (Nat.lt_of_le_of_ne (Nat.le_of_lt_succ hd) hds)

theorem Inv.setDict {s : St} (hi : Inv s) (d : DictId) (dict : Dict) : Inv (s.setDict d dict) where
  untouched := by
    intro a ha
    obtain ⟨n, hn⟩ := hi.untouched a ha
    refine ⟨n, ?_⟩
    rw [setDict_view]
    by_cases had : a = d
    · subst had
      rw [Function.update_self, hn]
      rfl
    · rw [Function.update_of_ne had, hn]
  counted := by
    intro a ha
    rw [setDict_view]
    by_cases had : a = d
    · subst had
      rw [Function.update_self]
      exact (hi.counted a ha).setDict dict
    · rw [Function.update_of_ne had]
      exact hi.counted a ha

theorem good_setDict (s : St) (d : DictId) (dict : Dict) : Good (s.setDict d dict) ↔ Good s := by
  unfold Good View.Kept
  rw [setDict_view]
  refine forall₂_congr fun a _ => ?_
  by_cases had : a = d
  · subst had
    simp [View.setDict]
  · rw [Function.update_of_ne had]

/-- All that a step can do, and when it is safe. -/
inductive Effect (s : St) : Prop → St → Prop where
  | made {s' : St} (h : Made s.heap.next s s') : Effect s True s'
  | init (dict : Dict) : Effect s True (s.alloc ⟨1, dict⟩)
  | edit (d : DictId) (dict : Dict) : Effect s True (s.setDict d dict)
  | ref {d : DictId} (hd : s.Owned d) : Effect s True (crtx_dict_ref d s)
  | unref {d : DictId} (hd : s.Owned d) (pending : List DictId) :
    Effect s (LeavesOthers s d) (crtx_dict_unref d { s with pending })

theorem step_effect {s s' : St} {a : Action} (hu : Untouched s) (hs : step s a = some s') :
    Effect s (Safe s a) s' := by
  cases a with
  | init signature sign_length =>
    cases hs
    exact .init _
  | read bs =>
    simp only [step] at hs
    split at hs
    · cases hs
      exact .made (made_alloc hu _)
    · cases hs
      exact .made (made_refl hu)
    · cases hs
  | sdbus msg ditem no_reduce =>
    cases hs
    exact .made (next_made no_reduce msg ditem s hu).1
  | edit d dict =>
    cases hs
    exact .edit d dict
  | ref d =>
    simp only [step, Option.ite_none_right_eq_some, Option.some.injEq] at hs
    obtain ⟨hd, rfl⟩ := hs
    exact .ref hd
  | unref d =>
    simp only [step, Option.ite_none_right_eq_some, Option.some.injEq] at hs
    obtain ⟨hd, rfl⟩ := hs
    exact .unref hd s.pending
  | release d =>
    simp only [step, Option.ite_none_right_eq_some, Option.some.injEq] at hs
    obtain ⟨⟨-, hd⟩, rfl⟩ := hs
    exact .unref hd _

theorem step_inv (s : St) (a : Action) (s' : St) (hi : Inv s) (hs : step s a = some s') : Inv s' := by
  have heffect := step_effect hi.untouched hs
  generalize Safe s a = safe at heffect
  cases heffect with
  | made h => exact h.inv hi
  | init dict => exact hi.alloc (by simp)
  | edit d dict => exact hi.setDict d dict
  | ref hd => exact hi.ref hd
  | unref hd pending => exact (hi.setPending pending).unref hd

theorem step_good (s : St) (a : Action) (s' : St) (hi : Inv s) (hg : Good s) (hs : step s a = some s') :
    Good s' ↔ Safe s a := by
  have heffect := step_effect hi.untouched hs
  generalize Safe s a = safe at heffect
  cases heffect with
  | made h => exact iff_of_true (h.good.mpr hg) trivial
  | init dict => exact iff_of_true ((good_alloc hi.untouched _).mpr hg) trivial
  | edit d dict => exact iff_of_true ((good_setDict s d dict).mpr hg) trivial
  | ref hd => exact iff_of_true (hg.ref hi hd) trivial
  | unref hd pending =>
    have hg' : Good { s with pending } := hg
    exact hg'.unref (hi.setPending pending) hd

theorem step_gone {s s' : St} {a : Action} (hu : Untouched s) (hs : step s a = some s') {d : DictId}
    (hd : d < s.heap.next) (hc : s.heap.cell d = none) : d < s'.heap.next ∧ s'.view d = s.view d := by
  have hother : ∀ {e : DictId}, s.Owned e → d ≠ e := fun he hde => he.2 (hde ▸ hc)
  have heffect := step_effect hu hs
  generalize Safe s a = safe at heffect
  cases heffect with
  | made h => exact ⟨Nat.lt_of_lt_of_le hd h.le_next, h.old d hd⟩
  | init dict => exact ⟨Nat.lt_succ_of_lt hd, by rw [hu.alloc_view, Function.update_of_ne (Nat.ne_of_lt hd)]⟩
  | edit e dict =>
    refine ⟨hd, ?_⟩
    rw [setDict_view]
    by_cases hde : d = e
    · subst hde
      rw [Function.update_self]
      simp [View.setDict, St.view, hc]
    · rw [Function.update_of_ne hde]
  | ref he => exact ⟨hd, by rw [crtx_dict_ref_view, Function.update_of_ne (hother he)]⟩
  | unref he pending =>
    refine ⟨by simpa using hd, ?_⟩
    rw [crtx_dict_unref_view, Function.update_of_ne (hother he)]
    rfl

theorem step_bad {s s' : St} {a : Action} (hu : Untouched s) (hb : ¬ Good s) (hs : step s a = some s') : ¬ Good s' := by
  intro hg
  apply hb
  intro d hd hc
  obtain ⟨hd', hview⟩ := step_gone hu hs hd hc
  have := hg d hd'
  rw [hview] at this
  exact this hc

/-! ## Runs -/

/-- In every run, the dictionaries are freed by their last owners exactly if no owner of several leaves with the counter
below 2. -/
theorem freed_by_last_owner_iff (as : List Action) (s : St) (hr : run step as St.init = some s) :
    FreedByLastOwner s ↔ Meets step Safe as St.init := by
  have hi := run_invariant step_inv as _ s inv_init hr
  have hgood : Good St.init := fun _ hd => absurd hd (Nat.not_lt_zero _)
  rw [freedByLastOwner_iff hi]
  have hiff : (Inv s → Good s) ↔ Meets step Safe as St.init := by
    apply run_good_iff _ _ as St.init s inv_init (fun _ => hgood) hr
    · intro s a s' hi hg hs
      have hi' := step_inv s a s' hi hs
      refine ⟨hi', ?_⟩
      rw [← step_good s a s' hi (hg hi) hs]
      exact ⟨fun h => h hi', fun h _ => h⟩
    · intro s a s' hb hs hg
      rw [Classical.not_imp] at hb
      exact step_bad hb.1.untouched hb.2 hs (hg (step_inv s a s' hb.1 hs))
  rw [← hiff]
  exact ⟨fun h _ => h, fun h => h hi⟩

/-- A dictionary of `crtx_init_dict` with two owners, and one that was read with its creator alone. -/
def sharedRun : List Action := [.init none 2, .read [0, 0, 0, 0], .ref 0, .unref 1, .unref 0, .unref 0]

theorem freed_by_last_owner_shared : ∃ s, run step sharedRun St.init = some s ∧ FreedByLastOwner s := by
  refine ⟨_, rfl, ?_⟩
  rw [freed_by_last_owner_iff sharedRun _ rfl]
  decide

/-- An empty dictionary is read and shared, and one of the two gives it back. -/
def readRun : List Action := [.read [0, 0, 0, 0], .ref 0, .unref 0]

theorem shared_read_dict_freed : ¬ ∀ as s, run step as St.init = some s → FreedByLastOwner s := by
  intro h
  have := (h readRun _ rfl 0 (by decide)).mp (by decide)
  revert this
  decide

end Libcortex.DictRefs
