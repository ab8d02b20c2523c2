import Mathlib.Logic.Function.Basic
import Libcortex.DictInvariant

/-!
# Dictionaries from JSON

`dict_inout_json.c`: each member of an object becomes an item of a dictionary, and nested objects and arrays become
nested dictionaries. A member that is `null` gets an item too, but leaves its type at 0, so the next member takes the
same item.
-/

namespace Libcortex.DictJson

open Dicts

/-! ## Values -/

/-- An integer is a two's complement number, a double is given by its bits. -/
inductive Scalar where
  | null
  | boolean (b : Bool)
  | double (bits : BitVec 64)
  | int (i : BitVec 64)
  | string (s : CString)
deriving DecidableEq

mutual

/-- What json-c presents. -/
inductive Json where
  | scalar (v : Scalar)
  | array (l : Elements)
  | object (l : Members)

inductive Elements where
  | nil
  | cons (v : Json) (rest : Elements)

inductive Members where
  | nil
  | cons (key : CString) (v : Json) (rest : Members)

end

def Json.isNull : Json → Bool
  | .scalar v => v = .null
  | _ => false

def Elements.length : Elements → Nat
  | .nil => 0
  | .cons _ rest => rest.length + 1

def Members.length : Members → Nat
  | .nil => 0
  | .cons _ _ rest => rest.length + 1

/-! ## The code -/

/-- The dictionaries. Those from `next` on do not exist yet. -/
structure St where
  heap : DictId → Dict
  next : DictId

def St.update (s : St) (d : DictId) (dict : Dict) : St := { s with heap := Function.update s.heap d dict }

/-- `*ditem = f(*ditem)`, for the item `i` of the dictionary `d`. -/
def St.modify (s : St) (d : DictId) (i : Nat) (f : Item → Item) : St :=
  s.update d (setItem (s.heap d) i (f ((s.heap d).item i)))

/-- The next item of the dictionary `d`, after its key was set. -/
def St.alloc (s : St) (d : DictId) (setKey : Item → Item) : St × Nat :=
  let (dict, i) := crtx_dict_alloc_next_item (s.heap d)
  ((s.update d dict).modify d i setKey, i)

/-- `ditem->type = 'D'; ditem->dict = crtx_init_dict(0, 0, 0)` -/
def St.nest (s : St) (d : DictId) (i : Nat) : St :=
  let s := s.modify d i fun di => { di with type := some 'D', value := .dict s.next }
  { s.update s.next (crtx_init_dict none 0) with next := s.next + 1 }

/-- `crtx_stracpy` sets the size to the length of the string. -/
def inspect_primitive (jobj : Scalar) (di : Item) : Item :=
  match jobj with
  | .boolean b => { di with type := some 'i', size := 4, value := .word (if b then 1 else 0) }
  | .double bits => { di with type := some 'd', size := 8, value := .word bits }
  | .int i => { di with type := some 'I', size := 8, value := .word i }
  | .string s => { di with type := some 's', size := BitVec.ofNat 64 s.1.length + 1, value := .string (some s) }
  | .null => di

/-- `ditem->key = 0` -/
def noKey (di : Item) : Item := { di with key := none }

def copiedKey (key : CString) (di : Item) : Item := { di with flags := CRTX_DIF_ALLOCATED_KEY, key := some key }

mutual

/-- One round of the loops in `inspect_array` and `inspect_obj`, which only differ in the key. -/
def inspectMember (setKey : Item → Item) (d : DictId) (s : St) : Json → St
  | .scalar v =>
    let (s, i) := s.alloc d setKey
    s.modify d i (inspect_primitive v)
  | .array l =>
    let (s, i) := s.alloc d setKey
    inspect_array s.next (s.nest d i) l
  | .object l =>
    let (s, i) := s.alloc d setKey
    inspect_obj s.next (s.nest d i) l

def inspect_array (d : DictId) (s : St) : Elements → St
  | .nil => s
  | .cons v rest => inspect_array d (inspectMember noKey d s v) rest

def inspect_obj (d : DictId) (s : St) : Members → St
  | .nil => s
  | .cons key v rest => inspect_obj d (inspectMember (copiedKey key) d s v) rest

end

/-! ## What has to hold -/

/-- An item without its flags. -/
def content (di : Item) : Item := { di with flags := 0 }

/-- The items of a dictionary that have a type, in order. -/
def used (d : Dict) : List Item := (d.items.filter fun di => di.type.isSome).map content

/-- The converted value. -/
def ScalarItem (v : Scalar) (di : Item) : Prop :=
  match v with
  | .null => False
  | .boolean b => di.type = some 'i' ∧ di.size = 4 ∧ di.value = .word (if b then 1 else 0)
  | .double bits => di.type = some 'd' ∧ di.size = 8 ∧ di.value = .word bits
  | .int i => di.type = some 'I' ∧ di.size = 8 ∧ di.value = .word i
  | .string s => di.type = some 's' ∧ di.size = BitVec.ofNat 64 (s.1.length + 1) ∧ di.value = .string (some s)

mutual

/-- The item has the value, and so have all items below it. -/
def Holds (heap : DictId → Dict) (di : Item) : Json → Prop
  | .scalar v => ScalarItem v di
  | .array l => di.type = some 'D' ∧ ∃ x, di.value = .dict x ∧ HoldsElements heap (used (heap x)) l
  | .object l => di.type = some 'D' ∧ ∃ x, di.value = .dict x ∧ HoldsMembers heap (used (heap x)) l

/-- One item for each element that is not null, without a key. -/
def HoldsElements (heap : DictId → Dict) (items : List Item) : Elements → Prop
  | .nil => items = []
  | .cons v rest =>
    if v.isNull then HoldsElements heap items rest
    else ∃ di tail, items = di :: tail ∧ di.key = none ∧ Holds heap di v ∧ HoldsElements heap tail rest

/-- One item for each member that is not null, with its name. -/
def HoldsMembers (heap : DictId → Dict) (items : List Item) : Members → Prop
  | .nil => items = []
  | .cons key v rest =>
    if v.isNull then HoldsMembers heap items rest
    else ∃ di tail, items = di :: tail ∧ di.key = some key ∧ Holds heap di v ∧ HoldsMembers heap tail rest

end

mutual

/-- json-c parses at most 2^31 - 1 bytes, so no array or object has more members. -/
def Json.Presented : Json → Prop
  | .scalar _ => True
  | .array l => l.length < 2 ^ 31 ∧ l.Presented
  | .object l => l.length < 2 ^ 31 ∧ l.Presented

def Elements.Presented : Elements → Prop
  | .nil => True
  | .cons v rest => v.Presented ∧ rest.Presented

def Members.Presented : Members → Prop
  | .nil => True
  | .cons _ v rest => v.Presented ∧ rest.Presented

end

/-! ## Items in use -/

/-- The first `n` items have a type, the others are free. -/
structure Packed (d : Dict) (n : Nat) : Prop where
  rep : Rep d
  typed : ∀ i, (d.item i).type ≠ none ↔ i < n

section

variable {d : Dict} {n : Nat}

theorem Packed.le (h : Packed d n) : n ≤ d.items.length := by
  by_contra hlt
  have ht := (h.typed d.items.length).mpr (by omega)
  rw [item_beyond (Nat.le_refl _)] at ht
  exact ht rfl

theorem items_eq (d : Dict) : d.items = (List.range d.items.length).map d.item := by
  apply List.ext_getElem
  · simp
  · intro i h₁ h₂
    rw [List.getElem_map, List.getElem_range, item_getElem h₁]

theorem Packed.used_eq (h : Packed d n) : used d = (List.range n).map fun i => content (d.item i) := by
  have hfilter : (List.range d.items.length).filter (fun i => (d.item i).type.isSome) = List.range n := by
    obtain ⟨k, hk⟩ := Nat.exists_eq_add_of_le h.le
    rw [hk, List.range_add, List.filter_append, List.filter_eq_self.mpr, List.filter_eq_nil_iff.mpr, List.append_nil]
    · intro i hi
      obtain ⟨j, -, rfl⟩ := List.mem_map.mp hi
      have hfree := mt (h.typed (n + j)).mp (by omega)
      simpa using hfree
    · intro i hi
      rw [Option.isSome_iff_ne_none]
      exact (h.typed i).mpr (List.mem_range.mp hi)
  unfold used
  rw [items_eq d, List.filter_map, List.map_map]
  exact congrArg (List.map (content ∘ d.item)) hfilter

theorem content_congr {a b : Item} (h : SameContent a b) : content a = content b := by
  unfold content
  rw [h.type, h.key, h.size, h.value]

theorem Packed.congr {d' : Dict} (h : Packed d n) (hr : Rep d') (hsame : ∀ i, SameContent (d'.item i) (d.item i)) :
    Packed d' n ∧ used d' = used d := by
  have h' : Packed d' n := ⟨hr, fun i => by rw [(hsame i).type, h.typed]⟩
  refine ⟨h', ?_⟩
  rw [h'.used_eq, h.used_eq]
  exact List.map_congr_left fun i _ => content_congr (hsame i)

theorem Packed.alloc (h : Packed d n) (hn : n < 2 ^ 32 - 1) :
    ∃ d', crtx_dict_alloc_next_item d = (d', n) ∧ Packed d' n ∧ used d' = used d ∧ n < d'.items.length := by
  have hfull : Full d → n = d.items.length := by
    intro hf
    by_contra hne
    have hle := h.le
    exact hf n (by omega) (by_contra fun ht => absurd ((h.typed n).mp ht) (Nat.lt_irrefl n))
  have hgrow : CanGrow d := by
    rintro ⟨hf, hl⟩
    have := hfull hf
    have := h.rep.length
    omega
  obtain ⟨hrep, hall⟩ := alloc_rep h.rep hgrow
  obtain ⟨-, -, hlt, hsame⟩ := alloc_spec h.rep
  have hi : (crtx_dict_alloc_next_item d).2 = n := by
    by_cases hf : Full d
    · rw [(hall.fresh hf).1, hfull hf]
    · obtain ⟨⟨-, hfree, hbefore⟩, -⟩ := hall.free hf
      have hge := mt (h.typed _).mpr (not_not.mpr hfree)
      by_contra hne
      exact absurd ((h.typed n).mp (hbefore n (by omega))) (Nat.lt_irrefl n)
  obtain ⟨hpacked, hused⟩ := h.congr hrep hsame
  exact ⟨_, Prod.ext rfl hi, hpacked, hused, hi ▸ hlt⟩

theorem Packed.set_free (h : Packed d n) {i : Nat} (hi : n ≤ i) {di : Item} (ht : di.type = none)
    (hlast : di.isLast = (d.item i).isLast ∨ di.isLast = false) :
    Packed (setItem d i di) n ∧ used (setItem d i di) = used d := by
  have h' : Packed (setItem d i di) n := by
    refine ⟨set_rep h.rep i hlast, ?_⟩
    intro j
    rw [item_setItem]
    split
    · rename_i hj
      simp [ht]
      omega
    · exact h.typed j
  refine ⟨h', ?_⟩
  rw [h'.used_eq, h.used_eq]
  refine List.map_congr_left fun j hj => ?_
  rw [item_setItem_ne]
  have := List.mem_range.mp hj
  omega

theorem Packed.set_next (h : Packed d n) (hn : n < d.items.length) {di : Item} (ht : di.type ≠ none)
    (hlast : di.isLast = (d.item n).isLast ∨ di.isLast = false) :
    Packed (setItem d n di) (n + 1) ∧ used (setItem d n di) = used d ++ [content di] := by
  have h' : Packed (setItem d n di) (n + 1) := by
    refine ⟨set_rep h.rep n hlast, ?_⟩
    intro j
    rw [item_setItem]
    split
    · rename_i hj
      simp [ht]
      omega
    · rename_i hj
      rw [h.typed]
      omega
  refine ⟨h', ?_⟩
  rw [h'.used_eq, h.used_eq, List.range_succ, List.map_append, List.map_singleton, item_setItem, if_pos ⟨rfl, hn⟩]
  congr 1
  refine List.map_congr_left fun j hj => ?_
  rw [item_setItem_ne]
  have := List.mem_range.mp hj
  omega

end

/-! ## What a call leaves -/

/-- The dictionary `d` has new items, and besides there are only new dictionaries. -/
structure Grown (s s' : St) (d : DictId) (n : Nat) (added : List Item) : Prop where
  next : s.next ≤ s'.next
  frame : ∀ x < s.next, x ≠ d → s'.heap x = s.heap x
  packed : Packed (s'.heap d) (n + added.length)
  used : used (s'.heap d) = used (s.heap d) ++ added

/-- `p` depends on nothing but the new dictionaries. -/
def Kept (s s' : St) (p : (DictId → Dict) → Prop) : Prop :=
  ∀ heap, (∀ x, s.next ≤ x → x < s'.next → heap x = s'.heap x) → p heap

/-- What one member adds. -/
def MemberItems (heap : DictId → Dict) (key : Option CString) (v : Json) (added : List Item) : Prop :=
  if v.isNull then added = [] else ∃ di, added = [di] ∧ di.key = key ∧ Holds heap di v

theorem grown_refl {s : St} {d : DictId} {n : Nat} (h : Packed (s.heap d) n) : Grown s s d n [] :=
  ⟨Nat.le_refl _, fun _ _ _ => rfl, h, (List.append_nil _).symm⟩

theorem Grown.trans {s s₁ s₂ : St} {d : DictId} {n : Nat} {a b : List Item} (h : Grown s s₁ d n a)
    (h' : Grown s₁ s₂ d (n + a.length) b) : Grown s s₂ d n (a ++ b) := by
  refine ⟨h.next.trans h'.next, ?_, ?_, ?_⟩
  · intro x hx hne
    rw [h'.frame x (Nat.lt_of_lt_of_le hx h.next) hne, h.frame x hx hne]
  · rw [List.length_append, ← Nat.add_assoc]
    exact h'.packed
  · rw [h'.used, h.used, List.append_assoc]

theorem Kept.trans {s s₁ s₂ : St} {d : DictId} {n : Nat} {b : List Item} {p q : (DictId → Dict) → Prop}
    (hp : Kept s s₁ p) (hle : s.next ≤ s₁.next) (hd : d < s.next) (h' : Grown s₁ s₂ d n b) (hq : Kept s₁ s₂ q) :
    Kept s s₂ fun heap => p heap ∧ q heap := by
  intro heap hheap
  refine ⟨hp heap ?_, hq heap fun x hx => hheap x (hle.trans hx)⟩
  intro x hx hlt
  rw [hheap x hx (Nat.lt_of_lt_of_le hlt h'.next), h'.frame x hlt (Nat.ne_of_gt (Nat.lt_of_lt_of_le hd hx))]

theorem memberItems_length {heap : DictId → Dict} {key : Option CString} {v : Json} {added : List Item}
    (h : MemberItems heap key v added) : added.length ≤ 1 := by
  unfold MemberItems at h
  split at h
  · simp [h]
  · obtain ⟨di, rfl, -⟩ := h
    simp

theorem memberItems_append {heap : DictId → Dict} {key : Option CString} {v : Json} {a b : List Item}
    {P : List Item → Prop} (ha : MemberItems heap key v a) (hb : P b) :
    if v.isNull then P (a ++ b) else ∃ di tail, a ++ b = di :: tail ∧ di.key = key ∧ Holds heap di v ∧ P tail := by
  unfold MemberItems at ha
  split at ha
  · rename_i hnull
    rw [if_pos hnull, ha]
    exact hb
  · rename_i hnull
    obtain ⟨di, rfl, hkey, hdi⟩ := ha
    rw [if_neg hnull]
    exact ⟨di, b, rfl, hkey, hdi, hb⟩

theorem holdsElements_cons {heap : DictId → Dict} {v : Json} {rest : Elements} {a b : List Item}
    (h : MemberItems heap none v a ∧ HoldsElements heap b rest) : HoldsElements heap (a ++ b) (.cons v rest) := by
  unfold HoldsElements
  exact memberItems_append (P := fun items => HoldsElements heap items rest) h.1 h.2

theorem holdsMembers_cons {heap : DictId → Dict} {key : CString} {v : Json} {rest : Members} {a b : List Item}
    (h : MemberItems heap (some key) v a ∧ HoldsMembers heap b rest) :
    HoldsMembers heap (a ++ b) (.cons key v rest) := by
  unfold HoldsMembers
  exact memberItems_append (P := fun items => HoldsMembers heap items rest) h.1 h.2

/-! ## One member -/

/-- How the key of an item is set, while it is free. -/
structure SetsKey (setKey : Item → Item) (key : Option CString) : Prop where
  type : ∀ di, (setKey di).type = di.type
  key : ∀ di, (setKey di).key = key
  isLast : ∀ di, (setKey di).isLast = di.isLast ∨ (setKey di).isLast = false

theorem setsKey_noKey : SetsKey noKey none := ⟨fun _ => rfl, fun _ => rfl, fun _ => .inl rfl⟩

theorem setsKey_copiedKey (key : CString) : SetsKey (copiedKey key) (some key) := by
  refine ⟨fun _ => rfl, fun _ => rfl, fun _ => .inr ?_⟩
  simp only [copiedKey, Item.isLast]
  decide

@[simp] theorem update_self (s : St) (d : DictId) (dict : Dict) : (s.update d dict).heap d = dict :=
  Function.update_self ..

theorem update_ne (s : St) {d x : DictId} (h : x ≠ d) (dict : Dict) : (s.update d dict).heap x = s.heap x :=
  Function.update_of_ne h ..

@[simp] theorem update_next (s : St) (d : DictId) (dict : Dict) : (s.update d dict).next = s.next := rfl

@[simp] theorem modify_self (s : St) (d : DictId) (i : Nat) (f : Item → Item) :
    (s.modify d i f).heap d = setItem (s.heap d) i (f ((s.heap d).item i)) := update_self ..

theorem modify_ne (s : St) {d x : DictId} (h : x ≠ d) (i : Nat) (f : Item → Item) :
    (s.modify d i f).heap x = s.heap x := update_ne s h _

@[simp] theorem modify_next (s : St) (d : DictId) (i : Nat) (f : Item → Item) : (s.modify d i f).next = s.next := rfl

/-- The item that is handed out is free, and has its key. -/
structure Allocated (s s' : St) (d : DictId) (n : Nat) (key : Option CString) : Prop where
  grown : Grown s s' d n []
  next : s'.next = s.next
  lt : n < (s'.heap d).items.length
  type : ((s'.heap d).item n).type = none
  key : ((s'.heap d).item n).key = key

theorem alloc_spec {s : St} {d : DictId} {n : Nat} (h : Packed (s.heap d) n) (hn : n < 2 ^ 32 - 1)
    {setKey : Item → Item} {key : Option CString} (hk : SetsKey setKey key) :
    ∃ s', s.alloc d setKey = (s', n) ∧ Allocated s s' d n key := by
  obtain ⟨d', halloc, hpacked, hused, hlt⟩ := h.alloc hn
  have htype : (d'.item n).type = none := by
    by_contra ht
    exact absurd ((hpacked.typed n).mp ht) (Nat.lt_irrefl n)
  obtain ⟨hpacked', hused'⟩ := hpacked.set_free (Nat.le_refl n) ((hk.type (d'.item n)).trans htype) (hk.isLast _)
  have hitem : (setItem d' n (setKey (d'.item n))).item n = setKey (d'.item n) := by
    rw [item_setItem, if_pos ⟨rfl, hlt⟩]
  refine ⟨(s.update d d').modify d n setKey, by rw [St.alloc, halloc], ⟨?_, rfl, ?_, ?_, ?_⟩⟩
  · refine ⟨Nat.le_refl _, ?_, ?_, ?_⟩
    · intro x _ hne
      rw [modify_ne _ hne, update_ne _ hne]
    · simpa using hpacked'
    · simpa [hused] using hused'
  · simpa using hlt
  · simp [hitem, hk.type, htype]
  · simp [hitem, hk.key]

theorem Allocated.fill {s s' s'' : St} {d : DictId} {n : Nat} {key : Option CString} (h : Allocated s s' d n key)
    {di : Item} (ht : di.type ≠ none) (hflags : di.flags = ((s'.heap d).item n).flags)
    (hnext : s'.next ≤ s''.next) (hd : s''.heap d = setItem (s'.heap d) n di)
    (hframe : ∀ x < s.next, x ≠ d → s''.heap x = s'.heap x) : Grown s s'' d n [content di] := by
  have hlast : di.isLast = ((s'.heap d).item n).isLast := by rw [Item.isLast, hflags, Item.isLast]
  obtain ⟨hpacked, hused⟩ := (show Packed (s'.heap d) n from h.grown.packed).set_next h.lt ht (.inl hlast)
  refine ⟨h.grown.next.trans hnext, ?_, ?_, ?_⟩
  · intro x hx hne
    rw [hframe x hx hne, h.grown.frame x hx hne]
  · rw [hd]
    exact hpacked
  · rw [hd, hused, h.grown.used, List.append_nil]

theorem scalar_type {v : Scalar} (h : v ≠ .null) (di : Item) :
    (inspect_primitive v di).type ≠ none ∧ ScalarItem v (content (inspect_primitive v di)) := by
  cases v with
  | null => exact absurd rfl h
  | string t => exact ⟨by simp [inspect_primitive], rfl, by simp [inspect_primitive, content, BitVec.ofNat_add], rfl⟩
  | boolean b => exact ⟨by simp [inspect_primitive], rfl, rfl, rfl⟩
  | double bits => exact ⟨by simp [inspect_primitive], rfl, rfl, rfl⟩
  | int i => exact ⟨by simp [inspect_primitive], rfl, rfl, rfl⟩

theorem primitive_head (v : Scalar) (di : Item) :
    (inspect_primitive v di).flags = di.flags ∧ (inspect_primitive v di).key = di.key := by
  cases v <;> exact ⟨rfl, rfl⟩

theorem member_scalar {s s' : St} {d : DictId} {n : Nat} {key : Option CString} (h : Allocated s s' d n key)
    (v : Scalar) :
    ∃ added, Grown s (s'.modify d n (inspect_primitive v)) d n added ∧
      Kept s (s'.modify d n (inspect_primitive v)) fun heap => MemberItems heap key (.scalar v) added := by
  by_cases hv : v = .null
  · subst hv
    refine ⟨[], ?_, fun heap _ => by simp [MemberItems, Json.isNull]⟩
    obtain ⟨hpacked, hused⟩ := (show Packed (s'.heap d) n from h.grown.packed).set_free (Nat.le_refl n)
      h.type (.inl rfl)
    refine ⟨h.grown.next, ?_, ?_, ?_⟩
    · intro x hx hne
      rw [modify_ne _ hne, h.grown.frame x hx hne]
    · rw [modify_self]
      exact hpacked
    · rw [modify_self, ← h.grown.used]
      exact hused
  · obtain ⟨ht, hscalar⟩ := scalar_type hv ((s'.heap d).item n)
    obtain ⟨hflags, hkey⟩ := primitive_head v ((s'.heap d).item n)
    refine ⟨_, h.fill ht hflags (Nat.le_refl _) (modify_self ..) fun x _ hne => modify_ne _ hne .., ?_⟩
    intro heap _
    rw [MemberItems, if_neg (by simp [Json.isNull, hv])]
    refine ⟨_, rfl, hkey.trans h.key, ?_⟩
    rw [Holds]
    exact hscalar

theorem nest_empty (s : St) (d : DictId) (i : Nat) :
    Packed ((s.nest d i).heap s.next) 0 ∧ used ((s.nest d i).heap s.next) = [] := by
  have hpacked : Packed ((s.nest d i).heap s.next) 0 := by
    have hheap : (s.nest d i).heap s.next = crtx_init_dict none 0 := update_self ..
    rw [hheap]
    refine ⟨init_rep 0, fun i => ?_⟩
    rw [item_beyond (by simp [crtx_init_dict])]
    simp [Item.zero]
  exact ⟨hpacked, hpacked.used_eq⟩

theorem nest_other (s : St) (d : DictId) (i : Nat) {x : DictId} (hx : x ≠ s.next) :
    (s.nest d i).heap x = (s.modify d i fun di => { di with type := some 'D', value := .dict s.next }).heap x :=
  update_ne _ hx _

theorem member_nested {s s' s'' : St} {d : DictId} {n : Nat} {key : Option CString} (h : Allocated s s' d n key)
    (hd : d < s.next) {items : List Item} (hgrown : Grown (s'.nest d n) s'' s'.next 0 items)
    {p : (DictId → Dict) → List Item → Prop} (hkept : Kept (s'.nest d n) s'' fun heap => p heap items) :
    ∃ di, Grown s s'' d n [di] ∧ di.key = key ∧ di.type = some 'D' ∧
      Kept s s'' fun heap => ∃ x, di.value = .dict x ∧ p heap (used (heap x)) := by
  have hnext : s'.next + 1 ≤ s''.next := hgrown.next
  have hold : ∀ x < s.next, x ≠ s'.next ∧ x < (s'.nest d n).next := by
    intro x hx
    rw [← h.next] at hx
    exact ⟨Nat.ne_of_lt hx, Nat.lt_succ_of_lt hx⟩
  have hother : ∀ x < s.next, s''.heap x = (s'.nest d n).heap x :=
    fun x hx => hgrown.frame x (hold x hx).2 (hold x hx).1
  have hgrown' : Grown s s'' d n [content { (s'.heap d).item n with type := some 'D', value := .dict s'.next }] := by
    refine h.fill (by simp) rfl (Nat.le_of_succ_le hnext) ?_ ?_
    · rw [hother d hd, nest_other _ _ _ (hold d hd).1, modify_self]
    · intro x hx hne
      rw [hother x hx, nest_other _ _ _ (hold x hx).1, modify_ne _ hne]
  refine ⟨_, hgrown', h.key, rfl, ?_⟩
  intro heap hheap
  have hused : used (heap s'.next) = items := by
    rw [hheap _ (Nat.le_of_eq h.next.symm) hnext, hgrown.used, (nest_empty s' d n).2, List.nil_append]
  refine ⟨s'.next, rfl, ?_⟩
  rw [hused]
  refine hkept heap fun x hx hlt => hheap x ?_ hlt
  have hx : s'.next + 1 ≤ x := hx
  rw [← h.next]
  exact Nat.le_of_succ_le hx

/-! ## All members -/

mutual

theorem inspectMember_grown (v : Json) (hv : v.Presented) {setKey : Item → Item} {key : Option CString}
    (hk : SetsKey setKey key) {s : St} {d : DictId} {n : Nat} (h : Packed (s.heap d) n) (hd : d < s.next)
    (hn : n < 2 ^ 32 - 1) :
    ∃ added, Grown s (inspectMember setKey d s v) d n added ∧
      Kept s (inspectMember setKey d s v) fun heap => MemberItems heap key v added := by
  obtain ⟨s', halloc, hs'⟩ := alloc_spec h hn hk
  have hlt : s'.next < (s'.nest d n).next := Nat.lt_succ_self _
  cases v with
  | scalar v =>
    rw [inspectMember, halloc]
    exact member_scalar hs' v
  | array l =>
    rw [inspectMember, halloc]
    obtain ⟨items, hgrown, hkept⟩ := inspect_array_grown l hv.2 (nest_empty s' d n).1 hlt (by have := hv.1; omega)
    obtain ⟨di, hgrown', hkey, htype, hkept'⟩ :=
      member_nested hs' hd hgrown (p := fun heap items => HoldsElements heap items l) hkept
    refine ⟨[di], hgrown', fun heap hheap => ?_⟩
    simp only [MemberItems, Json.isNull, Bool.false_eq_true, if_false, Holds]
    exact ⟨di, rfl, hkey, htype, hkept' heap hheap⟩
  | object l =>
    rw [inspectMember, halloc]
    obtain ⟨items, hgrown, hkept⟩ := inspect_obj_grown l hv.2 (nest_empty s' d n).1 hlt (by have := hv.1; omega)
    obtain ⟨di, hgrown', hkey, htype, hkept'⟩ :=
      member_nested hs' hd hgrown (p := fun heap items => HoldsMembers heap items l) hkept
    refine ⟨[di], hgrown', fun heap hheap => ?_⟩
    simp only [MemberItems, Json.isNull, Bool.false_eq_true, if_false, Holds]
    exact ⟨di, rfl, hkey, htype, hkept' heap hheap⟩

theorem inspect_array_grown (l : Elements) (hl : l.Presented) {s : St} {d : DictId} {n : Nat}
    (h : Packed (s.heap d) n) (hd : d < s.next) (hn : n + l.length < 2 ^ 32) :
    ∃ added, Grown s (inspect_array d s l) d n added ∧
      Kept s (inspect_array d s l) fun heap => HoldsElements heap added l := by
  cases l with
  | nil => exact ⟨[], grown_refl h, fun heap _ => by simp only [HoldsElements]⟩
  | cons v rest =>
    rw [inspect_array]
    rw [Elements.length] at hn
    obtain ⟨a, ha, hka⟩ := inspectMember_grown v hl.1 setsKey_noKey h hd (by omega)
    have hlen := memberItems_length (hka _ fun _ _ _ => rfl)
    obtain ⟨b, hb, hkb⟩ := inspect_array_grown rest hl.2 ha.packed (Nat.lt_of_lt_of_le hd ha.next) (by omega)
    exact ⟨a ++ b, ha.trans hb, fun heap hheap => holdsElements_cons (hka.trans ha.next hd hb hkb heap hheap)⟩

theorem inspect_obj_grown (l : Members) (hl : l.Presented) {s : St} {d : DictId} {n : Nat}
    (h : Packed (s.heap d) n) (hd : d < s.next) (hn : n + l.length < 2 ^ 32) :
    ∃ added, Grown s (inspect_obj d s l) d n added ∧
      Kept s (inspect_obj d s l) fun heap => HoldsMembers heap added l := by
  cases l with
  | nil => exact ⟨[], grown_refl h, fun heap _ => by simp only [HoldsMembers]⟩
  | cons key v rest =>
    rw [inspect_obj]
    rw [Members.length] at hn
    obtain ⟨a, ha, hka⟩ := inspectMember_grown v hl.1 (setsKey_copiedKey key) h hd (by omega)
    have hlen := memberItems_length (hka _ fun _ _ _ => rfl)
    obtain ⟨b, hb, hkb⟩ := inspect_obj_grown rest hl.2 ha.packed (Nat.lt_of_lt_of_le hd ha.next) (by omega)
    exact ⟨a ++ b, ha.trans hb, fun heap hheap => holdsMembers_cons (hka.trans ha.next hd hb hkb heap hheap)⟩

end

/-- An object is imported into a dictionary without items in use, like an empty one. -/
theorem inspect_obj_holds {l : Members} (hl : (Json.object l).Presented) {s : St} {d : DictId} (hd : d < s.next)
    (hr : Rep (s.heap d)) (hempty : ∀ i, ((s.heap d).item i).type = none) :
    HoldsMembers (inspect_obj d s l).heap (used ((inspect_obj d s l).heap d)) l := by
  have hpacked : Packed (s.heap d) 0 := ⟨hr, fun i => by simp [hempty i]⟩
  obtain ⟨added, hgrown, hkept⟩ := inspect_obj_grown l hl.2 hpacked hd (by have := hl.1; omega)
  rw [hgrown.used, hpacked.used_eq]
  exact hkept _ fun _ _ _ => rfl

/-- A null before a number, one in an array, and one at the end. -/
def nulls : Members :=
  .cons keyA (.scalar .null) (.cons keyB (.scalar (.int 7))
    (.cons keyA (.array (.cons (.scalar .null) (.cons (.scalar (.string keyB)) .nil))) (.cons keyB (.scalar .null) .nil)))

def oneEmpty : St := ⟨fun _ => crtx_init_dict none 0, 1⟩

theorem inspect_obj_holds_nulls :
    (Json.object nulls).Presented ∧
      HoldsMembers (inspect_obj 0 oneEmpty nulls).heap (used ((inspect_obj 0 oneEmpty nulls).heap 0)) nulls := by
  have hp : (Json.object nulls).Presented := by
    simp [nulls, Json.Presented, Members.Presented, Elements.Presented, Members.length, Elements.length]
  exact ⟨hp, inspect_obj_holds hp (by decide) (init_rep 0) fun i => by
    rw [oneEmpty, item_beyond (by simp [crtx_init_dict])]
    rfl⟩

end Libcortex.DictJson
