import Mathlib.Data.List.Perm.Subperm
import Libcortex.DictInvariant

/-!
# Copying a dictionary

`crtx_dict_create_copy` asks for the next free item of the copy and lets `crtx_dict_copy_item` fill it,
for every item of the original. For a number only the value is copied: the item stays free, and the
next one is written over it.
-/

open Libcortex.Lib

namespace Libcortex.Dicts

/-! ## The code -/

/-- `ref_count` of every dictionary. -/
abbrev Refs := DictId → BitVec 32

def crtx_dict_ref (refs : Refs) : Value → Refs
  | .dict d => Function.update refs d (refs d + 1)
  | _ => refs

/-- `malloc` and `memcpy`, or the same pointer if the size is 0. -/
def copyBlock (src : Item) : Value :=
  match src.value with
  | .pointer block => if src.size = 0 then .pointer block else .pointer (block.take src.size.toNat)
  | v => v

/-- A key that was allocated for the original is copied. -/
def copyItemKey (dst src : Item) : Item :=
  match src.key with
  | some k =>
    if src.flags &&& CRTX_DIF_ALLOCATED_KEY ≠ 0 then
      { dst with flags := dst.flags ||| CRTX_DIF_ALLOCATED_KEY, key := some k }
    else { dst with key := some k }
  | none => dst

/-- The end of `crtx_dict_copy_item`, which numbers do not reach. -/
def copyHead (dst src : Item) (data_only : Bool) : Item :=
  let dst := if data_only then dst else copyItemKey dst src
  { dst with type := src.type, size := src.size }

def crtx_dict_copy_item (refs : Refs) (dst src : Item) (data_only : Bool) : Refs × Item :=
  match src.type with
  | some 'D' => (crtx_dict_ref refs src.value, copyHead { dst with value := src.value } src data_only)
  | some 's' => (refs, copyHead { dst with value := src.value } src data_only)
  | some 'p' => (refs, copyHead { dst with value := copyBlock src } src data_only)
  | _ => (refs, { dst with value := src.value })

/-- One round of the loop. -/
def copyNext (orig : Dict) (s : Refs × Dict) (i : Nat) : Refs × Dict :=
  let (d, k) := crtx_dict_alloc_next_item s.2
  let (refs, di) := crtx_dict_copy_item s.1 (d.item k) (orig.item i) false
  (refs, { d with items := d.items.set k di })

def crtx_dict_create_copy (refs : Refs) (orig : Dict) : Refs × Dict :=
  (visit orig).foldl (copyNext orig) (refs, crtx_init_dict orig.signature orig.signature_length)

/-! ## How the original was built -/

/-- The value is one of this type. -/
def Fitting (c : Char) (value : Value) (size : BitVec 64) : Prop :=
  match value with
  | .word _ => c ∈ ['u', 'i', 'U', 'I', 'd', 'z']
  | .string s => c = 's' ∧ s ≠ none
  | .pointer block => c = 'p' ∧ 0 < size.toNat ∧ size.toNat ≤ block.length
  | .dict _ => c = 'D'

instance (c : Char) (value : Value) (size : BitVec 64) : Decidable (Fitting c value size) := by
  unfold Fitting
  cases value <;> infer_instance

/-- `crtx_dict_new_item` with an argument of the type that it is told. -/
def newItem (d : Dict) (a : Char × Option CString × Args) : Option Dict :=
  if Fitting a.1 a.2.2.value a.2.2.size then some (crtx_dict_new_item d (some a.1) a.2.1 a.2.2).1 else none

/-! ## What a copy has to be -/

/-- The value that is seen: of a block of memory, as much as the size says. -/
def Item.content (di : Item) : Value :=
  match di.value with
  | .pointer block => .pointer (block.take di.size.toNat)
  | v => v

structure SameItem (a b : Item) : Prop where
  type : a.type = b.type
  key : a.key = b.key
  size : a.size = b.size
  content : a.content = b.content

/-- The item refers to the dictionary `x`. -/
def Item.refersTo (x : DictId) (di : Item) : Bool := di.type = some 'D' ∧ di.value = .dict x

/-- As many items, each one the same, and one more reference to a nested dictionary for each item that has it. -/
structure IsCopy (refs : Refs) (orig : Dict) (refs' : Refs) (d : Dict) : Prop where
  length : d.items.length = orig.items.length
  items : ∀ k < orig.items.length, SameItem (d.item k) (orig.item k)
  refs : ∀ x, refs' x = refs x + BitVec.ofNat 32 (orig.items.countP (Item.refersTo x))

/-- The types that `crtx_dict_copy_item` copies in full. -/
def Item.copied (di : Item) : Bool := di.type ∈ [some 'D', some 's', some 'p']

/-- No item is a number, and no item comes after a free one or one that is marked as the last. -/
def Copyable (orig : Dict) : Prop :=
  ∀ k < orig.items.length, (orig.item k).type ≠ none →
    (orig.item k).copied = true ∧ ∀ j < k, (orig.item j).type ≠ none ∧ (orig.item j).isLast = false

instance (orig : Dict) : Decidable (Copyable orig) := inferInstanceAs (Decidable (∀ k < _, _))

/-! ## Items -/

theorem sameContent_content {a b : Item} (h : SameContent a b) : a.content = b.content := by
  unfold Item.content
  rw [h.value, h.size]

/-- The head of the copy, for an item that was free. -/
structure HasHead (di dst src : Item) (v : Value) : Prop where
  type : di.type = src.type
  key : di.key = src.key
  size : di.size = src.size
  value : di.value = v
  isLast : di.isLast = dst.isLast

theorem copyHead_spec {dst : Item} (src : Item) (hk : dst.key = none) (v : Value) :
    HasHead (copyHead { dst with value := v } src false) dst src v := by
  have hflags : ∀ f : BitVec 8,
      (f ||| CRTX_DIF_ALLOCATED_KEY) &&& CRTX_DIF_LAST_ITEM = f &&& CRTX_DIF_LAST_ITEM := by decide
  unfold copyHead copyItemKey
  cases hs : src.key with
  | none => exact ⟨rfl, hk.trans hs.symm, rfl, rfl, rfl⟩
  | some k =>
    by_cases ha : src.flags &&& CRTX_DIF_ALLOCATED_KEY = 0
    · simp only [Bool.false_eq_true, if_false, ha, ne_eq, not_true_eq_false]
      exact ⟨rfl, hs.symm, rfl, rfl, rfl⟩
    · simp only [Bool.false_eq_true, if_false, ha, ne_eq, not_false_eq_true, if_true]
      exact ⟨rfl, hs.symm, rfl, rfl, isLast_congr (hflags _)⟩

theorem HasHead.same {di dst src : Item} (h : HasHead di dst src src.value) : SameItem di src :=
  ⟨h.type, h.key, h.size, sameContent_content ⟨h.type, h.key, h.size, h.value⟩⟩

theorem copyBlock_content {dst src : Item} (hv : dst.value = copyBlock src) (hs : dst.size = src.size) :
    dst.content = src.content := by
  unfold Item.content
  rw [hv, hs]
  cases hb : src.value with
  | pointer block =>
    by_cases hz : src.size = 0
    · simp [copyBlock, hb, hz]
    · have hc : copyBlock src = .pointer (block.take src.size.toNat) := by
        rw [copyBlock, hb]
        exact if_neg hz
      simp [hc, List.take_take]
  | word _ | string _ | dict _ => simp [copyBlock, hb]

theorem HasHead.same_block {di dst src : Item} (h : HasHead di dst src (copyBlock src)) : SameItem di src :=
  ⟨h.type, h.key, h.size, copyBlock_content h.value h.size⟩

section

variable (refs : Refs) {dst : Item} (src : Item)

theorem copy_item_number (h : src.copied = false) (data_only : Bool) :
    crtx_dict_copy_item refs dst src data_only = (refs, { dst with value := src.value }) := by
  unfold crtx_dict_copy_item
  split
  · rename_i ht
    simp [Item.copied, ht] at h
  · rename_i ht
    simp [Item.copied, ht] at h
  · rename_i ht
    simp [Item.copied, ht] at h
  · rfl

theorem copy_item_copied (h : src.copied = true) (hk : dst.key = none) :
    SameItem (crtx_dict_copy_item refs dst src false).2 src ∧
      (crtx_dict_copy_item refs dst src false).2.isLast = dst.isLast := by
  unfold crtx_dict_copy_item
  split
  · exact ⟨(copyHead_spec src hk _).same, (copyHead_spec src hk _).isLast⟩
  · exact ⟨(copyHead_spec src hk _).same, (copyHead_spec src hk _).isLast⟩
  · exact ⟨(copyHead_spec src hk _).same_block, (copyHead_spec src hk _).isLast⟩
  · rename_i h1 h2 h3
    simp only [Item.copied, List.mem_cons, List.not_mem_nil, or_false, decide_eq_true_eq] at h
    rcases h with h | h | h
    · exact absurd h h1
    · exact absurd h h2
    · exact absurd h h3

theorem copy_item_refs (data_only : Bool) (x : DictId) :
    (crtx_dict_copy_item refs dst src data_only).1 x = refs x + if src.refersTo x then 1 else 0 := by
  have hother : src.type ≠ some 'D' → refs x = refs x + if src.refersTo x then 1 else 0 := by
    intro ht
    simp [Item.refersTo, ht]
  unfold crtx_dict_copy_item
  split
  · rename_i ht
    cases hv : src.value with
    | dict d =>
      by_cases hx : x = d
      · subst hx
        simp [crtx_dict_ref, Item.refersTo, ht, hv]
      · have hx' : d ≠ x := fun h => hx h.symm
        simp [crtx_dict_ref, Item.refersTo, hv, hx, hx']
    | word _ | string _ | pointer _ => simp [crtx_dict_ref, Item.refersTo, hv]
  · rename_i ht
    exact hother (by rw [ht]; decide)
  · rename_i ht
    exact hother (by rw [ht]; decide)
  · rename_i ht _ _
    exact hother ht

end

/-! ## How far a walk gets -/

theorem visitFrom_range {d : Dict} (fuel : Nat) : ∀ i, i < d.items.length → d.items.length ≤ i + fuel →
    d.items.length = d.signature_length.toNat →
    ∃ v, i < v ∧ v ≤ d.items.length ∧ visitFrom d fuel (some i) = List.range' i (v - i) ∧
      (∀ j, i ≤ j → j + 1 < v → (d.item j).isLast = false) ∧
      (v < d.items.length → (d.item (v - 1)).isLast = true) := by
  induction fuel with
  | zero =>
    intro i hi hfuel _
    omega
  | succ fuel ih =>
    intro i hi hfuel hl
    rw [visitFrom, crtx_get_next_item, ← hl]
    split
    · rename_i h
      obtain ⟨v, hv, hle, hvisit, hnone, hlast⟩ := ih (i + 1) h.2 (by omega) hl
      refine ⟨v, by omega, hle, ?_, ?_, hlast⟩
      · have hlen : v - i = v - (i + 1) + 1 := by omega
        rw [hvisit, hlen, List.range'_succ]
      · intro j hj hjv
        by_cases hij : j = i
        · rw [hij]
          exact h.1
        · exact hnone j (by omega) hjv
    · rename_i h
      refine ⟨i + 1, by omega, by omega, ?_, by omega, ?_⟩
      · have hlen : i + 1 - i = 1 := by omega
        rw [hlen]
        cases fuel <;> rfl
      · intro hlt
        have : ¬ (d.item i).isLast = false := fun h' => h ⟨h', hlt⟩
        simpa using this

theorem visit_range {d : Dict} (hl : d.items.length = d.signature_length.toNat) :
    ∃ v, v ≤ d.items.length ∧ visit d = List.range v ∧ (∀ j, j + 1 < v → (d.item j).isLast = false) ∧
      (v < d.items.length → 0 < v ∧ (d.item (v - 1)).isLast = true) := by
  unfold visit crtx_get_first_item
  split
  · rename_i h
    refine ⟨0, Nat.zero_le _, ?_, by omega, by simp [h]⟩
    rw [← hl, h]
    rfl
  · rename_i h
    have hpos : 0 < d.items.length := List.length_pos_iff.mpr h
    obtain ⟨v, hv, hle, hvisit, hnone, hlast⟩ := visitFrom_range d.signature_length.toNat 0 hpos (by omega) hl
    refine ⟨v, hle, ?_, fun j hj => hnone j (Nat.zero_le _) hj, fun h => ⟨hv, hlast h⟩⟩
    rw [hvisit, List.range_eq_range', Nat.sub_zero]

/-! ## The loop -/

/-- After the items `is` of the original: those that are copied in full are at the front of the copy, in order. All the
others are free, and hold a value only if a number was copied. -/
structure Copying (orig : Dict) (is : List Nat) (d : Dict) : Prop where
  rep : Rep d
  length : d.items.length = orig.items.length
  front : ∀ j i, (is.filter fun i => (orig.item i).copied)[j]? = some i → SameItem (d.item j) (orig.item i)
  rest : ∀ j, (is.filter fun i => (orig.item i).copied).length ≤ j →
    (d.item j).type = none ∧ (d.item j).key = none ∧ (d.item j).size = 0 ∧
      ((∀ i ∈ is, (orig.item i).copied = false → (orig.item i).value = .word 0) → (d.item j).value = .word 0)

theorem item_set (d : Dict) {i : Nat} (hi : i < d.items.length) (di : Item) (j : Nat) :
    Dict.item { d with items := d.items.set i di } j = if j = i then di else d.item j := by
  rw [Dict.item]
  dsimp only
  rw [getD_set]
  by_cases h : j = i
  · rw [if_pos ⟨h.symm, h ▸ hi⟩, if_pos h]
  · rw [if_neg (fun h' => h h'.1.symm), if_neg h]
    rfl

theorem copied_type {di : Item} (h : di.copied = true) : di.type ≠ none := by
  intro ht
  simp [Item.copied, ht] at h

theorem Copying.firstFree {orig : Dict} {is : List Nat} {d : Dict} (hc : Copying orig is d)
    (hlt : is.length < orig.items.length) : IsFirstFree d (is.filter fun i => (orig.item i).copied).length := by
  have hle := List.length_filter_le (fun i => (orig.item i).copied) is
  refine ⟨by rw [hc.length]; omega, (hc.rest _ (Nat.le_refl _)).1, ?_⟩
  intro j hj
  have hmem := List.getElem?_eq_getElem hj
  rw [(hc.front j _ hmem).type]
  have := List.getElem_mem hj
  rw [List.mem_filter] at this
  exact copied_type this.2

theorem alloc_firstFree {d : Dict} (hr : Rep d) {i : Nat} (hi : IsFirstFree d i) :
    crtx_dict_alloc_next_item d = (d, i) := by
  have hnf : ¬ Full d := fun hf => hf i hi.1 hi.2.1
  obtain ⟨k, hk, hfree⟩ := alloc_free hr hnf
  have heq : k = i := by
    rcases Nat.lt_trichotomy k i with h | h | h
    · exact absurd hfree.2.1 (hi.2.2 k h)
    · exact h
    · exact absurd hi.2.1 (hfree.2.2 i h)
  rw [hk, heq]

theorem Copying.addCopied {orig : Dict} {is : List Nat} {d : Dict} (hc : Copying orig is d) {i L : Nat} {di : Item}
    (hL : (is.filter fun i => (orig.item i).copied).length = L) (hlt : L < d.items.length)
    (hcop : (orig.item i).copied = true) (hsame : SameItem di (orig.item i)) (hlast : di.isLast = (d.item L).isLast) :
    Copying orig (is ++ [i]) { d with items := d.items.set L di } := by
  have hfilter : ((is ++ [i]).filter fun i => (orig.item i).copied) =
      (is.filter fun i => (orig.item i).copied) ++ [i] := by
    simp [List.filter_append, hcop]
  refine ⟨set_rep hc.rep L (Or.inl hlast), by simp [hc.length], ?_, ?_⟩
  · intro j i' hj
    rw [hfilter, List.getElem?_append, hL] at hj
    rw [item_set d hlt]
    split at hj
    · rename_i hlt
      rw [if_neg (by omega)]
      exact hc.front j i' hj
    · rename_i hge
      obtain ⟨h0, rfl⟩ : j - L = 0 ∧ i = i' := by
        simpa [List.getElem?_singleton] using hj
      rw [if_pos (by omega)]
      exact hsame
  · intro j hj
    rw [hfilter, List.length_append, hL, List.length_singleton] at hj
    rw [item_set d hlt, if_neg (by omega)]
    obtain ⟨h1, h2, h3, h4⟩ := hc.rest j (by omega)
    exact ⟨h1, h2, h3, fun h => h4 fun i' hi' => h i' (List.mem_append_left _ hi')⟩

theorem Copying.addNumber {orig : Dict} {is : List Nat} {d : Dict} (hc : Copying orig is d) {i L : Nat} {di : Item}
    (hL : (is.filter fun i => (orig.item i).copied).length = L) (hlt : L < d.items.length)
    (hcop : (orig.item i).copied = false) (hlast : di.isLast = (d.item L).isLast) (htype : di.type = (d.item L).type)
    (hkey : di.key = (d.item L).key) (hsize : di.size = (d.item L).size) (hvalue : di.value = (orig.item i).value) :
    Copying orig (is ++ [i]) { d with items := d.items.set L di } := by
  have hfilter : ((is ++ [i]).filter fun i => (orig.item i).copied) = is.filter fun i => (orig.item i).copied := by
    simp [List.filter_append, hcop]
  refine ⟨set_rep hc.rep L (Or.inl hlast), by simp [hc.length], ?_, ?_⟩
  · intro j i' hj
    rw [hfilter] at hj
    have hj' : j < L := by
      rw [← hL]
      exact (List.getElem?_eq_some_iff.mp hj).1
    rw [item_set d hlt, if_neg (by omega)]
    exact hc.front j i' hj
  · intro j hj
    rw [hfilter] at hj
    rw [item_set d hlt]
    obtain ⟨h1, h2, h3, h4⟩ := hc.rest j hj
    split
    · rename_i hjL
      rw [hjL] at h1 h2 h3
      exact ⟨htype.trans h1, hkey.trans h2, hsize.trans h3, fun h => hvalue.trans (h i (by simp) hcop)⟩
    · exact ⟨h1, h2, h3, fun h => h4 fun i' hi' => h i' (List.mem_append_left _ hi')⟩

theorem copyNext_copying {orig : Dict} {is : List Nat} (refs : Refs) {d : Dict} (hc : Copying orig is d) (i : Nat)
    (hlt : is.length < orig.items.length) :
    Copying orig (is ++ [i]) (copyNext orig (refs, d) i).2 ∧
      ∀ x, (copyNext orig (refs, d) i).1 x = refs x + if (orig.item i).refersTo x then 1 else 0 := by
  have hfirst := hc.firstFree hlt
  have hkey := (hc.rest _ (Nat.le_refl _)).2.1
  unfold copyNext
  rw [alloc_firstFree hc.rep hfirst]
  dsimp only
  refine ⟨?_, fun x => copy_item_refs refs (orig.item i) false x⟩
  cases hcop : (orig.item i).copied with
  | true =>
    obtain ⟨hsame, hlast⟩ := copy_item_copied refs (orig.item i) hcop hkey
    exact hc.addCopied rfl hfirst.1 hcop hsame hlast
  | false =>
    rw [copy_item_number refs (orig.item i) hcop]
    exact hc.addNumber rfl hfirst.1 hcop rfl rfl rfl rfl rfl

theorem copyLoop_copying {orig : Dict} (rest : List Nat) : ∀ (is : List Nat) (refs : Refs) (d : Dict),
    Copying orig is d → is.length + rest.length ≤ orig.items.length →
    Copying orig (is ++ rest) (rest.foldl (copyNext orig) (refs, d)).2 ∧
      ∀ x, (rest.foldl (copyNext orig) (refs, d)).1 x =
        refs x + BitVec.ofNat 32 (rest.countP fun i => (orig.item i).refersTo x) := by
  induction rest with
  | nil =>
    intro is refs d hc _
    rw [List.append_nil]
    exact ⟨hc, by simp⟩
  | cons i rest ih =>
    intro is refs d hc hle
    simp only [List.length_cons] at hle
    obtain ⟨hc1, hr1⟩ := copyNext_copying refs hc i (by omega)
    obtain ⟨hc2, hr2⟩ := ih (is ++ [i]) (copyNext orig (refs, d) i).1 (copyNext orig (refs, d) i).2 hc1
      (by simp; omega)
    rw [List.foldl_cons]
    refine ⟨by simpa using hc2, ?_⟩
    intro x
    rw [hr2, hr1, List.countP_cons]
    split
    · rw [BitVec.ofNat_add, BitVec.add_assoc, BitVec.add_comm 1]
      rfl
    · simp

/-! ## Originals that were built item by item -/

/-- The item is free and cleared, or has a type and a value of this type. -/
def ItemOk (di : Item) : Prop :=
  match di.type with
  | none => di.key = none ∧ di.size = 0 ∧ di.value = .word 0
  | some c => Fitting c di.value di.size

structure Built (d : Dict) : Prop where
  length : d.items.length = d.signature_length.toNat
  signature : ∀ s, d.signature = some s → d.signature_length = 0 → BitVec.ofNat 32 s.1.length = 0
  items : ∀ i, ItemOk (d.item i)

theorem itemOk_congr {a b : Item} (h : SameContent a b) (hb : ItemOk b) : ItemOk a := by
  unfold ItemOk at hb ⊢
  rw [h.type, h.key, h.size, h.value]
  exact hb

theorem init_content (signature : Option CString) (n : BitVec 32) (i : Nat) :
    SameContent ((crtx_init_dict signature n).item i) .zero := by
  unfold crtx_init_dict Dict.item
  dsimp only
  refine (modify_content _ _ ?_ i).trans ?_
  · intro di
    exact ⟨rfl, rfl, rfl, rfl⟩
  · rw [getD_replicate]
    exact SameContent.refl _

theorem init_built (signature : Option CString) (n : BitVec 32) : Built (crtx_init_dict signature n) := by
  refine ⟨?_, ?_, fun i => itemOk_congr (init_content signature n i) ⟨rfl, rfl, rfl⟩⟩
  · simp [crtx_init_dict]
  · intro s hs hz
    have hsig : signature = some s := hs
    subst hsig
    simp only [crtx_init_dict] at hz
    split at hz
    · exact hz
    · rename_i h
      exact absurd hz h

theorem alloc_built {d : Dict} (hb : Built d) : Built (crtx_dict_alloc_next_item d).1 := by
  unfold crtx_dict_alloc_next_item
  split
  · exact hb
  · dsimp only
    by_cases hl : d.signature_length.toNat = 2 ^ 32 - 1
    · rw [resize_wrapped hl]
      exact hb
    · have hn := grow_toNat hl
      have hlt := d.signature_length.isLt
      have hle : d.items.length ≤ ((d.signature_length + 1).setWidth 64).toNat := by
        rw [hb.length, hn]
        omega
      have hsl : (crtx_resize_dict d ((d.signature_length + 1).setWidth 64)).1.signature_length.toNat =
          d.signature_length.toNat + 1 := by
        rw [resize_items hb.length hle]
        simp only [BitVec.toNat_setWidth] at hn ⊢
        omega
      refine ⟨?_, ?_, fun i => itemOk_congr (resize_content hb.length hle i) (hb.items i)⟩
      · rw [resize_length hb.length hle, hn, hsl]
      · intro s _ hz
        rw [hz] at hsl
        simp at hsl

theorem fitting_takeArg {c : Char} {value : Value} {size : BitVec 64} (h : Fitting c value size) :
    Fitting c (takeArg c value) size := by
  cases value with
  | word w =>
    simp only [takeArg]
    split
    · exact h
    · exact h
  | string s => exact h
  | pointer block => exact h
  | dict d => exact h

theorem fitting_known {c : Char} {value : Value} {size : BitVec 64} (h : Fitting c value size) :
    knownType c = true := by
  have hmem : c ∈ ['u', 'i', 'U', 'I', 'd', 'z', 's', 'p', 'D'] := by
    cases value with
    | word w =>
      simp only [Fitting, List.mem_cons, List.not_mem_nil, or_false] at h
      simp only [List.mem_cons]
      tauto
    | string s => simp [h.1]
    | pointer block => simp [h.1]
    | dict d =>
      have : c = 'D' := h
      simp [this]
  unfold knownType
  simp only [List.mem_cons, List.not_mem_nil, or_false, decide_eq_true_eq] at hmem ⊢
  tauto

theorem fill_ok {c : Char} {a : Args} (h : Fitting c a.value a.size) (di : Item) (key : Option CString) :
    ItemOk (crtx_fill_data_item di (some c) key a).1 := by
  have hfit := fitting_takeArg h
  unfold crtx_fill_data_item
  simp only [fitting_known h, if_true]
  split
  · exact hfit
  · have hkey : ∀ di : Item, ItemOk di → ItemOk (copyKey di) := by
      intro di hdi
      obtain ⟨flags, h⟩ := copyKey_fields di
      rw [h]
      exact hdi
    apply hkey
    unfold copyData
    split
    · rename_i hs
      obtain ⟨-, hs⟩ := hs
      obtain rfl : c = 's' := by simpa using hs
      -- Only a string has this type, and its size is free.
      cases hv : a.value with
      | string s =>
        rw [hv] at h
        exact h
      | word w | pointer block | dict d =>
        rw [hv] at h
        simp [Fitting] at h
    · exact hfit

theorem newItem_built (d : Dict) (a : Char × Option CString × Args) (d' : Dict) (hb : Built d)
    (hs : newItem d a = some d') : Built d' := by
  unfold newItem at hs
  split at hs
  · rename_i hfit
    cases hs
    have ha := alloc_built hb
    unfold crtx_dict_new_item fillSlot
    dsimp only
    refine ⟨?_, ha.signature, ?_⟩
    · rw [← ha.length]
      simp
    · intro j
      rw [Dict.item]
      dsimp only
      rw [getD_set]
      split
      · exact fill_ok hfit _ _
      · exact ha.items j
  · cases hs

/-! ## When the copy is the same -/

theorem init_copying {orig : Dict} (hb : Built orig) :
    Copying orig [] (crtx_init_dict orig.signature orig.signature_length) := by
  have hinit : crtx_init_dict orig.signature orig.signature_length =
      { crtx_init_dict none orig.signature_length with signature := orig.signature } := by
    cases hs : orig.signature with
    | none => rfl
    | some s =>
      unfold crtx_init_dict
      dsimp only
      split
      · rename_i hz
        rw [hb.signature s hs hz, hz]
      · rfl
  have hrep := init_rep orig.signature_length
  have hlen : (crtx_init_dict orig.signature orig.signature_length).items.length = orig.items.length := by
    rw [hinit, hb.length]
    exact hrep.length
  refine ⟨by rw [hinit]; exact ⟨hrep.length, hrep.last⟩, hlen, by simp, ?_⟩
  intro j _
  obtain ⟨h1, h2, h3, h4⟩ := init_content orig.signature orig.signature_length j
  exact ⟨h1, h2, h3, fun _ => h4⟩

theorem filter_range {p : Nat → Bool} (v : Nat) (hp : ∀ j k, j < k → k < v → p k = true → p j = true) :
    ∃ m ≤ v, (List.range v).filter p = List.range m ∧ ∀ j < v, p j = true ↔ j < m := by
  induction v with
  | zero => exact ⟨0, by omega, rfl, by omega⟩
  | succ v ih =>
    obtain ⟨m, hm, hf, hiff⟩ := ih fun j k hjk hk => hp j k hjk (by omega)
    rw [List.range_succ, List.filter_append, hf]
    cases hv : p v with
    | true =>
      have hmv : m = v := by
        rcases Nat.lt_or_ge m v with h | h
        · have := (hiff m h).mp (hp m v h (by omega) hv)
          omega
        · omega
      subst hmv
      refine ⟨m + 1, by omega, by simp [hv, List.range_succ], ?_⟩
      intro j hj
      by_cases hjm : j = m
      · simp [hjm, hv]
      · rw [hiff j (by omega)]
        omega
    | false =>
      refine ⟨m, by omega, by simp [hv], ?_⟩
      intro j hj
      by_cases hjv : j = v
      · subst hjv
        simp only [hv, Bool.false_eq_true, false_iff]
        omega
      · exact hiff j (by omega)

section

variable {orig : Dict}

theorem untyped_zero (hb : Built orig) {k : Nat} (h : (orig.item k).type = none) :
    (orig.item k).key = none ∧ (orig.item k).size = 0 ∧ (orig.item k).value = .word 0 := by
  have := hb.items k
  rw [ItemOk, h] at this
  exact this

theorem items_eq_map (d : Dict) : d.items = (List.range d.items.length).map d.item := by
  apply List.ext_getElem
  · simp
  · intro i h1 h2
    simp [item_getElem h1]

theorem Copyable.visited (hc : Copyable orig) {v : Nat}
    (hlast : v < orig.items.length → 0 < v ∧ (orig.item (v - 1)).isLast = true) {k : Nat} (hk : k < orig.items.length)
    (ht : (orig.item k).type ≠ none) : k < v := by
  rcases Nat.lt_or_ge k v with h | h
  · exact h
  · obtain ⟨hpos, hl⟩ := hlast (by omega)
    have := ((hc k hk ht).2 (v - 1) (by omega)).2
    rw [hl] at this
    cases this

theorem isCopy_of_copyable (hb : Built orig) (hc : Copyable orig) {refs : Refs} {v : Nat} (hle : v ≤ orig.items.length)
    (hlast : v < orig.items.length → 0 < v ∧ (orig.item (v - 1)).isLast = true) {refs' : Refs} {d : Dict}
    (hd : Copying orig (List.range v) d)
    (hr : ∀ x, refs' x = refs x + BitVec.ofNat 32 ((List.range v).countP fun i => (orig.item i).refersTo x)) :
    IsCopy refs orig refs' d := by
  obtain ⟨m, hm, hfilter, hiff⟩ := filter_range (p := fun i => (orig.item i).copied) v (by
    intro j k hjk hk hcop
    have hj := ((hc k (by omega) (copied_type hcop)).2 j hjk).1
    exact (hc j (by omega) hj).1)
  have huntyped : ∀ k, k < orig.items.length → m ≤ k → (orig.item k).type = none := by
    intro k hk hmk
    by_contra ht
    have hkv := hc.visited hlast hk ht
    have := (hiff k hkv).mp (hc k hk ht).1
    omega
  refine ⟨hd.length, ?_, ?_⟩
  · intro k hk
    rcases Nat.lt_or_ge k m with hkm | hmk
    · apply hd.front k k
      rw [hfilter, List.getElem?_range hkm]
    · obtain ⟨h1, h2, h3, h4⟩ := hd.rest k (by rw [hfilter, List.length_range]; exact hmk)
      have ht := huntyped k hk hmk
      obtain ⟨z1, z2, z3⟩ := untyped_zero hb ht
      have hval : (d.item k).value = .word 0 := by
        apply h4
        intro i hi hncop
        have hin : i < v := List.mem_range.mp hi
        have hmi : m ≤ i := by
          rcases Nat.lt_or_ge i m with h | h
          · rw [(hiff i hin).mpr h] at hncop
            cases hncop
          · exact h
        exact (untyped_zero hb (huntyped i (by omega) hmi)).2.2
      refine ⟨h1.trans ht.symm, h2.trans z1.symm, h3.trans z2.symm, ?_⟩
      unfold Item.content
      rw [hval, z3]
  · intro x
    rw [hr, items_eq_map orig, List.countP_map]
    congr 2
    have hsplit : List.range orig.items.length = List.range v ++ List.range' v (orig.items.length - v) := by
      have h := List.range'_append_1 (s := 0) (m := v) (n := orig.items.length - v)
      rw [Nat.zero_add, Nat.add_sub_cancel' hle] at h
      rw [List.range_eq_range', List.range_eq_range', h]
    rw [hsplit, List.countP_append]
    have hz : (List.range' v (orig.items.length - v)).countP (Item.refersTo x ∘ orig.item) = 0 := by
      rw [List.countP_eq_zero]
      intro k hk
      rw [List.mem_range'_1] at hk
      have := huntyped k (by omega) (by omega)
      simp [Item.refersTo, this]
    rw [hz]
    rfl

theorem copyable_of_isCopy {refs refs' : Refs} {v : Nat} {d : Dict} (hle : v ≤ orig.items.length)
    (hnone : ∀ j, j + 1 < v → (orig.item j).isLast = false) (hd : Copying orig (List.range v) d)
    (hcopy : IsCopy refs orig refs' d) : Copyable orig := by
  generalize hF : (List.range v).filter (fun i => (orig.item i).copied) = F
  have hfront := hd.front
  have hrest := hd.rest
  rw [hF] at hfront hrest
  have hmem : ∀ i ∈ F, i < v ∧ (orig.item i).copied = true := by
    intro i hi
    rw [← hF, List.mem_filter, List.mem_range] at hi
    exact hi
  -- An item is in use exactly if its number is below the number of copied ones.
  have htyped : ∀ k < orig.items.length, (orig.item k).type ≠ none ↔ k < F.length := by
    intro k hk
    rw [← (hcopy.items k hk).type]
    constructor
    · intro ht
      rcases Nat.lt_or_ge k F.length with h | h
      · exact h
      · exact absurd (hrest k h).1 ht
    · intro h
      rw [(hfront k _ (List.getElem?_eq_getElem h)).type]
      exact copied_type (hmem _ (List.getElem_mem h)).2
  have hsub : F ⊆ List.range F.length := by
    intro i hi
    obtain ⟨hv, hcop⟩ := hmem i hi
    exact List.mem_range.mpr ((htyped i (by omega)).mp (copied_type hcop))
  have hnodup : F.Nodup := by
    rw [← hF]
    exact List.nodup_range.filter _
  have hperm := (hnodup.subperm hsub).perm_of_length_le (by rw [List.length_range])
  intro k hk ht
  have hkF : k ∈ F := hperm.mem_iff.mpr (List.mem_range.mpr ((htyped k hk).mp ht))
  refine ⟨(hmem k hkF).2, ?_⟩
  intro j hj
  have hkv := (hmem k hkF).1
  have hkl := (htyped k hk).mp ht
  exact ⟨(htyped j (by omega)).mpr (by omega), hnone j (by omega)⟩

end

/-- The copy is the same exactly if there are no numbers, and nothing behind a free item or a mark. -/
theorem create_copy_same_iff (signature : Option CString) (n : BitVec 32) (as : List (Char × Option CString × Args))
    (d : Dict) (hr : run newItem as (crtx_init_dict signature n) = some d) (refs : Refs) :
    IsCopy refs d (crtx_dict_create_copy refs d).1 (crtx_dict_create_copy refs d).2 ↔ Copyable d := by
  have hb : Built d := run_invariant newItem_built as _ d (init_built signature n) hr
  obtain ⟨v, hle, hvisit, hnone, hlast⟩ := visit_range hb.length
  obtain ⟨hd, hrefs⟩ := copyLoop_copying (List.range v) [] refs _ (init_copying hb) (by simpa using hle)
  unfold crtx_dict_create_copy
  rw [hvisit]
  constructor
  · exact copyable_of_isCopy hle hnone hd
  · intro hc
    exact isCopy_of_copyable hb hc hle hlast hd hrefs

/-- A string, a nested dictionary and a block of memory, with room for one more. -/
def noNumbers : List (Char × Option CString × Args) :=
  [('s', some keyA, ⟨.string (some keyB), 1, 8⟩), ('D', some keyB, ⟨.dict 7, 0, 0⟩),
    ('p', none, ⟨.pointer [1, 2, 3], 2, 2⟩)]

theorem create_copy_same_iff_no_numbers :
    ∃ d, run newItem noNumbers (crtx_init_dict none 4) = some d ∧ Copyable d ∧
      (IsCopy (fun _ => 1) d (crtx_dict_create_copy (fun _ => 1) d).1 (crtx_dict_create_copy (fun _ => 1) d).2 ↔
        Copyable d) :=
  ⟨_, rfl, by decide, create_copy_same_iff none 4 noNumbers _ rfl (fun _ => 1)⟩

/-- A number and a string: the copy has the string in the place of the number, and nothing behind it. -/
theorem create_copy_loses_number :
    ∃ d, run newItem [('u', some keyA, ⟨.word 5, 0, 0⟩), ('s', some keyB, ⟨.string (some keyA), 0, 0⟩)]
        (crtx_init_dict none 2) = some d ∧
      d.items.map Item.type = [some 'u', some 's'] ∧
      (crtx_dict_create_copy (fun _ => 1) d).2.items.map Item.type = [some 's', none] ∧
      ¬ IsCopy (fun _ => 1) d (crtx_dict_create_copy (fun _ => 1) d).1 (crtx_dict_create_copy (fun _ => 1) d).2 := by
  refine ⟨_, rfl, by decide, by decide, ?_⟩
  intro h
  exact absurd (h.items 0 (by decide)).type (by decide)

end Libcortex.Dicts
