import Libcortex.Dicts
import Libcortex.Lib.Run

/-!
# The representation of a dictionary

The number of items is `signature_length`, and the last item is the only one that may be marked as
the last. `crtx_resize_dict` takes a `size_t`, and `crtx_dict_alloc_next_item` adds one to a number
of 32 bits, so both lose track of an array that is too large.
-/

open Libcortex.Lib

namespace Libcortex.Dicts

/-! ## What has to hold -/

/-- The array is as long as the dictionary says, and the mark is nowhere but on its last item. -/
structure Rep (d : Dict) : Prop where
  length : d.items.length = d.signature_length.toNat
  last : ∀ i, i + 1 < d.items.length → (d.item i).isLast = false

/-- A walk visits every item once, in order. It ends by itself, so more steps make no difference. -/
def Visits (d : Dict) : Prop :=
  ∀ fuel, d.items.length ≤ fuel → visitFrom d fuel (crtx_get_first_item d) = List.range d.items.length

/-- Apart from the flags, the items are the same. -/
structure SameContent (a b : Item) : Prop where
  type : a.type = b.type
  key : a.key = b.key
  size : a.size = b.size
  value : a.value = b.value

/-- The first free item. -/
def IsFirstFree (d : Dict) (i : Nat) : Prop :=
  i < d.items.length ∧ (d.item i).type = none ∧ ∀ j < i, (d.item j).type ≠ none

def Full (d : Dict) : Prop := ∀ i < d.items.length, (d.item i).type ≠ none

instance (d : Dict) : Decidable (Full d) := inferInstanceAs (Decidable (∀ i < _, _))

/-- `d'` and `i` are what `crtx_dict_alloc_next_item` should return: the first free item of `d`, or a new one at the
end, with all the others as they were. -/
structure Allocates (d d' : Dict) (i : Nat) : Prop where
  free : ¬ Full d → IsFirstFree d i ∧ d' = d
  fresh : Full d → i = d.items.length ∧ d'.items.length = i + 1 ∧ SameContent (d'.item i) .zero
  others : ∀ j < d.items.length, j ≠ i → SameContent (d'.item j) (d.item j)

/-- There is a free item, or the number of items can still grow. -/
def CanGrow (d : Dict) : Prop := ¬ (Full d ∧ d.signature_length.toNat = 2 ^ 32 - 1)

instance (d : Dict) : Decidable (CanGrow d) := inferInstanceAs (Decidable (¬ (_ ∧ _)))

/-! ## The machine -/

inductive Action where
  | allocFill (type : Option Char) (key : Option CString) (a : Args)
  | newItem (type : Option Char) (key : Option CString) (a : Args)
  | resize (n : BitVec 64)
  | remove (key : CString)
deriving DecidableEq

/-- The new flags do not mark the item as the last one, a dictionary does not shrink, and only what is there is
removed. -/
def step (d : Dict) : Action → Option Dict
  | .allocFill type key a =>
    if a.flags.setWidth 8 &&& CRTX_DIF_LAST_ITEM = 0 then
      let (d, i) := crtx_dict_alloc_next_item d
      some (fillSlot d i type key a).1
    else none
  | .newItem type key a =>
    if a.flags.setWidth 8 &&& CRTX_DIF_LAST_ITEM = 0 then some (crtx_dict_new_item d type key a).1 else none
  | .resize n => if d.signature_length.toNat ≤ n.toNat ∧ 1 ≤ n.toNat then some (crtx_resize_dict d n).1 else none
  | .remove key => crtx_dict_remove_item d key

/-- The number of items stays below 2 ^ 32. -/
def Fits (d : Dict) : Action → Prop
  | .allocFill _ _ _ | .newItem _ _ _ => CanGrow d
  | .resize n => n.toNat < 2 ^ 32
  | .remove _ => True

instance (d : Dict) : ∀ a, Decidable (Fits d a)
  | .allocFill _ _ _ | .newItem _ _ _ => inferInstanceAs (Decidable (CanGrow d))
  | .resize _ => inferInstanceAs (Decidable (_ < _))
  | .remove _ => inferInstanceAs (Decidable True)

/-! ## Walks -/

theorem next_item {d : Dict} (hr : Rep d) (i : Nat) :
    crtx_get_next_item d i = if i + 1 < d.items.length then some (i + 1) else none := by
  unfold crtx_get_next_item
  rw [← hr.length]
  by_cases h : i + 1 < d.items.length
  · simp [h, hr.last i h]
  · simp [h]

theorem visitFrom_eq {d : Dict} (hr : Rep d) (fuel : Nat) : ∀ i, i < d.items.length → d.items.length ≤ i + fuel →
    visitFrom d fuel (some i) = List.range' i (d.items.length - i) := by
  induction fuel with
  | zero =>
    intro i hi hfuel
    omega
  | succ fuel ih =>
    intro i hi hfuel
    rw [visitFrom, next_item hr]
    have hlen : d.items.length - i = d.items.length - (i + 1) + 1 := by omega
    rw [hlen, List.range'_succ]
    split
    · rename_i h
      rw [ih (i + 1) h (by omega)]
    · rename_i h
      have hz : d.items.length - (i + 1) = 0 := by omega
      rw [hz, List.range'_zero]
      cases fuel <;> rfl

theorem visits_of_rep {d : Dict} (hr : Rep d) : Visits d := by
  intro fuel hfuel
  unfold crtx_get_first_item
  split
  · rename_i h
    rw [h]
    cases fuel <;> rfl
  · rename_i h
    have hpos : 0 < d.items.length := List.length_pos_iff.mpr h
    rw [visitFrom_eq hr fuel 0 hpos (by omega), List.range_eq_range', Nat.sub_zero]

theorem visit_eq {d : Dict} (hr : Rep d) : visit d = List.range d.items.length := by
  unfold visit
  rw [← hr.length]
  exact visits_of_rep hr _ (Nat.le_refl _)

/-! ## The mark -/

theorem isLast_congr {a b : Item} (h : a.flags &&& CRTX_DIF_LAST_ITEM = b.flags &&& CRTX_DIF_LAST_ITEM) :
    a.isLast = b.isLast := by
  unfold Item.isLast
  rw [h]

theorem zero_isLast : Item.zero.isLast = false := by decide

theorem clearLast_isLast (di : Item) : (clearLast di).isLast = false := by
  have h : (clearLast di).isLast = Item.zero.isLast := by
    apply isLast_congr
    simp only [clearLast, Item.zero]
    generalize di.flags = f
    revert f
    decide
  rw [h, zero_isLast]

theorem clearLast_content (di : Item) : SameContent (clearLast di) di := ⟨rfl, rfl, rfl, rfl⟩

theorem markLast_content (di : Item) : SameContent (markLast di) di := ⟨rfl, rfl, rfl, rfl⟩

theorem SameContent.refl (di : Item) : SameContent di di := ⟨rfl, rfl, rfl, rfl⟩

theorem SameContent.trans {a b c : Item} (h : SameContent a b) (h' : SameContent b c) : SameContent a c :=
  ⟨h.type.trans h'.type, h.key.trans h'.key, h.size.trans h'.size, h.value.trans h'.value⟩

theorem fill_isLast (di : Item) (type : Option Char) (key : Option CString) {a : Args}
    (ha : a.flags.setWidth 8 &&& CRTX_DIF_LAST_ITEM = 0) :
    (crtx_fill_data_item di type key a).1.isLast = di.isLast ∨
      (crtx_fill_data_item di type key a).1.isLast = false := by
  have hdata : ∀ di : Item, (copyData di).isLast = di.isLast := by
    intro di
    unfold copyData
    split
    · apply isLast_congr
      dsimp only
      generalize di.flags = f
      revert f
      decide
    · rfl
  have hkey : ∀ di : Item, (copyKey di).isLast = di.isLast := by
    intro di
    unfold copyKey
    split
    · apply isLast_congr
      dsimp only
      generalize di.flags = f
      revert f
      decide
    · rfl
  unfold crtx_fill_data_item
  dsimp only
  split
  · exact Or.inl rfl
  · split
    · split
      · exact Or.inl rfl
      · right
        rw [hkey, hdata]
        simp [Item.isLast, ha]
    · exact Or.inl rfl

/-! ## Resizing -/

section

variable {d : Dict} {n : BitVec 64}

theorem resize_items (hl : d.items.length = d.signature_length.toNat) (hn : d.items.length ≤ n.toNat) :
    (crtx_resize_dict d n).1 =
      { d with
        items := ((if 0 < d.items.length then
          (d.items ++ List.replicate (n.toNat - d.items.length) Item.zero).modify (d.items.length - 1) clearLast
          else d.items ++ List.replicate (n.toNat - d.items.length) Item.zero).modify (n.toNat - 1) markLast)
        signature_length := n.setWidth 32 } := by
  unfold crtx_resize_dict
  dsimp only
  rw [← hl, if_neg (by omega), List.take_length]

theorem resize_length (hl : d.items.length = d.signature_length.toNat) (hn : d.items.length ≤ n.toNat) :
    (crtx_resize_dict d n).1.items.length = n.toNat := by
  rw [resize_items hl hn]
  simp only [List.length_modify]
  split
  · simp
    omega
  · simp
    omega

theorem item_append_zeros (l : List Item) (k i : Nat) :
    (l ++ List.replicate k Item.zero)[i]?.getD .zero = l[i]?.getD .zero := by
  by_cases h : i < l.length
  · rw [List.getElem?_append_left h]
  · rw [List.getElem?_append_right (by omega), getD_replicate, List.getElem?_eq_none (by omega)]
    rfl

theorem modify_content (l : List Item) (j : Nat) {f : Item → Item} (hf : ∀ di, SameContent (f di) di) (i : Nat) :
    SameContent ((l.modify j f)[i]?.getD .zero) (l[i]?.getD .zero) := by
  rw [getD_modify]
  split
  · exact hf _
  · exact SameContent.refl _

theorem resize_content (hl : d.items.length = d.signature_length.toNat) (hn : d.items.length ≤ n.toNat) (i : Nat) :
    SameContent ((crtx_resize_dict d n).1.item i) (d.item i) := by
  rw [resize_items hl hn, Dict.item]
  apply (modify_content _ _ markLast_content i).trans
  split
  · apply (modify_content _ _ clearLast_content i).trans
    rw [item_append_zeros]
    exact SameContent.refl _
  · rw [item_append_zeros]
    exact SameContent.refl _

theorem resize_rep (hr : Rep d) (hn : d.items.length ≤ n.toNat) (hlt : n.toNat < 2 ^ 32) :
    Rep (crtx_resize_dict d n).1 := by
  constructor
  · rw [resize_length hr.length hn, resize_items hr.length hn]
    simp only [BitVec.toNat_setWidth]
    omega
  · rw [resize_length hr.length hn]
    intro i hi
    rw [resize_items hr.length hn, Dict.item]
    dsimp only
    rw [getD_modify, if_neg (by omega)]
    -- The old last item has lost its mark, those before it had none, and the new ones are cleared.
    by_cases hpos : 0 < d.items.length
    · rw [if_pos hpos, getD_modify]
      split
      · exact clearLast_isLast _
      · rename_i hne
        rw [item_append_zeros]
        by_cases hold : i + 1 < d.items.length
        · exact hr.last i hold
        · have hge : d.items.length ≤ i := by
            simp only [List.length_append, List.length_replicate] at hne
            omega
          rw [List.getElem?_eq_none hge]
          exact zero_isLast
    · rw [if_neg hpos, item_append_zeros, List.getElem?_eq_none (by omega)]
      exact zero_isLast

end

/-! ## Allocating -/

theorem find_free {d : Dict} (hr : Rep d) :
    (∀ i, (visit d).find? (fun i => (d.item i).type = none) = some i ↔ IsFirstFree d i) ∧
    ((visit d).find? (fun i => (d.item i).type = none) = none ↔ Full d) := by
  rw [visit_eq hr]
  constructor
  · intro i
    rw [List.find?_range_eq_some]
    simp [IsFirstFree]
    tauto
  · rw [List.find?_range_eq_none]
    simp [Full]

theorem alloc_free {d : Dict} (hr : Rep d) (h : ¬ Full d) :
    ∃ i, crtx_dict_alloc_next_item d = (d, i) ∧ IsFirstFree d i := by
  obtain ⟨hsome, hnone⟩ := find_free hr
  cases hf : (visit d).find? fun i => (d.item i).type = none with
  | none => exact absurd (hnone.mp hf) h
  | some i =>
    refine ⟨i, ?_, (hsome i).mp hf⟩
    rw [crtx_dict_alloc_next_item, hf]

theorem alloc_full {d : Dict} (hr : Rep d) (h : Full d) :
    crtx_dict_alloc_next_item d =
      ((crtx_resize_dict d ((d.signature_length + 1).setWidth 64)).1,
        ((crtx_resize_dict d ((d.signature_length + 1).setWidth 64)).1.signature_length - 1).toNat) := by
  rw [crtx_dict_alloc_next_item, (find_free hr).2.mpr h]

theorem grow_toNat {l : BitVec 32} (h : l.toNat ≠ 2 ^ 32 - 1) : ((l + 1).setWidth 64).toNat = l.toNat + 1 := by
  have hb := l.isLt
  rw [BitVec.toNat_setWidth, BitVec.toNat_add]
  simp only [BitVec.ofNat_eq_ofNat, BitVec.toNat_ofNat]
  omega

theorem resize_wrapped {d : Dict} (hl : d.signature_length.toNat = 2 ^ 32 - 1) :
    (crtx_resize_dict d ((d.signature_length + 1).setWidth 64)).1 = d := by
  have hn : ((d.signature_length + 1).setWidth 64).toNat = 0 := by
    rw [BitVec.toNat_setWidth, BitVec.toNat_add, hl]
    rfl
  unfold crtx_resize_dict
  dsimp only
  rw [hn, hl, if_pos (by omega)]

theorem alloc_fresh {d : Dict} (hr : Rep d) (h : Full d) (hlt : d.signature_length.toNat ≠ 2 ^ 32 - 1) :
    ∃ d', crtx_dict_alloc_next_item d = (d', d.items.length) ∧ Rep d' ∧ d'.items.length = d.items.length + 1 ∧
      ∀ i, SameContent (d'.item i) (d.item i) := by
  have hb := d.signature_length.isLt
  have hn : ((d.signature_length + 1).setWidth 64).toNat = d.items.length + 1 := by
    rw [hr.length]
    exact grow_toNat hlt
  have hle : d.items.length ≤ ((d.signature_length + 1).setWidth 64).toNat := by omega
  have hrep := resize_rep hr hle (by rw [hn, hr.length]; omega)
  refine ⟨_, ?_, hrep, by rw [resize_length hr.length hle, hn], resize_content hr.length hle⟩
  rw [alloc_full hr h]
  have hl := hrep.length
  rw [resize_length hr.length hle, hn] at hl
  congr 1
  rw [BitVec.toNat_sub, ← hl]
  simp only [BitVec.ofNat_eq_ofNat, BitVec.toNat_ofNat]
  rw [hr.length] at *
  omega

theorem alloc_rep {d : Dict} (hr : Rep d) (hg : CanGrow d) :
    Rep (crtx_dict_alloc_next_item d).1 ∧
      Allocates d (crtx_dict_alloc_next_item d).1 (crtx_dict_alloc_next_item d).2 := by
  by_cases h : Full d
  · obtain ⟨d', hd, hrep, hlen, hsame⟩ := alloc_fresh hr h fun hl => hg ⟨h, hl⟩
    rw [hd]
    refine ⟨hrep, fun hn => absurd h hn, fun _ => ⟨rfl, hlen, ?_⟩, fun j _ _ => hsame j⟩
    have hz : d.item d.items.length = .zero := item_beyond (Nat.le_refl _)
    rw [← hz]
    exact hsame _
  · obtain ⟨i, hd, hi⟩ := alloc_free hr h
    rw [hd]
    exact ⟨hr, fun _ => ⟨hi, rfl⟩, fun hf => absurd hf h, fun j _ _ => SameContent.refl _⟩

theorem alloc_stuck {d : Dict} (hr : Rep d) (h : Full d) (hl : d.signature_length.toNat = 2 ^ 32 - 1) :
    crtx_dict_alloc_next_item d = (d, d.items.length - 1) := by
  rw [alloc_full hr h, resize_wrapped hl, hr.length, BitVec.toNat_sub, hl]
  rfl

theorem alloc_spec {d : Dict} (hr : Rep d) :
    Rep (crtx_dict_alloc_next_item d).1 ∧ d.items.length ≤ (crtx_dict_alloc_next_item d).1.items.length ∧
      (crtx_dict_alloc_next_item d).2 < (crtx_dict_alloc_next_item d).1.items.length ∧
      ∀ j, SameContent ((crtx_dict_alloc_next_item d).1.item j) (d.item j) := by
  by_cases h : Full d
  · by_cases hl : d.signature_length.toNat = 2 ^ 32 - 1
    · have hlen := hr.length
      rw [alloc_stuck hr h hl]
      exact ⟨hr, Nat.le_refl _, by dsimp only; omega, fun j => SameContent.refl _⟩
    · obtain ⟨d', hd, hrep, hlen, hsame⟩ := alloc_fresh hr h hl
      rw [hd]
      exact ⟨hrep, by dsimp only; omega, by dsimp only; omega, hsame⟩
  · obtain ⟨i, hd, hi⟩ := alloc_free hr h
    rw [hd]
    exact ⟨hr, Nat.le_refl _, hi.1, fun j => SameContent.refl _⟩

theorem allocates_iff {d : Dict} (hr : Rep d) :
    Allocates d (crtx_dict_alloc_next_item d).1 (crtx_dict_alloc_next_item d).2 ↔ CanGrow d := by
  constructor
  · rintro ha ⟨h, hl⟩
    have := (ha.fresh h).1
    rw [alloc_stuck hr h hl] at this
    have := hr.length
    omega
  · intro hg
    exact (alloc_rep hr hg).2

/-! ## Every operation keeps the representation -/

theorem init_rep (n : BitVec 32) : Rep (crtx_init_dict none n) := by
  unfold crtx_init_dict
  dsimp only
  constructor
  · simp
  · intro i hi
    simp only [List.length_modify, List.length_replicate] at hi
    rw [Dict.item]
    dsimp only
    rw [getD_modify, if_neg (by omega), getD_replicate]
    exact zero_isLast

theorem set_rep {d : Dict} (hr : Rep d) (i : Nat) {di : Item} (h : di.isLast = (d.item i).isLast ∨ di.isLast = false) :
    Rep { d with items := d.items.set i di } := by
  constructor
  · rw [← hr.length]
    simp
  · intro j hj
    simp only [List.length_set] at hj
    rw [Dict.item]
    dsimp only
    rw [getD_set]
    split
    · rename_i hij
      obtain ⟨rfl, -⟩ := hij
      rcases h with h | h
      · rw [h]
        exact hr.last i hj
      · exact h
    · exact hr.last j hj

theorem fillSlot_rep {d : Dict} (hr : Rep d) (i : Nat) (type : Option Char) (key : Option CString) {a : Args}
    (ha : a.flags.setWidth 8 &&& CRTX_DIF_LAST_ITEM = 0) : Rep (fillSlot d i type key a).1 :=
  set_rep hr i (fill_isLast (d.item i) type key ha)

theorem step_rep (d : Dict) (a : Action) (d' : Dict) (hr : Rep d) (hok : Fits d a) (hs : step d a = some d') :
    Rep d' := by
  cases a with
  | allocFill type key a =>
    simp only [step] at hs
    split at hs
    · rename_i ha
      cases hs
      exact fillSlot_rep (alloc_rep hr hok).1 _ type key ha
    · cases hs
  | newItem type key a =>
    simp only [step] at hs
    split at hs
    · rename_i ha
      cases hs
      exact fillSlot_rep (alloc_rep hr hok).1 _ type key ha
    · cases hs
  | resize n =>
    simp only [step] at hs
    split at hs
    · rename_i hn
      cases hs
      exact resize_rep hr (by rw [hr.length]; exact hn.1) hok
    · cases hs
  | remove key =>
    simp only [step, crtx_dict_remove_item, Option.map_eq_some_iff] at hs
    obtain ⟨i, -, rfl⟩ := hs
    exact set_rep hr i (Or.inr zero_isLast)

/-- The array has as many items as the dictionary says and only its last one is marked, a walk visits them all, and
the next allocation does what it should unless the dictionary is full and cannot grow. -/
theorem dict_representation (n : BitVec 32) (as : List Action) (d : Dict)
    (hm : Meets step Fits as (crtx_init_dict none n)) (hr : run step as (crtx_init_dict none n) = some d) :
    Rep d ∧ Visits d ∧
      (Allocates d (crtx_dict_alloc_next_item d).1 (crtx_dict_alloc_next_item d).2 ↔ CanGrow d) := by
  have hrep := run_keeps step_rep as _ d (init_rep n) hm hr
  exact ⟨hrep, visits_of_rep hrep, allocates_iff hrep⟩

/-- A full dictionary grows, loses an item, fills the hole, and grows again. -/
def busyDict : List Action :=
  [.newItem (some 'u') (some keyA) ⟨.word 1, 0, 0⟩, .newItem (some 's') (some keyB) ⟨.string (some keyA), 0, 12⟩,
    .remove keyA, .allocFill (some 'U') (some keyA) ⟨.word 2, 8, 0⟩, .resize 4, .remove keyB]

theorem dict_representation_busy :
    ∃ d, run step busyDict (crtx_init_dict none 1) = some d ∧
      (d.items.map Item.type = [some 'U', none, none, none] ∧ d.items.map Item.flags = [0, 0, 0, 128]) ∧
      Rep d ∧ Visits d ∧
        (Allocates d (crtx_dict_alloc_next_item d).1 (crtx_dict_alloc_next_item d).2 ↔ CanGrow d) :=
  ⟨_, rfl, by decide, dict_representation 1 busyDict _ (by decide) rfl⟩

/-- With 2 ^ 32 items the array is that long, and the dictionary says that it has none. -/
theorem resize_loses_length :
    ∃ d, run step [.resize (BitVec.ofNat 64 (2 ^ 32))] (crtx_init_dict none 1) = some d ∧
      d.items.length = 2 ^ 32 ∧ d.signature_length = 0 ∧ ¬ Rep d := by
  have hinit := init_rep 1
  have hn : (crtx_init_dict none 1).items.length ≤ (BitVec.ofNat 64 (2 ^ 32)).toNat := by
    rw [hinit.length]
    decide
  have hlen := resize_length hinit.length hn
  have hsl : (crtx_resize_dict (crtx_init_dict none 1) (BitVec.ofNat 64 (2 ^ 32))).1.signature_length = 0 := by
    rw [resize_items hinit.length hn]
    decide
  refine ⟨(crtx_resize_dict (crtx_init_dict none 1) (BitVec.ofNat 64 (2 ^ 32))).1, ?_, ?_, hsl, ?_⟩
  · rw [run_cons, step, if_pos ⟨by decide, by decide⟩]
    rfl
  · rw [hlen]
    decide
  · intro h
    have := h.length
    rw [hlen, hsl] at this
    exact absurd this (by decide)

end Libcortex.Dicts
