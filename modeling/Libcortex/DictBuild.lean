import Mathlib.Data.List.Forall2
import Mathlib.Data.List.TakeWhile
import Libcortex.DictAppend
import Libcortex.DictCopy

/-!
# Dictionaries with dictionaries in them

The parsers take a new item with `crtx_dict_alloc_next_item` and then fill it, or set its type, its key and its
dictionary by hand. The second way leaves the mark of the last item on it, until the next one is taken. An item that is
taken and not filled is taken again.
-/

namespace Libcortex.DictBuild

open Dicts

/-- A string literal. -/
def text (s : String) : CString :=
  ⟨(literal s).takeWhile (· ≠ 0), by
    intro h
    have := List.mem_takeWhile_imp h
    simp at this⟩

def CRTX_DIF_DONT_FREE_DATA : BitVec 8 := 2

/-- A string that is part of the program. -/
def constant (s : CString) : Args := ⟨.string (some s), 0, CRTX_DIF_DONT_FREE_DATA.setWidth 32⟩

/-- What `crtx_stracpy` returns, with its length. -/
def copied (s : CString) : Args := ⟨.string (some s), BitVec.ofNat 64 s.1.length, 0⟩

def number (w : BitVec 32) (size : BitVec 64) : Args := ⟨.word (w.setWidth 64), size, 0⟩

/-- A dictionary, and those that its items point to. -/
structure Build where
  dict : Dict
  nested : List Dict

/-- `crtx_init_dict(0, 0, 0)` -/
def Build.empty : Build := ⟨crtx_init_dict none 0, []⟩

/-- `di = crtx_dict_alloc_next_item(dict)` -/
def Build.alloc (b : Build) : Build × Nat :=
  let (d, i) := crtx_dict_alloc_next_item b.dict
  ({ b with dict := d }, i)

/-- `crtx_fill_data_item(di, …)`, whose result is not looked at. -/
def Build.fill (b : Build) (i : Nat) (c : Char) (key : Option CString) (a : Args) : Build :=
  { b with dict := (fillSlot b.dict i (some c) key a).1 }

/-- The assignments to an item, of a dictionary that is not used anywhere else, and `di->flags |= flags`. -/
def Build.assignWith (b : Build) (i : Nat) (key : CString) (flags : BitVec 8) (d : Dict) : Build where
  dict := { b.dict with
    items := b.dict.items.modify i fun di =>
      { di with type := some 'D', key := some key, flags := di.flags ||| flags, value := .dict b.nested.length } }
  nested := b.nested ++ [d]

def Build.assign (b : Build) (i : Nat) (key : CString) (d : Dict) : Build := b.assignWith i key 0 d

/-- `di->flags |= CRTX_DIF_LAST_ITEM` -/
def endAt (d : Dict) (i : Nat) : Dict := { d with items := d.items.modify i orLast }

/-- An item is taken and filled. -/
def Build.add (b : Build) (c : Char) (key : Option CString) (a : Args) : Build :=
  let (b, i) := b.alloc
  b.fill i c key a

/-- An item is taken, and assigned to. -/
def Build.addDict (b : Build) (key : CString) (d : Dict) : Build :=
  let (b, i) := b.alloc
  b.assign i key d

/-- `cdi` is the first item and then always the next one, and every one of them is filled. `none`: there is no next one,
and a NULL pointer is followed. -/
def fillFrom (d : Dict) : Option Nat → List (CString × BitVec 32) → Option Dict
  | _, [] => some d
  | none, _ :: _ => none
  | some i, (key, w) :: rest =>
    let d := (fillSlot d i (some 'u') (some key) (number w 0)).1
    fillFrom d (crtx_get_next_item d i) rest

/-- The walk over the dictionary finds these items, apart from the mark of the last one. -/
structure Contains (d : Dict) (items : List Item) : Prop where
  rep : Rep d
  items : (visit d).map (fun i => clearLast (d.item i)) = items

/-- What a reader sees of an item. -/
inductive Field where
  | item (di : Item)
  | nested (flags : BitVec 8) (key : CString) (items : List Item)

abbrev Field.dict (key : CString) (items : List Item) : Field := .nested 0 key items

def Field.Holds (nested : List Dict) (di : Item) : Field → Prop
  | .item x => di = x ∧ x.type ≠ none
  | .nested flags key items =>
    ∃ id d, nested[id]? = some d ∧ Contains d items ∧ di = ⟨some 'D', flags, some key, 0, .dict id⟩

/-- The walk over the dictionary finds these fields. -/
structure Shows (b : Build) (fields : List Field) : Prop where
  rep : Rep b.dict
  items : List.Forall₂ (Field.Holds b.nested) ((visit b.dict).map fun i => clearLast (b.dict.item i)) fields

/-! ## Arguments -/

theorem constant_flags (s : CString) : (constant s).flags.setWidth 8 = CRTX_DIF_DONT_FREE_DATA := by
  show (CRTX_DIF_DONT_FREE_DATA.setWidth 32).setWidth 8 = CRTX_DIF_DONT_FREE_DATA
  decide

theorem copied_flags (s : CString) : (copied s).flags.setWidth 8 = 0 := by
  show (0 : BitVec 32).setWidth 8 = 0
  decide

theorem number_flags (w : BitVec 32) (size : BitVec 64) : (number w size).flags.setWidth 8 = 0 := by
  show (0 : BitVec 32).setWidth 8 = 0
  decide

theorem constant_plain (s : CString) : Plain 's' (constant s) := ⟨rfl, rfl, by rw [constant_flags]; decide⟩

theorem copied_plain (s : CString) : Plain 's' (copied s) := ⟨rfl, rfl, by rw [copied_flags]; decide⟩

theorem number_plain {c : Char} (hc : c = 'i' ∨ c = 'u') (w : BitVec 32) (size : BitVec 64) (h : size.toNat ≤ 4) :
    Plain c (number w size) := by
  have hsize : ¬ 4 < size.toNat := by omega
  refine ⟨?_, ?_, by rw [number_flags]; decide⟩
  · rcases hc with rfl | rfl <;> rfl
  · rcases hc with rfl | rfl <;> simp [sizeMismatch, number, hsize]

theorem fresh_constant (key : Option CString) (s : CString) :
    freshItem 's' key (constant s) = ⟨some 's', CRTX_DIF_DONT_FREE_DATA, key, 0, .string (some s)⟩ := by
  rw [freshItem_uncopied _ _ (by rw [constant_flags]; decide) (by rw [constant_flags]; decide), constant_flags]
  rfl

theorem fresh_copied (key : Option CString) (s : CString) :
    freshItem 's' key (copied s) = ⟨some 's', 0, key, BitVec.ofNat 64 s.1.length, .string (some s)⟩ := by
  rw [freshItem_uncopied _ _ (by rw [copied_flags]; decide) (by rw [copied_flags]; decide), copied_flags]
  rfl

theorem fresh_number {c : Char} (hc : c = 'i' ∨ c = 'u') (key : Option CString) (w : BitVec 32) (size : BitVec 64) :
    freshItem c key (number w size) = ⟨some c, 0, key, size, .word (w.setWidth 64)⟩ := by
  rw [freshItem_uncopied _ _ (by rw [number_flags]; decide) (by rw [number_flags]; decide), number_flags]
  rcases hc with rfl | rfl <;> simp [Args.item, number, takeArg]

/-! ## Marks -/

@[simp] theorem clearLast_type (di : Item) : (clearLast di).type = di.type := rfl

theorem clearLast_clearLast (di : Item) : clearLast (clearLast di) = clearLast di :=
  clearLast_unmarked (clearLast_isLast di)

theorem clearLast_orLast (di : Item) : clearLast (orLast di) = clearLast di := by
  have h : (di.flags ||| CRTX_DIF_LAST_ITEM) &&& ~~~ CRTX_DIF_LAST_ITEM = di.flags &&& ~~~ CRTX_DIF_LAST_ITEM := by
    generalize di.flags = f
    revert f
    decide
  simp [clearLast, orLast, h]

theorem modify_left {l : List Item} {i : Nat} (x : Item) (h : i < l.length) (f : Item → Item) :
    (l ++ [x]).modify i f = l.modify i f ++ [x] := by
  rw [List.modify_eq_take_drop, List.modify_eq_take_drop, List.take_append_of_le_length (Nat.le_of_lt h),
    List.drop_append_of_le_length (Nat.le_of_lt h), List.append_assoc]
  cases hd : l.drop i with
  | nil =>
    have := congrArg List.length hd
    simp at this
    omega
  | cons y l => rfl

theorem modify_last {l : List Item} {i : Nat} {x : Item} (h : i = l.length) (f : Item → Item) :
    (l ++ [x]).modify i f = l ++ [f x] := by
  subst h
  rw [List.modify_eq_take_drop, List.take_left, List.drop_left]
  rfl

theorem map_modify {f : Item → Item} (h : ∀ di, clearLast (f di) = clearLast di) (l : List Item) (i : Nat) :
    (l.modify i f).map clearLast = l.map clearLast := by
  apply List.ext_getElem (by simp)
  intro j _ hj
  rw [List.getElem_map, List.getElem_map, List.getElem_modify]
  split
  · exact h _
  · rfl

theorem visit_items {d : Dict} (h : Rep d) : (visit d).map d.item = d.items := by
  rw [visit_eq h]
  apply List.ext_getElem (by simp)
  intro i _ hi
  rw [List.getElem_map, List.getElem_range, item_getElem hi]

theorem visit_unmarked {d : Dict} (h : Rep d) :
    (visit d).map (fun i => clearLast (d.item i)) = d.items.map clearLast := by
  conv => rhs; rw [← visit_items h, List.map_map]
  rfl

theorem rep_replace {d : Dict} {filled : List Item} {x : Item} (h : Rep d) (hd : d.items = filled ++ [x]) (y : Item) :
    Rep { d with items := filled ++ [y] } := by
  refine ⟨?_, fun i hi => ?_⟩
  · have := h.length
    rw [hd] at this
    simpa using this
  · have hi' : i < filled.length := by simpa using hi
    have hlast := h.last i (by simpa [hd] using hi')
    unfold Dict.item at hlast ⊢
    rw [hd, List.getElem?_append_left hi'] at hlast
    rwa [List.getElem?_append_left hi']

/-! ## Taking an item -/

/-- Every item is filled. -/
structure Filled (fields : List Field) (b : Build) : Prop where
  rep : Rep b.dict
  items : List.Forall₂ (Field.Holds b.nested) (b.dict.items.map clearLast) fields

/-- The last item has been taken, and is not filled. -/
structure Spare (fields : List Field) (b : Build) : Prop where
  rep : Rep b.dict
  items : ∃ filled, b.dict.items = filled ++ [markLast .zero] ∧
    List.Forall₂ (Field.Holds b.nested) (filled.map clearLast) fields

variable {fields : List Field} {b : Build}

theorem Filled.shows (h : Filled fields b) : Shows b fields where
  rep := h.rep
  items := by
    rw [visit_unmarked h.rep]
    exact h.items

theorem empty_filled : Filled [] .empty := ⟨⟨rfl, by simp [Build.empty, crtx_init_dict]⟩, .nil⟩

theorem Field.Holds.typed {nested : List Dict} {di : Item} {f : Field} (h : f.Holds nested di) : di.type ≠ none := by
  cases f with
  | item x =>
    obtain ⟨rfl, htype⟩ := h
    exact htype
  | nested flags key items =>
    obtain ⟨id, d, _, _, rfl⟩ := h
    simp

theorem Field.Holds.mono {nested : List Dict} {di : Item} {f : Field} (h : f.Holds nested di) (more : List Dict) :
    f.Holds (nested ++ more) di := by
  cases f with
  | item x => exact h
  | nested flags key items =>
    obtain ⟨id, d, hid, hd⟩ := h
    exact ⟨id, d, by rw [List.getElem?_append_left (List.getElem?_eq_some_iff.mp hid).1, hid], hd⟩

theorem Filled.full (h : Filled fields b) : Full b.dict := by
  intro i hi
  rw [item_getElem hi]
  obtain ⟨j, hj, hget⟩ := List.getElem_of_mem (List.getElem_mem hi)
  have hholds := h.items.get (i := i) (by simpa using hi) (by rw [← h.items.length_eq]; simpa using hi)
  simpa using hholds.typed

theorem Filled.length (h : Filled fields b) : b.dict.items.length = fields.length := by
  simpa using h.items.length_eq

theorem Filled.alloc (h : Filled fields b) (hlt : fields.length + 1 < 2 ^ 32) :
    ∃ b', b.alloc = (b', fields.length) ∧ Spare fields b' := by
  have hlen := h.length
  have hsig := h.rep.length
  have hn : ((b.dict.signature_length + 1).setWidth 64).toNat = fields.length + 1 := by
    rw [grow_toNat (by omega)]
    omega
  obtain ⟨d', hd', hrep, -, -⟩ := alloc_fresh h.rep h.full (by omega)
  have hitems := resize_items (n := (b.dict.signature_length + 1).setWidth 64) h.rep.length (by omega)
  have hfst := congrArg Prod.fst (hd'.symm.trans (alloc_full h.rep h.full))
  dsimp only at hfst
  rw [hn, Nat.add_sub_cancel, hlen, Nat.add_sub_cancel_left] at hitems
  refine ⟨{ b with dict := d' }, by rw [Build.alloc, hd', hlen], hrep,
    b.dict.items.modify (fields.length - 1) clearLast, ?_, ?_⟩
  · rw [hfst, hitems, List.replicate_one]
    dsimp only
    split
    · rw [modify_left _ (by omega), modify_last (by simp [hlen])]
    · have hnil : b.dict.items = [] := List.length_eq_zero_iff.mp (by omega)
      rw [hnil, List.nil_append]
      simp [show fields.length = 0 by omega]
  · rw [map_modify clearLast_clearLast]
    exact h.items

theorem Spare.alloc (h : Spare fields b) : b.alloc = (b, fields.length) := by
  obtain ⟨filled, hd, hforall⟩ := h.items
  have hlen : filled.length = fields.length := by simpa using hforall.length_eq
  have hget : ∀ j < filled.length, (b.dict.item j).type ≠ none := by
    intro j hj
    have hholds := hforall.get (i := j) (by simpa using hj) (by omega)
    have htype := hholds.typed
    simp only [List.get_eq_getElem, List.getElem_map, clearLast_type] at htype
    rwa [item_getElem (by simp [hd]; omega), List.getElem_of_eq hd, List.getElem_append_left hj]
  have hfirst : IsFirstFree b.dict fields.length := by
    refine ⟨by simp [hd, hlen], ?_, fun j hj => hget j (by omega)⟩
    rw [← hlen, item_getElem (by simp [hd]), List.getElem_of_eq hd]
    simp [markLast, Item.zero]
  rw [Build.alloc, alloc_firstFree h.rep hfirst]

/-- Whichever of the two it is, an item can be taken. -/
def Ready (fields : List Field) (b : Build) : Prop := Filled fields b ∨ Spare fields b

theorem Ready.alloc (h : Ready fields b) (hlt : fields.length + 1 < 2 ^ 32) :
    ∃ b', b.alloc = (b', fields.length) ∧ Spare fields b' := by
  rcases h with h | h
  · exact h.alloc hlt
  · exact ⟨b, h.alloc, h⟩

/-! ## Filling it -/

theorem Spare.fill (h : Spare fields b) {c : Char} {a : Args} (hp : Plain c a) (key : Option CString) :
    Filled (fields ++ [.item (freshItem c key a)]) (b.fill fields.length c key a) := by
  obtain ⟨filled, hd, hforall⟩ := h.items
  have hlen : filled.length = fields.length := by simpa using hforall.length_eq
  have hitems : (b.fill fields.length c key a).dict = { b.dict with items := filled ++ [freshItem c key a] } := by
    simp only [Build.fill, fillSlot, fill_freshItem _ hp, hd, ← hlen]
    simp
  refine ⟨hitems ▸ rep_replace h.rep hd _, ?_⟩
  rw [hitems, List.map_append, List.map_singleton, clearLast_unmarked (freshItem_isLast hp key)]
  refine List.rel_append hforall (.cons ⟨rfl, ?_⟩ .nil)
  simp [freshItem_type]

theorem Spare.assignWith (h : Spare fields b) (key : CString) {flags : BitVec 8} (hf : flags &&& CRTX_DIF_LAST_ITEM = 0)
    {d : Dict} {items : List Item} (hd : Contains d items) :
    Filled (fields ++ [.nested flags key items]) (b.assignWith fields.length key flags d) := by
  obtain ⟨filled, hlist, hforall⟩ := h.items
  have hlen : filled.length = fields.length := by simpa using hforall.length_eq
  have hitems : (b.assignWith fields.length key flags d).dict = { b.dict with
      items := filled ++ [⟨some 'D', CRTX_DIF_LAST_ITEM ||| flags, some key, 0, .dict b.nested.length⟩] } := by
    simp only [Build.assignWith, hlist]
    rw [modify_last hlen.symm]
    rfl
  refine ⟨hitems ▸ rep_replace h.rep hlist _, ?_⟩
  rw [hitems, List.map_append, List.map_singleton]
  refine List.rel_append (hforall.imp fun _ _ hholds => hholds.mono [d]) (.cons ⟨b.nested.length, d, ?_, hd, ?_⟩ .nil)
  · simp [Build.assignWith]
  · have hflags : (CRTX_DIF_LAST_ITEM ||| flags) &&& ~~~ CRTX_DIF_LAST_ITEM = flags := by
      revert hf
      generalize flags = f
      revert f
      decide
    rw [clearLast, hflags]

theorem Spare.assign (h : Spare fields b) (key : CString) {d : Dict} {items : List Item} (hd : Contains d items) :
    Filled (fields ++ [.dict key items]) (b.assign fields.length key d) := h.assignWith key (by decide) hd

theorem Ready.add (h : Ready fields b) (hlt : fields.length + 1 < 2 ^ 32) {c : Char} {a : Args} (hp : Plain c a)
    (key : Option CString) : Filled (fields ++ [.item (freshItem c key a)]) (b.add c key a) := by
  obtain ⟨b', halloc, hspare⟩ := h.alloc hlt
  rw [Build.add, halloc]
  exact hspare.fill hp key

theorem Ready.addDict (h : Ready fields b) (hlt : fields.length + 1 < 2 ^ 32) (key : CString) {d : Dict}
    {items : List Item} (hd : Contains d items) : Filled (fields ++ [.dict key items]) (b.addDict key d) := by
  obtain ⟨b', halloc, hspare⟩ := h.alloc hlt
  rw [Build.addDict, halloc]
  exact hspare.assign key hd

theorem Filled.endAt (h : Filled fields b) {i : Nat} (hi : i + 1 = fields.length) :
    Filled fields { b with dict := endAt b.dict i } := by
  have hlen := h.length
  refine ⟨⟨?_, fun j hj => ?_⟩, ?_⟩
  · simpa [DictBuild.endAt] using h.rep.length
  · have hj' : j + 1 < b.dict.items.length := by simpa [DictBuild.endAt] using hj
    have hlast := h.rep.last j hj'
    unfold Dict.item DictBuild.endAt at *
    rw [getD_modify, if_neg (by omega)]
    exact hlast
  · rw [DictBuild.endAt, map_modify clearLast_orLast]
    exact h.items

/-! ## Dictionaries without others in them -/

theorem Contains.of_listed {d : Dict} {items : List Item} (h : Listed items d) : Contains d items where
  rep := h.rep
  items := by
    rw [visit_unmarked h.rep, h.eq]
    exact (List.map_congr_left fun di hdi => clearLast_unmarked (h.unmarked di hdi)).trans (List.map_id _)

theorem Contains.endAt {d : Dict} {items : List Item} (h : Contains d items) {i : Nat} (hi : d.items.length ≤ i + 1) :
    Contains (endAt d i) items := by
  have hrep : Rep (DictBuild.endAt d i) := by
    refine ⟨by simpa [DictBuild.endAt] using h.rep.length, fun j hj => ?_⟩
    have hj' : j + 1 < d.items.length := by simpa [DictBuild.endAt] using hj
    have hlast := h.rep.last j hj'
    unfold Dict.item DictBuild.endAt at *
    rw [getD_modify, if_neg (by omega)]
    exact hlast
  refine ⟨hrep, ?_⟩
  have hitems := h.items
  rw [visit_unmarked h.rep] at hitems
  rw [visit_unmarked hrep, DictBuild.endAt, map_modify clearLast_orLast, hitems]

theorem length_init (signature : Option CString) {n : Nat} (h0 : 0 < n) (hlt : n < 2 ^ 32) :
    (crtx_init_dict signature (BitVec.ofNat 32 n)).signature_length.toNat = n ∧
      (crtx_init_dict signature (BitVec.ofNat 32 n)).items.length = n := by
  have hn : (BitVec.ofNat 32 n).toNat = n := by
    rw [BitVec.toNat_ofNat]
    omega
  have hne : BitVec.ofNat 32 n ≠ 0 := by
    intro h
    have := congrArg BitVec.toNat h
    rw [hn] at this
    simp at this
    omega
  cases signature with
  | none => simp only [crtx_init_dict, List.length_modify, List.length_replicate, hn, and_self]
  | some s =>
    simp only [crtx_init_dict, if_neg hne, List.length_modify, List.length_replicate, hn, and_self]

def numberField (x : CString × BitVec 32) : Item := ⟨some 'u', 0, some x.1, 0, .word (x.2.setWidth 64)⟩

theorem fillSlot_number (d : Dict) (i : Nat) (x : CString × BitVec 32) :
    (fillSlot d i (some 'u') (some x.1) (number x.2 0)).1 = { d with items := d.items.set i (numberField x) } := by
  rw [fillSlot, fill_freshItem _ (number_plain (.inr rfl) x.2 0 (by decide)), fresh_number (.inr rfl)]
  rfl

theorem fillFrom_spec (rest : List (CString × BitVec 32)) : ∀ (d : Dict) (done : List Item),
    d.items.take done.length = done → (∀ di ∈ done, di.type ≠ none ∧ di.isLast = false) →
    d.items.length = done.length + rest.length → d.signature_length.toNat = d.items.length →
    ∃ d', fillFrom d (if rest = [] then none else some done.length) rest = some d' ∧
      Listed (done ++ rest.map numberField) d' := by
  induction rest with
  | nil =>
    intro d done htake hdone hlen hsig
    have heq : d.items = done := by
      rw [← htake, List.take_of_length_le]
      simpa using Nat.le_of_eq hlen
    refine ⟨d, rfl, ?_⟩
    rw [List.map_nil, List.append_nil]
    exact ⟨heq, by rw [hsig, heq], fun di hdi => (hdone di hdi).1, fun di hdi => (hdone di hdi).2⟩
  | cons x rest ih =>
    intro d done htake hdone hlen hsig
    rw [List.length_cons] at hlen
    have hi : done.length < d.items.length := by omega
    obtain ⟨d₁, hd₁⟩ : ∃ d₁, d₁ = { d with items := d.items.set done.length (numberField x) } := ⟨_, rfl⟩
    have hnew : (numberField x).isLast = false := by simp [numberField, Item.isLast]
    have hitem : d₁.item done.length = numberField x := by
      rw [hd₁, Dict.item]
      simp [hi]
    have hnext : crtx_get_next_item d₁ done.length = if rest = [] then none else some (done.length + 1) := by
      have hsig₁ : d₁.signature_length.toNat = d.items.length := by rw [hd₁, hsig]
      rw [crtx_get_next_item, hitem, hnew, hsig₁, hlen]
      cases rest <;> simp
    have htake₁ : d₁.items.take (done ++ [numberField x]).length = done ++ [numberField x] := by
      rw [hd₁, List.length_append, List.length_singleton, List.take_add_one, List.take_set_of_le (Nat.le_refl _), htake]
      simp [hi]
    obtain ⟨d', hd', hlisted⟩ := ih d₁ (done ++ [numberField x]) htake₁
      (by
        intro di hdi
        rcases List.mem_append.mp hdi with hdi | hdi
        · exact hdone di hdi
        · rw [List.mem_singleton.mp hdi]
          exact ⟨by simp [numberField], hnew⟩)
      (by simp [hd₁]; omega) (by rw [hd₁]; simpa using hsig)
    refine ⟨d', ?_, by simpa using hlisted⟩
    rw [if_neg (by simp), fillFrom, fillSlot_number, ← hd₁, hnext]
    simpa using hd'

theorem fillFrom_init (signature : Option CString) {l : List (CString × BitVec 32)} (hne : l ≠ [])
    (hlt : l.length < 2 ^ 32) :
    ∃ d, fillFrom (crtx_init_dict signature (BitVec.ofNat 32 l.length))
        (crtx_get_first_item (crtx_init_dict signature (BitVec.ofNat 32 l.length))) l = some d ∧
      Listed (l.map numberField) d := by
  obtain ⟨hsig, hlen⟩ := length_init signature (List.length_pos_iff.mpr hne) hlt
  have hfirst : crtx_get_first_item (crtx_init_dict signature (BitVec.ofNat 32 l.length)) = some 0 := by
    rw [crtx_get_first_item, if_neg]
    intro hnil
    rw [hnil] at hlen
    exact hne (List.length_eq_zero_iff.mp hlen.symm)
  obtain ⟨d, hd, hlisted⟩ := fillFrom_spec l (crtx_init_dict signature (BitVec.ofNat 32 l.length)) [] rfl (by simp)
    (by simpa using hlen) (by rw [hsig, hlen])
  refine ⟨d, ?_, by simpa using hlisted⟩
  rw [hfirst, ← hd, if_neg hne]
  rfl

end Libcortex.DictBuild
