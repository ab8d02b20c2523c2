import Libcortex.DictArgs

/-!
# Dictionaries that are only appended to

The parsers start with an empty dictionary and add one item after the other. No item of it is ever free, so every new
one comes to the end.
-/

namespace Libcortex.Dicts

/-- The dictionary consists of these items. None of them is free, and none is marked. -/
structure Listed (items : List Item) (d : Dict) : Prop where
  eq : d.items = items
  length : d.signature_length.toNat = items.length
  typed : ∀ di ∈ items, di.type ≠ none
  unmarked : ∀ di ∈ items, di.isLast = false

/-- What `crtx_fill_data_item` makes of its arguments. -/
def freshItem (c : Char) (key : Option CString) (a : Args) : Item :=
  copyKey (copyData (a.item c key (a.flags.setWidth 8)))

/-- The arguments are taken as they are. -/
structure Plain (c : Char) (a : Args) : Prop where
  known : knownType c = true
  fits : sizeMismatch c a.size = false
  unmarked : a.flags.setWidth 8 &&& CRTX_DIF_LAST_ITEM = 0

section

variable {items : List Item} {d : Dict}

theorem listed_init : Listed [] (crtx_init_dict none 0) where
  eq := rfl
  length := rfl
  typed _ h := by cases h
  unmarked _ h := by cases h

theorem Listed.item_mem (h : Listed items d) {i : Nat} (hi : i < d.items.length) : d.item i ∈ items := by
  rw [item_getElem hi, ← h.eq]
  exact List.getElem_mem hi

theorem Listed.rep (h : Listed items d) : Rep d where
  length := by rw [h.eq, h.length]
  last i hi := h.unmarked _ (h.item_mem (by omega))

theorem Listed.full (h : Listed items d) : Full d := fun _ hi => h.typed _ (h.item_mem hi)

theorem Listed.visit (h : Listed items d) : (visit d).map d.item = items := by
  rw [visit_eq h.rep, ← h.eq]
  apply List.ext_getElem (by simp)
  intro i _ hi
  rw [List.getElem_map, List.getElem_range, item_getElem hi]

theorem fill_freshItem (di : Item) {c : Char} {a : Args} (hp : Plain c a) (key : Option CString) :
    crtx_fill_data_item di (some c) key a = (freshItem c key a, 0) := by
  simp only [crtx_fill_data_item, hp.known, hp.fits, freshItem, Args.item]
  rfl

theorem freshItem_isLast {c : Char} {a : Args} (hp : Plain c a) (key : Option CString) :
    (freshItem c key a).isLast = false := by
  rcases fill_isLast .zero (some c) key hp.unmarked with h | h
  · rwa [fill_freshItem .zero hp key, zero_isLast] at h
  · rwa [fill_freshItem .zero hp key] at h

theorem freshItem_type (c : Char) (key : Option CString) (a : Args) : (freshItem c key a).type = some c := by
  obtain ⟨flags, hkey⟩ := copyKey_fields (copyData (a.item c key (a.flags.setWidth 8)))
  rw [freshItem, hkey]
  dsimp only
  unfold copyData
  split <;> rfl

theorem freshItem_uncopied (c : Char) (key : Option CString) {a : Args}
    (hdata : a.flags.setWidth 8 &&& CRTX_DIF_CREATE_DATA_COPY = 0)
    (hkey : a.flags.setWidth 8 &&& CRTX_DIF_CREATE_KEY_COPY = 0) :
    freshItem c key a = a.item c key (a.flags.setWidth 8) := by
  rw [freshItem, copyData, if_neg fun h => h.1 hdata, copyKey, if_neg fun h => h hkey]

theorem clearLast_unmarked {di : Item} (h : di.isLast = false) : clearLast di = di := by
  have hflags : di.flags &&& ~~~CRTX_DIF_LAST_ITEM = di.flags := by
    revert h
    unfold Item.isLast
    generalize di.flags = f
    revert f
    decide
  rw [clearLast, hflags]

theorem modify_clearLast {l : List Item} (h : ∀ di ∈ l, di.isLast = false) (i : Nat) : l.modify i clearLast = l := by
  apply List.ext_getElem (by simp)
  intro j _ hj
  rw [List.getElem_modify]
  split
  · exact clearLast_unmarked (h _ (List.getElem_mem hj))
  · rfl

theorem Listed.alloc (h : Listed items d) (hlt : items.length + 1 < 2 ^ 32) :
    ∃ di d', crtx_dict_alloc_next_item d = (d', items.length) ∧ d'.items = items ++ [di] ∧ Rep d' := by
  have hlen := h.length
  have hn : ((d.signature_length + 1).setWidth 64).toNat = items.length + 1 := by
    rw [grow_toNat (by omega), hlen]
  obtain ⟨d', hd', hrep, -, -⟩ := alloc_fresh h.rep h.full (by omega)
  have hitems := resize_items (n := (d.signature_length + 1).setWidth 64) h.rep.length (by rw [hn, h.eq]; omega)
  have hfst := congrArg Prod.fst (hd'.symm.trans (alloc_full h.rep h.full))
  dsimp only at hfst
  have hun : ∀ di ∈ items ++ [Item.zero], di.isLast = false := by
    intro di hdi
    rcases List.mem_append.mp hdi with hdi | hdi
    · exact h.unmarked di hdi
    · rw [List.mem_singleton.mp hdi, zero_isLast]
  rw [h.eq] at hd' hitems
  rw [hn, Nat.add_sub_cancel_left, Nat.add_sub_cancel, List.replicate_one, modify_clearLast hun, ite_self] at hitems
  refine ⟨markLast .zero, d', hd', ?_, hrep⟩
  rw [hfst, hitems]
  dsimp only
  rw [List.modify_eq_take_drop, List.take_left, List.drop_left, List.modifyHead_cons]

theorem Listed.append (h : Listed items d) (hlt : items.length + 1 < 2 ^ 32) {c : Char} {a : Args} (hp : Plain c a)
    (key : Option CString) :
    ∃ d', crtx_dict_new_item d (some c) key a = (d', 0) ∧ Listed (items ++ [freshItem c key a]) d' := by
  obtain ⟨di, d', hd', hitems, hrep⟩ := h.alloc hlt
  have hset : d'.items.set items.length (freshItem c key a) = items ++ [freshItem c key a] := by
    rw [hitems, List.set_append_right _ _ (Nat.le_refl _), Nat.sub_self, List.set_cons_zero]
  refine ⟨{ d' with items := items ++ [freshItem c key a] }, ?_, rfl, ?_, ?_, ?_⟩
  · rw [crtx_dict_new_item, hd']
    dsimp only [fillSlot]
    rw [fill_freshItem _ hp, hset]
  · dsimp only
    rw [← hrep.length, hitems, List.length_append, List.length_append, List.length_singleton, List.length_singleton]
  · intro di hdi
    rcases List.mem_append.mp hdi with hdi | hdi
    · exact h.typed di hdi
    · rw [List.mem_singleton.mp hdi, freshItem_type]
      exact Option.some_ne_none c
  · intro di hdi
    rcases List.mem_append.mp hdi with hdi | hdi
    · exact h.unmarked di hdi
    · rw [List.mem_singleton.mp hdi, freshItem_isLast hp]

end

end Libcortex.Dicts
