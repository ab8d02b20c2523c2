import Libcortex.DictBuild
import Libcortex.FormatMeaning

/-!
# Dictionaries made from others

`crtx_dict_transform` of `dict.c` makes a dictionary with one string for each entry of a table: the entry has the key,
and a format that is filled in from another dictionary. What it makes can be the source of the next transformation.
-/

open Libcortex.Lib

namespace Libcortex.DictTransform

open Dicts DictBuild DictPrintf
open DictWire (cstring)
open DictLocate (crtx_dict_locate lookup firstItem hasKey SEPARATOR)

/-! ## The code -/

/-- The loop, for the items from `i` on. `none`: there is no entry for an item, or a string doesn't fit. -/
def transformLoop (malloc : Nat → UInt8) (heap : DictId → Dict) (dict : DictPtr) (transf : List Transformation) :
    Nat → Nat → Dict → Option Dict
  | 0, _, ds => some ds
  | n + 1, i, ds =>
    transf[i]?.bind fun pit =>
      (transformItem malloc heap dict pit).bind fun di =>
        transformLoop malloc heap dict transf n (i + 1) { ds with items := ds.items.set i di }

/-- Without any items, memory in front of the array is written to. -/
def crtx_dict_transform (malloc : Nat → UInt8) (heap : DictId → Dict) (dict : DictPtr) (signature : CString)
    (transf : List Transformation) : Option Dict :=
  let sign_length := BitVec.ofNat 32 signature.1.length
  let ds := crtx_init_dict (some signature) sign_length
  if sign_length = 0 then none
  else
    (transformLoop malloc heap dict transf sign_length.toNat 0 ds).map fun ds =>
      endAt ds (sign_length.toNat - 1)

/-- `none`: nothing that could be returned, since `crtx_dict_locate` fails. -/
def crtx_dict_locate_string (malloc : Nat → UInt8) (heap : DictId → Dict) (dict : Option DictId) (path : CString) :
    Option (Option CString) :=
  (crtx_dict_locate malloc heap dict path).map fun r =>
    r.bind fun r =>
      let di := (heap r.1).item r.2
      if di.type ≠ some 's' then none else stringOf di

/-! ## What has to hold -/

/-- An entry of a table, with the text that its format stands for. -/
structure Column where
  key : CString
  flag : BitVec 8
  format : Format
  text : CString

/-- The format has this text as its meaning, and it is one of those that are formatted as they should be. -/
structure Column.Ok (heap : DictId → Dict) (d : DictId) (c : Column) : Prop where
  unmarked : c.flag &&& CRTX_DIF_LAST_ITEM = 0
  wellFormed : c.format.WellFormed false
  flat : c.format.Flat
  means : meaning heap d c.format = some c.text.1
  keys : meaning heap d c.format.cutKeys = some c.text.1
  items : c.format.cutKeys.hasAll → (heap d).items ≠ []
  room : ¬ Overflows heap 24 (.dict d) c.format.print

/-- The item that is made, whose size counts the zero at the end. -/
def Column.item (c : Column) : Item :=
  ⟨some 's', c.flag, some c.key, BitVec.ofNat 64 (c.text.1.length + 1), .string (some c.text)⟩

/-- An entry as it stands in the program. -/
def Column.Of (c : Column) (pit : Transformation) : Prop :=
  pit.key = some c.key ∧ pit.type = some 's' ∧ pit.flag = c.flag ∧ pit.format.1 = c.format.print

/-! ## One item -/

section

variable {malloc : Nat → UInt8} {heap : DictId → Dict} {d : DictId}

theorem printed_text (malloc : Nat → UInt8) {c : Column} (h : c.Ok heap d) (b : Buffer UInt8) (hroom : b.room = 24) :
    ∃ b', run (write malloc) (dict_printf malloc heap (.dict d) c.format.print).ops b = some b' ∧
      b'.text = b.text ++ (c.text.1 ++ [0]) := by
  have hagrees : Agrees (dict_printf malloc heap (.dict d) c.format.print) (flatText heap d c.format.cutKeys) :=
    agrees_flat h.wellFormed h.flat (meaning_hasAll h.means)
  have htext := (hagrees.printed c.text.1 (flatText_some.mpr ⟨h.items, h.keys⟩)).2
  have hfits : (run (write malloc) (dict_printf malloc heap (.dict d) c.format.print).ops b).isSome :=
    run_isSome.mpr (fits_iff.mpr (by rw [hroom]; exact h.room))
  obtain ⟨b', hrun⟩ := Option.isSome_iff_exists.mp hfits
  exact ⟨b', hrun, by rw [run_text hrun, htext]⟩

theorem length_text (b : Buffer UInt8) : b.text.length = b.len := by
  rw [Buffer.text, List.length_take, Nat.min_eq_left b.len_le]

theorem mem_text (b : Buffer UInt8) : b.mem = b.text ++ b.mem.drop b.len := (List.take_append_drop _ _).symm

theorem transformItem_spec {c : Column} {pit : Transformation} (hof : c.Of pit) (h : c.Ok heap d) :
    transformItem malloc heap (.dict d) pit = some c.item := by
  obtain ⟨hkey, htype, hflag, hformat⟩ := hof
  obtain ⟨b, hrun, htext⟩ := printed_text malloc h ⟨fresh malloc 24, 0, Nat.zero_le _⟩ (by simp [Buffer.room])
  have htext : b.text = c.text.1 ++ [0] := by simpa [Buffer.text] using htext
  have hstore : ((if b.mem.length - 1 ≤ b.len then b.grow (fresh malloc 1) else b).store [] [0]).isSome :=
    store_last_isSome b
  obtain ⟨b', hb'⟩ := Option.isSome_iff_exists.mp hstore
  have hgrown : (if b.mem.length - 1 ≤ b.len then b.grow (fresh malloc 1) else b).text = b.text := by
    split
    · exact Buffer.text_grow b _
    · rfl
  have htext' : b'.text = c.text.1 ++ [0] := by
    rw [Buffer.text_store hb', hgrown, htext, List.append_nil]
  have hlen : b'.len = c.text.1.length + 1 := by
    rw [← length_text, htext', List.length_append, List.length_singleton]
  have hstring : cstring b'.mem = c.text := by
    apply Subtype.ext
    rw [mem_text, htext', List.append_assoc]
    exact DictLocate.cstring_append c.text.2 _
  simp only [transformItem, htype, if_true, hformat, hrun, Option.bind_some, hb', Option.map_some, hkey, hflag, hlen,
    hstring]
  rfl

/-! ## All items -/

theorem transformLoop_spec (malloc : Nat → UInt8) {transf : List Transformation} {cols : List Column}
    (hof : List.Forall₂ Column.Of cols transf) (hok : ∀ c ∈ cols, c.Ok heap d) (n : Nat) :
    ∀ (i : Nat) (ds : Dict), i + n = cols.length → ds.items.length = cols.length →
      ds.items.take i = (cols.take i).map Column.item →
      transformLoop malloc heap (.dict d) transf n i ds = some { ds with items := cols.map Column.item } := by
  have hlen := hof.length_eq
  induction n with
  | zero =>
    intro i ds hi hitems htake
    rw [List.take_of_length_le (by omega), List.take_of_length_le (by omega)] at htake
    rw [transformLoop, ← htake]
  | succ n ih =>
    intro i ds hi hitems htake
    have hic : i < cols.length := by omega
    have hit : i < transf.length := by omega
    have hpit : cols[i].Of transf[i] := hof.get hic hit
    rw [transformLoop, List.getElem?_eq_getElem hit, Option.bind_some,
      transformItem_spec hpit (hok _ (List.getElem_mem hic)), Option.bind_some]
    apply ih (i + 1) _ (by omega) (by simpa using hitems)
    have hlast : (ds.items.set i cols[i].item)[i]? = some cols[i].item := by
      simp [hitems, hic]
    rw [List.take_add_one, List.take_set_of_le (Nat.le_refl i), htake, hlast, List.take_add_one,
      List.getElem?_eq_getElem hic, List.map_append]
    rfl

/-! ## The dictionary -/

theorem column_unmarked {c : Column} (h : c.Ok heap d) : c.item.isLast = false := by
  simp [Item.isLast, Column.item, h.unmarked]

theorem listed_columns {cols : List Column} (hok : ∀ c ∈ cols, c.Ok heap d) {ds : Dict}
    (hsig : ds.signature_length.toNat = cols.length) :
    Listed (cols.map Column.item) { ds with items := cols.map Column.item } where
  eq := rfl
  length := by simpa using hsig
  typed di hdi := by
    obtain ⟨c, _, rfl⟩ := List.mem_map.mp hdi
    simp [Column.item]
  unmarked di hdi := by
    obtain ⟨c, hc, rfl⟩ := List.mem_map.mp hdi
    exact column_unmarked (hok c hc)

theorem endAt_item (ds : Dict) (i j : Nat) :
    ((endAt ds i).item j).key = (ds.item j).key ∧ ((endAt ds i).item j).type = (ds.item j).type ∧
      ((endAt ds i).item j).value = (ds.item j).value := by
  unfold Dict.item endAt
  rw [getD_modify]
  split
  · exact ⟨rfl, rfl, rfl⟩
  · exact ⟨rfl, rfl, rfl⟩

theorem item_columns {cols : List Column} {ds : Dict} (hds : ds.items = cols.map Column.item) {i : Nat}
    (hi : i < cols.length) : ds.item i = cols[i].item := by
  rw [item_getElem (by simpa [hds] using hi), List.getElem_of_eq hds, List.getElem_map]

theorem firstItem_columns {cols : List Column} {ds : Dict} (hds : ds.items = cols.map Column.item)
    (hsig : ds.signature_length.toNat = cols.length) (hnodup : (cols.map Column.key).Nodup) {i : Nat}
    (hi : i < cols.length) (last : Nat) : firstItem (endAt ds last) cols[i].key.1 = some i := by
  have hlen : (endAt ds last).items.length = cols.length := by simp [endAt, hds]
  have hkey : ∀ (j : Nat) (hj : j < cols.length), hasKey cols[i].key.1 ((endAt ds last).item j) ↔ j = i := by
    intro j hj
    rw [DictLocate.hasKey_iff, (endAt_item ds last j).1, item_columns hds hj]
    have hj' : j < (cols.map Column.key).length := by simpa using hj
    have hi' : i < (cols.map Column.key).length := by simpa using hi
    have hinj : (cols.map Column.key)[j] = (cols.map Column.key)[i] ↔ j = i := hnodup.getElem_inj_iff
    simpa [Column.item] using hinj
  have hget : ∀ (j : Nat) (hj : j < (endAt ds last).items.length),
      (endAt ds last).items[j] = (endAt ds last).item j := fun j hj => (item_getElem hj).symm
  rw [firstItem, List.findIdx?_eq_some_iff_getElem]
  refine ⟨by rw [List.length_take, hlen]; simp [endAt, hsig]; omega, ?_, fun j hj => ?_⟩
  · rw [List.getElem_take, hget, hkey i hi]
  · rw [List.getElem_take, hget, hkey j (by omega)]
    omega

theorem locate_string_columns {cols : List Column} {ds : Dict} (hds : ds.items = cols.map Column.item)
    (hsig : ds.signature_length.toNat = cols.length) (hnodup : (cols.map Column.key).Nodup) {c : Column} (hc : c ∈ cols)
    (hsep : SEPARATOR ∉ c.key.1) (last : Nat) {heap : DictId → Dict} {id : DictId} (hid : heap id = endAt ds last) :
    crtx_dict_locate_string malloc heap (some id) c.key = some (some c.text) := by
  obtain ⟨i, hi, rfl⟩ := List.getElem_of_mem hc
  have hlookup : lookup heap (some id) (cols[i].key.1.splitOn SEPARATOR) = some (id, i) := by
    rw [List.splitOn_eq_singleton hsep, lookup, hid, firstItem_columns hds hsig hnodup hi]
    rfl
  obtain ⟨-, htype, hvalue⟩ := endAt_item ds last i
  rw [item_columns hds hi] at htype hvalue
  rw [crtx_dict_locate_string, DictLocate.dict_locate_eq, hlookup, Option.map_some, Option.bind_some]
  dsimp only
  rw [hid, htype, if_neg (by simp [Column.item]), stringOf, hvalue]
  rfl

end

/-- A table whose formats have meanings gives a dictionary that has just their texts, in the order of the table, and a
text is found under its key. -/
theorem transform_tells_meanings (malloc : Nat → UInt8) (heap : DictId → Dict) (d : DictId) (signature : CString)
    (cols : List Column) (transf : List Transformation) (hof : List.Forall₂ Column.Of cols transf)
    (hok : ∀ c ∈ cols, c.Ok heap d) (hlen : signature.1.length = cols.length) (hne : cols ≠ [])
    (hmax : cols.length < 2 ^ 32) :
    ∃ ds, crtx_dict_transform malloc heap (.dict d) signature transf = some ds ∧
      Contains ds (cols.map Column.item) ∧
      ((cols.map Column.key).Nodup → ∀ (heap' : DictId → Dict) (id : DictId), heap' id = ds → ∀ c ∈ cols,
        SEPARATOR ∉ c.key.1 → crtx_dict_locate_string malloc heap' (some id) c.key = some (some c.text)) := by
  obtain ⟨hsig, hitems⟩ := length_init (some signature) (List.length_pos_iff.mpr hne) hmax
  have hne32 : BitVec.ofNat 32 cols.length ≠ 0 := by
    intro h
    have h0 := congrArg BitVec.toNat h
    rw [BitVec.toNat_ofNat, Nat.mod_eq_of_lt hmax] at h0
    exact hne (List.length_eq_zero_iff.mp h0)
  have hcount : (BitVec.ofNat 32 cols.length).toNat = cols.length := by
    rw [BitVec.toNat_ofNat, Nat.mod_eq_of_lt hmax]
  have hloop := transformLoop_spec malloc hof hok cols.length 0
    (crtx_init_dict (some signature) (BitVec.ofNat 32 cols.length)) (by omega) hitems rfl
  have hlisted := listed_columns hok hsig
  have hmade : crtx_dict_transform malloc heap (.dict d) signature transf = some
      (endAt { crtx_init_dict (some signature) (BitVec.ofNat 32 cols.length) with items := cols.map Column.item }
        (cols.length - 1)) := by
    rw [crtx_dict_transform, hlen]
    dsimp only
    rw [if_neg hne32, hcount, hloop, Option.map_some]
  refine ⟨_, hmade, (Contains.of_listed hlisted).endAt (by simp; omega), ?_⟩
  intro hnodup heap' id hid c hc hsep
  exact locate_string_columns (by exact rfl) (by exact hsig) hnodup hc hsep _ hid

/-- The string under the key "a", with an exclamation mark, under the key "shout". -/
def shout : Column where
  key := text "shout"
  flag := 0
  format := onePath
  text := text "x!"

def shoutTable : List Transformation := [⟨some (text "shout"), some 's', 0, text "%[a]s!"⟩]

theorem shout_ok : shout.Ok (fun _ => oneString) 0 where
  unmarked := by decide
  wellFormed := onePath_wellFormed
  flat := trivial
  means := onePath_meaning
  keys := by decide
  items := by decide
  room := by
    have hrun : (run (write fun _ => 0) (dict_printf (fun _ => 0) (fun _ => oneString) (.dict 0) shout.format.print).ops
        ⟨fresh (fun _ => 0) 24, 0, Nat.zero_le _⟩).isSome := by decide
    exact fits_iff.mp (run_isSome.mp hrun)

theorem transform_tells_meanings_one :
    ∃ ds, crtx_dict_transform (fun _ => 0) (fun _ => oneString) (.dict 0) (text "s") shoutTable = some ds ∧
      Contains ds ([shout].map Column.item) ∧
      (([shout].map Column.key).Nodup → ∀ (heap' : DictId → Dict) (id : DictId), heap' id = ds → ∀ c ∈ [shout],
        SEPARATOR ∉ c.key.1 → crtx_dict_locate_string (fun _ => 0) heap' (some id) c.key = some (some c.text)) :=
  transform_tells_meanings (fun _ => 0) (fun _ => oneString) 0 (text "s") [shout] shoutTable
    (.cons ⟨rfl, rfl, rfl, by decide⟩ .nil) (by simpa using shout_ok) (by decide) (by simp) (by simp)

end Libcortex.DictTransform
