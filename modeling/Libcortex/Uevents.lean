import Libcortex.DictAppend
import Libcortex.DictLocate
import Libcortex.Lib.Memory

/-!
# Messages of the kernel about devices

A message is a sequence of strings. The first one has an `@` in it, and each of the others may be a key and a value with
a `=` between them. `uevents.c` makes a dictionary of these. Every step to the next string is computed from the lengths
of what has been found.
-/

open Libcortex.Lib

namespace Libcortex.Uevents

open Dicts
open DictLocate (cstring_append)
open DictWire (cstring cstring_val)

/-- `'@'` -/
def AT : UInt8 := 64

/-- `'='` -/
def EQUALS : UInt8 := 61

/-! ## The code -/

def fieldArgs (value : List UInt8) (len : Nat) : Args :=
  ⟨.string (some (cstring value)), BitVec.ofNat 64 len, CRTX_DIF_ALLOCATED_KEY.setWidth 32⟩

/-- The loop, with what is left of the buffer from `s` on. `none`: a search leaves the buffer, or the loop goes on.
`some none`: it returns 0. -/
def parseLoop : Nat → List UInt8 → Dict → Option (Option Dict)
  | 0, s, dict => if s = [] then some (some dict) else none
  | fuel + 1, s, dict =>
    if s = [] then some (some dict)
    else
      (strchrMem EQUALS s).bind fun sep =>
        match sep with
        | none => (cstr s).bind fun text => parseLoop fuel (s.drop (text.length + 1)) dict
        | some sep =>
          if s.length ≤ sep then some none
          else
            let key := cstring (s.take sep ++ [0])
            (cstr (s.drop (sep + 1))).bind fun value =>
              let (dict, i) := crtx_dict_alloc_next_item dict
              let dict := (fillSlot dict i (some 's') (some key) (fieldArgs value value.length)).1
              parseLoop fuel (s.drop (sep + 1 + value.length + 1)) dict

/-- The safety measure. -/
def terminated (buf : List UInt8) : List UInt8 := buf.set (buf.length - 1) 0

/-- `event->data`. Without a byte the safety measure writes in front of the buffer. -/
def crtx_uevents_raw2dict (buf : List UInt8) : Option (Option Dict) :=
  if buf = [] then none
  else
    let size := buf.length
    let buf := terminated buf
    (strchrMem AT buf).bind fun sep =>
      if sep = none then some none
      else (cstr buf).bind fun text => parseLoop size (buf.drop (text.length + 1)) (crtx_init_dict none 0)

/-! ## What has to hold -/

/-- The text before the first `=`. -/
def keyText (segment : List UInt8) : List UInt8 := segment.takeWhile (· ≠ EQUALS)

/-- The text behind it. -/
def valueText (segment : List UInt8) : List UInt8 := (segment.dropWhile (· ≠ EQUALS)).tail

/-- A string item with the key and the value of the segment. -/
structure FieldOf (segment : List UInt8) (di : Item) : Prop where
  type : di.type = some 's'
  key : di.key.map (·.1) = some (keyText segment)
  value : (stringOf di).map (·.1) = some (valueText segment)
  size : di.size = BitVec.ofNat 64 (valueText segment).length

/-- The fields of a message, without the first string. -/
def fields (segments : List (List UInt8)) : List (List UInt8) := segments.tail.filter fun s => EQUALS ∈ s

/-- NULL if there is no `@` in the first string, or else a dictionary of all fields. -/
def Parsed (segments : List (List UInt8)) (result : Option Dict) : Prop :=
  (result = none ↔ ∃ first ∈ segments.head?, AT ∉ first) ∧
    ∀ d ∈ result, List.Forall₂ FieldOf (fields segments) ((visit d).map d.item)

/-! ## One segment -/

theorem segment_split {segment : List UInt8} (h : EQUALS ∈ segment) :
    segment = keyText segment ++ EQUALS :: valueText segment ∧ EQUALS ∉ keyText segment := by
  induction segment with
  | nil => cases h
  | cons b segment ih =>
    unfold keyText valueText at ih ⊢
    by_cases hb : b = EQUALS
    · subst hb
      simp
    · obtain ⟨heq, hnot⟩ := ih ((List.mem_cons.mp h).resolve_left (Ne.symm hb))
      have htake := List.takeWhile_cons_of_pos (p := fun x => decide (x ≠ EQUALS)) (l := segment) (decide_eq_true hb)
      have hdrop := List.dropWhile_cons_of_pos (p := fun x => decide (x ≠ EQUALS)) (l := segment) (decide_eq_true hb)
      rw [htake, hdrop, List.cons_append, ← heq, List.mem_cons, not_or]
      exact ⟨rfl, Ne.symm hb, hnot⟩

theorem cstring_eq {text : List UInt8} (h : 0 ∉ text) : (cstring text).1 = text :=
  congrArg Subtype.val (cstring_val ⟨text, h⟩)

theorem cstring_end {text : List UInt8} (h : 0 ∉ text) : cstring (text ++ [0]) = cstring text :=
  Subtype.ext ((cstring_append h []).trans (cstring_eq h).symm)

/-- The item that the loop makes of a segment. -/
def fieldItem (segment : List UInt8) : Item :=
  freshItem 's' (some (cstring (keyText segment))) (fieldArgs (valueText segment) (valueText segment).length)

theorem fieldArgs_plain (value : List UInt8) (len : Nat) : Plain 's' (fieldArgs value len) where
  known := rfl
  fits := rfl
  unmarked := by
    show (CRTX_DIF_ALLOCATED_KEY.setWidth 32).setWidth 8 &&& CRTX_DIF_LAST_ITEM = 0
    decide

theorem fieldItem_eq (segment : List UInt8) :
    fieldItem segment =
      ⟨some 's', CRTX_DIF_ALLOCATED_KEY, some (cstring (keyText segment)),
        BitVec.ofNat 64 (valueText segment).length, .string (some (cstring (valueText segment)))⟩ := by
  have hflags : (fieldArgs (valueText segment) (valueText segment).length).flags.setWidth 8 = CRTX_DIF_ALLOCATED_KEY := by
    show (CRTX_DIF_ALLOCATED_KEY.setWidth 32).setWidth 8 = CRTX_DIF_ALLOCATED_KEY
    decide
  rw [fieldItem, freshItem_uncopied _ _ (by rw [hflags]; decide) (by rw [hflags]; decide), hflags]
  rfl

theorem fieldOf_fieldItem {segment : List UInt8} (h0 : 0 ∉ segment) (h : EQUALS ∈ segment) :
    FieldOf segment (fieldItem segment) := by
  have hsplit := (segment_split h).1
  rw [hsplit, List.mem_append, List.mem_cons, not_or, not_or] at h0
  rw [fieldItem_eq]
  exact ⟨rfl, congrArg some (cstring_eq h0.1), congrArg some (cstring_eq h0.2.2), rfl⟩

/-! ## The loop -/

theorem parseLoop_skip {segment : List UInt8} (h0 : 0 ∉ segment) (h : EQUALS ∉ segment) (fuel : Nat)
    (rest : List UInt8) (dict : Dict) :
    parseLoop (fuel + 1) (segment ++ 0 :: rest) dict = parseLoop fuel rest dict := by
  have hdrop : (segment ++ 0 :: rest).drop (segment.length + 1) = rest := by
    rw [← List.drop_drop, List.drop_left, List.drop_one, List.tail_cons]
  rw [parseLoop, if_neg (by simp), strchr_missing (by decide) h h0, Option.bind_some]
  dsimp only
  rw [cstr_append h0, Option.bind_some, hdrop]

theorem parseLoop_field {items : List Item} {dict : Dict} (hd : Listed items dict) (hlt : items.length + 1 < 2 ^ 32)
    {segment : List UInt8} (h0 : 0 ∉ segment) (h : EQUALS ∈ segment) (fuel : Nat) (rest : List UInt8) :
    ∃ dict', parseLoop (fuel + 1) (segment ++ 0 :: rest) dict = parseLoop fuel rest dict' ∧
      Listed (items ++ [fieldItem segment]) dict' := by
  obtain ⟨dict', hnew, hd'⟩ := hd.append hlt (fieldArgs_plain (valueText segment) (valueText segment).length)
    (some (cstring (keyText segment)))
  refine ⟨dict', ?_, hd'⟩
  obtain ⟨hsplit, hkey⟩ := segment_split h
  have h0' := h0
  rw [hsplit, List.mem_append, List.mem_cons, not_or, not_or] at h0'
  obtain ⟨hkey0, -, hvalue0⟩ := h0'
  have hmem : segment ++ 0 :: rest = keyText segment ++ EQUALS :: (valueText segment ++ 0 :: rest) := by
    conv => lhs; rw [hsplit]
    simp
  generalize keyText segment = key at *
  generalize valueText segment = value at *
  have hdrop : (key ++ EQUALS :: (value ++ 0 :: rest)).drop (key.length + 1) = value ++ 0 :: rest := by
    rw [← List.drop_drop, List.drop_left, List.drop_one, List.tail_cons]
  have hdrop' : (key ++ EQUALS :: (value ++ 0 :: rest)).drop (key.length + 1 + value.length + 1) = rest := by
    rw [Nat.add_assoc, ← List.drop_drop, hdrop, ← List.drop_drop, List.drop_left, List.drop_one, List.tail_cons]
  have hfst := congrArg Prod.fst hnew
  rw [crtx_dict_new_item] at hfst
  rw [hmem, parseLoop, if_neg (by simp), strchr_found hkey hkey0, Option.bind_some]
  dsimp only at hfst ⊢
  rw [if_neg (by simp), List.take_left, cstring_end hkey0, hdrop, cstr_append hvalue0, Option.bind_some, hdrop', hfst]

theorem parseLoop_segments (segments : List (List UInt8)) (h0 : ∀ s ∈ segments, 0 ∉ s) :
    ∀ (fuel : Nat) (items : List Item) (dict : Dict), Listed items dict →
      items.length + (segments.filter fun s => EQUALS ∈ s).length < 2 ^ 32 → segments.length ≤ fuel →
      ∃ dict', parseLoop fuel (segments.flatMap fun s => s ++ [0]) dict = some (some dict') ∧
        Listed (items ++ (segments.filter fun s => EQUALS ∈ s).map fieldItem) dict' := by
  induction segments with
  | nil =>
    intro fuel items dict hd _ _
    refine ⟨dict, ?_, by simpa using hd⟩
    cases fuel <;> rfl
  | cons segment segments ih =>
    intro fuel items dict hd hlt hfuel
    rw [List.forall_mem_cons] at h0
    rw [List.length_cons] at hfuel
    obtain ⟨fuel, rfl⟩ : ∃ n, fuel = n + 1 := ⟨fuel - 1, by omega⟩
    rw [List.flatMap_cons, List.append_assoc, List.singleton_append]
    by_cases h : EQUALS ∈ segment
    · rw [List.filter_cons_of_pos (by simpa using h)] at hlt ⊢
      rw [List.length_cons] at hlt
      obtain ⟨dict₁, hstep, hd₁⟩ := parseLoop_field hd (by omega) h0.1 h fuel (segments.flatMap fun s => s ++ [0])
      obtain ⟨dict', hloop, hd'⟩ := ih h0.2 fuel _ dict₁ hd₁ (by simp; omega) (by omega)
      refine ⟨dict', hstep.trans hloop, ?_⟩
      rwa [List.append_assoc, List.singleton_append] at hd'
    · rw [List.filter_cons_of_neg (by simpa using h)] at hlt ⊢
      rw [parseLoop_skip h0.1 h]
      exact ih h0.2 fuel items dict hd hlt (by omega)

/-! ## The message -/

theorem terminated_eq {buf : List UInt8} (h : buf ≠ []) : terminated buf = buf.dropLast ++ [0] := by
  conv => lhs; rw [← List.dropLast_append_getLast h]
  rw [terminated, List.length_append, List.length_singleton, Nat.add_sub_cancel,
    List.set_append_right _ _ (Nat.le_refl _), Nat.sub_self, List.set_cons_zero]

/-- Every search stays inside the buffer and the loop ends. The result is NULL if the first string has no `@`, and
otherwise a dictionary of the fields. The items are counted with 32 bits, and a message has at most 512 bytes. -/
theorem uevents_raw2dict_parsed (buf : List UInt8) (hne : buf ≠ [])
    (hlt : (fields (strings (terminated buf))).length < 2 ^ 32) :
    ∃ result, crtx_uevents_raw2dict buf = some result ∧ Parsed (strings (terminated buf)) result := by
  have hmem := flatMap_strings buf.dropLast
  have hlen := strings_length_le (terminated buf)
  have h0 : ∀ s ∈ strings (terminated buf), 0 ∉ s := fun s hs => zero_notMem_strings hs
  have hsize : (terminated buf).length = buf.length := List.length_set
  rw [crtx_uevents_raw2dict, if_neg hne]
  dsimp only
  rw [← terminated_eq hne] at hmem
  cases hs : strings (terminated buf) with
  | nil =>
    rw [hs, terminated_eq hne] at hmem
    simp at hmem
  | cons first rest =>
    rw [hs] at h0 hmem hlen hlt
    rw [List.flatMap_cons, List.append_assoc, List.singleton_append] at hmem
    rw [List.forall_mem_cons] at h0
    rw [hsize, List.length_cons] at hlen
    have hdrop : (terminated buf).drop (first.length + 1) = rest.flatMap fun s => s ++ [0] := by
      rw [← hmem, ← List.drop_drop, List.drop_left, List.drop_one, List.tail_cons]
    by_cases hat : AT ∈ first
    · obtain ⟨i, hi⟩ := strchr_mem hat h0.1 (0 :: rest.flatMap fun s => s ++ [0])
      obtain ⟨dict, hloop, hd⟩ := parseLoop_segments rest h0.2 buf.length [] _ listed_init
        (by simpa [fields] using hlt) (by omega)
      refine ⟨some dict, ?_, by simpa using hat, ?_⟩
      · rw [← hmem, hi, Option.bind_some, if_neg (Option.some_ne_none _), cstr_append h0.1, Option.bind_some, hmem,
          hdrop, hloop]
      · intro d hd'
        cases hd'
        rw [hd.visit, List.nil_append, fields, List.tail_cons, List.forall₂_map_right_iff, List.forall₂_same]
        intro segment hmem'
        obtain ⟨hin, heq⟩ := List.mem_filter.mp hmem'
        exact fieldOf_fieldItem (h0.2 segment hin) (of_decide_eq_true heq)
    · refine ⟨none, ?_, by simpa using hat, fun d hd => by cases hd⟩
      rw [← hmem, strchr_missing (by decide) hat h0.1, Option.bind_some, if_pos rfl]

/-- `a@b`, `A=1`, an empty string, a string without `=`, and `B==` without an end. -/
def added : List UInt8 := [97, 64, 98, 0, 65, 61, 49, 0, 0, 99, 0, 66, 61, 61, 120]

theorem uevents_raw2dict_parsed_added :
    (fields (strings (terminated added)) = [[65, 61, 49], [66, 61, 61]] ∧ added ≠ []) ∧
      ∃ result, crtx_uevents_raw2dict added = some result ∧ Parsed (strings (terminated added)) result :=
  ⟨by decide, uevents_raw2dict_parsed added (by decide) (by decide)⟩

end Libcortex.Uevents
