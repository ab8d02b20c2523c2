import Libcortex.Dicts
import Libcortex.DictWire

/-!
# Paths in nested dictionaries

`crtx_dict_locate` of `dict.c` copies one segment of the path after the other into a buffer that has room for the whole
path, and looks it up in the dictionary that the segments before have led to.
-/

namespace Libcortex.DictLocate

open Dicts
open DictWire (cstring)

/-- `'/'` -/
def SEPARATOR : UInt8 := 47

/-- A pointer to an item: its dictionary, and its place there. -/
abbrev ItemRef := DictId × Nat

/-! ## The code -/

/-- How far away the character is. `none`: the string ends first. -/
def strchr (p : List UInt8) (c : UInt8) : Option Nat := p.findIdx? (· = c)

/-- `none`: the buffer is too small. -/
def memcpy (buf src : List UInt8) : Option (List UInt8) :=
  if src.length ≤ buf.length then some (src ++ buf.drop src.length) else none

def strcpy (buf src : List UInt8) : Option (List UInt8) := memcpy buf (src ++ [0])

def setByte (buf : List UInt8) (i : Nat) (b : UInt8) : Option (List UInt8) :=
  if i < buf.length then some (buf.set i b) else none

/-- Copies the segment at `p`, which ends at `sep`. -/
def copySegment (buf p : List UInt8) (sep : Option Nat) : Option (List UInt8) :=
  match sep with
  | some n => (memcpy buf (p.take n)).bind fun buf => setByte buf n 0
  | none => strcpy buf p

/-- `crtx_get_item` with a dictionary that may be NULL. -/
def getItem (heap : DictId → Dict) (dict : Option DictId) (key : CString) : Option ItemRef :=
  dict.bind fun d => (crtx_get_item (heap d) key).map fun i => (d, i)

/-- The loop, from the rest `p` of the path on. `none`: it did not end in time, or wrote behind the buffer. -/
def locateLoop (heap : DictId → Dict) : Nat → List UInt8 → Option DictId → List UInt8 → Option (Option ItemRef)
  | 0, _, _, _ => none
  | fuel + 1, buf, dict, p =>
    let sep := strchr p SEPARATOR
    (copySegment buf p sep).bind fun buf =>
      match getItem heap dict (cstring buf), sep with
      | none, _ => some none
      | some r, none => some (some r)
      | some r, some n =>
        let di := (heap r.1).item r.2
        if di.type ≠ some 'D' then some none else locateLoop heap fuel buf (dictOf di) (p.drop (n + 1))

/-- `malloc` leaves any bytes in the buffer. Every round takes some of the path. -/
def crtx_dict_locate (malloc : Nat → UInt8) (heap : DictId → Dict) (dict : Option DictId) (path : CString) :
    Option (Option ItemRef) :=
  let buflen := path.1.length + 1
  locateLoop heap buflen ((List.range buflen).map malloc) dict path.1

/-! ## What has to hold -/

def hasKey (key : List UInt8) (di : Item) : Bool := di.key.any fun k => k.1 = key

/-- The first item with the key. -/
def firstItem (d : Dict) (key : List UInt8) : Option Nat :=
  (d.items.take d.signature_length.toNat).findIdx? (hasKey key)

/-- The item that the segments lead to. -/
def lookup (heap : DictId → Dict) : Option DictId → List (List UInt8) → Option ItemRef
  | none, _ => none
  | some _, [] => none
  | some d, [key] => (firstItem (heap d) key).map fun i => (d, i)
  | some d, key :: keys =>
    match firstItem (heap d) key with
    | none => none
    | some i =>
      let di := (heap d).item i
      if di.type = some 'D' then lookup heap (dictOf di) keys else none

/-! ## Segments -/

theorem strchr_some {p : List UInt8} {c : UInt8} {n : Nat} (h : strchr p c = some n) :
    n < p.length ∧ p = p.take n ++ c :: p.drop (n + 1) ∧ c ∉ p.take n := by
  obtain ⟨hn, hc, hbefore⟩ := List.findIdx?_eq_some_iff_getElem.mp h
  have hc : p[n] = c := of_decide_eq_true hc
  refine ⟨hn, ?_, fun hmem => ?_⟩
  · rw [← hc, ← List.drop_eq_getElem_cons hn, List.take_append_drop]
  · obtain ⟨j, hj, hjc⟩ := List.mem_take_iff_getElem.mp hmem
    exact hbefore j (by omega) (decide_eq_true hjc)

theorem strchr_none {p : List UInt8} {c : UInt8} (h : strchr p c = none) : c ∉ p := by
  intro hmem
  have := List.findIdx?_eq_none_iff.mp h c hmem
  simp at this

theorem cstring_append {s : List UInt8} (h : 0 ∉ s) (rest : List UInt8) : (cstring (s ++ 0 :: rest)).1 = s := by
  have hs : ∀ b ∈ s, decide (b ≠ 0) = true := fun b hb => decide_eq_true fun hz => h (hz ▸ hb)
  change (s ++ 0 :: rest).takeWhile _ = s
  rw [List.takeWhile_append_of_pos hs]
  simp

theorem memcpy_fits {buf src : List UInt8} (h : src.length ≤ buf.length) :
    memcpy buf src = some (src ++ buf.drop src.length) := if_pos h

theorem copySegment_some {buf p : List UInt8} (h0 : 0 ∉ p) (hlen : p.length < buf.length) {n : Nat}
    (hn : n < p.length) :
    ∃ buf', copySegment buf p (some n) = some buf' ∧ buf'.length = buf.length ∧ (cstring buf').1 = p.take n := by
  have htake : (p.take n).length = n := List.length_take_of_le hn.le
  have hset : (p.take n ++ buf.drop n).set n 0 = p.take n ++ 0 :: buf.drop (n + 1) := by
    have hdrop : buf.drop n = buf[n] :: buf.drop (n + 1) := List.drop_eq_getElem_cons (by omega)
    rw [List.set_append_right _ _ htake.le, htake, Nat.sub_self, hdrop, List.set_cons_zero]
  refine ⟨p.take n ++ 0 :: buf.drop (n + 1), ?_, ?_, ?_⟩
  · have hcopy : memcpy buf (p.take n) = some (p.take n ++ buf.drop n) := by
      rw [memcpy_fits (by omega), htake]
    change (memcpy buf (p.take n)).bind _ = _
    rw [hcopy, Option.bind_some, setByte, if_pos (by simp; omega), hset]
  · simp
    omega
  · exact cstring_append (fun hmem => h0 (List.mem_of_mem_take hmem)) _

theorem copySegment_none {buf p : List UInt8} (h0 : 0 ∉ p) (hlen : p.length < buf.length) :
    ∃ buf', copySegment buf p none = some buf' ∧ (cstring buf').1 = p := by
  refine ⟨p ++ 0 :: buf.drop (p.length + 1), ?_, cstring_append h0 _⟩
  unfold copySegment strcpy
  rw [memcpy_fits (by simp; omega)]
  simp

/-! ## Items -/

theorem hasKey_iff {key : CString} {di : Item} : hasKey key.1 di ↔ di.key = some key := by
  unfold hasKey
  cases di.key <;> simp [Subtype.ext_iff]

theorem item_key {d : Dict} {i : Nat} {key : CString} :
    (d.item i).key = some key ↔ ∃ h : i < d.items.length, hasKey key.1 d.items[i] := by
  by_cases h : i < d.items.length
  · rw [item_getElem h, ← hasKey_iff]
    exact ⟨fun hk => ⟨h, hk⟩, fun ⟨_, hk⟩ => hk⟩
  · rw [item_beyond (Nat.le_of_not_lt h)]
    simp [h, Item.zero]

theorem get_item_eq (d : Dict) (key : CString) : crtx_get_item d key = firstItem d key.1 := by
  ext i
  unfold crtx_get_item firstItem
  rw [List.find?_range_eq_some, List.findIdx?_eq_some_iff_getElem]
  simp only [decide_eq_true_eq, Bool.not_eq_true', decide_eq_false_iff_not, item_key, List.mem_range, List.length_take,
    List.getElem_take, lt_min_iff]
  constructor
  · rintro ⟨⟨hi, hk⟩, hn, hbefore⟩
    exact ⟨⟨hn, hi⟩, hk, fun j hj hkj => hbefore j hj ⟨by omega, hkj⟩⟩
  · rintro ⟨⟨hn, hi⟩, hk, hbefore⟩
    exact ⟨⟨hi, hk⟩, hn, fun j hj ⟨_, hkj⟩ => hbefore j hj hkj⟩

theorem lookup_cons (heap : DictId → Dict) (dict : Option DictId) (key : CString) {keys : List (List UInt8)}
    (h : keys ≠ []) :
    lookup heap dict (key.1 :: keys) =
      (getItem heap dict key).bind fun r =>
        let di := (heap r.1).item r.2
        if di.type = some 'D' then lookup heap (dictOf di) keys else none := by
  obtain ⟨k, ks, rfl⟩ := List.exists_cons_of_ne_nil h
  cases dict with
  | none => rfl
  | some d =>
    rw [lookup, getItem, Option.bind_some, get_item_eq]
    · cases firstItem (heap d) key.1 <;> rfl
    · simp

theorem lookup_single (heap : DictId → Dict) (dict : Option DictId) (key : CString) :
    lookup heap dict [key.1] = getItem heap dict key := by
  cases dict with
  | none => rfl
  | some d => rw [lookup, getItem, Option.bind_some, get_item_eq]

theorem locateLoop_eq (heap : DictId → Dict) {fuel : Nat} {buf p : List UInt8} (dict : Option DictId) (h0 : 0 ∉ p)
    (hbuf : p.length < buf.length) (hfuel : p.length < fuel) :
    locateLoop heap fuel buf dict p = some (lookup heap dict (p.splitOn SEPARATOR)) := by
  induction fuel generalizing buf dict p with
  | zero => omega
  | succ fuel ih =>
    rw [locateLoop]
    cases hsep : strchr p SEPARATOR with
    | none =>
      obtain ⟨buf', hcopy, hkey⟩ := copySegment_none h0 hbuf
      rw [List.splitOn_eq_singleton (strchr_none hsep), hcopy, Option.bind_some, ← hkey, lookup_single]
      cases getItem heap dict (cstring buf') <;> rfl
    | some n =>
      obtain ⟨hn, hp, hnot⟩ := strchr_some hsep
      obtain ⟨buf', hcopy, hlen, hkey⟩ := copySegment_some h0 hbuf hn
      have hsplit : p.splitOn SEPARATOR = (cstring buf').1 :: (p.drop (n + 1)).splitOn SEPARATOR := by
        rw [hkey]
        conv_lhs => rw [hp, List.splitOn_append_cons_self_of_not_mem hnot]
      rw [hsplit, hcopy, Option.bind_some, lookup_cons heap dict _ (List.splitOn_ne_nil _ _)]
      cases hr : getItem heap dict (cstring buf') with
      | none => rfl
      | some r =>
        have hdrop : 0 ∉ p.drop (n + 1) := fun hmem => h0 (List.mem_of_mem_drop hmem)
        have hshort : (p.drop (n + 1)).length < p.length := by
          rw [List.length_drop]
          omega
        rw [Option.bind_some]
        dsimp only
        by_cases ht : ((heap r.1).item r.2).type = some 'D'
        · rw [if_neg (not_not.mpr ht), if_pos ht]
          exact ih _ hdrop (by omega) (by omega)
        · rw [if_pos ht, if_neg ht]

theorem dict_locate_eq (malloc : Nat → UInt8) (heap : DictId → Dict) (dict : Option DictId) (path : CString) :
    crtx_dict_locate malloc heap dict path = some (lookup heap dict (path.1.splitOn SEPARATOR)) :=
  locateLoop_eq heap dict path.2 (by simp) (Nat.lt_succ_self _)

end Libcortex.DictLocate
