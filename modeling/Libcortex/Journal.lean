import Libcortex.DictAppend
import Libcortex.DictLocate
import Libcortex.Lib.Memory

/-!
# Entries of the journal

`sd_journal.c` makes an event with a dictionary of every entry. A field of an entry is a key, a `=` and a value, which
are not followed by a zero. The length of the value is computed from the length of the field and the place of the
`=`, which is counted as a byte of the value.
-/

open Libcortex.Lib

namespace Libcortex.Journal

open Dicts
open DictLocate (cstring_append)
open DictWire (cstring)

/-- `'='` -/
def EQUALS : UInt8 := 61

/-- `sizeof(key)` -/
def keySize : Nat := 32

/-! ## The code -/

/-- The memory that `tuple` points to, and `tuple_length`. -/
structure Tuple where
  mem : List UInt8
  tuple_length : BitVec 64

/-- What the loop over the fields of an entry comes to: it reads where there is no memory, it returns from the function,
or it has filled the dictionary. In that case it's also known up to where every field was read. -/
inductive Outcome where
  | fault
  | returned
  | filled (dict : Dict) (reads : List Nat)

/-- The block that the value is copied to has one byte more, which is zero. -/
def itemArgs (data : List UInt8) (data_length : BitVec 64) : Args :=
  ⟨.pointer (data ++ [0]), data_length, CRTX_DIF_CREATE_KEY_COPY.setWidth 32⟩

/-- `SD_JOURNAL_FOREACH_DATA` -/
def foreachData (dict : Dict) (reads : List Nat) : List Tuple → Outcome
  | [] => .filled dict reads
  | t :: ts =>
    match strchrMem EQUALS t.mem with
    | none => .fault
    | some none => .returned
    | some (some sep) =>
      if keySize ≤ sep then foreachData dict (reads ++ [sep + 1]) ts
      else
        let key := cstring (t.mem.take sep ++ [0])
        let data_length := t.tuple_length - BitVec.ofNat 64 sep
        if t.mem.length < sep + 1 + data_length.toNat then .fault
        else
          let data := (t.mem.drop (sep + 1)).take data_length.toNat
          let (dict, rv) := crtx_dict_new_item dict (some 's') (some key) (itemArgs data data_length)
          if rv ≠ 0 then .returned else foreachData dict (reads ++ [sep + 1 + data_length.toNat]) ts

/-- The dictionaries of the events, with what was read. `none` if it reads where there is no memory. -/
def crtx_sd_journal_gen_event_dict : List (List Tuple) → Option (List (Dict × List Nat))
  | [] => some []
  | entry :: entries =>
    match foreachData (crtx_init_dict none 0) [] entry with
    | .fault => none
    | .returned => some []
    | .filled dict reads => (crtx_sd_journal_gen_event_dict entries).map ((dict, reads) :: ·)

/-! ## What has to hold -/

structure Field where
  key : CString
  value : List UInt8
  noSep : EQUALS ∉ key.1
  length_lt : key.1.length + 1 + value.length < 2 ^ 64

def Field.bytes (f : Field) : List UInt8 := f.key.1 ++ EQUALS :: f.value

/-- A field with any bytes after it. -/
def tupleOf (x : Field × List UInt8) : Tuple := ⟨x.1.bytes ++ x.2, BitVec.ofNat 64 x.1.bytes.length⟩

def Short (x : Field × List UInt8) : Prop := x.1.key.1.length < keySize

instance : DecidablePred Short := fun _ => inferInstanceAs (Decidable (_ < _))

/-- The item has the key and the value of the field, and the length of the value. -/
structure Right (x : Field × List UInt8) (di : Item) : Prop where
  type : di.type = some 's'
  key : di.key = some x.1.key
  value : ∃ block, di.value = .pointer block ∧ block.take x.1.value.length = x.1.value
  size : di.size.toNat = x.1.value.length

/-- One item for each field with a short key, and nothing behind a field was read. -/
structure EntryRight (fields : List (Field × List UInt8)) (r : Dict × List Nat) : Prop where
  items : List.Forall₂ Right (fields.filter fun x => Short x) ((visit r.1).map r.1.item)
  reads : List.Forall₂ (fun x n => n ≤ x.1.bytes.length) fields r.2

/-- The function comes to the end of all entries, and each of them is right. -/
def Parses (entries : List (List (Field × List UInt8))) (result : Option (List (Dict × List Nat))) : Prop :=
  ∃ rs, result = some rs ∧ List.Forall₂ EntryRight entries rs

/-! ## One field -/

theorem bytes_length (f : Field) : f.bytes.length = f.key.1.length + 1 + f.value.length := by
  simp [Field.bytes]
  omega

theorem strchr_field (x : Field × List UInt8) : strchrMem EQUALS (tupleOf x).mem = some (some x.1.key.1.length) := by
  rw [tupleOf, Field.bytes, List.append_assoc, List.cons_append]
  exact strchr_found x.1.noSep x.1.key.2 _

theorem data_length_field (x : Field × List UInt8) :
    ((tupleOf x).tuple_length - BitVec.ofNat 64 x.1.key.1.length).toNat = x.1.value.length + 1 := by
  have hlt := x.1.length_lt
  have hlen := bytes_length x.1
  have hle : BitVec.ofNat 64 x.1.key.1.length ≤ (tupleOf x).tuple_length := by
    rw [BitVec.le_def, tupleOf, BitVec.toNat_ofNat, BitVec.toNat_ofNat, Nat.mod_eq_of_lt (by omega),
      Nat.mod_eq_of_lt (by omega)]
    omega
  rw [BitVec.toNat_sub_of_le hle, tupleOf, BitVec.toNat_ofNat, BitVec.toNat_ofNat, Nat.mod_eq_of_lt (by omega),
    Nat.mod_eq_of_lt (by omega)]
  omega

/-- How far a field is read. -/
def readEnd (x : Field × List UInt8) : Nat :=
  if Short x then x.1.bytes.length + 1 else x.1.key.1.length + 1

theorem readEnd_le_iff (x : Field × List UInt8) : readEnd x ≤ x.1.bytes.length ↔ ¬ Short x := by
  have hlen := bytes_length x.1
  unfold readEnd
  split
  · rename_i h
    exact iff_of_false (by omega) fun h' => h' h
  · rename_i h
    exact iff_of_true (by omega) h

/-! ## The loop -/

theorem foreachData_long {x : Field × List UInt8} (h : ¬ Short x) (dict : Dict) (reads : List Nat) (ts : List Tuple) :
    foreachData dict reads (tupleOf x :: ts) = foreachData dict (reads ++ [readEnd x]) ts := by
  rw [foreachData, strchr_field, readEnd, if_neg h]
  exact if_pos (Nat.not_lt.mp h)

theorem foreachData_short {x : Field × List UInt8} (h : Short x) (dict : Dict) (reads : List Nat) (ts : List Tuple) :
    foreachData dict reads (tupleOf x :: ts) =
      match x.2 with
      | [] => .fault
      | b :: _ =>
        let (dict, rv) := crtx_dict_new_item dict (some 's') (some x.1.key)
          (itemArgs (x.1.value ++ [b]) (BitVec.ofNat 64 (x.1.value.length + 1)))
        if rv ≠ 0 then .returned else foreachData dict (reads ++ [readEnd x]) ts := by
  have hdata := data_length_field x
  have hlen := bytes_length x.1
  have hlt := x.1.length_lt
  have hword : (tupleOf x).tuple_length - BitVec.ofNat 64 x.1.key.1.length = BitVec.ofNat 64 (x.1.value.length + 1) := by
    apply BitVec.eq_of_toNat_eq
    rw [hdata, BitVec.toNat_ofNat, Nat.mod_eq_of_lt (by omega)]
  have hmem : (tupleOf x).mem.length = x.1.bytes.length + x.2.length := List.length_append
  have hkey : cstring ((tupleOf x).mem.take x.1.key.1.length ++ [0]) = x.1.key := by
    rw [tupleOf, Field.bytes, List.append_assoc, List.take_left]
    exact Subtype.ext (cstring_append x.1.key.2 [])
  have hdrop : (tupleOf x).mem.drop (x.1.key.1.length + 1) = x.1.value ++ x.2 := by
    rw [tupleOf, Field.bytes, List.append_assoc, List.cons_append, ← List.drop_drop, List.drop_left, List.drop_one,
      List.tail_cons]
  rw [foreachData, strchr_field]
  dsimp only
  rw [if_neg (Nat.not_le.mpr h), hdata, hword, hkey, hdrop, hmem, readEnd, if_pos h]
  cases hx : x.2 with
  | nil =>
    rw [List.length_nil, if_pos (by omega)]
  | cons b after =>
    rw [List.length_cons, if_neg (by omega), List.take_append, List.take_of_length_le (by omega),
      Nat.add_sub_cancel_left, List.take_succ_cons, List.take_zero, hlen]
    rfl

theorem foreachData_reads (fields : List (Field × List UInt8)) :
    ∀ (dict : Dict) (reads : List Nat) {d : Dict} {rs : List Nat},
      foreachData dict reads (fields.map tupleOf) = .filled d rs → rs = reads ++ fields.map readEnd := by
  induction fields with
  | nil =>
    intro dict reads d rs h
    cases h
    simp
  | cons x fields ih =>
    intro dict reads d rs h
    rw [List.map_cons, List.append_cons]
    by_cases hs : Short x
    · rw [List.map_cons, foreachData_short hs] at h
      split at h
      · cases h
      · dsimp only at h
        split at h
        · cases h
        · exact ih _ _ h
    · rw [List.map_cons, foreachData_long hs] at h
      exact ih _ _ h

theorem foreachData_allLong (fields : List (Field × List UInt8)) (h : ∀ x ∈ fields, ¬ Short x) :
    ∀ (dict : Dict) (reads : List Nat),
      foreachData dict reads (fields.map tupleOf) = .filled dict (reads ++ fields.map readEnd) := by
  induction fields with
  | nil =>
    intro dict reads
    rw [List.map_nil, List.map_nil, List.append_nil, foreachData]
  | cons x fields ih =>
    intro dict reads
    rw [List.forall_mem_cons] at h
    rw [List.map_cons, foreachData_long h.1, ih h.2, List.map_cons, List.append_assoc, List.singleton_append]

theorem entryRight_long {fields : List (Field × List UInt8)} {dict : Dict} {reads : List Nat}
    (h : foreachData (crtx_init_dict none 0) [] (fields.map tupleOf) = .filled dict reads)
    (hr : EntryRight fields (dict, reads)) : ∀ x ∈ fields, ¬ Short x := by
  have hreads := hr.reads
  rw [foreachData_reads fields _ _ h, List.nil_append, List.forall₂_map_right_iff, List.forall₂_same] at hreads
  exact fun x hx => (readEnd_le_iff x).mp (hreads x hx)

theorem entryRight_of_long {fields : List (Field × List UInt8)} (h : ∀ x ∈ fields, ¬ Short x) :
    EntryRight fields (crtx_init_dict none 0, fields.map readEnd) := by
  constructor
  · have hnone : fields.filter (fun x => Short x) = [] :=
      List.filter_eq_nil_iff.mpr fun x hx hs => h x hx (of_decide_eq_true hs)
    rw [hnone]
    exact .nil
  · rw [List.forall₂_map_right_iff, List.forall₂_same]
    exact fun x hx => (readEnd_le_iff x).mpr (h x hx)

/-- The entries are right if and only if no field has a key that is short enough to be used at all. -/
theorem gen_event_dict_parses_iff (entries : List (List (Field × List UInt8))) :
    Parses entries (crtx_sd_journal_gen_event_dict (entries.map fun fields => fields.map tupleOf)) ↔
      ∀ fields ∈ entries, ∀ x ∈ fields, ¬ Short x := by
  induction entries with
  | nil => exact iff_of_true ⟨[], rfl, .nil⟩ fun _ h => by cases h
  | cons fields entries ih =>
    rw [List.map_cons, crtx_sd_journal_gen_event_dict, List.forall_mem_cons, ← ih]
    constructor
    · rintro ⟨rs, hrs, hright⟩
      split at hrs
      · cases hrs
      · cases hrs
        cases hright
      · rename_i dict reads hloop
        obtain ⟨rs', hrest, rfl⟩ := Option.map_eq_some_iff.mp hrs
        obtain ⟨hfirst, hrests⟩ := List.forall₂_cons.mp hright
        exact ⟨entryRight_long hloop hfirst, rs', hrest, hrests⟩
    · rintro ⟨hlong, rs, hrs, hright⟩
      rw [foreachData_allLong fields hlong, List.nil_append]
      dsimp only
      rw [hrs]
      exact ⟨_, rfl, .cons (entryRight_of_long hlong) hright⟩

/-- `A=1`. -/
def one : Field := ⟨keyA, [49], by decide, by decide⟩

/-- The value gets a second byte. -/
theorem gen_event_dict_reads_behind :
    ¬ Parses [[(one, [120])]] (crtx_sd_journal_gen_event_dict [[tupleOf (one, [120])]]) := by
  rintro ⟨rs, hrs, hright⟩
  obtain ⟨r, rs', hfirst, -, rfl⟩ := List.forall₂_cons_left_iff.mp hright
  obtain ⟨dict, reads, hloop⟩ : ∃ dict reads,
      foreachData (crtx_init_dict none 0) [] [tupleOf (one, [120])] = .filled dict reads := ⟨_, _, rfl⟩
  rw [crtx_sd_journal_gen_event_dict, hloop] at hrs
  obtain ⟨rs', -, heq⟩ := Option.map_eq_some_iff.mp hrs
  cases heq
  exact @entryRight_long [(one, [120])] _ _ hloop hfirst _ (List.mem_singleton.mpr rfl) (by decide)

end Libcortex.Journal
