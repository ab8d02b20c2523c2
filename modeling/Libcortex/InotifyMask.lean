import Libcortex.DictArgs
import Libcortex.DictWire
import Libcortex.Inotify
import Libcortex.Lib.Memory

/-!
# Masks of inotify events

The bits of a mask have names, but the table doesn't have one for every bit. `inotify.c` prints the names of a mask
into a buffer, and lists them in a dictionary. The dictionary gets an item for every bit, with a name or without.
-/

open Libcortex.Lib

namespace Libcortex.InotifyMask

open Dicts
open DictWire (cstring)
open Inotify (InotifyEvent)

/-! ## The table -/

/-- An entry of `crtx_inotify_event_dict`. -/
structure EventName where
  type : BitVec 32
  name : CString
deriving DecidableEq

def EventName.name_size (e : EventName) : Nat := e.name.1.length + 1

/-- `EV(name)` -/
def EV (type : BitVec 32) (name : String) : EventName := ⟨type, cstring (literal name)⟩

def crtx_inotify_event_dict : List EventName :=
  [EV 0x1 "ACCESS", EV 0x2 "MODIFY", EV 0x4 "ATTRIB", EV 0x8 "CLOSE_WRITE", EV 0x10 "CLOSE_NOWRITE", EV 0x20 "OPEN",
    EV 0x40 "MOVED_FROM", EV 0x80 "MOVED_TO", EV 0x100 "CREATE", EV 0x200 "DELETE", EV 0x400 "DELETE_SELF",
    EV 0x2000000 "DONT_FOLLOW", EV 0x4000000 "EXCL_UNLINK", EV 0x20000000 "MASK_ADD", EV 0x80000000 "ONESHOT",
    EV 0x1000000 "ONLYDIR", EV 0x8000 "IGNORED", EV 0x40000000 "ISDIR", EV 0x4000 "Q_OVERFLOW", EV 0x2000 "UNMOUNT"]

def InMask (mask : BitVec 32) (e : EventName) : Prop := e.type &&& mask ≠ 0

instance (mask : BitVec 32) : DecidablePred (InMask mask) := fun _ => inferInstanceAs (Decidable (_ ≠ _))

/-- The names of the known bits, in the order of the table. -/
def knownNames (mask : BitVec 32) : List EventName := crtx_inotify_event_dict.filter fun e => InMask mask e

/-! ## The text -/

/-- `' '` -/
def SPACE : UInt8 := 32

/-- `"%s "` -/
def EventName.print (e : EventName) : List UInt8 := e.name.1 ++ [SPACE]

/-- The loop that prints. `off` is `pos - string`, and the size that is left is a `size_t`, too. `none`: it writes
outside of the buffer. -/
def printLoop (mask : BitVec 32) (string_size : BitVec 64) : List EventName → List UInt8 → Nat →
    Option (List UInt8 × Nat)
  | [], string, off => some (string, off)
  | e :: dict, string, off =>
    if InMask mask e then
      (snprintf string off (string_size - BitVec.ofNat 64 off).toNat e.print).bind fun string =>
        printLoop mask string_size dict string (off + e.print.length)
    else printLoop mask string_size dict string off

/-- The last space is overwritten, if there is one. -/
def endString (string : List UInt8) (off : Nat) : Option (List UInt8) :=
  if 0 < off then overwrite string (off - 1) [0] else some string

/-- With a buffer. The result is what is returned, and the buffer. -/
def crtx_inotify_mask2string (mask : BitVec 32) (string : List UInt8) (string_size : BitVec 64) :
    Option (Int × List UInt8) :=
  if mask ≠ 0 then
    (printLoop mask string_size crtx_inotify_event_dict string 0).bind fun (string, off) =>
      (endString string off).map fun string => (1, string)
  else some (0, string)

/-- Without a buffer. What is returned, and `*string_size`. -/
def mask2size (mask : BitVec 32) (string_size : Nat) : Int × Nat :=
  if mask ≠ 0 then (1, ((knownNames mask).map fun e => e.name_size - 1 + 1).sum) else (0, string_size)

/-! ## The dictionary -/

def CRTX_DIF_DONT_FREE_DATA : BitVec 8 := 2

def CRTX_POPCOUNT32 (x : BitVec 32) : Nat := (List.range 32).countP fun i => x.getLsbD i

def EventName.item (e : EventName) : Item where
  type := some 's'
  flags := CRTX_DIF_DONT_FREE_DATA
  key := none
  size := BitVec.ofNat 64 e.name_size
  value := .string (some e.name)

/-- The loop that fills the items, with `di = &items[i]`. `none`: it writes outside of the array. -/
def listLoop (mask : BitVec 32) : List EventName → Dict → Nat → Option (Dict × Nat)
  | [], d, i => some (d, i)
  | e :: dict, d, i =>
    if InMask mask e then
      if i < d.items.length then listLoop mask dict (setItem d i e.item) (i + 1) else none
    else listLoop mask dict d i

/-- `mask_dict`. The number of bits goes through an `unsigned char`. -/
def maskDict (mask : BitVec 32) : Option Dict :=
  let mlen := BitVec.ofNat 8 (CRTX_POPCOUNT32 mask)
  (listLoop mask crtx_inotify_event_dict (crtx_init_dict none (mlen.setWidth 32)) 0).bind fun (d, i) => markEnd d i

def keyWd : CString := ⟨literal "wd", by decide⟩
def keyMask : CString := ⟨literal "mask", by decide⟩
def keyCookie : CString := ⟨literal "cookie", by decide⟩
def keyLen : CString := ⟨literal "len", by decide⟩
def keyName : CString := ⟨literal "name", by decide⟩

/-- `"iDuus"`, with its arguments. `mask_dict` has a number and a size, and `name` is the copy of the name. -/
def eventArgs (iev : InotifyEvent) (mask_dict : DictId) (mask_size : BitVec 64) (name : Option CString) : Quads :=
  [(⟨'i'.toUInt8, rfl⟩, ⟨some keyWd, ⟨.word (iev.wd.signExtend 64), 4, 0⟩⟩),
    (⟨'D'.toUInt8, rfl⟩, ⟨some keyMask, ⟨.dict mask_dict, mask_size, 0⟩⟩),
    (⟨'u'.toUInt8, rfl⟩, ⟨some keyCookie, ⟨.word (iev.cookie.setWidth 64), 4, 0⟩⟩),
    (⟨'u'.toUInt8, rfl⟩, ⟨some keyLen, ⟨.word (BitVec.ofNat 64 iev.name.length), 4, 0⟩⟩),
    (⟨'s'.toUInt8, rfl⟩, ⟨some keyName, ⟨.string name, BitVec.ofNat 64 iev.name.length, 0⟩⟩)]

/-- `crtx_stracpy`: the copy ends at the first zero, or else behind the bytes of the name. -/
def copyName (name : List UInt8) : Option CString := if name = [] then none else some (cstring name)

/-- The two dictionaries. `sizeOf` is the size of the memory block for that many items. -/
def crtx_inotify_to_dict (abi : Abi) (sizeOf : Nat → BitVec 64) (iev : InotifyEvent) (id : DictId) :
    Option (Dict × Dict) :=
  (maskDict iev.mask).bind fun mask_dict =>
    let args := eventArgs iev id (sizeOf mask_dict.items.length) (copyName iev.name)
    match crtx_create_dict_va abi args.signature args.va with
    | some (some dict) => some (mask_dict, dict)
    | _ => none

/-! ## What has to hold -/

/-- The known names, with a space between each two. -/
def joined (mask : BitVec 32) : List UInt8 := [SPACE].intercalate ((knownNames mask).map fun e => e.name.1)

/-- The text was written inside the buffer. -/
def Prints (mask : BitVec 32) (n : Nat) (result : Option (Int × List UInt8)) : Prop :=
  ∃ ret string text, result = some (ret, string) ∧ string.length = n ∧ cstr string = some text ∧ text <+: joined mask

/-- The items that a walk finds, and what they hold. -/
structure Lists (mask : BitVec 32) (d : Dict) : Prop where
  items : (visit d).map (fun i => clearLast (d.item i)) = (knownNames mask).map EventName.item
  last : ∀ i ∈ (visit d).getLast?, (d.item i).isLast = true

/-! ## Printing -/

/-- What all the names need, each with a space. -/
def textSize (mask : BitVec 32) : Nat := ((knownNames mask).map fun e => e.print.length).sum

theorem mask2size_eq {mask : BitVec 32} (h : mask ≠ 0) (n : Nat) : mask2size mask n = (1, textSize mask) := by
  rw [mask2size, if_pos h, textSize]
  simp [EventName.name_size, EventName.print]

/-- What has been printed is in the buffer. If there was no room for the end, it is where the last space should be. -/
def Printed (text string : List UInt8) : Prop :=
  (∃ rest, string = text ++ rest) ∨ text ≠ [] ∧ string = text.dropLast ++ [0]

theorem print_pos (e : EventName) : 0 < e.print.length := by simp [EventName.print]

theorem printed_snprintf {text string : List UInt8} (h : Printed text string) (e : EventName)
    (hroom : text.length + e.print.length ≤ string.length) :
    ∃ string', snprintf string text.length (string.length - text.length) e.print = some string' ∧
      string'.length = string.length ∧ Printed (text ++ e.print) string' := by
  have hpos := print_pos e
  rcases h with ⟨rest, rfl⟩ | ⟨hne, rfl⟩
  · rw [List.length_append] at hroom
    rw [snprintf, List.length_append, Nat.add_sub_cancel_left, if_neg (by omega)]
    rcases Nat.lt_or_ge e.print.length rest.length with hlt | hge
    · -- The end of the string follows the space.
      have hlen : (rest.take (e.print.length + 1)).length = (e.print ++ [0]).length := by
        rw [List.length_take_of_le hlt, List.length_append, List.length_singleton]
      have hwrite := overwrite_append hlen text (rest.drop (e.print.length + 1))
      rw [List.take_append_drop] at hwrite
      rw [List.take_of_length_le (by omega)]
      refine ⟨_, hwrite, length_overwrite hwrite ▸ List.length_append, .inl ⟨0 :: rest.drop (e.print.length + 1), ?_⟩⟩
      simp
    · -- It takes the place of the space.
      have hlen : rest.length = (e.print.dropLast ++ [0]).length := by
        rw [List.length_append, List.length_dropLast, List.length_singleton]
        omega
      have hwrite := overwrite_append hlen text []
      have htake : e.print.take (rest.length - 1) = e.print.dropLast := by
        rw [List.dropLast_eq_take]
        congr 1
        omega
      rw [List.append_nil] at hwrite
      rw [htake]
      have hne : e.print ≠ [] := List.ne_nil_of_length_pos hpos
      refine ⟨_, hwrite, length_overwrite hwrite ▸ List.length_append, .inr ⟨by simp [hne], ?_⟩⟩
      rw [List.dropLast_append_of_ne_nil hne, List.append_nil, List.append_assoc]
  · have := List.length_pos_iff.mpr hne
    rw [List.length_append, List.length_dropLast, List.length_singleton] at hroom
    omega

/-- What a part of the table prints. -/
def printed (mask : BitVec 32) (dict : List EventName) : List UInt8 :=
  (dict.filter fun e => InMask mask e).flatMap EventName.print

theorem printed_cons {mask : BitVec 32} {e : EventName} (h : InMask mask e) (dict : List EventName) :
    printed mask (e :: dict) = e.print ++ printed mask dict := by
  rw [printed, List.filter_cons_of_pos (by simpa using h), List.flatMap_cons, printed]

theorem printed_skip {mask : BitVec 32} {e : EventName} (h : ¬ InMask mask e) (dict : List EventName) :
    printed mask (e :: dict) = printed mask dict := by
  rw [printed, List.filter_cons_of_neg (by simpa using h), printed]

theorem length_printed (mask : BitVec 32) : (printed mask crtx_inotify_event_dict).length = textSize mask := by
  rw [printed, List.length_flatMap, textSize, knownNames]

theorem size_left {off : Nat} {string_size : BitVec 64} (h : off ≤ string_size.toNat) :
    (string_size - BitVec.ofNat 64 off).toNat = string_size.toNat - off := by
  have hlt := string_size.isLt
  rw [BitVec.toNat_sub, BitVec.toNat_ofNat, Nat.mod_eq_of_lt (a := off) (by omega)]
  omega

theorem printLoop_fits (mask : BitVec 32) (string_size : BitVec 64) (dict : List EventName) :
    ∀ text string, string.length = string_size.toNat → Printed text string →
      text.length + (printed mask dict).length ≤ string.length →
      ∃ string', printLoop mask string_size dict string text.length =
          some (string', (text ++ printed mask dict).length) ∧
        string'.length = string.length ∧ Printed (text ++ printed mask dict) string' := by
  induction dict with
  | nil => exact fun text string _ h _ => ⟨string, by simp [printLoop, printed], rfl, by simpa [printed] using h⟩
  | cons e dict ih =>
    intro text string hn h hroom
    rw [printLoop]
    split
    · rename_i hin
      rw [printed_cons hin] at hroom ⊢
      rw [List.length_append] at hroom
      obtain ⟨string', hwrite, hlen, h'⟩ := printed_snprintf h e (by omega)
      rw [size_left (by omega), ← hn, hwrite, Option.bind_some, ← List.length_append, ← List.append_assoc]
      obtain ⟨string'', hloop, hlen', h''⟩ :=
        ih (text ++ e.print) string' (hlen.trans hn) h' (by rw [List.length_append]; omega)
      exact ⟨string'', hloop, hlen'.trans hlen, h''⟩
    · rename_i hin
      rw [printed_skip hin] at hroom ⊢
      exact ih text string hn h hroom

theorem printLoop_some {mask : BitVec 32} {string_size : BitVec 64} (dict : List EventName) :
    ∀ {string string' : List UInt8} {off off' : Nat}, printLoop mask string_size dict string off = some (string', off') →
      off' = off + (printed mask dict).length ∧ string'.length = string.length := by
  induction dict with
  | nil =>
    intro string string' off off' h
    cases h
    exact ⟨rfl, rfl⟩
  | cons e dict ih =>
    intro string string' off off' h
    rw [printLoop] at h
    split at h
    · rename_i hin
      obtain ⟨string₁, hwrite, h⟩ := Option.bind_eq_some_iff.mp h
      obtain ⟨hoff, hlen⟩ := ih h
      rw [printed_cons hin, List.length_append]
      exact ⟨by omega, hlen.trans (length_snprintf hwrite)⟩
    · rename_i hin
      rw [printed_skip hin]
      exact ih h

theorem printLoop_unknown {mask : BitVec 32} (string_size : BitVec 64) (dict : List EventName) :
    ∀ (string : List UInt8) (off : Nat), dict.filter (fun e => InMask mask e) = [] →
      printLoop mask string_size dict string off = some (string, off) := by
  induction dict with
  | nil => exact fun _ _ _ => rfl
  | cons e dict ih =>
    intro string off h
    rw [List.filter_eq_nil_iff, List.forall_mem_cons] at h
    rw [printLoop, if_neg (by simpa using h.1)]
    exact ih string off (List.filter_eq_nil_iff.mpr h.2)

/-! ## The end of the text -/

theorem dropLast_spaces (l : List (List UInt8)) :
    (l.flatMap fun x => x ++ [SPACE]).dropLast = [SPACE].intercalate l := by
  induction l with
  | nil => rfl
  | cons x l ih =>
    cases l with
    | nil => simp [List.intercalate]
    | cons y l =>
      rw [List.intercalate_cons_cons, ← ih, List.flatMap_cons, List.dropLast_append_of_ne_nil (by simp)]

theorem joined_eq (mask : BitVec 32) : joined mask = (printed mask crtx_inotify_event_dict).dropLast := by
  rw [joined, ← dropLast_spaces, List.flatMap_map]
  rfl

theorem zero_notMem_joined (mask : BitVec 32) : 0 ∉ joined mask := by
  rw [joined_eq]
  intro h
  obtain ⟨e, -, he⟩ := List.mem_flatMap.mp (List.mem_of_mem_dropLast h)
  rcases List.mem_append.mp he with h | h
  · exact e.name.2 h
  · simp [SPACE] at h

theorem endString_printed {text string : List UInt8} (h : Printed text string) (hne : text ≠ []) :
    ∃ rest, endString string text.length = some (text.dropLast ++ 0 :: rest) ∧
      (text.dropLast ++ 0 :: rest).length = string.length := by
  have hpos := List.length_pos_iff.mpr hne
  have hlast := List.dropLast_append_getLast hne
  have hlen : text.length - 1 = text.dropLast.length := List.length_dropLast.symm
  rw [endString, if_pos hpos, hlen]
  rcases h with ⟨rest, rfl⟩ | ⟨-, rfl⟩
  · refine ⟨rest, ?_, ?_⟩
    · have hwrite := @overwrite_append _ [text.getLast hne] [0] rfl text.dropLast rest
      rw [← List.append_assoc, hlast] at hwrite
      rw [hwrite]
      simp
    · simp
      omega
  · refine ⟨[], ?_, by simp⟩
    have hwrite := @overwrite_append UInt8 [0] [0] rfl text.dropLast []
    rw [List.append_nil, List.append_nil] at hwrite
    exact hwrite

theorem cstr_eq_nil {mem : List UInt8} : cstr mem = some [] ↔ mem.head? = some 0 := by
  constructor
  · intro h
    obtain ⟨-, rest, rfl⟩ := cstr_some h
    rfl
  · intro h
    obtain ⟨rest, rfl⟩ := List.head?_eq_some_iff.mp h
    exact cstr_append (List.not_mem_nil) rest

theorem printed_eq_nil {mask : BitVec 32} : printed mask crtx_inotify_event_dict = [] ↔ knownNames mask = [] := by
  rw [printed, ← knownNames, List.flatMap_eq_nil_iff, List.eq_nil_iff_forall_not_mem]
  exact forall₂_congr fun e _ => iff_false_intro (List.ne_nil_of_length_pos (print_pos e))

theorem mask2string_unknown {mask : BitVec 32} (h : knownNames mask = []) (string : List UInt8)
    (string_size : BitVec 64) :
    ∃ ret, crtx_inotify_mask2string mask string string_size = some (ret, string) := by
  unfold crtx_inotify_mask2string
  split
  · rw [printLoop_unknown string_size _ string 0 h]
    exact ⟨1, rfl⟩
  · exact ⟨0, rfl⟩

theorem mask_ne_zero {mask : BitVec 32} (h : knownNames mask ≠ []) : mask ≠ 0 := by
  rintro rfl
  exact h (by decide)

/-- The text is right if and only if the buffer has the size that the function itself asks for. If there is no name to
print, nothing is written, so the buffer must hold an empty string before. -/
theorem mask2string_prints_iff (mask : BitVec 32) (string : List UInt8) (string_size : BitVec 64)
    (hn : string.length = string_size.toNat) :
    Prints mask string.length (crtx_inotify_mask2string mask string string_size) ↔
      textSize mask ≤ string.length ∧ (knownNames mask = [] → string.head? = some 0) := by
  by_cases hknown : knownNames mask = []
  · obtain ⟨ret, hcall⟩ := mask2string_unknown hknown string string_size
    have hsize : textSize mask = 0 := by rw [textSize, hknown]; rfl
    have hjoined : joined mask = [] := by rw [joined, hknown]; rfl
    rw [hcall, hsize, and_iff_right (Nat.zero_le _), imp_iff_right hknown, ← cstr_eq_nil]
    constructor
    · rintro ⟨ret', string', text, heq, -, htext, hpre⟩
      cases heq
      rw [hjoined, List.prefix_nil] at hpre
      rwa [hpre] at htext
    · exact fun h => ⟨ret, string, [], rfl, rfl, h, List.nil_prefix⟩
  · have hne : printed mask crtx_inotify_event_dict ≠ [] := mt printed_eq_nil.mp hknown
    rw [crtx_inotify_mask2string, if_pos (mask_ne_zero hknown), ← length_printed,
      and_iff_left fun h => absurd h hknown]
    constructor
    · rintro ⟨ret, string', text, hcall, -⟩
      obtain ⟨⟨string₁, off⟩, hloop, hcall⟩ := Option.bind_eq_some_iff.mp hcall
      obtain ⟨hoff, hlen⟩ := printLoop_some _ hloop
      obtain ⟨string₂, hend, -⟩ := Option.map_eq_some_iff.mp hcall
      rw [Nat.zero_add] at hoff
      have hpos := List.length_pos_iff.mpr hne
      rw [endString, if_pos (by omega)] at hend
      have hfits := (overwrite_some hend).1
      rw [List.length_singleton] at hfits
      omega
    · intro hfits
      obtain ⟨string₁, hloop, hlen, h₁⟩ := printLoop_fits mask string_size crtx_inotify_event_dict [] string hn
        (.inl ⟨string, rfl⟩) (by rwa [List.length_nil, Nat.zero_add])
      rw [List.nil_append] at hloop h₁
      obtain ⟨rest, hend, hlen'⟩ := endString_printed h₁ hne
      refine ⟨1, _, joined mask, ?_, hlen'.trans hlen, ?_, List.prefix_refl _⟩
      · rw [List.length_nil] at hloop
        rw [hloop, Option.bind_some]
        exact congrArg (Option.map _) hend
      · rw [← joined_eq]
        exact cstr_append (zero_notMem_joined mask) rest

/-- Two names into a buffer with the size that is asked for. -/
theorem mask2string_prints_two :
    Prints 0x3 14 (crtx_inotify_mask2string 0x3 (List.replicate 14 120) 14) :=
  (mask2string_prints_iff 0x3 (List.replicate 14 120) 14 rfl).mpr ⟨by decide, by decide⟩

/-- `"ACCESS"` has no room, and the zero is written behind the buffer. -/
theorem mask2string_overrun : ¬ Prints 0x1 4 (crtx_inotify_mask2string 0x1 (List.replicate 4 120) 4) := by
  rintro ⟨ret, string, text, hcall, -⟩
  have hnone : crtx_inotify_mask2string 0x1 (List.replicate 4 120) 4 = none := by decide
  rw [hnone] at hcall
  cases hcall

/-! ## Listing -/

/-- Every type is a bit of its own. -/
def bitOf (e : EventName) : Nat := e.type.toNat.log2

theorem type_eq_twoPow : ∀ e ∈ crtx_inotify_event_dict, bitOf e < 32 ∧ e.type = BitVec.twoPow 32 (bitOf e) := by decide

theorem bitOf_nodup : (crtx_inotify_event_dict.map bitOf).Nodup := by decide

theorem inMask_iff {mask : BitVec 32} {e : EventName} (h : e ∈ crtx_inotify_event_dict) :
    InMask mask e ↔ mask.getLsbD (bitOf e) := by
  obtain ⟨hlt, htype⟩ := type_eq_twoPow e h
  rw [InMask, htype, BitVec.twoPow_and]
  split
  · rename_i hbit
    refine iff_of_true (fun h0 => ?_) hbit
    have := congrArg (fun x => x.getLsbD (bitOf e)) h0
    simp [hlt] at this
  · rename_i hbit
    exact iff_of_false (fun h => h rfl) hbit

theorem knownNames_length_le (mask : BitVec 32) : (knownNames mask).length ≤ CRTX_POPCOUNT32 mask := by
  rw [CRTX_POPCOUNT32, List.countP_eq_length_filter, ← List.length_map (f := bitOf)]
  have hsub : (knownNames mask).map bitOf ⊆ (List.range 32).filter fun i => mask.getLsbD i := by
    intro i hi
    obtain ⟨e, he, rfl⟩ := List.mem_map.mp hi
    obtain ⟨hmem, hin⟩ := List.mem_filter.mp he
    rw [List.mem_filter, List.mem_range]
    exact ⟨(type_eq_twoPow e hmem).1, (inMask_iff hmem).mp (of_decide_eq_true hin)⟩
  have hnodup : ((knownNames mask).map bitOf).Nodup :=
    bitOf_nodup.sublist (List.filter_sublist.map bitOf)
  exact (hnodup.subperm hsub).length_le

theorem popcount_le (mask : BitVec 32) : CRTX_POPCOUNT32 mask ≤ 32 := by
  have h := List.countP_le_length (p := fun i => mask.getLsbD i) (l := List.range 32)
  rwa [List.length_range] at h

theorem listLoop_fits (mask : BitVec 32) (dict : List EventName) :
    ∀ (d : Dict) (i : Nat), i + (dict.filter fun e => InMask mask e).length ≤ d.items.length →
      listLoop mask dict d i =
        some ({ d with items := d.items.take i ++ (dict.filter fun e => InMask mask e).map EventName.item ++
                          d.items.drop (i + (dict.filter fun e => InMask mask e).length) },
          i + (dict.filter fun e => InMask mask e).length) := by
  induction dict with
  | nil =>
    intro d i _
    simp [listLoop]
  | cons e dict ih =>
    intro d i hroom
    rw [listLoop]
    split
    · rename_i hin
      rw [List.filter_cons_of_pos (by simpa using hin), List.length_cons] at hroom ⊢
      have hlt : i < d.items.length := by omega
      have htake : (d.items.set i e.item).take (i + 1) = d.items.take i ++ [e.item] := by
        rw [List.take_add_one, List.getElem?_set_self hlt, List.take_set_of_le (by omega), Option.toList_some]
      rw [if_pos hlt, ih (setItem d i e.item) (i + 1) (by rw [setItem_length]; omega)]
      simp only [setItem, htake, List.map_cons, List.append_assoc, List.singleton_append, Nat.add_assoc, Nat.add_comm 1]
      rw [List.drop_set_of_lt (by omega)]
    · rename_i hin
      rw [List.filter_cons_of_neg (by simpa using hin)] at hroom ⊢
      exact ih d i hroom

/-! ## The walk over the list -/

theorem visitFrom_stop {d : Dict} {k : Nat} (hlen : k ≤ d.signature_length.toNat)
    (hlast : ∀ i, i + 1 = k → (d.item i).isLast = true) (hbefore : ∀ i, i + 1 < k → (d.item i).isLast = false)
    (fuel : Nat) : ∀ i, i < k → k ≤ i + fuel → visitFrom d fuel (some i) = List.range' i (k - i) := by
  induction fuel with
  | zero =>
    intro i _ _
    omega
  | succ fuel ih =>
    intro i hi hfuel
    obtain ⟨m, hm⟩ : ∃ m, k - i = m + 1 := ⟨k - i - 1, by omega⟩
    rw [visitFrom, hm, List.range'_succ]
    congr 1
    unfold crtx_get_next_item
    rcases Nat.lt_or_ge (i + 1) k with hlt | hge
    · rw [if_pos ⟨hbefore i hlt, by omega⟩, ih (i + 1) hlt (by omega)]
      congr 1
      omega
    · obtain rfl : m = 0 := by omega
      rw [if_neg (by rw [hlast i (by omega)]; simp)]
      cases fuel <;> rfl

theorem visit_stop {d : Dict} {k : Nat} (hpos : 0 < k) (hitems : k ≤ d.items.length)
    (hlen : k ≤ d.signature_length.toNat) (hlast : ∀ i, i + 1 = k → (d.item i).isLast = true)
    (hbefore : ∀ i, i + 1 < k → (d.item i).isLast = false) : visit d = List.range k := by
  have hne : d.items ≠ [] := List.ne_nil_of_length_pos (by omega)
  rw [visit, crtx_get_first_item, if_neg hne,
    visitFrom_stop hlen hlast hbefore _ 0 hpos (by omega), Nat.sub_zero, List.range_eq_range']

theorem init_toNat (mask : BitVec 32) :
    ((BitVec.ofNat 8 (CRTX_POPCOUNT32 mask)).setWidth 32).toNat = CRTX_POPCOUNT32 mask := by
  have := popcount_le mask
  rw [BitVec.toNat_setWidth, BitVec.toNat_ofNat]
  omega

theorem maskDict_known {mask : BitVec 32} (h : knownNames mask ≠ []) :
    ∃ d, maskDict mask = some d ∧ (knownNames mask).length ≤ d.items.length ∧
      (knownNames mask).length ≤ d.signature_length.toNat ∧
      ∀ i (hi : i < (knownNames mask).length),
        d.item i = atEnd (i + 1 = (knownNames mask).length) (knownNames mask)[i].item := by
  have hle := knownNames_length_le mask
  have hpos := List.length_pos_iff.mpr h
  have hn := init_toNat mask
  dsimp only [maskDict]
  generalize (BitVec.ofNat 8 (CRTX_POPCOUNT32 mask)).setWidth 32 = n at hn ⊢
  have hinit : (crtx_init_dict none n).items.length = n.toNat := by simp [crtx_init_dict]
  rw [listLoop_fits mask crtx_inotify_event_dict (crtx_init_dict none n) 0
    (by rw [Nat.zero_add, ← knownNames]; omega), Option.bind_some, ← knownNames, Nat.zero_add, List.take_zero,
    List.nil_append]
  generalize hd : Dict.mk _ _ _ = d
  have hitems : d.items = (knownNames mask).map EventName.item ++
      (crtx_init_dict none n).items.drop (knownNames mask).length := by rw [← hd]
  have hlength : d.items.length = n.toNat := by
    rw [hitems, List.length_append, List.length_map, List.length_drop, hinit]
    omega
  have hsig : d.signature_length = n := by rw [← hd]; rfl
  obtain ⟨d', hend, hlen', hsig', hitem⟩ := markEnd_item (d := d) hpos (by omega)
  refine ⟨d', hend, by omega, by rw [hsig', hsig]; omega, ?_⟩
  intro i hi
  rw [hitem, Dict.item, hitems, List.getElem?_append_left (by rwa [List.length_map]),
    List.getElem?_eq_getElem (by rwa [List.length_map]), Option.getD_some, List.getElem_map]

theorem item_isLast (e : EventName) : e.item.isLast = false := by
  show (CRTX_DIF_DONT_FREE_DATA &&& CRTX_DIF_LAST_ITEM != 0) = false
  decide

theorem orLast_item_isLast (e : EventName) : (orLast e.item).isLast = true := by
  show ((CRTX_DIF_DONT_FREE_DATA ||| CRTX_DIF_LAST_ITEM) &&& CRTX_DIF_LAST_ITEM != 0) = true
  decide

theorem clearLast_atEnd (b : Bool) (e : EventName) : clearLast (atEnd b e.item) = e.item := by
  have hflags : ∀ b : Bool, (if b then CRTX_DIF_DONT_FREE_DATA ||| CRTX_DIF_LAST_ITEM else CRTX_DIF_DONT_FREE_DATA) &&&
      ~~~CRTX_DIF_LAST_ITEM = CRTX_DIF_DONT_FREE_DATA := by decide
  cases b with
  | false => exact congrArg (fun flags => { e.item with flags }) (hflags false)
  | true => exact congrArg (fun flags => { e.item with flags }) (hflags true)

theorem listLoop_unknown {mask : BitVec 32} (dict : List EventName) (h : dict.filter (fun e => InMask mask e) = [])
    (d : Dict) (i : Nat) : listLoop mask dict d i = some (d, i) := by
  induction dict with
  | nil => rfl
  | cons e dict ih =>
    rw [List.filter_eq_nil_iff, List.forall_mem_cons] at h
    rw [listLoop, if_neg (by simpa using h.1)]
    exact ih (List.filter_eq_nil_iff.mpr h.2)

theorem maskDict_unknown {mask : BitVec 32} (h : knownNames mask = []) : maskDict mask = none := by
  dsimp only [maskDict]
  rw [listLoop_unknown _ h]
  rfl

theorem maskDict_lists {mask : BitVec 32} (h : knownNames mask ≠ []) : ∃ d, maskDict mask = some d ∧ Lists mask d := by
  obtain ⟨d, hd, hitems, hlen, hitem⟩ := maskDict_known h
  have hpos := List.length_pos_iff.mpr h
  have hlast : ∀ i, i + 1 = (knownNames mask).length → (d.item i).isLast = true := by
    intro i hi
    rw [hitem i (by omega), decide_eq_true hi]
    exact orLast_item_isLast _
  have hbefore : ∀ i, i + 1 < (knownNames mask).length → (d.item i).isLast = false := by
    intro i hi
    rw [hitem i (by omega), decide_eq_false (by omega)]
    exact item_isLast _
  have hvisit := visit_stop hpos hitems hlen hlast hbefore
  refine ⟨d, hd, ?_, ?_⟩
  · rw [hvisit]
    apply List.ext_getElem (by simp)
    intro i hi _
    rw [List.length_map, List.length_range] at hi
    rw [List.getElem_map, List.getElem_map, List.getElem_range, hitem i hi, clearLast_atEnd]
  · intro i hi
    rw [hvisit, List.getLast?_range, if_neg (by omega), Option.mem_def, Option.some.injEq] at hi
    exact hlast i (by omega)

theorem create_event_dict (abi : Abi) (iev : InotifyEvent) (mask_dict : DictId) (mask_size : BitVec 64)
    (name : Option CString) :
    ∃ d, crtx_create_dict_va abi (eventArgs iev mask_dict mask_size name).signature
      (eventArgs iev mask_dict mask_size name).va = some (some d) := ⟨_, rfl⟩

/-- The dictionary lists the names of the mask if and only if there is one. -/
theorem inotify_to_dict_lists_iff (abi : Abi) (sizeOf : Nat → BitVec 64) (iev : InotifyEvent) (id : DictId) :
    (∃ mask_dict dict, crtx_inotify_to_dict abi sizeOf iev id = some (mask_dict, dict) ∧ Lists iev.mask mask_dict) ↔
      ∃ e ∈ crtx_inotify_event_dict, InMask iev.mask e := by
  have hiff : (∃ e ∈ crtx_inotify_event_dict, InMask iev.mask e) ↔ knownNames iev.mask ≠ [] := by
    simp [knownNames]
  rw [hiff]
  constructor
  · rintro ⟨mask_dict, dict, hcall, -⟩ hknown
    obtain ⟨d, hd, -⟩ := Option.bind_eq_some_iff.mp hcall
    rw [maskDict_unknown hknown] at hd
    cases hd
  · intro h
    obtain ⟨mask_dict, hd, hlists⟩ := maskDict_lists h
    obtain ⟨dict, hdict⟩ := create_event_dict abi iev id (sizeOf mask_dict.items.length) (copyName iev.name)
    refine ⟨mask_dict, dict, ?_, hlists⟩
    dsimp only [crtx_inotify_to_dict]
    rw [hd, Option.bind_some, hdict]

/-- The watched directory itself was moved. The table has no name for that. -/
def moved : InotifyEvent where
  wd := 1
  mask := 0x800
  cookie := 0
  name := []
  len_lt := by decide

theorem inotify_to_dict_moved :
    ¬ ∃ mask_dict dict, crtx_inotify_to_dict .zero (fun _ => 0) moved 0 = some (mask_dict, dict) ∧
      Lists moved.mask mask_dict := by
  rintro ⟨mask_dict, dict, hcall, -⟩
  obtain ⟨d, hd, -⟩ := Option.bind_eq_some_iff.mp hcall
  rw [maskDict_unknown (by decide)] at hd
  cases hd

end Libcortex.InotifyMask
