import Libcortex.FormatBuffer

/-!
# What formats mean

A format is a sequence of characters and specifiers. Its meaning is a text, and does not depend on buffers or on how
lengths are kept.
-/

open Libcortex.Lib

namespace Libcortex.DictPrintf

open Dicts
open DictLocate (SEPARATOR lookup)

/-! ## Formats -/

/-- `%[key]s`, `%[*sep]s` and `%[key](sub)`, with characters between them. -/
inductive Format where
  | nil
  | char (c : UInt8) (rest : Format)
  | percent (rest : Format)
  | path (key : List UInt8) (rest : Format)
  | all (sep : List UInt8) (rest : Format)
  | group (key : List UInt8) (sub rest : Format)

namespace Format

def print : Format → List UInt8
  | nil => []
  | char c rest => c :: rest.print
  | percent rest => PERCENT :: PERCENT :: rest.print
  | path key rest => keyed key ('s'.toUInt8 :: rest.print)
  | all sep rest => keyed (STAR :: sep) ('s'.toUInt8 :: rest.print)
  | group key sub rest => grouped key sub.print rest.print

/-- A path may not begin as the specifier for all items does. -/
def IsPath (key : List UInt8) : Prop := 0 ∉ key ∧ CLOSE_BRACKET ∉ key ∧ key.head? ≠ some STAR

/-- In a group, a parenthesis closes it. -/
def WellFormed (inside : Bool) : Format → Prop
  | nil => True
  | char c rest => c ≠ 0 ∧ c ≠ PERCENT ∧ (inside → c ≠ CLOSE_GROUP) ∧ rest.WellFormed inside
  | percent rest => rest.WellFormed inside
  | path key rest => IsPath key ∧ rest.WellFormed inside
  | all sep rest => 0 ∉ sep ∧ CLOSE_BRACKET ∉ sep ∧ rest.WellFormed inside
  | group key sub rest => IsPath key ∧ sub.WellFormed true ∧ rest.WellFormed inside

def Flat : Format → Prop
  | nil => True
  | char _ rest => rest.Flat
  | percent rest => rest.Flat
  | path _ rest => rest.Flat
  | all _ rest => rest.Flat
  | group _ _ _ => False

/-- Has it a specifier for all items? -/
def hasAll : Format → Bool
  | nil => false
  | char _ rest => rest.hasAll
  | percent rest => rest.hasAll
  | path _ rest => rest.hasAll
  | all _ _ => true
  | group _ _ rest => rest.hasAll

/-- The format with what is left of its keys where their lengths are kept in an `unsigned char`. -/
def cutKeys : Format → Format
  | nil => nil
  | char c rest => char c rest.cutKeys
  | percent rest => percent rest.cutKeys
  | path key rest => path (cut key) rest.cutKeys
  | all sep rest =>
    match cut (STAR :: sep) with
    | [] => path [] rest.cutKeys
    | _ :: sep => all sep rest.cutKeys
  | group key sub rest => group (cut key) sub rest.cutKeys

end Format

/-! ## Meanings -/

def pathItem (heap : DictId → Dict) (d : DictId) (key : List UInt8) : Option Item :=
  (lookup heap (some d) (key.splitOn SEPARATOR)).map fun r => (heap r.1).item r.2

def pathString (heap : DictId → Dict) (d : DictId) (key : List UInt8) : Option (List UInt8) :=
  ((pathItem heap d key).bind stringItem).map (·.1)

def pathDict (heap : DictId → Dict) (d : DictId) (key : List UInt8) : Option DictId :=
  (pathItem heap d key).bind fun di => if di.type = some 'D' then dictOf di else none

/-- The strings of a dictionary whose items are all there, and are strings. -/
def allStrings (d : Dict) : Option (List CString) :=
  if d.items.length = d.signature_length.toNat then d.items.mapM stringItem else none

/-- `none`: an item is not there, or has another type. -/
def meaning (heap : DictId → Dict) (d : DictId) : Format → Option (List UInt8)
  | .nil => some []
  | .char c rest => (meaning heap d rest).map fun text => c :: text
  | .percent rest => (meaning heap d rest).map fun text => PERCENT :: text
  | .path key rest => (pathString heap d key).bind fun s => (meaning heap d rest).map fun text => s ++ text
  | .all sep rest =>
    (allStrings (heap d)).bind fun ss =>
      (meaning heap d rest).map fun text => sep.intercalate (ss.map (·.1)) ++ text
  | .group key sub rest =>
    (pathDict heap d key).bind fun d' =>
      (meaning heap d' sub).bind fun s => (meaning heap d rest).map fun text => s ++ text

/-! ## What has to hold -/

/-- The call returns 1 and writes inside of the buffer, and the buffer then ends with the text and one zero. -/
def Formats (malloc : Nat → UInt8) (b : Buffer UInt8) (text : List UInt8) (t : Trace) : Prop :=
  t.last = .returned 1 ∧ 0 ∉ text ∧ ∃ b', run (write malloc) t.ops b = some b' ∧ b'.text = b.text ++ (text ++ [0])

def Op.bytes : Op → List UInt8
  | .char b => [b]
  | .string s => s
  | .separator s => s
  | .terminator => [0]

def opsText (w : List Op) : List UInt8 := w.flatMap Op.bytes

/-! ## The text -/

@[simp] theorem opsText_nil : opsText [] = [] := rfl

@[simp] theorem opsText_cons (op : Op) (w : List Op) : opsText (op :: w) = op.bytes ++ opsText w := rfl

@[simp] theorem opsText_append (v w : List Op) : opsText (v ++ w) = opsText v ++ opsText w := List.flatMap_append

theorem write_text {malloc : Nat → UInt8} {b b' : Buffer UInt8} {op : Op} (h : write malloc b op = some b') :
    b'.text = b.text ++ op.bytes := by
  cases op with
  | char c => rw [Buffer.text_store h, Buffer.text_reserve, Op.bytes]
  | string s => rw [Buffer.text_store h, Buffer.text_grow, Op.bytes]
  | separator s => rw [Buffer.text_store h, Op.bytes]
  | terminator => rw [Buffer.text_store h, Buffer.text_reserve, Op.bytes]

theorem run_text {malloc : Nat → UInt8} {b b' : Buffer UInt8} {w : List Op} (h : run (write malloc) w b = some b') :
    b'.text = b.text ++ opsText w := by
  induction w generalizing b with
  | nil =>
    cases h
    simp
  | cons op w ih =>
    rw [run_cons, Option.bind_eq_some_iff] at h
    obtain ⟨c, hc, h⟩ := h
    rw [ih h, write_text hc, opsText_cons, List.append_assoc]

theorem opsText_joined (sep : List UInt8) {n : Nat} {ss : List CString} (hn : n + 1 = ss.length) :
    opsText (joined sep n ss) = sep.intercalate (ss.map (·.1)) := by
  induction ss generalizing n with
  | nil => cases hn
  | cons s ss ih =>
    cases n with
    | zero =>
      obtain rfl : ss = [] := List.length_eq_zero_iff.mp (by simpa using hn.symm)
      simp [joined, Op.bytes]
    | succ n =>
      obtain ⟨s', ss, rfl⟩ := List.exists_cons_of_length_pos (l := ss) (by simp at hn; omega)
      rw [joined, opsText_cons, opsText_cons, ih (by simpa using hn)]
      simp [Op.bytes, List.intercalate_cons_cons]

theorem opsText_joined_nil (n : Nat) (ss : List CString) :
    opsText (joined [] n ss) = ([] : List UInt8).intercalate (ss.map (·.1)) := by
  induction ss generalizing n with
  | nil => rfl
  | cons s ss ih =>
    have htail : opsText (joined [] n (s :: ss)) = s.1 ++ opsText (joined [] (n - 1) ss) := by
      cases n <;> simp [joined, Op.bytes]
    rw [htail, ih]
    cases ss with
    | nil => simp
    | cons s' ss => simp [List.intercalate_cons_cons]

/-! ## One specifier -/

/-- The call returns 1 just if there is a text, and writes it with one zero behind it. -/
structure Agrees (t : Trace) (text : Option (List UInt8)) : Prop where
  printed : ∀ s, text = some s → t.last = .returned 1 ∧ opsText t.ops = s ++ [0]
  refused : text = none → t.last ≠ .returned 1

theorem Agrees.none {t : Trace} (h : t.last ≠ .returned 1) : Agrees t none := ⟨by simp, fun _ => h⟩

theorem Agrees.after {t : Trace} {text : Option (List UInt8)} (h : Agrees t text) (w : List Op) :
    Agrees (Trace.andThen ⟨w, .returned 1⟩ t) (text.map fun s => opsText w ++ s) := by
  rw [andThen_done]
  constructor
  · intro s hs
    obtain ⟨u, hu, rfl⟩ := Option.map_eq_some_iff.mp hs
    obtain ⟨hlast, htext⟩ := h.printed u hu
    exact ⟨hlast, by simp [htext]⟩
  · intro hs
    exact h.refused (Option.map_eq_none_iff.mp hs)

section

variable {malloc : Nat → UInt8} {heap : DictId → Dict} {d : DictId} {f key : List UInt8}

theorem Format.IsPath.cut (h : Format.IsPath key) : Format.IsPath (cut key) := by
  obtain ⟨h0, hk, hstar⟩ := h
  refine ⟨fun hm => h0 (List.mem_of_mem_take hm), fun hm => hk (List.mem_of_mem_take hm), ?_⟩
  rw [DictPrintf.cut, List.head?_take]
  split
  · simp
  · exact hstar

theorem picked_path (h : Format.IsPath key) :
    picked heap (.dict d) key = (pathItem heap d key).elim .missing fun di => .item (heap d) (some di) := by
  have hkey : (DictWire.cstring key).1 = key := congrArg Subtype.val (DictWire.cstring_val ⟨key, h.1⟩)
  unfold picked pathItem
  dsimp only
  rw [if_neg h.2.2, hkey]
  cases lookup heap (some d) (key.splitOn SEPARATOR) <;> rfl

theorem agrees_path {text : Option (List UInt8)} (hk : CLOSE_BRACKET ∉ key) (h : Format.IsPath (cut key))
    (ha : Agrees (dict_printf malloc heap (.dict d) f) text) :
    Agrees (dict_printf malloc heap (.dict d) (keyed key ('s'.toUInt8 :: f)))
      ((pathString heap d (cut key)).bind fun s => text.map fun text => s ++ text) := by
  have hp : picked heap (.dict d) (cut key) =
      (pathItem heap d (cut key)).elim .missing fun di => .item (heap d) (some di) := picked_path h
  unfold pathString
  cases hitem : pathItem heap d (cut key) with
  | none =>
    rw [hitem] at hp
    rw [dict_printf_keyed_stop hk (by rw [hp]; rfl)]
    exact .none (by simp)
  | some di =>
    rw [hitem] at hp
    rw [dict_printf_strings hk hp]
    have htargets : targets (heap d) (cut key) (some di) = [some di] := if_neg h.2.2
    have hsep : separators (heap d) (cut key) = 0 := if_neg fun hs => h.2.2 hs.1
    rw [stringOps, htargets, hsep, Option.bind_some]
    cases hs : stringItem di with
    | none =>
      have hend : stringEnd [some di] ≠ .returned 1 := by
        rw [ne_eq, stringEnd_one]
        simp [blocker, hs]
      exact .none (by rwa [Trace.andThen_last hend])
    | some s =>
      have hend : stringEnd [some di] = .returned 1 := by
        rw [stringEnd_one]
        simp [blocker, hs]
      have hlead : leading [some di] = [s] := by simp [leading, hs]
      rw [hend, hlead]
      simpa [joined, Op.bytes] using ha.after [.string s.1]

theorem leading_map {l : List Item} {ss : List CString} (h : l.mapM stringItem = some ss) :
    leading (l.map some) = ss ∧ blocker (l.map some) = none ∧ ss.length = l.length := by
  induction l generalizing ss with
  | nil =>
    cases h
    simp [leading, blocker]
  | cons di l ih =>
    rw [List.mapM_cons, Option.bind_eq_bind, Option.bind_eq_some_iff] at h
    obtain ⟨s, hs, h⟩ := h
    rw [Option.bind_eq_bind, Option.bind_eq_some_iff] at h
    obtain ⟨ss', hss, h⟩ := h
    cases h
    obtain ⟨hlead, hblock, hlen⟩ := ih hss
    refine ⟨?_, ?_, ?_⟩
    · simp [leading, hs, hlead]
    · rw [List.map_cons, blocker, List.find?_cons_of_neg (by simp [hs])]
      exact hblock
    · simp [hlen]

theorem blocker_map {l : List Item} (h : l.mapM stringItem = none) : blocker (l.map some) ≠ none := by
  induction l with
  | nil => cases h
  | cons di l ih =>
    cases hs : stringItem di with
    | none => simp [blocker, hs]
    | some s =>
      rw [List.map_cons, blocker, List.find?_cons_of_neg (by simp [hs])]
      apply ih
      rw [List.mapM_cons, hs] at h
      cases hl : l.mapM stringItem with
      | none => rfl
      | some ss =>
        rw [hl] at h
        cases h

theorem targets_all {d : Dict} (hlen : d.items.length = d.signature_length.toNat) (hne : d.items ≠ [])
    (hstar : key.head? = some STAR) (di : Option Item) : targets d key di = d.items.map some := by
  have hpos := List.length_pos_iff.mpr hne
  have hmax : max 1 d.signature_length.toNat = d.items.length := by omega
  rw [targets, if_pos hstar, hmax]
  apply List.ext_getElem
  · simp
  · intro i h1 h2
    simp at h1 ⊢

theorem agrees_all {sep : List UInt8} {text : Option (List UInt8)} (hk : CLOSE_BRACKET ∉ key)
    (hcut : cut key = STAR :: sep) (hlen : (heap d).items.length = (heap d).signature_length.toNat)
    (hne : (heap d).items ≠ []) (ha : Agrees (dict_printf malloc heap (.dict d) f) text) :
    Agrees (dict_printf malloc heap (.dict d) (keyed key ('s'.toUInt8 :: f)))
      ((allStrings (heap d)).bind fun ss => text.map fun text => sep.intercalate (ss.map (·.1)) ++ text) := by
  have hp : picked heap (.dict d) (cut key) = .item (heap d) (heap d).items[0]? := by
    rw [hcut]
    rfl
  rw [dict_printf_strings hk hp, stringOps, targets_all hlen hne (by rw [hcut]; rfl), allStrings, if_pos hlen]
  cases hss : (heap d).items.mapM stringItem with
  | none =>
    have hend := mt stringEnd_one.mp (blocker_map hss)
    exact .none (by rwa [Trace.andThen_last hend])
  | some ss =>
    obtain ⟨hlead, hblock, hsslen⟩ := leading_map hss
    rw [stringEnd_one.mpr hblock, hlead, Option.bind_some]
    have htext : opsText (joined (cut key).tail (separators (heap d) (cut key)) ss) =
        sep.intercalate (ss.map (·.1)) := by
      have hpos := List.length_pos_iff.mpr hne
      rw [hcut, List.tail_cons, separators, List.length_cons]
      cases sep with
      | nil => exact opsText_joined_nil _ ss
      | cons c sep =>
        rw [if_pos ⟨rfl, by simp⟩]
        apply opsText_joined
        rw [hsslen, hlen]
        bv_omega
    rw [← htext]
    exact ha.after _

theorem agrees_empty {sep : List UInt8} (hk : CLOSE_BRACKET ∉ key) (hcut : cut key = STAR :: sep)
    (hempty : (heap d).items = []) :
    Agrees (dict_printf malloc heap (.dict d) (keyed key ('s'.toUInt8 :: f))) none := by
  have hp : picked heap (.dict d) (cut key) = .item (heap d) (heap d).items[0]? := by
    rw [hcut]
    rfl
  have hend : stringEnd (targets (heap d) (cut key) (heap d).items[0]?) = .crash := by
    have htargets : ∃ ts, targets (heap d) (cut key) (heap d).items[0]? = none :: ts := by
      rw [targets, if_pos (by rw [hcut]; rfl), hempty]
      obtain ⟨n, hn⟩ : ∃ n, max 1 (heap d).signature_length.toNat = n + 1 := Nat.exists_eq_add_one.mpr (by omega)
      rw [hn, List.range_succ_eq_map]
      exact ⟨_, rfl⟩
    obtain ⟨ts, hts⟩ := htargets
    rw [hts, stringEnd, blocker, List.find?_cons_of_pos (by simp)]
  rw [dict_printf_strings hk hp, hend]
  exact .none (by rw [Trace.andThen_last (by simp)]; simp)

/-! ## A format without groups -/

/-- What the code makes of a format without groups. -/
def flatText (heap : DictId → Dict) (d : DictId) (fmt : Format) : Option (List UInt8) :=
  if fmt.hasAll ∧ (heap d).items = [] then none else meaning heap d fmt

theorem flatText_some {fmt : Format} {text : List UInt8} :
    flatText heap d fmt = some text ↔ (fmt.hasAll → (heap d).items ≠ []) ∧ meaning heap d fmt = some text := by
  unfold flatText
  split
  · rename_i h
    simp [h]
  · rename_i h
    rw [not_and] at h
    exact (and_iff_right h).symm

theorem flatText_char (c : UInt8) (rest : Format) :
    flatText heap d (.char c rest) = (flatText heap d rest).map fun text => c :: text := by
  unfold flatText
  rw [Format.hasAll, meaning]
  split <;> rfl

theorem flatText_percent (rest : Format) :
    flatText heap d (.percent rest) = (flatText heap d rest).map fun text => PERCENT :: text := by
  unfold flatText
  rw [Format.hasAll, meaning]
  split <;> rfl

theorem flatText_path (key : List UInt8) (rest : Format) :
    flatText heap d (.path key rest) =
      (pathString heap d key).bind fun s => (flatText heap d rest).map fun text => s ++ text := by
  unfold flatText
  rw [Format.hasAll, meaning]
  split
  · cases pathString heap d key <;> rfl
  · rfl

theorem flatText_all (h : (heap d).items ≠ []) (sep : List UInt8) (rest : Format) :
    flatText heap d (.all sep rest) =
      (allStrings (heap d)).bind fun ss =>
        (flatText heap d rest).map fun text => sep.intercalate (ss.map (·.1)) ++ text := by
  unfold flatText
  rw [if_neg fun h' => h h'.2, if_neg fun h' => h h'.2, meaning]

theorem head_of_cut {b c : UInt8} {s t : List UInt8} (h : cut (b :: s) = c :: t) : c = b := by
  have hpre : c :: t <+: b :: s := h ▸ List.take_prefix _ _
  exact (List.cons_prefix_cons.mp hpre).1

theorem agrees_flat {inside : Bool} {fmt : Format} (hwf : fmt.WellFormed inside) (hflat : fmt.Flat)
    (hlen : fmt.hasAll → (heap d).items.length = (heap d).signature_length.toNat) :
    Agrees (dict_printf malloc heap (.dict d) fmt.print) (flatText heap d fmt.cutKeys) := by
  induction fmt with
  | nil =>
    refine ⟨fun s hs => ?_, fun hs => ?_⟩
    · cases hs
      exact ⟨rfl, rfl⟩
    · cases hs
  | char c rest ih =>
    have ha := (ih hwf.2.2.2 hflat hlen).after [.char c]
    rw [Format.print, dict_printf_char hwf.2.1, Format.cutKeys, flatText_char]
    exact ha
  | percent rest ih =>
    have ha := (ih hwf hflat hlen).after [.char PERCENT]
    rw [Format.print, dict_printf_percent, Format.cutKeys, flatText_percent]
    exact ha
  | path key rest ih =>
    rw [Format.print, Format.cutKeys, flatText_path]
    exact agrees_path hwf.1.2.1 hwf.1.cut (ih hwf.2 hflat hlen)
  | all sep rest ih =>
    obtain ⟨h0, hb, hrest⟩ := hwf
    have hlen := hlen rfl
    have hk : CLOSE_BRACKET ∉ STAR :: sep := List.not_mem_cons_of_ne_of_not_mem (by decide) hb
    have ha := ih hrest hflat fun _ => hlen
    rw [Format.print, Format.cutKeys]
    -- A length of 256 leaves the empty path.
    cases hcut : cut (STAR :: sep) with
    | nil =>
      have hpath := agrees_path (d := d) hk (by rw [hcut]; exact ⟨by simp, by simp, by simp⟩) ha
      rw [hcut] at hpath
      rw [flatText_path]
      exact hpath
    | cons c sep' =>
      obtain rfl : c = STAR := head_of_cut hcut
      by_cases hempty : (heap d).items = []
      · have hnone : flatText heap d (.all sep' rest.cutKeys) = none := if_pos ⟨rfl, hempty⟩
        dsimp only
        rw [hnone]
        exact agrees_empty hk hcut hempty
      · dsimp only
        rw [flatText_all hempty]
        exact agrees_all hk hcut hlen hempty ha
  | group key sub rest ihsub ih => cases hflat

/-! ## Zeros -/

theorem zero_not_mem_intercalate {sep : List UInt8} (h : 0 ∉ sep) (ss : List CString) :
    0 ∉ sep.intercalate (ss.map (·.1)) := by
  induction ss with
  | nil => simp
  | cons s ss ih =>
    cases ss with
    | nil => simpa using s.2
    | cons s' ss =>
      rw [List.map_cons, List.map_cons, List.intercalate_cons_cons, ← List.map_cons]
      simp only [List.mem_append, not_or]
      exact ⟨⟨s.2, h⟩, ih⟩

theorem zero_not_mem_meaning {inside : Bool} {fmt : Format} (hwf : fmt.WellFormed inside) {text : List UInt8}
    (h : meaning heap d fmt = some text) : 0 ∉ text := by
  induction fmt generalizing inside d text with
  | nil =>
    cases h
    simp
  | char c rest ih =>
    obtain ⟨t, ht, rfl⟩ := Option.map_eq_some_iff.mp h
    simp only [List.mem_cons, not_or]
    exact ⟨hwf.1.symm, ih hwf.2.2.2 ht⟩
  | percent rest ih =>
    obtain ⟨t, ht, rfl⟩ := Option.map_eq_some_iff.mp h
    simp only [List.mem_cons, not_or]
    exact ⟨by decide, ih hwf ht⟩
  | path key rest ih =>
    obtain ⟨s, hs, h⟩ := Option.bind_eq_some_iff.mp h
    obtain ⟨t, ht, rfl⟩ := Option.map_eq_some_iff.mp h
    obtain ⟨s, _, rfl⟩ := Option.map_eq_some_iff.mp hs
    simp only [List.mem_append, not_or]
    exact ⟨s.2, ih hwf.2 ht⟩
  | all sep rest ih =>
    obtain ⟨ss, _, h⟩ := Option.bind_eq_some_iff.mp h
    obtain ⟨t, ht, rfl⟩ := Option.map_eq_some_iff.mp h
    simp only [List.mem_append, not_or]
    exact ⟨zero_not_mem_intercalate hwf.1 ss, ih hwf.2.2 ht⟩
  | group key sub rest ihsub ih =>
    obtain ⟨d', _, h⟩ := Option.bind_eq_some_iff.mp h
    obtain ⟨s, hs, h⟩ := Option.bind_eq_some_iff.mp h
    obtain ⟨t, ht, rfl⟩ := Option.map_eq_some_iff.mp h
    simp only [List.mem_append, not_or]
    exact ⟨ihsub hwf.2.1 hs, ih hwf.2.2 ht⟩

theorem meaning_hasAll {fmt : Format} {text : List UInt8} (h : meaning heap d fmt = some text) (hall : fmt.hasAll) :
    (heap d).items.length = (heap d).signature_length.toNat := by
  induction fmt generalizing text with
  | nil => cases hall
  | char c rest ih =>
    obtain ⟨t, ht, _⟩ := Option.map_eq_some_iff.mp h
    exact ih ht hall
  | percent rest ih =>
    obtain ⟨t, ht, _⟩ := Option.map_eq_some_iff.mp h
    exact ih ht hall
  | path key rest ih =>
    obtain ⟨s, _, h⟩ := Option.bind_eq_some_iff.mp h
    obtain ⟨t, ht, _⟩ := Option.map_eq_some_iff.mp h
    exact ih ht hall
  | all sep rest ih =>
    obtain ⟨ss, hss, _⟩ := Option.bind_eq_some_iff.mp h
    by_contra hne
    rw [allStrings, if_neg hne] at hss
    cases hss
  | group key sub rest ihsub ih =>
    obtain ⟨d', _, h⟩ := Option.bind_eq_some_iff.mp h
    obtain ⟨s, _, h⟩ := Option.bind_eq_some_iff.mp h
    obtain ⟨t, ht, _⟩ := Option.map_eq_some_iff.mp h
    exact ih ht hall

theorem Trace.andThen_returned {t u : Trace} (h : (t.andThen u).last = .returned 1) :
    t.last = .returned 1 ∧ u.last = .returned 1 ∧ (t.andThen u).ops = t.ops ++ u.ops := by
  unfold Trace.andThen at h ⊢
  split at h
  · rename_i ht
    exact ⟨ht, h, by rw [if_pos ht]⟩
  · rename_i ht
    exact absurd h ht

theorem zeros_pos {ds : DictPtr} (h : (dict_printf malloc heap ds f).last = .returned 1) :
    0 < (opsText (dict_printf malloc heap ds f).ops).count 0 := by
  obtain ⟨w, _, hw⟩ := (dict_printf_call malloc heap ds f).prints h
  rw [hw]
  simp [Op.bytes]

theorem picked_of_returned {ds : DictPtr} {e : List UInt8} (hk : CLOSE_BRACKET ∉ key)
    (h : (dict_printf malloc heap ds (keyed key e)).last = .returned 1) :
    ∃ d di, picked heap ds (cut key) = .item d di := by
  cases hp : picked heap ds (cut key) with
  | missing =>
    rw [dict_printf_keyed_stop hk (by rw [hp]; rfl)] at h
    cases h
  | crash =>
    rw [dict_printf_keyed_stop hk (by rw [hp]; rfl)] at h
    cases h
  | item d di => exact ⟨d, di, rfl⟩

theorem zeros_group {ds : DictPtr} {sub : List UInt8} (hk : CLOSE_BRACKET ∉ key)
    (h : (dict_printf malloc heap ds (grouped key sub f)).last = .returned 1) :
    2 ≤ (opsText (dict_printf malloc heap ds (grouped key sub f)).ops).count 0 := by
  obtain ⟨d, di, hp⟩ := picked_of_returned hk h
  -- The group ends at the first parenthesis, wherever that is.
  have hmem : CLOSE_GROUP ∈ sub ++ CLOSE_GROUP :: f := by simp
  obtain ⟨sub', rest, hsplit, hs⟩ := List.eq_append_cons_of_mem hmem
  have hgroup : grouped key sub f = grouped key sub' rest := by rw [grouped, hsplit, grouped]
  rw [hgroup] at h ⊢
  cases di with
  | none =>
    have hno : Nowhere heap ds (grouped key sub' rest) := ⟨key, _, hk, rfl, .inr ⟨d, sub', rest, hp, hs, rfl⟩⟩
    rw [dict_printf_nowhere hno] at h
    cases h
  | some di =>
    rw [dict_printf_grouped hk hs hp] at h ⊢
    obtain ⟨h1, h2, hops⟩ := Trace.andThen_returned h
    have := zeros_pos h1
    have := zeros_pos h2
    rw [hops, opsText_append, List.count_append]
    omega

theorem zeros_after {t u : Trace} (h : (t.andThen u).last = .returned 1)
    (hu : u.last = .returned 1 → 2 ≤ (opsText u.ops).count 0) : 2 ≤ (opsText (t.andThen u).ops).count 0 := by
  obtain ⟨_, h2, hops⟩ := Trace.andThen_returned h
  have := hu h2
  rw [hops, opsText_append, List.count_append]
  omega

theorem zeros_strings {ds : DictPtr} (hk : CLOSE_BRACKET ∉ key)
    (h : (dict_printf malloc heap ds (keyed key ('s'.toUInt8 :: f))).last = .returned 1)
    (hrest : (dict_printf malloc heap ds f).last = .returned 1 →
      2 ≤ (opsText (dict_printf malloc heap ds f).ops).count 0) :
    2 ≤ (opsText (dict_printf malloc heap ds (keyed key ('s'.toUInt8 :: f))).ops).count 0 := by
  obtain ⟨d, di, hp⟩ := picked_of_returned hk h
  rw [dict_printf_strings hk hp] at h ⊢
  exact zeros_after h hrest

theorem zeros_of_not_flat {ds : DictPtr} {inside : Bool} {fmt : Format} (hwf : fmt.WellFormed inside)
    (hflat : ¬ fmt.Flat) (h : (dict_printf malloc heap ds fmt.print).last = .returned 1) :
    2 ≤ (opsText (dict_printf malloc heap ds fmt.print).ops).count 0 := by
  induction fmt with
  | nil => exact absurd trivial hflat
  | char c rest ih =>
    rw [Format.print, dict_printf_char hwf.2.1] at h ⊢
    exact zeros_after h (ih hwf.2.2.2 hflat)
  | percent rest ih =>
    rw [Format.print, dict_printf_percent] at h ⊢
    exact zeros_after h (ih hwf hflat)
  | path key rest ih => exact zeros_strings hwf.1.2.1 h (ih hwf.2 hflat)
  | all sep rest ih =>
    have hk : CLOSE_BRACKET ∉ STAR :: sep := List.not_mem_cons_of_ne_of_not_mem (by decide) hwf.2.1
    exact zeros_strings hk h (ih hwf.2.2 hflat)
  | group key sub rest ihsub ih => exact zeros_group hwf.1.2.1 h

/-! ## The result -/

theorem Formats.snaprintf {ds : DictPtr} {b : Buffer UInt8} {text : List UInt8}
    (h : Formats malloc b text (dict_printf malloc heap ds f)) :
    ∃ b', crtx_dict_snaprintf malloc heap (some b) f ds = (some b', .returned 0) ∧
      b'.text = b.text ++ (text ++ [0]) := by
  obtain ⟨hlast, _, b', hrun, htext⟩ := h
  refine ⟨b', ?_, htext⟩
  simp only [crtx_dict_snaprintf, Option.getD_some, hrun, hlast]
  rfl

/-- A format that has a meaning is formatted as it says just if it has no group, its keys mean the same where a length
of 256 counts as none, a dictionary without items is not printed, and the separators fit. -/
theorem format_meaning_iff (malloc : Nat → UInt8) (heap : DictId → Dict) (d : DictId) (fmt : Format) (b : Buffer UInt8)
    {text : List UInt8} (hwf : fmt.WellFormed false) (hm : meaning heap d fmt = some text) :
    Formats malloc b text (dict_printf malloc heap (.dict d) fmt.print) ↔
      fmt.Flat ∧ (fmt.cutKeys.hasAll → (heap d).items ≠ []) ∧ meaning heap d fmt.cutKeys = some text ∧
        ¬ Overflows heap b.room (.dict d) fmt.print := by
  have h0 : 0 ∉ text := zero_not_mem_meaning hwf hm
  have hagree : fmt.Flat → Agrees (dict_printf malloc heap (.dict d) fmt.print) (flatText heap d fmt.cutKeys) :=
    fun hflat => agrees_flat hwf hflat (meaning_hasAll hm)
  constructor
  · rintro ⟨hlast, _, b', hrun, htext⟩
    rw [run_text hrun, List.append_right_inj] at htext
    have hflat : fmt.Flat := by
      by_contra hflat
      have hzeros := zeros_of_not_flat hwf hflat hlast
      rw [htext, List.count_append, List.count_eq_zero_of_not_mem h0] at hzeros
      simp at hzeros
    cases hft : flatText heap d fmt.cutKeys with
    | none => exact absurd hlast ((hagree hflat).refused hft)
    | some s =>
      have hs := ((hagree hflat).printed s hft).2
      rw [htext, List.append_left_inj] at hs
      obtain ⟨hitems, hmean⟩ := flatText_some.mp hft
      exact ⟨hflat, hitems, hs ▸ hmean, fits_iff.mp (run_isSome.mp (by rw [hrun]; rfl))⟩
  · rintro ⟨hflat, hitems, hmean, hfits⟩
    obtain ⟨hlast, htext⟩ := (hagree hflat).printed text (flatText_some.mpr ⟨hitems, hmean⟩)
    have hsome : (run (write malloc) (dict_printf malloc heap (.dict d) fmt.print).ops b).isSome :=
      run_isSome.mpr (fits_iff.mpr hfits)
    obtain ⟨b', hrun⟩ := Option.isSome_iff_exists.mp hsome
    refine ⟨hlast, h0, b', hrun, ?_⟩
    rw [run_text hrun, htext]

end

/-- `%[a]s!` -/
def onePath : Format := .path keyA.1 (.char '!'.toUInt8 .nil)

theorem onePath_wellFormed : onePath.WellFormed false := by
  refine ⟨⟨?_, ?_, ?_⟩, ?_, ?_, ?_, trivial⟩ <;> decide

theorem onePath_meaning : meaning (fun _ => oneString) 0 onePath = some (literal "x!") := by decide

theorem format_meaning_iff_onePath :
    Formats (fun _ => 0) emptyBuffer (literal "x!")
        (dict_printf (fun _ => 0) (fun _ => oneString) (.dict 0) onePath.print) ↔
      onePath.Flat ∧ (onePath.cutKeys.hasAll → oneString.items ≠ []) ∧
        meaning (fun _ => oneString) 0 onePath.cutKeys = some (literal "x!") ∧
        ¬ Overflows (fun _ => oneString) 0 (.dict 0) onePath.print :=
  format_meaning_iff (fun _ => 0) (fun _ => oneString) 0 onePath emptyBuffer onePath_wellFormed onePath_meaning

/-- A dictionary with `oneString` under the key "a". -/
def oneDict : Dict :=
  { signature := some ⟨literal "D", by decide⟩
    signature_length := 1
    items := [⟨some 'D', CRTX_DIF_LAST_ITEM, some keyA, 0, .dict 1⟩] }

def twoDicts (d : DictId) : Dict := if d = 0 then oneDict else oneString

/-- `%[a](x)y` -/
def oneGroup : Format := .group keyA.1 (.char 'x'.toUInt8 .nil) (.char 'y'.toUInt8 .nil)

/-- The meaning is "xy", and there is a zero between them. -/
theorem one_group_embeds_zero :
    oneGroup.WellFormed false ∧ meaning twoDicts 0 oneGroup = some (literal "xy") ∧
      opsText (dict_printf (fun _ => 0) twoDicts (.dict 0) oneGroup.print).ops = [120, 0, 121, 0] ∧
      ¬ Formats (fun _ => 0) emptyBuffer (literal "xy")
        (dict_printf (fun _ => 0) twoDicts (.dict 0) oneGroup.print) := by
  have htext : opsText (dict_printf (fun _ => 0) twoDicts (.dict 0) oneGroup.print).ops = [120, 0, 121, 0] := by decide
  refine ⟨?_, by decide, htext, ?_⟩
  · refine ⟨⟨?_, ?_, ?_⟩, ⟨?_, ?_, ?_, trivial⟩, ?_, ?_, ?_, trivial⟩ <;> decide
  · rintro ⟨_, _, b', hrun, hb'⟩
    rw [run_text hrun, htext, List.append_right_inj] at hb'
    revert hb'
    decide

end Libcortex.DictPrintf
