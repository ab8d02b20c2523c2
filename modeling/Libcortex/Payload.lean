import Mathlib.Logic.Function.Basic
import Libcortex.DictInvariant
import Libcortex.Lib.Run

/-!
# The payload of an event

`core.c`: an event has one item `data`. If it gets raw data and a dictionary, both are moved into a new dictionary
of two or more items, the raw data first. The setter of the dictionary finds the two again by the key of `data`.
The setter of the raw data looks for the wrong key, and wraps them up once more.
-/

open Libcortex.Lib

namespace Libcortex.Payload

open Dicts

/-! ## The functions -/

def crtx_raw_data : CString := ⟨literal "crtx_raw_data", by decide⟩
def crtx_dict_data : CString := ⟨literal "crtx_dict_data", by decide⟩

/-- `event->data` and the dictionaries. Those from `next` on do not exist yet. -/
structure St where
  data : Item
  heap : DictId → Dict
  next : DictId

/-- `event->data` is pointed to the dictionary `d`, which is new. -/
def St.upgrade (s : St) (d : Dict) : St where
  data := ⟨some 'D', 0, some crtx_dict_data, 0, .dict s.next⟩
  heap := Function.update s.heap s.next d
  next := s.next + 1

/-- `none`: the code follows a pointer that is none. -/
def crtx_event_set_raw_data (s : St) (type : Char) (a : Args) : Option St :=
  if s.data.type = some 'D' then
    if s.data.key = some crtx_raw_data then do
      let u ← dictOf s.data
      let d := s.heap u
      return { s with
        heap := Function.update s.heap u
          (setItem d 0 (crtx_fill_data_item (d.item 0) (some type) (some crtx_raw_data) a).1) }
    else
      let d := crtx_init_dict none 2
      let d := setItem d 0 (crtx_fill_data_item (d.item 0) (some type) (some crtx_raw_data) a).1
      let d := setItem d 1 s.data
      some (s.upgrade d)
  else some { s with data := (crtx_fill_data_item s.data (some type) (some crtx_raw_data) a).1 }

/-- `2 + n_additional_fields` -/
def nItems (n_additional_fields : BitVec 8) : BitVec 32 := 2 + n_additional_fields.setWidth 32

/-- The second item becomes `data_dict`, and there is room for `n` items. -/
def putDict (d : Dict) (data_dict : DictId) (n : BitVec 32) : Dict :=
  let d := setItem d 1 { d.item 1 with value := .dict data_dict }
  if d.signature_length.toNat < n.toNat then (crtx_resize_dict d (n.setWidth 64)).1 else d

def crtx_event_set_dict_data (s : St) (data_dict : DictId) (n_additional_fields : BitVec 8) : Option St :=
  let n := nItems n_additional_fields
  if s.data.type ≠ some 'D' then
    let d := crtx_init_dict none n
    let d := setItem d 0 s.data
    let d := setItem d 1
      { d.item 1 with key := some crtx_dict_data, type := some 'D', value := .dict data_dict }
    some (s.upgrade d)
  else do
    let key ← s.data.key
    if key = crtx_dict_data then
      let u ← dictOf s.data
      return { s with heap := Function.update s.heap u (putDict (s.heap u) data_dict n) }
    else return { s with data := { s.data with value := .dict data_dict } }

/-- The raw pointer and the dictionary, NULL is 0 and `none`. For data that is no dictionary, `crtx_event_raw2dict`
returns -1 at once. -/
def crtx_event_get_payload (s : St) : Option (BitVec 64 × Option DictId) :=
  if s.data.type = some 'D' then do
    let key ← s.data.key
    if key = crtx_dict_data then
      let u ← dictOf s.data
      return (wordOf ((s.heap u).item 0), dictOf ((s.heap u).item 1))
    else return (0, dictOf s.data)
  else if s.data.type = some 'p' then some (wordOf s.data, none)
  else some (0, none)

/-! ## Sequences of calls -/

inductive Call where
  | raw (pointer : BitVec 64) (size : BitVec 64) (flags : BitVec 32)
  | dict (d : DictId) (n_additional_fields : BitVec 8)
deriving DecidableEq

def step (s : St) : Call → Option St
  | .raw pointer size flags => crtx_event_set_raw_data s 'p' ⟨.word pointer, size, flags⟩
  | .dict d n => crtx_event_set_dict_data s d n

/-- A fresh event, while the dictionaries below `next` exist. -/
def fresh (heap : DictId → Dict) (next : DictId) : St := { data := .zero, heap, next }

def Call.pointer? : Call → Option (BitVec 64)
  | .raw pointer _ _ => some pointer
  | .dict _ _ => none

def Call.dict? : Call → Option DictId
  | .raw _ _ _ => none
  | .dict d _ => some d

/-- The pointer of the last `crtx_event_set_raw_data`. -/
def lastRaw (calls : List Call) : BitVec 64 := (calls.filterMap Call.pointer?).getLast?.getD 0

/-- The dictionary of the last `crtx_event_set_dict_data`. -/
def lastDict (calls : List Call) : Option DictId := (calls.filterMap Call.dict?).getLast?

/-- No call sets a dictionary, or the last call does. -/
def DictLast (calls : List Call) : Prop :=
  (∀ c ∈ calls, c.dict? = none) ∨ ∃ c ∈ calls.getLast?, c.dict? ≠ none

instance (calls : List Call) : Decidable (DictLast calls) :=
  inferInstanceAs (Decidable ((∀ _ ∈ _, _) ∨ ∃ _ ∈ _, _))

@[simp] theorem lastRaw_raw (calls : List Call) (p z : BitVec 64) (f : BitVec 32) :
    lastRaw (calls ++ [.raw p z f]) = p := by
  simp [lastRaw, Call.pointer?]

@[simp] theorem lastRaw_dict (calls : List Call) (d : DictId) (n : BitVec 8) :
    lastRaw (calls ++ [.dict d n]) = lastRaw calls := by
  simp [lastRaw, Call.pointer?]

@[simp] theorem lastDict_raw (calls : List Call) (p z : BitVec 64) (f : BitVec 32) :
    lastDict (calls ++ [.raw p z f]) = lastDict calls := by
  simp [lastDict, Call.dict?]

@[simp] theorem lastDict_dict (calls : List Call) (d : DictId) (n : BitVec 8) :
    lastDict (calls ++ [.dict d n]) = some d := by
  simp [lastDict, Call.dict?]

theorem lastDict_eq_none {calls : List Call} : lastDict calls = none ↔ ∀ c ∈ calls, c.dict? = none := by
  simp [lastDict]

/-! ## What the event holds -/

/-- No dictionary yet: `data` is empty or has the raw data. -/
structure Flat (s : St) (raw : BitVec 64) : Prop where
  type : s.data.type = none ∧ raw = 0 ∨ s.data.type = some 'p'
  pointer : wordOf s.data = raw

/-- `data` is the dictionary `u`, with the raw data first and then the dictionary `x`. -/
structure Packed (s : St) (u : DictId) (raw : BitVec 64) (x : DictId) : Prop where
  type : s.data.type = some 'D'
  key : s.data.key = some crtx_dict_data
  dict : dictOf s.data = some u
  length : (s.heap u).items.length = (s.heap u).signature_length.toNat
  two : 2 ≤ (s.heap u).items.length
  first : wordOf ((s.heap u).item 0) = raw
  second : dictOf ((s.heap u).item 1) = some x
  old : u < s.next

theorem Flat.get {s : St} {raw : BitVec 64} (h : Flat s raw) : crtx_event_get_payload s = some (raw, none) := by
  unfold crtx_event_get_payload
  rcases h.type with ⟨ht, hraw⟩ | ht
  · simp [ht, hraw]
  · simp [ht, h.pointer]

theorem Packed.get {s : St} {u x : DictId} {raw : BitVec 64} (h : Packed s u raw x) :
    crtx_event_get_payload s = some (raw, some x) := by
  simp [crtx_event_get_payload, h.type, h.key, h.dict, h.first, h.second]

/-! ## What the setters do -/

/-- Whatever the flags say, raw data of type `p` is the pointer itself. -/
theorem fill_pointer (di : Item) (w size : BitVec 64) (flags : BitVec 32) :
    wordOf (crtx_fill_data_item di (some 'p') (some crtx_raw_data) ⟨.word w, size, flags⟩).1 = w ∧
      (crtx_fill_data_item di (some 'p') (some crtx_raw_data) ⟨.word w, size, flags⟩).1.type = some 'p' := by
  have hdata : ∀ di, di.type = some 'p' → copyData di = di := by
    intro di h
    simp [copyData, h]
  have hfill : (crtx_fill_data_item di (some 'p') (some crtx_raw_data) ⟨.word w, size, flags⟩).1 =
      copyKey (copyData ⟨some 'p', flags.setWidth 8, some crtx_raw_data, size, .word w⟩) := rfl
  obtain ⟨flags', hkey⟩ := copyKey_fields ⟨some 'p', flags.setWidth 8, some crtx_raw_data, size, .word w⟩
  rw [hfill, hdata _ rfl, hkey]
  exact ⟨rfl, rfl⟩

@[simp] theorem init_length (n : BitVec 32) : (crtx_init_dict none n).items.length = n.toNat := by
  simp [crtx_init_dict]

@[simp] theorem init_signature_length (n : BitVec 32) : (crtx_init_dict none n).signature_length = n := rfl

theorem two_le_nItems (n : BitVec 8) : 2 ≤ (nItems n).toNat ∧ (nItems n).toNat < 2 ^ 32 := by
  have := n.isLt
  simp [nItems]
  omega

theorem upgrade_packed (s : St) {d : Dict} (hl : d.items.length = d.signature_length.toNat) (htwo : 2 ≤ d.items.length)
    {raw : BitVec 64} {x : DictId} (h₀ : wordOf (d.item 0) = raw) (h₁ : dictOf (d.item 1) = some x) :
    Packed (s.upgrade d) s.next raw x where
  type := rfl
  key := rfl
  dict := rfl
  length := by simp [St.upgrade, hl]
  two := by simp [St.upgrade, htwo]
  first := by simp [St.upgrade, h₀]
  second := by simp [St.upgrade, h₁]
  old := Nat.lt_succ_self _

theorem Flat.raw {s : St} {raw : BitVec 64} (h : Flat s raw) (p z : BitVec 64) (f : BitVec 32) :
    ∃ s', step s (.raw p z f) = some s' ∧ Flat s' p ∧ s'.next = s.next := by
  have hD : s.data.type ≠ some 'D' := by
    rcases h.type with ⟨ht, -⟩ | ht <;> simp [ht]
  refine ⟨_, if_neg hD, ⟨.inr (fill_pointer ..).2, (fill_pointer ..).1⟩, rfl⟩

theorem Flat.dict {s : St} {raw : BitVec 64} (h : Flat s raw) (d : DictId) (n : BitVec 8) :
    ∃ s', step s (.dict d n) = some s' ∧ Packed s' s.next raw d ∧ s'.next = s.next + 1 := by
  have hD : s.data.type ≠ some 'D' := by
    rcases h.type with ⟨ht, -⟩ | ht <;> simp [ht]
  have hn := (two_le_nItems n).1
  refine ⟨_, if_pos hD, upgrade_packed s ?_ ?_ ?_ ?_, rfl⟩
  · simp
  · simpa using hn
  · have h₀ : 0 < (crtx_init_dict none (nItems n)).items.length := by simpa using Nat.lt_of_succ_lt hn
    rw [item_setItem, if_neg (by simp), item_setItem, if_pos ⟨rfl, h₀⟩]
    exact h.pointer
  · rw [item_setItem]
    simp [show 1 < (nItems n).toNat by omega, dictOf]

theorem Packed.raw {s : St} {u x : DictId} {raw : BitVec 64} (h : Packed s u raw x) (p z : BitVec 64) (f : BitVec 32) :
    ∃ s', step s (.raw p z f) = some s' ∧ Packed s' s.next p u ∧ s'.next = s.next + 1 := by
  have hkey : s.data.key ≠ some crtx_raw_data := by
    rw [h.key]
    decide
  refine ⟨_, (if_pos h.type).trans (if_neg hkey), upgrade_packed s ?_ ?_ ?_ ?_, rfl⟩
  · simp
  · simp
  · rw [item_setItem, item_setItem]
    simpa using (fill_pointer _ p z f).1
  · rw [item_setItem]
    simpa using h.dict

theorem putDict_spec {c : Dict} (hl : c.items.length = c.signature_length.toNat) (htwo : 2 ≤ c.items.length)
    (d : DictId) (n : BitVec 32) :
    (putDict c d n).items.length = (putDict c d n).signature_length.toNat ∧ 2 ≤ (putDict c d n).items.length ∧
      wordOf ((putDict c d n).item 0) = wordOf (c.item 0) ∧
      dictOf ((putDict c d n).item 1) = some d := by
  unfold putDict
  generalize hc₁ : setItem c 1 { c.item 1 with value := .dict d } = c₁
  have hlen₁ : c₁.items.length = c.items.length := by
    rw [← hc₁]
    exact setItem_length ..
  have hl₁ : c₁.items.length = c₁.signature_length.toNat := by
    rw [hlen₁, hl, ← hc₁]
    rfl
  have h₀ : c₁.item 0 = c.item 0 := by simp [← hc₁, item_setItem]
  have h₁ : dictOf (c₁.item 1) = some d := by
    simp [← hc₁, item_setItem, show 1 < c.items.length by omega, dictOf]
  have hn64 : (n.setWidth 64).toNat = n.toNat := by
    have := n.isLt
    rw [BitVec.toNat_setWidth]
    omega
  dsimp only
  split
  · have hle : c₁.items.length ≤ (n.setWidth 64).toNat := by omega
    have hlen := resize_length hl₁ hle
    refine ⟨?_, by omega, ?_, ?_⟩
    · rw [hlen, resize_items hl₁ hle, hn64]
      simp
    · rw [wordOf, (resize_content hl₁ hle 0).value, h₀]
      rfl
    · rw [dictOf, (resize_content hl₁ hle 1).value]
      exact h₁
  · rw [h₀]
    exact ⟨hl₁, by omega, rfl, h₁⟩

theorem Packed.dict_data {s : St} {u x : DictId} {raw : BitVec 64} (h : Packed s u raw x) (d : DictId) (n : BitVec 8) :
    ∃ s', step s (.dict d n) = some s' ∧ Packed s' u raw d ∧ s'.next = s.next := by
  obtain ⟨hlen, htwo, h₀, h₁⟩ := putDict_spec h.length h.two d (nItems n)
  refine ⟨{ s with heap := Function.update s.heap u (putDict (s.heap u) d (nItems n)) }, ?_,
    ⟨h.type, h.key, h.dict, ?_, ?_, ?_, ?_, h.old⟩, rfl⟩
  · simp [step, crtx_event_set_dict_data, h.type, h.key, h.dict]
  · simpa using hlen
  · simpa using htwo
  · simpa using h₀.trans h.first
  · simpa using h₁

/-! ## Whole sequences -/

/-- What the event holds after the calls. A dictionary from `N` on is one that the setters made. -/
def Holds (N : DictId) (calls : List Call) (s : St) : Prop :=
  N ≤ s.next ∧
    (Flat s (lastRaw calls) ∧ lastDict calls = none ∨
      ∃ u x, N ≤ u ∧ Packed s u (lastRaw calls) x ∧ lastDict calls ≠ none ∧
        if DictLast calls then lastDict calls = some x else N ≤ x)

theorem dictLast_raw (calls : List Call) (p z : BitVec 64) (f : BitVec 32) :
    DictLast (calls ++ [.raw p z f]) ↔ lastDict calls = none := by
  rw [lastDict_eq_none]
  unfold DictLast
  simp only [List.mem_append, List.mem_singleton, List.getLast?_concat, Option.mem_some_iff]
  constructor
  · rintro (h | ⟨c, rfl, hc⟩)
    · exact fun c hc => h c (.inl hc)
    · exact absurd rfl hc
  · intro h
    left
    rintro c (hc | rfl)
    · exact h c hc
    · rfl

theorem dictLast_dict (calls : List Call) (d : DictId) (n : BitVec 8) : DictLast (calls ++ [.dict d n]) := by
  simp [DictLast, Call.dict?]

theorem run_holds (heap : DictId → Dict) (N : DictId) (calls : List Call) :
    ∃ s, run step calls (fresh heap N) = some s ∧ Holds N calls s := by
  induction calls using List.reverseRecOn with
  | nil => exact ⟨_, rfl, Nat.le_refl _, .inl ⟨⟨.inl ⟨rfl, rfl⟩, rfl⟩, rfl⟩⟩
  | append_singleton calls c ih =>
    obtain ⟨s, hrun, hnext, hs⟩ := ih
    have hsnoc : ∀ s', step s c = some s' → run step (calls ++ [c]) (fresh heap N) = some s' := by
      intro s' hs'
      rw [run_append, hrun]
      simp [run, hs']
    rcases hs with ⟨hflat, hnone⟩ | ⟨u, x, hu, hp, hsome, -⟩
    · cases c with
      | raw p z f =>
        obtain ⟨s', hs', hflat', hn⟩ := hflat.raw p z f
        exact ⟨s', hsnoc s' hs', hn ▸ hnext, .inl ⟨by simpa using hflat', by simpa using hnone⟩⟩
      | dict d n =>
        obtain ⟨s', hs', hp', hn⟩ := hflat.dict d n
        refine ⟨s', hsnoc s' hs', hn ▸ Nat.le_succ_of_le hnext, .inr ⟨s.next, d, hnext, by simpa using hp', by simp, ?_⟩⟩
        rw [if_pos (dictLast_dict ..)]
        simp
    · cases c with
      | raw p z f =>
        obtain ⟨s', hs', hp', hn⟩ := hp.raw p z f
        refine ⟨s', hsnoc s' hs', hn ▸ Nat.le_succ_of_le hnext,
          .inr ⟨s.next, u, hnext, by simpa using hp', by simpa using hsome, ?_⟩⟩
        rw [if_neg (by simpa [dictLast_raw] using hsome)]
        exact hu
      | dict d n =>
        obtain ⟨s', hs', hp', hn⟩ := hp.dict_data d n
        refine ⟨s', hsnoc s' hs', hn ▸ hnext, .inr ⟨u, d, hu, by simpa using hp', by simp, ?_⟩⟩
        rw [if_pos (dictLast_dict ..)]
        simp

/-- The caller's dictionaries are those below `N`. The raw pointer is always the last one that was set. -/
theorem payload_iff (heap : DictId → Dict) (N : DictId) (calls : List Call) (hN : ∀ c ∈ calls, ∀ d ∈ c.dict?, d < N) :
    ∃ s, run step calls (fresh heap N) = some s ∧
      (crtx_event_get_payload s = some (lastRaw calls, lastDict calls) ↔ DictLast calls) := by
  obtain ⟨s, hrun, -, hs⟩ := run_holds heap N calls
  refine ⟨s, hrun, ?_⟩
  rcases hs with ⟨hflat, hnone⟩ | ⟨u, x, -, hp, hsome, hx⟩
  · rw [hflat.get, hnone]
    exact iff_of_true rfl (.inl (lastDict_eq_none.mp hnone))
  · rw [hp.get]
    by_cases hlast : DictLast calls
    · rw [if_pos hlast] at hx
      rw [hx]
      exact iff_of_true rfl hlast
    · rw [if_neg hlast] at hx
      refine iff_of_false (fun h => ?_) hlast
      have hd : lastDict calls = some x := (congrArg Prod.snd (Option.some.inj h)).symm
      -- The dictionary that was returned is one of the setters.
      obtain ⟨c, hc, hcd⟩ : ∃ c ∈ calls, c.dict? = some x := by
        simpa using List.mem_of_getLast? hd
      exact Nat.not_lt.mpr hx (hN c hc x hcd)

theorem payload_iff_four_calls :
    ∃ s, run step [.raw 16 0 2, .dict 0 1, .raw 32 0 2, .dict 1 3] (fresh (fun _ => crtx_init_dict none 0) 2) = some s ∧
      crtx_event_get_payload s = some (32, some 1) := by
  obtain ⟨s, hs, h⟩ := payload_iff (fun _ => crtx_init_dict none 0) 2
    [.raw 16 0 2, .dict 0 1, .raw 32 0 2, .dict 1 3] (by decide)
  exact ⟨s, hs, h.mpr (by decide)⟩

/-- The dictionary 0 is set, and then the pointer 16: what is returned is the dictionary 1, which the first call made.
The other way around, both are right. -/
theorem raw_data_hides_dict :
    (∃ s, run step [.dict 0 0, .raw 16 0 2] (fresh (fun _ => crtx_init_dict none 0) 1) = some s ∧
      crtx_event_get_payload s = some (16, some 1) ∧ lastDict [.dict 0 0, .raw 16 0 2] = some 0) ∧
    ∃ s, run step [.raw 16 0 2, .dict 0 0] (fresh (fun _ => crtx_init_dict none 0) 1) = some s ∧
      crtx_event_get_payload s = some (16, some 0) :=
  ⟨⟨_, rfl, by decide, by decide⟩, ⟨_, rfl, by decide⟩⟩

end Libcortex.Payload
