import Mathlib.Data.List.TakeWhile
import Libcortex.Dicts
import Libcortex.Lib.Bytes

/-!
# Dictionaries on the wire

`dict_inout.c`: `crtx_write_dict` writes the signature of a dictionary and then its items, nested
dictionaries in place, and `crtx_read_dict` reads them back. The structures are written as they lie in
memory, with the least byte of a number first.

The reader makes its block large enough for the items to follow the dictionary, where they once were.
Today `items` is a pointer, and the reader leaves it NULL.
-/

open Libcortex.Lib

namespace Libcortex.DictWire

open Dicts (CString)

/-! ## Trees of dictionaries -/

/-- An item without its value. -/
structure Head where
  key : CString
  type : UInt8
  flags : UInt8
  size : Nat
deriving DecidableEq

mutual

/-- A dictionary with all that hangs below it. -/
inductive Tree where
  | node (signature : CString) (items : Items)

/-- The items in order, each with the member of the union that the signature names. `null` is a nested dictionary
that could not be read. -/
inductive Items where
  | nil
  | word (h : Head) (w : BitVec 32) (rest : Items)
  | string (h : Head) (s : CString) (rest : Items)
  | dict (h : Head) (d : Tree) (rest : Items)
  | null (h : Head) (rest : Items)

end

/-! ## Writing -/

/-- The six bytes behind the two of the type and the flags, which nobody sets. -/
abbrev Pad := { b : List UInt8 // b.length = 6 }

/-- `struct serialized_dict_item` -/
def headBytes (h : Head) (payload_size : Nat) (pad : Pad) : List UInt8 :=
  leBytes 8 h.key.1.length ++ leBytes 8 payload_size ++ [h.type, h.flags] ++ pad.1

mutual

/-- `pad` is what the memory of the header holds, for each item by its place in the tree. -/
def crtx_write_dict (pad : List Nat → Pad) (path : List Nat) : Tree → List UInt8
  | .node signature items =>
    leBytes 4 signature.1.length ++ signature.1 ++ writeItems pad path 0 items

/-- The loop over the items, from the `n`-th on. -/
def writeItems (pad : List Nat → Pad) (path : List Nat) (n : Nat) : Items → List UInt8
  | .nil => []
  | .word h w rest =>
    headBytes h 4 (pad (n :: path)) ++ h.key.1 ++ leBytes 4 w.toNat ++ writeItems pad path (n + 1) rest
  | .string h s rest =>
    headBytes h h.size (pad (n :: path)) ++ h.key.1 ++ s.1.take h.size ++ writeItems pad path (n + 1) rest
  | .dict h d rest =>
    headBytes h h.size (pad (n :: path)) ++ h.key.1 ++ crtx_write_dict pad (n :: path) d ++
      writeItems pad path (n + 1) rest
  | .null _ _ => []

end

/-! ## Reading -/

/-- How a call of the reader ends: with a dictionary, with 0, or with a write to the address 0. -/
inductive Result (α : Type) where
  | ok (a : α) (rest : List UInt8)
  | refused (rest : List UInt8)
  | crash
  | outOfFuel

def Result.bind {α β : Type} (r : Result α) (f : α → List UInt8 → Result β) : Result β :=
  match r with
  | .ok a rest => f a rest
  | .refused rest => .refused rest
  | .crash => .crash
  | .outOfFuel => .outOfFuel

@[simp] theorem Result.bind_ok {α β : Type} (a : α) (rest : List UInt8) (f : α → List UInt8 → Result β) :
    (Result.ok a rest).bind f = f a rest := rfl

/-- The number of bytes that were read is an `int`. -/
def crtx_read (n : Nat) (bs : List UInt8) : Result (List UInt8) :=
  if n < 2 ^ 31 then
    match splitBlock n bs with
    | some (a, rest) => .ok a rest
    | none => .refused []
  else .refused (bs.drop n)

/-- The text of a buffer ends at the first zero. -/
def cstring (b : List UInt8) : CString :=
  ⟨b.takeWhile (· ≠ 0), by
    intro h
    have := List.mem_takeWhile_imp h
    simp at this⟩

def CRTX_MAX_SIGNATURE_LENGTH : Nat := 128

def CRTX_DIF_ALLOCATED_KEY : UInt8 := 1

/-- `struct serialized_dict_item`, as it is read. -/
structure SerializedItem where
  key_length : Nat
  payload_size : Nat
  type : UInt8
  flags : UInt8

def parseHead (b : List UInt8) : SerializedItem where
  key_length := leNat (b.take 8)
  payload_size := leNat ((b.drop 8).take 8)
  type := b.getD 16 0
  flags := b.getD 17 0

mutual

/-- `array`: does `ds->items` point to the items? -/
def readDict (array : Bool) : Nat → List UInt8 → Result Tree
  | 0, _ => .outOfFuel
  | fuel + 1, bs =>
    (crtx_read 4 bs).bind fun b bs =>
      let signature_length := leNat b
      if CRTX_MAX_SIGNATURE_LENGTH ≤ signature_length then .refused bs
      else
        (crtx_read signature_length bs).bind fun b bs =>
          let signature := cstring b
          (readItems array fuel signature.1 bs).bind fun items bs => .ok (.node signature items) bs

/-- The loop over the characters of the signature. The size of an item is not set. -/
def readItems (array : Bool) : Nat → List UInt8 → List UInt8 → Result Items
  | 0, _, _ => .outOfFuel
  | _ + 1, [], bs => .ok .nil bs
  | fuel + 1, c :: cs, bs =>
    (crtx_read 24 bs).bind fun b bs =>
      let sdi := parseHead b
      if array = false then .crash
      else
        (crtx_read sdi.key_length bs).bind fun b bs =>
          let h : Head := ⟨cstring b, sdi.type, sdi.flags ||| CRTX_DIF_ALLOCATED_KEY, 0⟩
          if c = 'u'.toUInt8 ∨ c = 'i'.toUInt8 then
            if sdi.payload_size ≠ 4 then .refused bs
            else
              (crtx_read sdi.payload_size bs).bind fun b bs =>
                (readItems array fuel cs bs).bind fun rest bs => .ok (.word h (BitVec.ofNat 32 (leNat b)) rest) bs
          else if c = 's'.toUInt8 then
            (crtx_read sdi.payload_size bs).bind fun b bs =>
              (readItems array fuel cs bs).bind fun rest bs => .ok (.string h (cstring b) rest) bs
          else if c = 'D'.toUInt8 then
            match readDict array fuel bs with
            | .ok d bs => (readItems array fuel cs bs).bind fun rest bs => .ok (.dict h d rest) bs
            | .refused bs => (readItems array fuel cs bs).bind fun rest bs => .ok (.null h rest) bs
            | .crash => .crash
            | .outOfFuel => .outOfFuel
          else .refused bs

end

/-- `ds->items` is what `calloc` left. Every call and every round takes some bytes, so their number bounds both. -/
def crtx_read_dict (bs : List UInt8) : Result Tree := readDict false (bs.length + 2) bs

/-! ## What a round trip is -/

def Items.types : Items → List UInt8
  | .nil => []
  | .word h _ rest | .string h _ rest | .dict h _ rest | .null h rest => h.type :: rest.types

mutual

/-- The signature has the types of the items and is not too long, the size of a string is its length, and all nested
dictionaries are there. -/
def Tree.WellFormed : Tree → Prop
  | .node signature items =>
    signature.1 = items.types ∧ signature.1.length < CRTX_MAX_SIGNATURE_LENGTH ∧ items.WellFormed

def Items.WellFormed : Items → Prop
  | .nil => True
  | .word h _ rest => (h.type = 'u'.toUInt8 ∨ h.type = 'i'.toUInt8) ∧ rest.WellFormed
  | .string h s rest => h.type = 's'.toUInt8 ∧ h.size = s.1.length ∧ rest.WellFormed
  | .dict h d rest => h.type = 'D'.toUInt8 ∧ d.WellFormed ∧ rest.WellFormed
  | .null _ _ => False

end

def Head.seen (h : Head) : Head := { h with flags := 0, size := 0 }

mutual

/-- What a round trip has to keep: signatures, keys, types and values. -/
def Tree.seen : Tree → Tree
  | .node signature items => .node signature items.seen

def Items.seen : Items → Items
  | .nil => .nil
  | .word h w rest => .word h.seen w rest.seen
  | .string h s rest => .string h.seen s rest.seen
  | .dict h d rest => .dict h.seen d.seen rest.seen
  | .null h rest => .null h.seen rest.seen

end

def Tree.signature : Tree → CString
  | .node signature _ => signature

/-- Reading back what was written gives the same dictionary. -/
def RoundTrips (pad : List Nat → Pad) (d : Tree) : Prop :=
  ∃ d', crtx_read_dict (crtx_write_dict pad [] d) = .ok d' [] ∧ d'.seen = d.seen

/-! ## Blocks and headers -/

theorem crtx_read_append {n : Nat} {a : List UInt8} (h : a.length = n) (hn : n < 2 ^ 31) (bs : List UInt8) :
    crtx_read n (a ++ bs) = .ok a bs := by
  unfold crtx_read
  rw [if_pos hn, splitBlock_append h]

theorem cstring_val (b : CString) : cstring b.1 = b := by
  apply Subtype.ext
  unfold cstring
  dsimp only
  rw [List.takeWhile_eq_self_iff]
  intro x hx
  have : x ≠ 0 := fun h => b.2 (h ▸ hx)
  simpa using this

theorem headBytes_length (h : Head) (payload_size : Nat) (pad : Pad) : (headBytes h payload_size pad).length = 24 := by
  simp [headBytes, pad.2]

theorem parseHead_headBytes {h : Head} {payload_size : Nat} (hk : h.key.1.length < 2 ^ 31) (hp : payload_size < 2 ^ 31)
    (pad : Pad) : parseHead (headBytes h payload_size pad) = ⟨h.key.1.length, payload_size, h.type, h.flags⟩ := by
  have h1 : (leBytes 8 h.key.1.length).length = 8 := leBytes_length ..
  have h2 : (leBytes 8 payload_size).length = 8 := leBytes_length ..
  unfold parseHead headBytes
  simp only [List.append_assoc]
  rw [List.take_left' h1, List.drop_left' h1, List.take_left' h2, leNat_leBytes 8 _ (by omega),
    leNat_leBytes 8 _ (by omega)]
  simp [List.getElem?_append, h1, h2]

/-! ## The format

With an array to put the items into, the reader gives back what was written. So the format itself is sound.
-/

mutual

/-- Keys and strings can be read with one call. -/
def Tree.Small : Tree → Prop
  | .node _ items => items.Small

def Items.Small : Items → Prop
  | .nil => True
  | .word h _ rest => h.key.1.length < 2 ^ 31 ∧ rest.Small
  | .string h _ rest => h.key.1.length < 2 ^ 31 ∧ h.size < 2 ^ 31 ∧ rest.Small
  | .dict h d rest => h.key.1.length < 2 ^ 31 ∧ h.size < 2 ^ 31 ∧ d.Small ∧ rest.Small
  | .null _ _ => False

/-- How many calls and rounds the reader needs. -/
def Tree.rounds : Tree → Nat
  | .node _ items => items.rounds + 1

def Items.rounds : Items → Nat
  | .nil => 1
  | .word _ _ rest | .string _ _ rest | .null _ rest => rest.rounds + 1
  | .dict _ d rest => d.rounds + rest.rounds + 1

end

section

variable (pad : List Nat → Pad)

theorem readItems_head {h : Head} {payload_size : Nat} (hk : h.key.1.length < 2 ^ 31) (hp : payload_size < 2 ^ 31)
    (p : Pad) (c : UInt8) (cs : List UInt8) (fuel : Nat) (bs : List UInt8) :
    readItems true (fuel + 1) (c :: cs) (headBytes h payload_size p ++ (h.key.1 ++ bs)) =
      (let h' : Head := ⟨h.key, h.type, h.flags ||| CRTX_DIF_ALLOCATED_KEY, 0⟩
      if c = 'u'.toUInt8 ∨ c = 'i'.toUInt8 then
        if payload_size ≠ 4 then .refused bs
        else
          (crtx_read payload_size bs).bind fun b bs =>
            (readItems true fuel cs bs).bind fun rest bs => .ok (.word h' (BitVec.ofNat 32 (leNat b)) rest) bs
      else if c = 's'.toUInt8 then
        (crtx_read payload_size bs).bind fun b bs =>
          (readItems true fuel cs bs).bind fun rest bs => .ok (.string h' (cstring b) rest) bs
      else if c = 'D'.toUInt8 then
        match readDict true fuel bs with
        | .ok d bs => (readItems true fuel cs bs).bind fun rest bs => .ok (.dict h' d rest) bs
        | .refused bs => (readItems true fuel cs bs).bind fun rest bs => .ok (.null h' rest) bs
        | .crash => .crash
        | .outOfFuel => .outOfFuel
      else .refused bs) := by
  rw [readItems, crtx_read_append (headBytes_length h payload_size p) (by omega)]
  simp only [Result.bind_ok, parseHead_headBytes hk hp, Bool.true_eq_false, if_false]
  rw [crtx_read_append rfl hk]
  simp only [Result.bind_ok, cstring_val]

mutual

theorem readDict_write (path : List Nat) (d : Tree) (hwf : d.WellFormed) (hs : d.Small) (fuel : Nat)
    (hf : d.rounds ≤ fuel) (bs : List UInt8) :
    ∃ d', readDict true fuel (crtx_write_dict pad path d ++ bs) = .ok d' bs ∧ d'.seen = d.seen :=
  match d, hwf, hs, fuel, hf with
  | .node signature items, hwf, hs, fuel + 1, hf => by
    obtain ⟨hsig, hlen, hitems⟩ := hwf
    simp only [Tree.rounds] at hf
    obtain ⟨items', hread, hseen⟩ := readItems_write path 0 items hitems hs fuel (by omega) bs
    have hsmall : signature.1.length < 128 := hlen
    refine ⟨.node signature items', ?_, by simp only [Tree.seen, hseen]⟩
    rw [readDict, crtx_write_dict, List.append_assoc, List.append_assoc,
      crtx_read_append (leBytes_length ..) (by decide), Result.bind_ok, leNat_leBytes 4 _ (by omega)]
    dsimp only
    rw [if_neg (Nat.not_le_of_lt hlen), crtx_read_append rfl (by omega), Result.bind_ok, cstring_val, hsig, hread,
      Result.bind_ok]

theorem readItems_write (path : List Nat) (n : Nat) (items : Items) (hwf : items.WellFormed) (hs : items.Small)
    (fuel : Nat) (hf : items.rounds ≤ fuel) (bs : List UInt8) :
    ∃ items', readItems true fuel items.types (writeItems pad path n items ++ bs) = .ok items' bs ∧
      items'.seen = items.seen :=
  match items, hwf, hs, fuel, hf with
  | .nil, _, _, _ + 1, _ => ⟨.nil, rfl, rfl⟩
  | .word h w rest, hwf, hs, fuel + 1, hf => by
    obtain ⟨htype, hrest⟩ := hwf
    obtain ⟨hk, hsrest⟩ := hs
    simp only [Items.rounds] at hf
    obtain ⟨rest', hread, hseen⟩ := readItems_write path (n + 1) rest hrest hsrest fuel (by omega) bs
    refine ⟨.word ⟨h.key, h.type, h.flags ||| CRTX_DIF_ALLOCATED_KEY, 0⟩ w rest', ?_, ?_⟩
    · rw [writeItems, Items.types]
      simp only [List.append_assoc]
      have hw : BitVec.ofNat 32 (leNat (leBytes 4 w.toNat)) = w := by
        rw [leNat_leBytes 4 _ (by have := w.isLt; omega)]
        simp
      rw [readItems_head hk (by decide)]
      dsimp only
      rw [if_pos htype, if_neg (by decide), crtx_read_append (leBytes_length ..) (by decide), Result.bind_ok, hread,
        Result.bind_ok, hw]
    · simp only [Items.seen, Head.seen, hseen]
  | .string h str rest, hwf, hs, fuel + 1, hf => by
    obtain ⟨htype, hsize, hrest⟩ := hwf
    obtain ⟨hk, hsz, hsrest⟩ := hs
    simp only [Items.rounds] at hf
    obtain ⟨rest', hread, hseen⟩ := readItems_write path (n + 1) rest hrest hsrest fuel (by omega) bs
    refine ⟨.string ⟨h.key, h.type, h.flags ||| CRTX_DIF_ALLOCATED_KEY, 0⟩ str rest', ?_, ?_⟩
    · rw [writeItems, Items.types]
      simp only [List.append_assoc]
      have hne : ¬ (h.type = 'u'.toUInt8 ∨ h.type = 'i'.toUInt8) := by
        rw [htype]
        decide
      have htake : str.1.take h.size = str.1 := by rw [hsize, List.take_length]
      rw [readItems_head hk hsz]
      dsimp only
      rw [if_neg hne, if_pos htype, htake, crtx_read_append hsize.symm hsz, Result.bind_ok, hread, Result.bind_ok,
        cstring_val]
    · simp only [Items.seen, Head.seen, hseen]
  | .dict h d rest, hwf, hs, fuel + 1, hf => by
    obtain ⟨htype, hd, hrest⟩ := hwf
    obtain ⟨hk, hsz, hsd, hsrest⟩ := hs
    simp only [Items.rounds] at hf
    obtain ⟨rest', hread, hseen⟩ := readItems_write path (n + 1) rest hrest hsrest fuel (by omega) bs
    obtain ⟨d', hreadd, hseend⟩ := readDict_write (n :: path) d hd hsd fuel (by omega)
      (writeItems pad path (n + 1) rest ++ bs)
    refine ⟨.dict ⟨h.key, h.type, h.flags ||| CRTX_DIF_ALLOCATED_KEY, 0⟩ d' rest', ?_, ?_⟩
    · rw [writeItems, Items.types]
      simp only [List.append_assoc]
      have hne : ¬ (h.type = 'u'.toUInt8 ∨ h.type = 'i'.toUInt8) := by
        rw [htype]
        decide
      have hne' : h.type ≠ 's'.toUInt8 := by
        rw [htype]
        decide
      rw [readItems_head hk hsz]
      dsimp only
      rw [if_neg hne, if_neg hne', if_pos htype, hreadd]
      dsimp only
      rw [hread, Result.bind_ok]
    · simp only [Items.seen, Head.seen, hseen, hseend]

end

mutual

theorem rounds_le_length (path : List Nat) :
    ∀ d : Tree, d.WellFormed → d.rounds ≤ (crtx_write_dict pad path d).length
  | .node signature items, hwf => by
    have := rounds_le_length_items path 0 items hwf.2.2
    simp only [Tree.rounds, crtx_write_dict, List.length_append, leBytes_length]
    omega

theorem rounds_le_length_items (path : List Nat) (n : Nat) :
    ∀ items : Items, items.WellFormed → items.rounds ≤ (writeItems pad path n items).length + 1
  | .nil, _ => by simp [Items.rounds]
  | .word h w rest, hwf => by
    have := rounds_le_length_items path (n + 1) rest hwf.2
    simp only [Items.rounds, writeItems, List.length_append, headBytes_length]
    omega
  | .string h str rest, hwf => by
    have := rounds_le_length_items path (n + 1) rest hwf.2.2
    simp only [Items.rounds, writeItems, List.length_append, headBytes_length]
    omega
  | .dict h d rest, hwf => by
    have := rounds_le_length_items path (n + 1) rest hwf.2.2
    have := rounds_le_length (n :: path) d hwf.2.1
    simp only [Items.rounds, writeItems, List.length_append, headBytes_length]
    omega

end

theorem format_round_trips {d : Tree} (hwf : d.WellFormed) (hs : d.Small) :
    ∃ d', readDict true ((crtx_write_dict pad [] d).length + 2) (crtx_write_dict pad [] d) = .ok d' [] ∧
      d'.seen = d.seen := by
  have hle := rounds_le_length pad [] d hwf
  have h := readDict_write pad [] d hwf hs ((crtx_write_dict pad [] d).length + 2) (by omega) []
  rwa [List.append_nil] at h

end

/-! ## The reader as it is -/

theorem writeItems_head (pad : List Nat → Pad) (path : List Nat) (n : Nat) {items : Items} (hwf : items.WellFormed)
    (hne : items.types ≠ []) : ∃ hd tl, hd.length = 24 ∧ writeItems pad path n items = hd ++ tl := by
  cases items with
  | nil => exact absurd rfl hne
  | word h w rest => exact ⟨_, _, headBytes_length h 4 _, by rw [writeItems, List.append_assoc, List.append_assoc]⟩
  | string h str rest =>
    exact ⟨_, _, headBytes_length h h.size _, by rw [writeItems, List.append_assoc, List.append_assoc]⟩
  | dict h d rest =>
    exact ⟨_, _, headBytes_length h h.size _, by rw [writeItems, List.append_assoc, List.append_assoc]⟩
  | null h rest => cases hwf

theorem read_crashes (pad : List Nat → Pad) {signature : CString} {items : Items}
    (hwf : (Tree.node signature items).WellFormed) (hne : signature.1 ≠ []) :
    crtx_read_dict (crtx_write_dict pad [] (.node signature items)) = .crash := by
  obtain ⟨hsig, hlen, hitems⟩ := hwf
  have hsmall : signature.1.length < 128 := hlen
  obtain ⟨hd, tl, hhd, hwrite⟩ := writeItems_head pad [] 0 hitems (hsig ▸ hne)
  obtain ⟨c, cs, hc⟩ := List.exists_cons_of_ne_nil hne
  have hloop : ∀ fuel, readItems false (fuel + 1) signature.1 (writeItems pad [] 0 items) = .crash := by
    intro fuel
    rw [hc, readItems, hwrite, crtx_read_append hhd (by decide), Result.bind_ok]
    rfl
  unfold crtx_read_dict
  generalize (crtx_write_dict pad [] (.node signature items)).length = k
  rw [readDict, crtx_write_dict, List.append_assoc, crtx_read_append (leBytes_length ..) (by decide), Result.bind_ok,
    leNat_leBytes 4 _ (by omega)]
  dsimp only
  rw [if_neg (Nat.not_le_of_lt hlen), crtx_read_append rfl (by omega), Result.bind_ok, cstring_val, hloop]
  rfl

/-- Only the empty dictionary comes back. -/
theorem round_trips_iff_empty (pad : List Nat → Pad) (d : Tree) (hwf : d.WellFormed) :
    RoundTrips pad d ↔ d.signature.1 = [] := by
  obtain ⟨signature, items⟩ := d
  constructor
  · rintro ⟨d', hread, -⟩
    by_contra hne
    rw [read_crashes pad hwf hne] at hread
    cases hread
  · intro hnil
    have hsig : signature = ⟨[], by simp⟩ := Subtype.ext hnil
    have htypes : items.types = [] := hwf.1.symm.trans hnil
    subst hsig
    cases items with
    | nil => exact ⟨_, rfl, rfl⟩
    | word h w rest | string h str rest | dict h d rest | null h rest => cases htypes

def noPad : Pad := ⟨List.replicate 6 0, rfl⟩

/-- A number, a string, and an empty dictionary. -/
def nested : Tree :=
  .node ⟨[117, 115, 68], by decide⟩
    (.word ⟨⟨[107], by decide⟩, 117, 0, 4⟩ 5
      (.string ⟨⟨[108], by decide⟩, 115, 0, 2⟩ ⟨[104, 105], by decide⟩
        (.dict ⟨⟨[109], by decide⟩, 68, 128, 0⟩ (.node ⟨[], by decide⟩ .nil) .nil)))

theorem round_trips_iff_empty_nested : RoundTrips (fun _ => noPad) nested ↔ nested.signature.1 = [] :=
  round_trips_iff_empty (fun _ => noPad) nested
    ⟨rfl, by decide, Or.inl rfl, rfl, rfl, rfl, ⟨rfl, by decide, trivial⟩, trivial⟩

/-- One number with a key. -/
def oneNumber : Tree := .node ⟨[117], by decide⟩ (.word ⟨⟨[110], by decide⟩, 117, 0, 4⟩ 5 .nil)

theorem read_one_number_crashes :
    oneNumber.WellFormed ∧ crtx_read_dict (crtx_write_dict (fun _ => noPad) [] oneNumber) = .crash ∧
      ¬ RoundTrips (fun _ => noPad) oneNumber := by
  refine ⟨⟨rfl, by decide, Or.inl rfl, trivial⟩, rfl, ?_⟩
  rintro ⟨d', hread, -⟩
  cases hread

end Libcortex.DictWire
