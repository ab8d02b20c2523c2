import Libcortex.DictWire

/-!
# Dictionaries from an unreliable connection

`crtx_read_dict` of `dict_inout.c` again, on any bytes and with reads that fail or give less than was asked for. What the
connection gives decides how far the reader comes before it writes the first item to the address 0.
-/

open Libcortex.Lib

namespace Libcortex.DictRead

open Dicts (CString)
open DictWire

/-! ## The connection -/

/-- The bytes that are still to come, and the number of calls of `read` so far. -/
structure Conn where
  bytes : List UInt8
  calls : Nat
deriving DecidableEq

/-- The most that each call of `read` gives. `none`: it reports an error. -/
abbrev Limits := Nat → Option Nat

/-- How a call ends: with a result, with 0, or with a write outside of the buffers. -/
inductive Outcome (α : Type) where
  | ok (a : α) (c : Conn)
  | null (c : Conn)
  | outside
  | outOfFuel

def Outcome.bind {α β : Type} (r : Outcome α) (f : α → Conn → Outcome β) : Outcome β :=
  match r with
  | .ok a c => f a c
  | .null c => .null c
  | .outside => .outside
  | .outOfFuel => .outOfFuel

/-- `room` is the size of the buffer. The number of bytes is returned as an `int`. -/
def crtx_read (limits : Limits) (read_bytes room : Nat) (c : Conn) : Outcome (List UInt8) :=
  match limits c.calls with
  | none => .null ⟨c.bytes, c.calls + 1⟩
  | some m =>
    let n := min read_bytes (min m c.bytes.length)
    let c' : Conn := ⟨c.bytes.drop n, c.calls + 1⟩
    if room < n then .outside
    else if n = read_bytes ∧ n < 2 ^ 31 then .ok (c.bytes.take n) c'
    else .null c'

/-- The size of `malloc(n + 1)`, for a `uint64_t`. -/
def roomFor (n : Nat) : Nat := (n + 1) % 2 ^ 64

/-! ## The reader -/

mutual

/-- `array`: does `ds->items` point to the items? -/
def readDict (limits : Limits) (array : Bool) : Nat → Conn → Outcome Tree
  | 0, _ => .outOfFuel
  | fuel + 1, c =>
    (crtx_read limits 4 4 c).bind fun b c =>
      let signature_length := leNat b
      if CRTX_MAX_SIGNATURE_LENGTH ≤ signature_length then .null c
      else
        (crtx_read limits signature_length (roomFor signature_length) c).bind fun b c =>
          let signature := cstring b
          (readItems limits array fuel signature.1 c).bind fun items c => .ok (.node signature items) c

/-- The loop over the characters of the signature. A nested dictionary that could not be read is NULL, and the loop goes
on. -/
def readItems (limits : Limits) (array : Bool) : Nat → List UInt8 → Conn → Outcome Items
  | 0, _, _ => .outOfFuel
  | _ + 1, [], c => .ok .nil c
  | fuel + 1, s :: ss, c =>
    (crtx_read limits 24 24 c).bind fun b c =>
      let sdi := parseHead b
      if array = false then .outside
      else
        (crtx_read limits sdi.key_length (roomFor sdi.key_length) c).bind fun b c =>
          let h : Head := ⟨cstring b, sdi.type, sdi.flags ||| CRTX_DIF_ALLOCATED_KEY, 0⟩
          if s = 'u'.toUInt8 ∨ s = 'i'.toUInt8 then
            if sdi.payload_size ≠ 4 then .null c
            else
              (crtx_read limits sdi.payload_size 4 c).bind fun b c =>
                (readItems limits array fuel ss c).bind fun rest c => .ok (.word h (BitVec.ofNat 32 (leNat b)) rest) c
          else if s = 's'.toUInt8 then
            (crtx_read limits sdi.payload_size (roomFor sdi.payload_size) c).bind fun b c =>
              (readItems limits array fuel ss c).bind fun rest c => .ok (.string h (cstring b) rest) c
          else if s = 'D'.toUInt8 then
            match readDict limits array fuel c with
            | .ok d c => (readItems limits array fuel ss c).bind fun rest c => .ok (.dict h d rest) c
            | .null c => (readItems limits array fuel ss c).bind fun rest c => .ok (.null h rest) c
            | .outside => .outside
            | .outOfFuel => .outOfFuel
          else .null c

end

/-- `ds->items` is what `calloc` left. Every call and every round takes some bytes, so their number bounds both. -/
def crtx_read_dict (limits : Limits) (bytes : List UInt8) : Outcome Tree :=
  readDict limits false (bytes.length + 2) ⟨bytes, 0⟩

/-! ## What has to hold -/

/-- A dictionary is returned only if the bytes begin with what `crtx_write_dict` makes of it, with all nested
dictionaries, and nothing is written outside of the buffers. -/
def Robust (bytes : List UInt8) : Outcome Tree → Prop
  | .ok d _ => ∃ (pad : List Nat → Pad) (d' : Tree),
      d'.WellFormed ∧ d'.seen = d.seen ∧ crtx_write_dict pad [] d' <+: bytes
  | .null _ => True
  | .outside => False
  | .outOfFuel => False

/-- The next call gives that many bytes. -/
def Delivers (limits : Limits) (c : Conn) (n : Nat) : Prop :=
  (∃ m ∈ limits c.calls, n ≤ m) ∧ n ≤ c.bytes.length

/-- The length of the signature, as the bytes have it. -/
def signatureLength (bytes : List UInt8) : Nat := leNat (bytes.take 4)

/-- A signature comes that is neither empty nor too long, and it begins with a zero, or a first item comes. -/
def Breaks (limits : Limits) (bytes : List UInt8) : Prop :=
  let n := signatureLength bytes
  Delivers limits ⟨bytes, 0⟩ 4 ∧ 0 < n ∧ n < CRTX_MAX_SIGNATURE_LENGTH ∧ Delivers limits ⟨bytes.drop 4, 1⟩ n ∧
    ((bytes.drop 4).head? = some 0 ∨ Delivers limits ⟨(bytes.drop 4).drop n, 2⟩ 24)

/-! ## Reads -/

theorem crtx_read_delivers {limits : Limits} {c : Conn} {n room : Nat} (hroom : n ≤ room) (hn : n < 2 ^ 31)
    (h : Delivers limits c n) : crtx_read limits n room c = .ok (c.bytes.take n) ⟨c.bytes.drop n, c.calls + 1⟩ := by
  obtain ⟨⟨m, hm, hle⟩, hlen⟩ := h
  have hmin : min n (min m c.bytes.length) = n := by omega
  rw [crtx_read, hm]
  simp only [hmin]
  rw [if_neg (by omega), if_pos ⟨trivial, hn⟩]

theorem crtx_read_fails {limits : Limits} {c : Conn} {n room : Nat} (hroom : n ≤ room) (h : ¬ Delivers limits c n) :
    ∃ c', crtx_read limits n room c = .null c' := by
  unfold crtx_read
  split
  · exact ⟨_, rfl⟩
  · rename_i m hm
    have hne : min n (min m c.bytes.length) ≠ n := by
      intro hmin
      exact h ⟨⟨m, hm, by omega⟩, by omega⟩
    simp only
    rw [if_neg (by omega), if_neg fun hn => hne hn.1]
    exact ⟨_, rfl⟩

/-! ## A reliable connection -/

/-- The result without the number of calls. -/
def Outcome.result {α : Type} : Outcome α → Result α
  | .ok a c => .ok a c.bytes
  | .null c => .refused c.bytes
  | .outside => .crash
  | .outOfFuel => .outOfFuel

theorem crtx_read_reliable {m n room : Nat} {c : Conn} (hroom : n ≤ room) (hm : c.bytes.length ≤ m) :
    (crtx_read (fun _ => some m) n room c).result = DictWire.crtx_read n c.bytes := by
  have hroom' : ¬ room < min n (min m c.bytes.length) := by omega
  simp only [crtx_read, if_neg hroom', DictWire.crtx_read, splitBlock]
  by_cases hlen : n ≤ c.bytes.length
  · have hmin : min n (min m c.bytes.length) = n := by omega
    by_cases hn : n < 2 ^ 31
    · simp only [hmin, hlen, hn, and_self, if_true]
      rfl
    · simp only [hmin, hn, and_false, if_false]
      rfl
  · have hmin : min n (min m c.bytes.length) = c.bytes.length := by omega
    have hne : c.bytes.length ≠ n := by omega
    have hdrop : c.bytes.drop n = [] := List.drop_eq_nil_of_le (by omega)
    simp only [hmin, hne, hlen, false_and, if_false, hdrop, ite_self, List.drop_length]
    rfl

theorem crtx_read_shrinks {limits : Limits} {n room : Nat} {c c' : Conn} {b : List UInt8}
    (h : crtx_read limits n room c = .ok b c') : c'.bytes.length ≤ c.bytes.length := by
  unfold crtx_read at h
  split at h
  · cases h
  · dsimp only at h
    split at h
    · cases h
    · split at h
      · cases h
        simp
      · cases h

theorem bind_result {α β : Type} {r : Outcome α} {f : α → Conn → Outcome β} {g : α → List UInt8 → Result β}
    (h : ∀ a c, r = .ok a c → (f a c).result = g a c.bytes) : (r.bind f).result = r.result.bind g := by
  cases r with
  | ok a c => exact h a c rfl
  | null c => rfl
  | outside => rfl
  | outOfFuel => rfl

theorem read_dict_reliable (bytes : List UInt8) :
    (crtx_read_dict (fun _ => some bytes.length) bytes).result = DictWire.crtx_read_dict bytes := by
  unfold crtx_read_dict DictWire.crtx_read_dict
  rw [readDict, DictWire.readDict, ← crtx_read_reliable (c := ⟨bytes, 0⟩) (Nat.le_refl 4) (Nat.le_refl bytes.length)]
  refine bind_result fun b c hb => ?_
  have hc := crtx_read_shrinks hb
  dsimp only
  split
  · rfl
  rename_i hmax
  have hroom : leNat b ≤ roomFor (leNat b) := by
    have hlt : leNat b < 128 := Nat.lt_of_not_le hmax
    rw [roomFor, Nat.mod_eq_of_lt (by omega)]
    omega
  rw [← crtx_read_reliable hroom hc]
  refine bind_result fun b' c' hb' => ?_
  have hc' := (crtx_read_shrinks hb').trans hc
  cases hs : (cstring b').1 with
  | nil => rfl
  | cons x ss =>
    rw [readItems, DictWire.readItems, ← crtx_read_reliable (Nat.le_refl 24) hc']
    cases crtx_read (fun _ => some bytes.length) 24 24 c' <;> rfl

/-! ## Signatures -/

theorem cstring_cons {x : UInt8} (hx : x ≠ 0) (b : List UInt8) : (cstring (x :: b)).1 = x :: (cstring b).1 := by
  simp [cstring, hx]

theorem cstring_zero (b : List UInt8) : (cstring (0 :: b)).1 = [] := by simp [cstring]

theorem signatureLength_zero {bytes : List UInt8} (hlen : 4 ≤ bytes.length) :
    signatureLength bytes = 0 ↔ leBytes 4 0 <+: bytes := by
  unfold signatureLength
  constructor
  · intro h
    have hbytes := leBytes_leNat (bytes.take 4)
    rw [h, List.length_take_of_le hlen] at hbytes
    rw [hbytes]
    exact List.take_prefix 4 bytes
  · rintro ⟨tl, rfl⟩
    rw [List.take_left' (leBytes_length 4 0), leNat_leBytes 4 0 (by decide)]

theorem robust_empty (bytes : List UInt8) {signature : CString} (hs : signature.1 = []) (c : Conn) :
    Robust bytes (.ok (.node signature .nil) c) ↔ leBytes 4 0 <+: bytes := by
  constructor
  · rintro ⟨pad, d', -, hseen, hprefix⟩
    obtain ⟨signature', items'⟩ := d'
    obtain ⟨rfl, hitems⟩ := Tree.node.inj hseen
    cases items' with
    | nil => simpa [crtx_write_dict, hs, writeItems] using hprefix
    | word h w rest | string h t rest | dict h d rest | null h rest => cases hitems
  · intro hprefix
    refine ⟨fun _ => noPad, .node signature .nil, ⟨hs, by rw [hs]; decide, trivial⟩, rfl, ?_⟩
    simpa [crtx_write_dict, hs, writeItems] using hprefix

theorem readItems_first (limits : Limits) (fuel : Nat) (x : UInt8) (ss : List UInt8) (c : Conn) :
    (Delivers limits c 24 ∧ readItems limits false (fuel + 1) (x :: ss) c = .outside) ∨
      (¬ Delivers limits c 24 ∧ ∃ c', readItems limits false (fuel + 1) (x :: ss) c = .null c') := by
  by_cases h : Delivers limits c 24
  · refine .inl ⟨h, ?_⟩
    rw [readItems, crtx_read_delivers (Nat.le_refl 24) (by decide) h]
    rfl
  · obtain ⟨c', hc'⟩ := crtx_read_fails (Nat.le_refl 24) h
    refine .inr ⟨h, c', ?_⟩
    rw [readItems, hc']
    rfl

theorem readItems_robust (limits : Limits) {bytes : List UInt8} (hlen : 4 ≤ bytes.length) (fuel : Nat) {b : List UInt8}
    (hb : b.length = signatureLength bytes) (c : Conn) :
    Robust bytes ((readItems limits false (fuel + 1) (cstring b).1 c).bind fun items c => .ok (.node (cstring b) items) c) ↔
      ¬ (0 < b.length ∧ (b.head? = some 0 ∨ Delivers limits c 24)) := by
  rcases b with _ | ⟨x, b⟩
  · refine (robust_empty bytes (by simp [cstring]) c).trans ?_
    rw [← signatureLength_zero hlen, ← hb]
    simp
  · by_cases hx : x = 0
    · -- The text of the signature is empty, although its length is not.
      subst hx
      rw [cstring_zero]
      refine (robust_empty bytes (cstring_zero b) c).trans ?_
      rw [← signatureLength_zero hlen, ← hb]
      simp
    · rw [cstring_cons hx]
      have hcond : 0 < (x :: b).length ∧ ((x :: b).head? = some 0 ∨ Delivers limits c 24) ↔ Delivers limits c 24 := by
        simp [hx]
      rw [hcond]
      rcases readItems_first limits fuel x (cstring b).1 c with ⟨hitem, hread⟩ | ⟨hitem, c', hread⟩
      · rw [hread]
        exact iff_of_false id fun h => h hitem
      · rw [hread]
        exact iff_of_true trivial hitem

theorem read_dict_robust_iff (limits : Limits) (bytes : List UInt8) :
    Robust bytes (crtx_read_dict limits bytes) ↔ ¬ Breaks limits bytes := by
  unfold crtx_read_dict Breaks
  rw [readDict]
  by_cases h4 : Delivers limits ⟨bytes, 0⟩ 4
  swap
  · obtain ⟨c', hc'⟩ := crtx_read_fails (Nat.le_refl 4) h4
    rw [hc']
    exact iff_of_true trivial fun h => h4 h.1
  rw [crtx_read_delivers (Nat.le_refl 4) (by decide) h4]
  change Robust bytes (if CRTX_MAX_SIGNATURE_LENGTH ≤ signatureLength bytes then _ else _) ↔ _
  by_cases hmax : CRTX_MAX_SIGNATURE_LENGTH ≤ signatureLength bytes
  · rw [if_pos hmax]
    exact iff_of_true trivial fun h => absurd h.2.2.1 (Nat.not_lt.mpr hmax)
  rw [if_neg hmax]
  have hlt : signatureLength bytes < 128 := Nat.lt_of_not_le hmax
  have hroom : signatureLength bytes ≤ roomFor (signatureLength bytes) := by
    rw [roomFor, Nat.mod_eq_of_lt (by omega)]
    omega
  change Robust bytes ((crtx_read limits (signatureLength bytes) (roomFor (signatureLength bytes))
    ⟨bytes.drop 4, 1⟩).bind _) ↔ _
  by_cases hsig : Delivers limits ⟨bytes.drop 4, 1⟩ (signatureLength bytes)
  swap
  · obtain ⟨c', hc'⟩ := crtx_read_fails hroom hsig
    rw [hc']
    exact iff_of_true trivial fun h => hsig h.2.2.2.1
  rw [crtx_read_delivers hroom (by omega) hsig]
  have hb : ((bytes.drop 4).take (signatureLength bytes)).length = signatureLength bytes :=
    List.length_take_of_le hsig.2
  refine (readItems_robust limits h4.2 bytes.length hb _).trans (not_congr ?_)
  rw [hb, List.head?_take]
  constructor
  · rintro ⟨hpos, hbad⟩
    rw [if_neg (by omega)] at hbad
    exact ⟨h4, hpos, hlt, hsig, hbad⟩
  · rintro ⟨-, hpos, -, -, hbad⟩
    rw [if_neg (by omega)]
    exact ⟨hpos, hbad⟩

/-- Where all that is there is read at once, a dictionary with one number makes the reader write to the address 0. -/
theorem read_dict_outside :
    ¬ ∀ (limits : Limits) (bytes : List UInt8), Robust bytes (crtx_read_dict limits bytes) := by
  intro h
  have hrobust := h (fun _ => some 4096) (crtx_write_dict (fun _ => noPad) [] oneNumber)
  have houtside : crtx_read_dict (fun _ => some 4096) (crtx_write_dict (fun _ => noPad) [] oneNumber) = .outside := rfl
  rw [houtside] at hrobust
  exact hrobust

end Libcortex.DictRead
