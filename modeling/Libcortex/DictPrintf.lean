import Libcortex.DictLocate
import Libcortex.Lib.Buffer
import Libcortex.Lib.Run

/-!
# Formats

`dict_printf` of `dict.c` copies a format into a buffer that grows, with the strings of a dictionary in the place of its
specifiers. A key in brackets is a path, or `*` for all items. A specifier with a format in parentheses is a group: the
format is for the dictionary that the key leads to.
-/

open Libcortex.Lib

namespace Libcortex.DictPrintf

open Dicts
open DictWire (cstring)
open DictLocate (SEPARATOR strchr crtx_dict_locate lookup)

/-! ## The code -/

def PERCENT : UInt8 := '%'.toUInt8
def STAR : UInt8 := '*'.toUInt8
def OPEN_BRACKET : UInt8 := '['.toUInt8
def CLOSE_BRACKET : UInt8 := ']'.toUInt8
def OPEN_GROUP : UInt8 := '('.toUInt8
def CLOSE_GROUP : UInt8 := ')'.toUInt8

/-- A pointer that is used as one to a dictionary. `bad`: something else is there. -/
inductive DictPtr where
  | null
  | bad
  | dict (d : DictId)
deriving DecidableEq

/-- `di->dict`, whatever the union holds. -/
def dictPtr (di : Item) : DictPtr :=
  match di.value with
  | .dict d => .dict d
  | .string none => .null
  | .word w => if w = 0 then .null else .bad
  | _ => .bad

/-- A write to the result. -/
inductive Op where
  | char (b : UInt8)
  | string (s : List UInt8)
  | separator (s : List UInt8)
  | terminator
deriving DecidableEq

/-- How a call ends: it returns, reads behind the end of the format, uses a pointer to nothing, or does not end in
time. -/
inductive End where
  | returned (rc : Nat)
  | overread
  | crash
  | outOfFuel
deriving DecidableEq

structure Trace where
  ops : List Op
  last : End
deriving DecidableEq

/-- What returns 1 is followed by the rest. -/
def Trace.andThen (t u : Trace) : Trace := if t.last = .returned 1 then ⟨t.ops ++ u.ops, u.last⟩ else t

/-- What a key gives. `none`: `di` points behind the items. -/
inductive Picked where
  | missing
  | crash
  | item (d : Dict) (di : Option Item)
deriving DecidableEq

def pick (malloc : Nat → UInt8) (heap : DictId → Dict) (ds : DictPtr) (key : List UInt8) : Picked :=
  if key.head? ≠ some STAR then
    match ds with
    | .null => .missing
    | .bad => .crash
    | .dict d =>
      match crtx_dict_locate malloc heap (some d) (cstring key) with
      | none => .crash
      | some none => .missing
      | some (some r) => .item (heap d) (some ((heap r.1).item r.2))
  else
    match ds with
    | .dict d => .item (heap d) (heap d).items[0]?
    | _ => .crash

/-- The loop over the strings, from the item `i` on, which `di` points to. -/
def stringLoop (d : Dict) (key : List UInt8) : Nat → Nat → Option Item → Trace
  | 0, _, _ => ⟨[], .outOfFuel⟩
  | _ + 1, _, none => ⟨[], .crash⟩
  | fuel + 1, i, some di =>
    if di.type ≠ some 's' then ⟨[], .returned 0⟩
    else
      match stringOf di with
      | none => ⟨[], .crash⟩
      | some s =>
        let separator :=
          if key.head? = some STAR ∧ 1 < key.length ∧ i < (d.signature_length - 1).toNat then [Op.separator key.tail]
          else []
        Trace.andThen ⟨.string s.1 :: separator, .returned 1⟩
          (if key.head? = some STAR ∧ i + 1 < d.signature_length.toNat then
            stringLoop d key fuel (i + 1) d.items[i + 1]?
          else ⟨[], .returned 1⟩)

/-- What one round of the loop does: the call returns or fails, or the round writes something and leaves a rest, or it
calls `dict_printf` before it goes on with the rest. -/
inductive Round where
  | stop (last : End)
  | go (t : Trace) (rest : List UInt8)
  | group (ds : DictPtr) (fmt rest : List UInt8)

/-- What `e` asks for, which begins behind the bracket: a group, or a conversion. The length of the format of a group is
kept in an `unsigned char`. -/
def specifier (d : Dict) (key : List UInt8) (di : Option Item) (e : List UInt8) : Round :=
  match e with
  | [] => .stop (.returned 0)
  | c :: rest =>
    if c = OPEN_GROUP then
      match strchr e CLOSE_GROUP, di with
      | none, _ => .stop .overread
      | some _, none => .stop .crash
      | some m, some di =>
        let min := (m - 1) % 256
        .group (dictPtr di) ((e.drop 1).take min) (e.drop (m + 1))
    else if c = 's'.toUInt8 then .go (stringLoop d key (d.signature_length.toNat + 1) 0 di) rest
    else if c = 'd'.toUInt8 ∨ c = 'u'.toUInt8 then .go ⟨[], .returned 1⟩ rest
    else .stop (.returned 0)

def afterKey (key e : List UInt8) : Picked → Round
  | .missing => .stop (.returned 0)
  | .crash => .stop .crash
  | .item d di => specifier d key di e

/-- One round of the loop. The length of the key is kept in an `unsigned char`. -/
def round (malloc : Nat → UInt8) (heap : DictId → Dict) (ds : DictPtr) (c : UInt8) (f : List UInt8) : Round :=
  if c = PERCENT ∧ f.head? ≠ some PERCENT then
    if f.head? ≠ some OPEN_BRACKET then .stop (.returned 0)
    else
      match strchr (c :: f) CLOSE_BRACKET with
      | none => .stop .overread
      | some n =>
        let keylen := (n - 2) % 256
        let key := (f.drop 1).take keylen
        afterKey key ((c :: f).drop (n + 1)) (pick malloc heap ds key)
  else if c = PERCENT then .go ⟨[.char c], .returned 1⟩ (f.drop 1)
  else .go ⟨[.char c], .returned 1⟩ f

def printfLoop (malloc : Nat → UInt8) (heap : DictId → Dict) : Nat → DictPtr → List UInt8 → Trace
  | 0, _, _ => ⟨[], .outOfFuel⟩
  | _ + 1, _, [] => ⟨[.terminator], .returned 1⟩
  | fuel + 1, ds, c :: f =>
    match round malloc heap ds c f with
    | .stop last => ⟨[], last⟩
    | .go t rest => t.andThen (printfLoop malloc heap fuel ds rest)
    | .group ds' fmt rest => (printfLoop malloc heap fuel ds' fmt).andThen (printfLoop malloc heap fuel ds rest)

/-- Every round takes some of the format, and every call is for a part of it. -/
def dict_printf (malloc : Nat → UInt8) (heap : DictId → Dict) (ds : DictPtr) (format : List UInt8) : Trace :=
  printfLoop malloc heap (format.length + 1) ds format

/-! ## The result -/

/-- `malloc` and `realloc` leave any bytes in the new memory. -/
def fresh (malloc : Nat → UInt8) (n : Nat) : List UInt8 := (List.range n).map malloc

/-- `sprintf` writes a zero behind the string. No loop needs more than two rounds. -/
def write (malloc : Nat → UInt8) (b : Buffer UInt8) : Op → Option (Buffer UInt8)
  | .char c => (b.reserve (fresh malloc 24) 2).store [c] []
  | .string s => (b.grow (fresh malloc (s.length + 1))).store s [0]
  | .separator s => b.store s [0]
  | .terminator => (b.reserve (fresh malloc 1) 2).store [0] []

def emptyBuffer : Buffer UInt8 := ⟨[], 0, Nat.le_refl 0⟩

/-- The buffer is new if both pointers, to its length and to its size, are NULL. -/
def crtx_dict_snaprintf (malloc : Nat → UInt8) (heap : DictId → Dict) (result : Option (Buffer UInt8))
    (format : List UInt8) (ds : DictPtr) : Option (Buffer UInt8) × End :=
  let t := dict_printf malloc heap ds format
  let last :=
    match t.last with
    | .returned rc => .returned (if rc ≠ 1 then 1 else 0)
    | last => last
  (run (write malloc) t.ops (result.getD emptyBuffer), last)

/-- `struct crtx_dict_transformation` -/
structure Transformation where
  key : Option CString
  type : Option Char
  flag : BitVec 8
  format : CString

/-- The body of the loop of `crtx_dict_transform`. The result of `dict_printf` is not looked at. -/
def transformItem (malloc : Nat → UInt8) (heap : DictId → Dict) (dict : DictPtr) (pit : Transformation) :
    Option Item :=
  let b : Buffer UInt8 := ⟨fresh malloc 24, 0, Nat.zero_le _⟩
  let printed :=
    if pit.type = some 's' then run (write malloc) (dict_printf malloc heap dict pit.format.1).ops b else some b
  (printed.bind fun b => (if b.mem.length - 1 ≤ b.len then b.grow (fresh malloc 1) else b).store [] [0]).map fun b =>
    { type := pit.type
      flags := pit.flag
      key := pit.key
      size := BitVec.ofNat 64 b.len
      value := .string (some (cstring b.mem)) }

/-! ## Formats and what they stand for -/

/-- A length of 256 counts as none. -/
def cut (s : List UInt8) : List UInt8 := s.take (s.length % 256)

/-- `%[key]`, with something behind it. -/
def keyed (key e : List UInt8) : List UInt8 := PERCENT :: OPEN_BRACKET :: (key ++ CLOSE_BRACKET :: e)

/-- `%[key](sub)`, with something behind it. -/
def grouped (key sub f : List UInt8) : List UInt8 := keyed key (OPEN_GROUP :: (sub ++ CLOSE_GROUP :: f))

/-- What a key stands for. -/
def picked (heap : DictId → Dict) (ds : DictPtr) (key : List UInt8) : Picked :=
  match ds with
  | .null => if key.head? = some STAR then .crash else .missing
  | .bad => .crash
  | .dict d =>
    if key.head? = some STAR then .item (heap d) (heap d).items[0]?
    else
      match lookup heap (some d) ((cstring key).1.splitOn SEPARATOR) with
      | none => .missing
      | some r => .item (heap d) (some ((heap r.1).item r.2))

/-- The items that are printed as strings. -/
def targets (d : Dict) (key : List UInt8) (di : Option Item) : List (Option Item) :=
  if key.head? = some STAR then (List.range (max 1 d.signature_length.toNat)).map (d.items[·]?) else [di]

def stringItem (di : Item) : Option CString := if di.type = some 's' then stringOf di else none

/-- The strings of the items, up to the first item that has none. -/
def leading : List (Option Item) → List CString
  | [] => []
  | t :: ts =>
    match t.bind stringItem with
    | none => []
    | some s => s :: leading ts

/-- The first item that has no string. -/
def blocker (ts : List (Option Item)) : Option (Option Item) := ts.find? fun t => (t.bind stringItem).isNone

/-- How many strings have a separator behind them, if there are enough of them. -/
def separators (d : Dict) (key : List UInt8) : Nat :=
  if key.head? = some STAR ∧ 1 < key.length then (d.signature_length - 1).toNat else 0

/-- The first `n` strings have a separator behind them. -/
def joined (sep : List UInt8) : Nat → List CString → List Op
  | _, [] => []
  | 0, s :: ss => .string s.1 :: joined sep 0 ss
  | n + 1, s :: ss => .string s.1 :: .separator sep :: joined sep n ss

def stringOps (d : Dict) (key : List UInt8) (di : Option Item) : List Op :=
  joined key.tail (separators d key) (leading (targets d key di))

/-- The loop prints the format up to the rest `f'`, and writes `w` for that. -/
inductive Prints (heap : DictId → Dict) : DictPtr → List UInt8 → List Op → List UInt8 → Prop where
  | here (ds f) : Prints heap ds f [] f
  | char {ds c f w f'} (hc : c ≠ PERCENT) (h : Prints heap ds f w f') : Prints heap ds (c :: f) (.char c :: w) f'
  | percent {ds f w f'} (h : Prints heap ds f w f') :
      Prints heap ds (PERCENT :: PERCENT :: f) (.char PERCENT :: w) f'
  | number {ds key d di c f w f'} (hk : CLOSE_BRACKET ∉ key) (hp : picked heap ds (cut key) = .item d di)
      (hc : c = 'd'.toUInt8 ∨ c = 'u'.toUInt8) (h : Prints heap ds f w f') : Prints heap ds (keyed key (c :: f)) w f'
  | strings {ds key d di f w f'} (hk : CLOSE_BRACKET ∉ key) (hp : picked heap ds (cut key) = .item d di)
      (hall : blocker (targets d (cut key) di) = none) (h : Prints heap ds f w f') :
      Prints heap ds (keyed key ('s'.toUInt8 :: f)) (stringOps d (cut key) di ++ w) f'
  | group {ds key sub d di v f w f'} (hk : CLOSE_BRACKET ∉ key) (hs : CLOSE_GROUP ∉ sub)
      (hp : picked heap ds (cut key) = .item d (some di)) (hsub : Prints heap (dictPtr di) (cut sub) v [])
      (h : Prints heap ds f w f') : Prints heap ds (grouped key sub f) (v ++ .terminator :: w) f'

/-- The call, or one for the format of a group, comes to the rest `f'` and the dictionary `ds'`. -/
inductive Reaches (heap : DictId → Dict) : DictPtr → List UInt8 → List Op → DictPtr → List UInt8 → Prop where
  | loop {ds f w f'} (h : Prints heap ds f w f') : Reaches heap ds f w ds f'
  | group {ds f v key sub g d di w ds' f'} (h : Prints heap ds f v (grouped key sub g)) (hk : CLOSE_BRACKET ∉ key)
      (hs : CLOSE_GROUP ∉ sub) (hp : picked heap ds (cut key) = .item d (some di))
      (hsub : Reaches heap (dictPtr di) (cut sub) w ds' f') : Reaches heap ds f (v ++ w) ds' f'

/-- `f` begins with a specifier that is refused. -/
def Refuses (heap : DictId → Dict) (ds : DictPtr) (f : List UInt8) : Prop :=
  (∃ g, g.head? ≠ some PERCENT ∧ g.head? ≠ some OPEN_BRACKET ∧ f = PERCENT :: g) ∨
    ∃ key e, CLOSE_BRACKET ∉ key ∧ f = keyed key e ∧
      (picked heap ds (cut key) = .missing ∨
        ∃ d di, picked heap ds (cut key) = .item d di ∧
          ∀ c ∈ e.head?, c ∉ [OPEN_GROUP, 's'.toUInt8, 'd'.toUInt8, 'u'.toUInt8])

/-- `f` begins with a bracket that is not closed, or with a group that is not closed and has an item. -/
def Opens (heap : DictId → Dict) (ds : DictPtr) (f : List UInt8) : Prop :=
  (∃ g, CLOSE_BRACKET ∉ g ∧ f = PERCENT :: OPEN_BRACKET :: g) ∨
    ∃ key g d di, CLOSE_BRACKET ∉ key ∧ CLOSE_GROUP ∉ g ∧ picked heap ds (cut key) = .item d di ∧
      f = keyed key (OPEN_GROUP :: g)

/-- `f` begins with a specifier for a dictionary that is not there, or with a group for an item that is not there. -/
def Nowhere (heap : DictId → Dict) (ds : DictPtr) (f : List UInt8) : Prop :=
  ∃ key e, CLOSE_BRACKET ∉ key ∧ f = keyed key e ∧
    (picked heap ds (cut key) = .crash ∨
      ∃ d sub g, picked heap ds (cut key) = .item d none ∧ CLOSE_GROUP ∉ sub ∧
        e = OPEN_GROUP :: (sub ++ CLOSE_GROUP :: g))

/-- How the loop over the strings ends. -/
def stringEnd (ts : List (Option Item)) : End :=
  match blocker ts with
  | none => .returned 1
  | some none => .crash
  | some (some di) => if di.type = some 's' then .crash else .returned 0

/-- What a call does, by the first character or specifier of the format. -/
inductive Call (heap : DictId → Dict) : DictPtr → List UInt8 → Trace → Prop where
  | nil (ds) : Call heap ds [] ⟨[.terminator], .returned 1⟩
  | char {ds c f t} (hc : c ≠ PERCENT) (h : Call heap ds f t) :
      Call heap ds (c :: f) (Trace.andThen ⟨[.char c], .returned 1⟩ t)
  | percent {ds f t} (h : Call heap ds f t) :
      Call heap ds (PERCENT :: PERCENT :: f) (Trace.andThen ⟨[.char PERCENT], .returned 1⟩ t)
  | refuses {ds f} (h : Refuses heap ds f) : Call heap ds f ⟨[], .returned 0⟩
  | opens {ds f} (h : Opens heap ds f) : Call heap ds f ⟨[], .overread⟩
  | nowhere {ds f} (h : Nowhere heap ds f) : Call heap ds f ⟨[], .crash⟩
  | number {ds key d di c f t} (hk : CLOSE_BRACKET ∉ key) (hp : picked heap ds (cut key) = .item d di)
      (hc : c = 'd'.toUInt8 ∨ c = 'u'.toUInt8) (h : Call heap ds f t) : Call heap ds (keyed key (c :: f)) t
  | strings {ds key d di f t} (hk : CLOSE_BRACKET ∉ key) (hp : picked heap ds (cut key) = .item d di)
      (h : Call heap ds f t) :
      Call heap ds (keyed key ('s'.toUInt8 :: f))
        (Trace.andThen ⟨stringOps d (cut key) di, stringEnd (targets d (cut key) di)⟩ t)
  | group {ds key sub d di f t u} (hk : CLOSE_BRACKET ∉ key) (hs : CLOSE_GROUP ∉ sub)
      (hp : picked heap ds (cut key) = .item d (some di)) (hsub : Call heap (dictPtr di) (cut sub) t)
      (h : Call heap ds f u) : Call heap ds (grouped key sub f) (t.andThen u)

/-! ## Strings -/

theorem pick_eq (malloc : Nat → UInt8) (heap : DictId → Dict) (ds : DictPtr) (key : List UInt8) :
    pick malloc heap ds key = picked heap ds key := by
  unfold pick picked
  by_cases hstar : key.head? = some STAR
  · cases ds <;> simp [hstar]
  · cases ds with
    | null => simp [hstar]
    | bad => simp [hstar]
    | dict d =>
      simp only [hstar, ne_eq, not_false_eq_true, if_true, if_false, DictLocate.dict_locate_eq]
      cases lookup heap (some d) ((cstring key).1.splitOn SEPARATOR) <;> rfl

@[simp] theorem andThen_done (w : List Op) (t : Trace) :
    Trace.andThen ⟨w, .returned 1⟩ t = ⟨w ++ t.ops, t.last⟩ := if_pos rfl

theorem andThen_stop {t : Trace} (h : t.last ≠ .returned 1) (u : Trace) : t.andThen u = t := if_neg h

theorem stringEnd_cons {t : Option Item} {s : CString} (h : t.bind stringItem = some s) (ts : List (Option Item)) :
    stringEnd (t :: ts) = stringEnd ts := by
  unfold stringEnd blocker
  rw [List.find?_cons_of_neg (by simp [h])]

theorem joined_cons (sep : List UInt8) (n : Nat) (s : CString) (ss : List CString) :
    joined sep n (s :: ss) = .string s.1 :: (if 0 < n then [Op.separator sep] else []) ++ joined sep (n - 1) ss := by
  cases n <;> simp [joined]

theorem separators_pos (d : Dict) (key : List UInt8) (i : Nat) :
    0 < separators d key - i ↔ key.head? = some STAR ∧ 1 < key.length ∧ i < (d.signature_length - 1).toNat := by
  unfold separators
  split
  · rename_i h
    rw [and_iff_right h.1, and_iff_right h.2]
    omega
  · rename_i h
    exact iff_of_false (by omega) fun h' => h ⟨h'.1, h'.2.1⟩

theorem stringLoop_eq (d : Dict) (key : List UInt8) {fuel i : Nat} (t : Option Item) {ts : List (Option Item)}
    (hts : ts = if key.head? = some STAR then
      (List.range' (i + 1) (d.signature_length.toNat - (i + 1))).map (d.items[·]?) else [])
    (hfuel : ts.length < fuel) :
    stringLoop d key fuel i t = ⟨joined key.tail (separators d key - i) (leading (t :: ts)), stringEnd (t :: ts)⟩ := by
  induction fuel generalizing i t ts with
  | zero => omega
  | succ fuel ih =>
    cases t with
    | none => rfl
    | some di =>
      by_cases ht : di.type = some 's'
      · cases hs : stringOf di with
        | none =>
          have hitem : stringItem di = none := by simp [stringItem, ht, hs]
          simp [stringLoop, leading, hitem, stringEnd, blocker, ht, joined, hs]
        | some s =>
          have hitem : (some di).bind stringItem = some s := by simp [stringItem, ht, hs]
          have hlead : leading (some di :: ts) = s :: leading ts := by simp only [leading, hitem]
          rw [stringLoop, if_neg (not_not.mpr ht), hs, hlead, joined_cons, stringEnd_cons hitem]
          simp only [← separators_pos, andThen_done]
          -- The next round is for the next item, if the loop is for all items and this was not the last one.
          by_cases hnext : key.head? = some STAR ∧ i + 1 < d.signature_length.toNat
          · obtain ⟨n, hn⟩ : ∃ n, d.signature_length.toNat - (i + 1) = n + 1 := Nat.exists_eq_add_one.mpr (by omega)
            rw [if_pos hnext.1, hn, List.range'_succ, List.map_cons] at hts
            have hn' : d.signature_length.toNat - (i + 1 + 1) = n := by omega
            subst hts
            rw [if_pos hnext, ih _ (by rw [if_pos hnext.1, hn']) (by simpa using hfuel)]
            rfl
          · have hnil : ts = [] := by
              rw [hts]
              split
              · rename_i hstar
                have hlast : d.signature_length.toNat - (i + 1) = 0 := by
                  have : ¬ i + 1 < d.signature_length.toNat := fun h => hnext ⟨hstar, h⟩
                  omega
                rw [hlast]
                rfl
              · rfl
            subst hnil
            rw [if_neg hnext]
            rfl
      · have hitem : stringItem di = none := by simp [stringItem, ht]
        simp [stringLoop, leading, hitem, stringEnd, blocker, ht, joined]

theorem stringLoop_spec {d : Dict} {key : List UInt8} {di : Option Item}
    (h : key.head? = some STAR → di = d.items[0]?) :
    stringLoop d key (d.signature_length.toNat + 1) 0 di =
      ⟨stringOps d key di, stringEnd (targets d key di)⟩ := by
  obtain ⟨ts, hts⟩ : ∃ ts, ts = if key.head? = some STAR then
    (List.range' 1 (d.signature_length.toNat - 1)).map (d.items[·]?) else [] := ⟨_, rfl⟩
  have htargets : targets d key di = di :: ts := by
    unfold targets
    rw [hts]
    split
    · rename_i hstar
      have hmax : max 1 d.signature_length.toNat = d.signature_length.toNat - 1 + 1 := by omega
      rw [h hstar, hmax, List.range_eq_range', List.range'_succ, List.map_cons]
    · rfl
  have hlen : ts.length < d.signature_length.toNat + 1 := by
    rw [hts]
    split
    · rw [List.length_map, List.length_range']
      omega
    · exact Nat.succ_pos _
  rw [stringLoop_eq d key di hts hlen, stringOps, htargets]
  rfl

theorem picked_star {heap : DictId → Dict} {ds : DictPtr} {key : List UInt8} {d : Dict} {di : Option Item}
    (hp : picked heap ds key = .item d di) (hstar : key.head? = some STAR) : di = d.items[0]? := by
  unfold picked at hp
  cases ds with
  | null => simp [hstar] at hp
  | bad => cases hp
  | dict i =>
    simp only [hstar, if_true] at hp
    cases hp
    rfl

/-! ## Rounds -/

theorem strchr_append {a : List UInt8} {c : UInt8} (h : c ∉ a) (b : List UInt8) :
    strchr (a ++ c :: b) c = some a.length := by
  unfold strchr
  have hnone : a.findIdx? (· = c) = none :=
    List.findIdx?_eq_none_iff.mpr fun _ hx => decide_eq_false fun hxc => h (hxc ▸ hx)
  rw [List.findIdx?_append, hnone, List.findIdx?_cons]
  simp

theorem strchr_not_mem {p : List UInt8} {c : UInt8} (h : c ∉ p) : strchr p c = none :=
  List.findIdx?_eq_none_iff.mpr fun _ hx => decide_eq_false fun hxc => h (hxc ▸ hx)

def Round.Within (n : Nat) : Round → Prop
  | .stop _ => True
  | .go _ rest => rest.length ≤ n
  | .group _ fmt rest => fmt.length ≤ n ∧ rest.length ≤ n

theorem Round.Within.mono {r : Round} {n m : Nat} (h : r.Within n) (hle : n ≤ m) : r.Within m := by
  cases r with
  | stop last => trivial
  | go t rest => exact Nat.le_trans h hle
  | group ds fmt rest => exact ⟨Nat.le_trans h.1 hle, Nat.le_trans h.2 hle⟩

theorem specifier_within (d : Dict) (key : List UInt8) (di : Option Item) (e : List UInt8) :
    (specifier d key di e).Within e.length := by
  cases e with
  | nil => trivial
  | cons c rest =>
    dsimp only [specifier]
    split_ifs
    · cases strchr (c :: rest) CLOSE_GROUP with
      | none => trivial
      | some m =>
        cases di with
        | none => trivial
        | some di => exact ⟨by simp, by simp; omega⟩
    · simp [Round.Within]
    · simp [Round.Within]
    · trivial

theorem round_within (malloc : Nat → UInt8) (heap : DictId → Dict) (ds : DictPtr) (c : UInt8) (f : List UInt8) :
    (round malloc heap ds c f).Within f.length := by
  dsimp only [round]
  split_ifs
  · trivial
  · cases hn : strchr (c :: f) CLOSE_BRACKET with
    | none => trivial
    | some n =>
      dsimp only [afterKey]
      cases pick malloc heap ds ((f.drop 1).take ((n - 2) % 256)) with
      | missing => trivial
      | crash => trivial
      | item d di =>
        exact (specifier_within d _ di _).mono (by simp)
  · simp [Round.Within]
  · simp [Round.Within]

theorem printfLoop_fuel (malloc : Nat → UInt8) (heap : DictId → Dict) {n m : Nat} (ds : DictPtr) {f : List UInt8}
    (hn : f.length < n) (hm : f.length < m) : printfLoop malloc heap n ds f = printfLoop malloc heap m ds f := by
  induction n generalizing m ds f with
  | zero => omega
  | succ n ih =>
    obtain ⟨m, rfl⟩ : ∃ k, m = k + 1 := Nat.exists_eq_add_one.mpr (by omega)
    cases f with
    | nil => rfl
    | cons c f =>
      rw [List.length_cons] at hn hm
      have hw := round_within malloc heap ds c f
      rw [printfLoop, printfLoop]
      cases hr : round malloc heap ds c f with
      | stop last => rfl
      | go t rest =>
        rw [hr] at hw
        have hrest : rest.length ≤ f.length := hw
        dsimp only
        rw [ih (m := m) ds (by omega) (by omega)]
      | group ds' fmt rest =>
        rw [hr] at hw
        have hfmt : fmt.length ≤ f.length := hw.1
        have hrest : rest.length ≤ f.length := hw.2
        dsimp only
        rw [ih (m := m) ds' (f := fmt) (by omega) (by omega), ih (m := m) ds (f := rest) (by omega) (by omega)]

section

variable {malloc : Nat → UInt8} {heap : DictId → Dict} {ds : DictPtr} {c : UInt8} {f : List UInt8}

theorem dict_printf_nil : dict_printf malloc heap ds [] = ⟨[.terminator], .returned 1⟩ := rfl

theorem dict_printf_stop {last : End} (h : round malloc heap ds c f = .stop last) :
    dict_printf malloc heap ds (c :: f) = ⟨[], last⟩ := by
  rw [dict_printf, printfLoop, h]

theorem dict_printf_go {t : Trace} {rest : List UInt8} (h : round malloc heap ds c f = .go t rest) :
    dict_printf malloc heap ds (c :: f) = t.andThen (dict_printf malloc heap ds rest) := by
  have hw := round_within malloc heap ds c f
  rw [h] at hw
  have hrest : rest.length ≤ f.length := hw
  rw [dict_printf, printfLoop, h, dict_printf]
  dsimp only
  rw [printfLoop_fuel malloc heap ds (by simp; omega) (Nat.lt_succ_self _)]

theorem dict_printf_group {ds' : DictPtr} {fmt rest : List UInt8} (h : round malloc heap ds c f = .group ds' fmt rest) :
    dict_printf malloc heap ds (c :: f) =
      (dict_printf malloc heap ds' fmt).andThen (dict_printf malloc heap ds rest) := by
  have hw := round_within malloc heap ds c f
  rw [h] at hw
  have hfmt : fmt.length ≤ f.length := hw.1
  have hrest : rest.length ≤ f.length := hw.2
  rw [dict_printf, printfLoop, h, dict_printf, dict_printf]
  dsimp only
  rw [printfLoop_fuel malloc heap ds' (f := fmt) (by simp; omega) (Nat.lt_succ_self _),
    printfLoop_fuel malloc heap ds (f := rest) (by simp; omega) (Nat.lt_succ_self _)]

theorem round_char (hc : c ≠ PERCENT) : round malloc heap ds c f = .go ⟨[.char c], .returned 1⟩ f := by
  unfold round
  rw [if_neg fun h => hc h.1, if_neg hc]

theorem round_percent : round malloc heap ds PERCENT (PERCENT :: f) = .go ⟨[.char PERCENT], .returned 1⟩ f := by
  unfold round
  rw [if_neg (by simp), if_pos rfl, List.drop_one, List.tail_cons]

theorem round_stray (hp : f.head? ≠ some PERCENT) (hb : f.head? ≠ some OPEN_BRACKET) :
    round malloc heap ds PERCENT f = .stop (.returned 0) := by
  unfold round
  rw [if_pos ⟨rfl, hp⟩, if_pos hb]

theorem bracket_ne_percent : OPEN_BRACKET ≠ PERCENT := by decide

theorem round_open (h : CLOSE_BRACKET ∉ f) : round malloc heap ds PERCENT (OPEN_BRACKET :: f) = .stop .overread := by
  have hnone : strchr (PERCENT :: OPEN_BRACKET :: f) CLOSE_BRACKET = none := by
    have hin : CLOSE_BRACKET ∉ OPEN_BRACKET :: f := List.not_mem_cons_of_ne_of_not_mem (by decide) h
    exact strchr_not_mem (List.not_mem_cons_of_ne_of_not_mem (by decide) hin)
  unfold round
  rw [if_pos ⟨rfl, by simp [bracket_ne_percent]⟩, if_neg (by simp), hnone]

theorem round_keyed {key : List UInt8} (hk : CLOSE_BRACKET ∉ key) (e : List UInt8) :
    round malloc heap ds PERCENT (OPEN_BRACKET :: (key ++ CLOSE_BRACKET :: e)) =
      afterKey (cut key) e (picked heap ds (cut key)) := by
  have hfirst : strchr (PERCENT :: OPEN_BRACKET :: (key ++ CLOSE_BRACKET :: e)) CLOSE_BRACKET =
      some (key.length + 2) := by
    have hin : CLOSE_BRACKET ∉ OPEN_BRACKET :: key := List.not_mem_cons_of_ne_of_not_mem (by decide) hk
    exact strchr_append (List.not_mem_cons_of_ne_of_not_mem (by decide) hin) e
  have hkey : ((OPEN_BRACKET :: (key ++ CLOSE_BRACKET :: e)).drop 1).take (key.length % 256) = cut key := by
    rw [List.drop_one, List.tail_cons, List.take_append_of_le_length (Nat.mod_le _ _), cut]
  have hrest : (PERCENT :: OPEN_BRACKET :: (key ++ CLOSE_BRACKET :: e)).drop (key.length + 2 + 1) = e := by
    simp
  unfold round
  rw [if_pos ⟨rfl, by simp [bracket_ne_percent]⟩, if_neg (by simp), hfirst]
  simp only [Nat.add_sub_cancel, hkey, hrest, pick_eq]

theorem specifier_group (d : Dict) (key : List UInt8) {sub : List UInt8} (hs : CLOSE_GROUP ∉ sub) (di : Option Item) :
    specifier d key di (OPEN_GROUP :: (sub ++ CLOSE_GROUP :: f)) =
      di.elim (.stop .crash) fun di => .group (dictPtr di) (cut sub) f := by
  have hfirst : strchr (OPEN_GROUP :: (sub ++ CLOSE_GROUP :: f)) CLOSE_GROUP = some (sub.length + 1) :=
    strchr_append (List.not_mem_cons_of_ne_of_not_mem (by decide) hs) f
  have hfmt : ((OPEN_GROUP :: (sub ++ CLOSE_GROUP :: f)).drop 1).take (sub.length % 256) = cut sub := by
    rw [List.drop_one, List.tail_cons, List.take_append_of_le_length (Nat.mod_le _ _), cut]
  have hrest : (OPEN_GROUP :: (sub ++ CLOSE_GROUP :: f)).drop (sub.length + 1 + 1) = f := by simp
  dsimp only [specifier]
  rw [if_pos rfl, hfirst]
  cases di with
  | none => rfl
  | some di => simp only [Nat.add_sub_cancel, hfmt, hrest, Option.elim_some]

theorem specifier_open (d : Dict) (key : List UInt8) (di : Option Item) (h : CLOSE_GROUP ∉ f) :
    specifier d key di (OPEN_GROUP :: f) = .stop .overread := by
  have hnone : strchr (OPEN_GROUP :: f) CLOSE_GROUP = none :=
    strchr_not_mem (List.not_mem_cons_of_ne_of_not_mem (by decide) h)
  dsimp only [specifier]
  rw [if_pos rfl, hnone]

/-! ## What a call does -/

theorem dict_printf_char (hc : c ≠ PERCENT) :
    dict_printf malloc heap ds (c :: f) = Trace.andThen ⟨[.char c], .returned 1⟩ (dict_printf malloc heap ds f) :=
  dict_printf_go (round_char hc)

theorem dict_printf_percent :
    dict_printf malloc heap ds (PERCENT :: PERCENT :: f) =
      Trace.andThen ⟨[.char PERCENT], .returned 1⟩ (dict_printf malloc heap ds f) :=
  dict_printf_go round_percent

variable {key sub : List UInt8} {d : Dict}

theorem dict_printf_keyed_stop {e : List UInt8} {last : End} (hk : CLOSE_BRACKET ∉ key)
    (h : afterKey (cut key) e (picked heap ds (cut key)) = .stop last) :
    dict_printf malloc heap ds (keyed key e) = ⟨[], last⟩ :=
  dict_printf_stop ((round_keyed hk e).trans h)

theorem dict_printf_number {di : Option Item} (hk : CLOSE_BRACKET ∉ key)
    (hp : picked heap ds (cut key) = .item d di) (hc : c = 'd'.toUInt8 ∨ c = 'u'.toUInt8) :
    dict_printf malloc heap ds (keyed key (c :: f)) = dict_printf malloc heap ds f := by
  have hround : round malloc heap ds PERCENT (OPEN_BRACKET :: (key ++ CLOSE_BRACKET :: c :: f)) =
      .go ⟨[], .returned 1⟩ f := by
    rw [round_keyed hk, hp]
    rcases hc with rfl | rfl <;> rfl
  rw [keyed, dict_printf_go hround, andThen_done, List.nil_append]

theorem dict_printf_strings {di : Option Item} (hk : CLOSE_BRACKET ∉ key)
    (hp : picked heap ds (cut key) = .item d di) :
    dict_printf malloc heap ds (keyed key ('s'.toUInt8 :: f)) =
      Trace.andThen ⟨stringOps d (cut key) di, stringEnd (targets d (cut key) di)⟩ (dict_printf malloc heap ds f) := by
  apply dict_printf_go
  rw [round_keyed hk, hp, ← stringLoop_spec (picked_star hp)]
  rfl

theorem dict_printf_grouped {di : Item} (hk : CLOSE_BRACKET ∉ key) (hs : CLOSE_GROUP ∉ sub)
    (hp : picked heap ds (cut key) = .item d (some di)) :
    dict_printf malloc heap ds (grouped key sub f) =
      (dict_printf malloc heap (dictPtr di) (cut sub)).andThen (dict_printf malloc heap ds f) := by
  apply dict_printf_group
  rw [round_keyed hk, hp]
  exact specifier_group d (cut key) hs (some di)

theorem dict_printf_opens (h : Opens heap ds f) : dict_printf malloc heap ds f = ⟨[], .overread⟩ := by
  rcases h with ⟨g, hg, rfl⟩ | ⟨key, g, d, di, hk, hg, hp, rfl⟩
  · exact dict_printf_stop (round_open hg)
  · exact dict_printf_keyed_stop hk (by rw [hp, afterKey, specifier_open d (cut key) di hg])

theorem dict_printf_nowhere (h : Nowhere heap ds f) : dict_printf malloc heap ds f = ⟨[], .crash⟩ := by
  obtain ⟨key, e, hk, rfl, hp | ⟨d, sub, g, hp, hs, rfl⟩⟩ := h
  · exact dict_printf_keyed_stop hk (by rw [hp, afterKey])
  · exact dict_printf_keyed_stop hk (by rw [hp, afterKey, specifier_group d (cut key) hs none, Option.elim_none])

theorem call_group {g : List UInt8} {di : Option Item} (hk : CLOSE_BRACKET ∉ key)
    (hp : picked heap ds (cut key) = .item d di)
    (ih : ∀ ds f, f.length < (keyed key (OPEN_GROUP :: g)).length → Call heap ds f (dict_printf malloc heap ds f)) :
    Call heap ds (keyed key (OPEN_GROUP :: g)) (dict_printf malloc heap ds (keyed key (OPEN_GROUP :: g))) := by
  by_cases hclose : CLOSE_GROUP ∈ g
  · obtain ⟨sub, rest, rfl, hs⟩ := List.eq_append_cons_of_mem hclose
    cases di with
    | none =>
      have h : Nowhere heap ds (grouped key sub rest) := ⟨key, _, hk, rfl, .inr ⟨d, sub, rest, hp, hs, rfl⟩⟩
      rw [← grouped, dict_printf_nowhere h]
      exact .nowhere h
    | some di =>
      rw [← grouped, dict_printf_grouped hk hs hp]
      refine .group hk hs hp (ih _ _ ?_) (ih _ _ ?_)
      · simp [keyed, cut]
        omega
      · simp [keyed]
        omega
  · have h : Opens heap ds (keyed key (OPEN_GROUP :: g)) := .inr ⟨key, g, d, di, hk, hclose, hp, rfl⟩
    rw [dict_printf_opens h]
    exact .opens h

theorem call_keyed {e : List UInt8} (hk : CLOSE_BRACKET ∉ key)
    (ih : ∀ ds f, f.length < (keyed key e).length → Call heap ds f (dict_printf malloc heap ds f)) :
    Call heap ds (keyed key e) (dict_printf malloc heap ds (keyed key e)) := by
  cases hp : picked heap ds (cut key) with
  | missing =>
    rw [dict_printf_keyed_stop hk (by rw [hp, afterKey])]
    exact .refuses (.inr ⟨key, e, hk, rfl, .inl hp⟩)
  | crash =>
    have h : Nowhere heap ds (keyed key e) := ⟨key, e, hk, rfl, .inl hp⟩
    rw [dict_printf_nowhere h]
    exact .nowhere h
  | item d di =>
    cases e with
    | nil =>
      rw [dict_printf_keyed_stop hk (by rw [hp, afterKey, specifier])]
      exact .refuses (.inr ⟨key, [], hk, rfl, .inr ⟨d, di, hp, by simp⟩⟩)
    | cons c g =>
      have hg : g.length < (keyed key (c :: g)).length := by
        simp [keyed]
        omega
      by_cases hgroup : c = OPEN_GROUP
      · subst hgroup
        exact call_group hk hp ih
      · by_cases hs : c = 's'.toUInt8
        · subst hs
          rw [dict_printf_strings hk hp]
          exact .strings hk hp (ih ds g hg)
        · by_cases hn : c = 'd'.toUInt8 ∨ c = 'u'.toUInt8
          · rw [dict_printf_number hk hp hn]
            exact .number hk hp hn (ih ds g hg)
          · have hstop : afterKey (cut key) (c :: g) (picked heap ds (cut key)) = .stop (.returned 0) := by
              rw [hp]
              dsimp only [afterKey, specifier]
              rw [if_neg hgroup, if_neg hs, if_neg hn]
            rw [dict_printf_keyed_stop hk hstop]
            rw [not_or] at hn
            exact .refuses (.inr ⟨key, _, hk, rfl, .inr ⟨d, di, hp, by simp [hgroup, hs, hn.1, hn.2]⟩⟩)

theorem call_of_length (n : Nat) (ds : DictPtr) (f : List UInt8) (hn : f.length < n) :
    Call heap ds f (dict_printf malloc heap ds f) := by
  induction n generalizing ds f with
  | zero => omega
  | succ n ih =>
    cases f with
    | nil => exact .nil ds
    | cons c f =>
      rw [List.length_cons] at hn
      by_cases hc : c = PERCENT
      · subst hc
        cases f with
        | nil =>
          rw [dict_printf_stop (round_stray (by simp) (by simp))]
          exact .refuses (.inl ⟨[], by simp, by simp, rfl⟩)
        | cons c f =>
          by_cases hpercent : c = PERCENT
          · subst hpercent
            rw [dict_printf_percent]
            exact .percent (ih ds f (by simp at hn; omega))
          · by_cases hbracket : c = OPEN_BRACKET
            · subst hbracket
              by_cases hclose : CLOSE_BRACKET ∈ f
              · obtain ⟨key, e, rfl, hk⟩ := List.eq_append_cons_of_mem hclose
                refine call_keyed hk fun ds' f' hf' => ih ds' f' ?_
                simp [keyed] at hf' hn
                omega
              · have h : Opens heap ds (PERCENT :: OPEN_BRACKET :: f) := .inl ⟨f, hclose, rfl⟩
                rw [dict_printf_opens h]
                exact .opens h
            · rw [dict_printf_stop (round_stray (by simpa using hpercent) (by simpa using hbracket))]
              exact .refuses (.inl ⟨c :: f, by simpa using hpercent, by simpa using hbracket, rfl⟩)
      · rw [dict_printf_char hc]
        exact .char hc (ih ds f (by omega))

theorem dict_printf_call (malloc : Nat → UInt8) (heap : DictId → Dict) (ds : DictPtr) (f : List UInt8) :
    Call heap ds f (dict_printf malloc heap ds f) :=
  call_of_length (f.length + 1) ds f (Nat.lt_succ_self _)

theorem Prints.trace {w : List Op} {f' : List UInt8} (h : Prints heap ds f w f') (malloc : Nat → UInt8) :
    dict_printf malloc heap ds f = Trace.andThen ⟨w, .returned 1⟩ (dict_printf malloc heap ds f') := by
  induction h with
  | here ds f => rw [andThen_done, List.nil_append]
  | char hc h ih =>
    rw [dict_printf_char hc, ih]
    simp only [andThen_done, List.cons_append, List.nil_append]
  | percent h ih =>
    rw [dict_printf_percent, ih]
    simp only [andThen_done, List.cons_append, List.nil_append]
  | number hk hp hc h ih => rw [dict_printf_number hk hp hc, ih]
  | strings hk hp hall h ih =>
    have hend : ∀ ts, blocker ts = none → stringEnd ts = .returned 1 := fun ts hts => by rw [stringEnd, hts]
    rw [dict_printf_strings hk hp, ih, hend _ hall]
    simp only [andThen_done, List.append_assoc]
  | group hk hs hp hsub h ihsub ih =>
    rw [dict_printf_grouped hk hs hp, ihsub, ih, dict_printf_nil]
    simp only [andThen_done, List.append_assoc, List.cons_append, List.nil_append]

theorem Prints.trans {v w : List Op} {f' f'' : List UInt8} (h : Prints heap ds f v f') (h' : Prints heap ds f' w f'') :
    Prints heap ds f (v ++ w) f'' := by
  induction h with
  | here ds f => exact h'
  | char hc h ih => exact .char hc (ih h')
  | percent h ih => exact .percent (ih h')
  | number hk hp hc h ih => exact .number hk hp hc (ih h')
  | strings hk hp hall h ih =>
    rw [List.append_assoc]
    exact .strings hk hp hall (ih h')
  | group hk hs hp hsub h _ ih =>
    rw [List.append_assoc, List.cons_append]
    exact .group hk hs hp hsub (ih h')

theorem Prints.reaches {v w : List Op} {f' f'' : List UInt8} {ds' : DictPtr} (h : Prints heap ds f v f')
    (hr : Reaches heap ds f' w ds' f'') : Reaches heap ds f (v ++ w) ds' f'' := by
  cases hr with
  | loop h' => exact .loop (h.trans h')
  | group h' hk hs hp hsub =>
    rw [← List.append_assoc]
    exact .group (h.trans h') hk hs hp hsub

theorem Trace.andThen_last {t u : Trace} (h : t.last ≠ .returned 1) : (t.andThen u).last = t.last := by
  rw [andThen_stop h]

theorem Trace.prefix_andThen (t u : Trace) : t.ops <+: (t.andThen u).ops := by
  unfold Trace.andThen
  split
  · exact List.prefix_append _ _
  · exact List.prefix_rfl

theorem Reaches.last {w : List Op} {ds' : DictPtr} {f' : List UInt8} (h : Reaches heap ds f w ds' f')
    (hne : (dict_printf malloc heap ds' f').last ≠ .returned 1) :
    (dict_printf malloc heap ds f).last = (dict_printf malloc heap ds' f').last := by
  induction h with
  | loop h => rw [h.trace malloc, andThen_done]
  | group h hk hs hp hsub ih =>
    have hin := ih hne
    rw [h.trace malloc, andThen_done, dict_printf_grouped hk hs hp]
    dsimp only
    rw [Trace.andThen_last (by rw [hin]; exact hne), hin]

theorem Reaches.ops {w : List Op} {ds' : DictPtr} {f' : List UInt8} (h : Reaches heap ds f w ds' f') :
    w ++ (dict_printf malloc heap ds' f').ops <+: (dict_printf malloc heap ds f).ops := by
  induction h with
  | loop h => rw [h.trace malloc, andThen_done]
  | group h hk hs hp hsub ih =>
    rw [h.trace malloc, andThen_done, dict_printf_grouped hk hs hp, List.append_assoc]
    exact (List.prefix_append_right_inj _).mpr (ih.trans (Trace.prefix_andThen _ _))

end

end Libcortex.DictPrintf
