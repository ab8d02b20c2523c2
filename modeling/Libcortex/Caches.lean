import Libcortex.DictCopy

/-!
# The cache

`cache.c`: a task in front of the one that answers. Its handler looks for the key of an event among the entries and
copies the response it finds, its cleanup stores the response under the key if there was none. In the simple layout an
entry is an item with the key and the response. In the extended one it is an item with the key and a dictionary with
the response and some statistics.
-/

open Libcortex.Lib

namespace Libcortex.Caches

open Dicts

/-! ## The code -/

def keyField : CString := ⟨literal "key", by decide⟩
def valueField : CString := ⟨literal "value", by decide⟩
def creationField : CString := ⟨literal "creation", by decide⟩
def lastMatchField : CString := ⟨literal "last_match", by decide⟩
def nHitsField : CString := ⟨literal "n_hits", by decide⟩
def passthroughField : CString := ⟨literal "passthrough", by decide⟩
def regexpField : CString := ⟨literal "regexp", by decide⟩

/-- A key that `create_key` made: an item of type `s`. -/
structure Key where
  string : CString
  flags : BitVec 8
  size : BitVec 64
deriving DecidableEq

def aKey : Key := ⟨keyA, CRTX_DIF_ALLOCATED_KEY, 0⟩

/-- The regular expressions of the C library. `regcomp` may fail, and `regexec` tells if there is a match. -/
structure Regex where
  regcomp : CString → Option (List UInt8)
  regexec : List UInt8 → CString → Bool

def noRegex : Regex := ⟨fun _ => none, fun _ _ => false⟩

/-- `struct crtx_cache` with its flags and the timeout of its configuration, which is 0 if there is none. `heap` has the
dictionaries of the entries, those from `next` on do not exist yet. -/
structure Cache where
  simple : Bool
  noExtFields : Bool
  timeout : BitVec 64
  entries : Option Dict
  heap : DictId → Dict
  next : DictId

/-- `struct cache_sessiondata`. There is no key if none was made, and `hit` tells if `cache_entry` is set. -/
structure Session where
  key : Option Key
  hit : Bool
deriving DecidableEq

/-- The pointer in the union is not NULL. -/
def nonNull (di : Item) : Bool :=
  match di.value with
  | .word w => w ≠ 0
  | .string s => s.isSome
  | .pointer _ | .dict _ => true

/-- `crtx_get_item(di->dict, name)` -/
def Cache.field (c : Cache) (di : Item) (name : CString) : Option (DictId × Nat) :=
  (dictOf di).bind fun d => (crtx_get_item (c.heap d) name).map fun i => (d, i)

def Cache.get (c : Cache) (p : DictId × Nat) : Item := (c.heap p.1).item p.2

def Cache.setDict (c : Cache) (d : DictId) (dict : Dict) : Cache := { c with heap := Function.update c.heap d dict }

def Cache.set (c : Cache) (p : DictId × Nat) (di : Item) : Cache := c.setDict p.1 (setItem (c.heap p.1) p.2 di)

def Cache.list (c : Cache) : Dict := c.entries.getD ⟨none, 0, []⟩

def crtx_cache_match_cb_t_strcmp (c : Cache) (key : CString) : Option Nat :=
  (visit c.list).find? fun i => (c.list.item i).key = some key

/-- `!crtx_cmp_item(key, rkey)`, for a key that is a string. -/
def sameKey (key : CString) (rkey : Item) : Bool := rkey.type = some 's' ∧ stringOf rkey = some key

/-- One round of `crtx_cache_match_cb_t_regex`. `none`: the process ends, because the expression cannot be compiled. -/
def matchEntry (rx : Regex) (c : Cache) (key : CString) (di : Item) : Option (Cache × Bool) :=
  if di.type ≠ some 'D' then some (c, false)
  else
    match c.field di regexpField with
    | none => some (c, di.key = some key ∨ ((c.field di keyField).any fun p => sameKey key (c.get p)))
    | some p =>
      let regex := c.get p
      if regex.type = some 'I' ∧ (wordOf regex).setWidth 32 = 1#32 then do
        let rkey ← c.field di keyField
        let pattern ← stringOf (c.get rkey)
        let block ← rx.regcomp pattern
        return (c.set p { regex with type := some 'p', value := .pointer block }, rx.regexec block key)
      else
        match regex.value with
        | .pointer block => some (c, rx.regexec block key)
        | _ => none

def crtx_cache_match_cb_t_regex (rx : Regex) (key : CString) : List Nat → Cache → Option (Cache × Option Nat)
  | [], c => some (c, none)
  | i :: is, c => do
    let (c, hit) ← matchEntry rx c key (c.list.item i)
    if hit then return (c, some i) else crtx_cache_match_cb_t_regex rx key is c

/-- `cache->match_event` -/
def matchEvent (rx : Regex) (c : Cache) (key : CString) : Option (Cache × Option Nat) :=
  if c.simple then some (c, crtx_cache_match_cb_t_strcmp c key)
  else crtx_cache_match_cb_t_regex rx key (visit c.list) c

/-- The references that a copy takes are counted in `Hits.refItem`. -/
def copyItem (dst src : Item) (data_only : Bool) : Item := (crtx_dict_copy_item (fun _ => 0) dst src data_only).2

/-- The response after a hit, and whether there is one. -/
def crtx_cache_on_hit (c : Cache) (c_entry response : Item) : Item × Bool :=
  match if c.simple then some c_entry else (c.field c_entry valueField).map c.get with
  | none => (response, false)
  | some v => if v.type = none then (response, false) else (copyItem response v false, true)

/-- `CRTX_DICT_GET_NUMBER(di) == 0`. A `double` is also 0 with the sign set. -/
def numberIsZero (di : Item) : Bool :=
  match di.type with
  | some 'u' | some 'i' => (wordOf di).setWidth 32 = 0#32
  | some 'U' | some 'I' => wordOf di = 0
  | some 'd' => (wordOf di).setWidth 63 = 0#63
  | _ => true

/-- The entry is older than the timeout. -/
def expired (c : Cache) (now : BitVec 64) (ditem : Item) : Bool :=
  0 < c.timeout ∧ (c.field ditem creationField).any fun p => wordOf (c.get p) + c.timeout < now

/-- `crtx_free_dict_item_data` for the key of an entry that is dropped. -/
def freeKey (di : Item) : Item :=
  match di.type with
  | some 's' => { di with type := none, value := .string none }
  | some 'p' | some 'D' => { di with type := none, value := .word 0 }
  | _ => { di with type := none }

/-- The item with this key is changed, or a new one is made of the next free item. -/
def updateField (c : Cache) (d : DictId) (name : CString) (change make : Item → Item) : Cache :=
  match crtx_get_item (c.heap d) name with
  | some i => c.set (d, i) (change ((c.heap d).item i))
  | none =>
    let (dict, i) := crtx_dict_alloc_next_item (c.heap d)
    c.setDict d (setItem dict i (make (dict.item i)))

/-- `last_match` and `n_hits` -/
def updateStats (c : Cache) (d : DictId) (time : BitVec 64) : Cache :=
  let c := updateField c d lastMatchField (fun di => { di with type := some 'U', value := .word time })
    fun di => { di with type := some 'U', key := some lastMatchField, value := .word time }
  updateField c d nHitsField (fun di => { di with value := .word (wordOf di + 1) })
    fun di => { di with type := some 'U', key := some nHitsField, value := .word 0 }

/-- The cache, the session, the response, and what is returned. `now` and `time` are what `get_time` says for the
timeout and for `last_match`. `none`: the process ends. -/
def crtx_cache_task_handler (rx : Regex) (c : Cache) (key : Option Key) (now time : BitVec 64) (response : Item) :
    Option (Cache × Session × Item × Int) :=
  match key with
  | none => some (c, ⟨none, false⟩, response, 1)
  | some key => do
    let (c, found) ← matchEvent rx c key.string
    match found with
    | none => return (c, ⟨some key, false⟩, response, 1)
    | some i =>
      let ditem := c.list.item i
      if c.simple ∨ c.noExtFields then
        let (response, available) := crtx_cache_on_hit c ditem response
        return (c, ⟨some key, true⟩, response, if available then 0 else 1)
      else if expired c now ditem then
        let p ← c.field ditem keyField
        return (c.set p (freeKey (c.get p)), ⟨some key, false⟩, response, 1)
      else
        let d ← dictOf ditem
        let c := updateStats c d time
        let (response, available) := crtx_cache_on_hit c ditem response
        let answered := available ∧ (c.field ditem passthroughField).all fun p => numberIsZero (c.get p)
        return (c, ⟨some key, true⟩, response, if answered then 0 else 1)

/-- The end of `crtx_cache_add_entry` -/
def storeResponse (value_item response : Item) : Item :=
  if response.type = some 'D' then { value_item with type := some 'D', value := response.value }
  else copyItem { value_item with type := response.type } response true

/-- The entry has no key, or one that was dropped. -/
def isEmpty (c : Cache) (di : Item) : Bool := (c.field di keyField).all fun p => (c.get p).type = none

/-- The entries and the item that becomes the new one. -/
def chooseSlot (c : Cache) : Dict × Nat :=
  let d := c.entries.getD (crtx_init_dict none 0)
  if c.simple then crtx_dict_alloc_next_item d
  else
    match (visit d).find? fun i => isEmpty c (d.item i) with
    | some i => (d, i)
    | none => crtx_dict_alloc_next_item d

/-- The items of the dictionary of an entry. The string of the key has been moved to the entry. -/
def fillEntry (noExtFields : Bool) (d : Dict) (key : Key) (creation : BitVec 64) (response : Item) : Dict :=
  let d := setItem d 0
    { type := some 's', flags := key.flags &&& ~~~CRTX_DIF_ALLOCATED_KEY, key := some keyField, size := key.size,
      value := .string none }
  let d := (fillSlot d 1 (some 'p') (some valueField) ⟨.word 0, 0, 0⟩).1
  let d :=
    if noExtFields then d
    else
      let d := setItem d 2 { d.item 2 with type := some 'U', key := some creationField, value := .word creation }
      let d := setItem d 3 { d.item 3 with type := some 'U', key := some lastMatchField, value := .word creation }
      setItem d 4 { d.item 4 with type := some 'U', key := some nHitsField, value := .word 0 }
  setItem d 1 (storeResponse (d.item 1) response)

/-- The dictionary of the entry, which may have to be made. -/
def entryDict (c : Cache) (c_entry : Item) : Cache × DictId :=
  match dictOf c_entry with
  | some d => (c, d)
  | none =>
    ({ c.setDict c.next (crtx_init_dict none (if c.noExtFields then 2 else 5)) with next := c.next + 1 }, c.next)

def crtx_cache_add_entry (c : Cache) (key : Key) (creation : BitVec 64) (response : Item) : Cache :=
  let (d, i) := chooseSlot c
  let c_entry := d.item i
  if c.simple then
    let c_entry := { c_entry with key := some key.string, flags := CRTX_DIF_ALLOCATED_KEY, type := some 'p' }
    { c with entries := some (setItem d i (storeResponse c_entry response)) }
  else
    let (c, x) := entryDict c c_entry
    let flags :=
      if key.flags &&& CRTX_DIF_ALLOCATED_KEY ≠ 0 then c_entry.flags ||| CRTX_DIF_ALLOCATED_KEY else c_entry.flags
    let c := c.setDict x (fillEntry c.noExtFields (c.heap x) key creation response)
    { c with
      entries := some (setItem d i { c_entry with key := some key.string, flags, type := some 'D', value := .dict x }) }

def crtx_cache_task_cleanup (c : Cache) (session : Session) (creation : BitVec 64) (response : Item) : Cache :=
  match session.key with
  | none => c
  | some key =>
    if session.hit = false ∧ nonNull response then crtx_cache_add_entry c key creation response else c

def crtx_cache_remove_entry (c : Cache) (key : CString) : Cache :=
  match c.entries.bind fun d => crtx_dict_remove_item d key with
  | none => c
  | some d => { c with entries := some d }

/-- What `crtx_create_cache_task` makes, with flags and a configuration. -/
def Cache.new (simple noExtFields : Bool) (timeout : BitVec 64) : Cache where
  simple
  noExtFields
  timeout
  entries := none
  heap := fun _ => ⟨none, 0, []⟩
  next := 0

/-! ## The dictionary of an entry -/

def fieldNames (noExtFields : Bool) : List CString :=
  if noExtFields then [keyField, valueField] else [keyField, valueField, creationField, lastMatchField, nHitsField]

/-- The array has an item for each field. -/
structure Sized (noExtFields : Bool) (d : Dict) : Prop where
  length : d.signature_length.toNat = (fieldNames noExtFields).length
  items : d.items.length = (fieldNames noExtFields).length

/-- The items have the names of the fields in order, and the first one has no string. -/
structure Shaped (noExtFields : Bool) (d : Dict) : Prop where
  length : d.signature_length.toNat = (fieldNames noExtFields).length
  keys : d.items.map Item.key = (fieldNames noExtFields).map some
  moved : stringOf (d.item 0) = none

theorem Shaped.sized {noExtFields : Bool} {d : Dict} (h : Shaped noExtFields d) : Sized noExtFields d :=
  ⟨h.length, by simpa using congrArg List.length h.keys⟩

theorem Shaped.item_key {noExtFields : Bool} {d : Dict} (h : Shaped noExtFields d) (i : Nat) :
    (d.item i).key = (fieldNames noExtFields)[i]? := by
  have hi := congrArg (fun l => l[i]?) h.keys
  simp only [List.getElem?_map] at hi
  unfold Dict.item
  cases hd : d.items[i]? with
  | none =>
    rw [hd] at hi
    simp only [Option.map_none] at hi
    rw [Option.map_eq_none_iff.mp hi.symm]
    rfl
  | some di =>
    rw [hd] at hi
    cases hn : (fieldNames noExtFields)[i]? with
    | none =>
      rw [hn] at hi
      cases hi
    | some name =>
      rw [hn] at hi
      simpa using hi

theorem Shaped.get_item {noExtFields : Bool} {d : Dict} (h : Shaped noExtFields d) (name : CString) :
    crtx_get_item d name =
      (List.range (fieldNames noExtFields).length).find? fun i => (fieldNames noExtFields)[i]? = some name := by
  unfold crtx_get_item
  rw [h.length]
  congr 1
  funext i
  rw [h.item_key]

theorem Shaped.get_key {noExtFields : Bool} {d : Dict} (h : Shaped noExtFields d) :
    crtx_get_item d keyField = some 0 := by
  rw [h.get_item]
  cases noExtFields <;> decide

theorem Shaped.get_value {noExtFields : Bool} {d : Dict} (h : Shaped noExtFields d) :
    crtx_get_item d valueField = some 1 := by
  rw [h.get_item]
  cases noExtFields <;> decide

theorem Shaped.get_regexp {noExtFields : Bool} {d : Dict} (h : Shaped noExtFields d) :
    crtx_get_item d regexpField = none := by
  rw [h.get_item]
  cases noExtFields <;> decide

theorem Shaped.get_passthrough {noExtFields : Bool} {d : Dict} (h : Shaped noExtFields d) :
    crtx_get_item d passthroughField = none := by
  rw [h.get_item]
  cases noExtFields <;> decide

theorem Shaped.get_last_match {d : Dict} (h : Shaped false d) : crtx_get_item d lastMatchField = some 3 := by
  rw [h.get_item]
  decide

theorem Shaped.get_n_hits {d : Dict} (h : Shaped false d) : crtx_get_item d nHitsField = some 4 := by
  rw [h.get_item]
  decide

theorem Shaped.setItem {noExtFields : Bool} {d : Dict} (h : Shaped noExtFields d) {i : Nat} {di : Item}
    (hk : di.key = (d.item i).key) (hm : i = 0 → stringOf di = none) : Shaped noExtFields (Dicts.setItem d i di) where
  length := h.length
  keys := by
    rw [← h.keys]
    apply List.ext_getElem?
    intro j
    simp only [Dicts.setItem, List.getElem?_map, List.getElem?_set]
    split
    · rename_i hij
      subst hij
      split
      · rename_i hi
        rw [Option.map_some, hk, item_getElem hi, List.getElem?_eq_getElem hi, Option.map_some]
      · rename_i hi
        simp [List.getElem?_eq_none (Nat.le_of_not_lt hi)]
    · rfl
  moved := by
    rw [item_setItem]
    split
    · rename_i hi
      exact hm hi.1
    · exact h.moved

theorem storeResponse_key (v r : Item) : (storeResponse v r).key = v.key ∧ (storeResponse v r).flags = v.flags := by
  unfold storeResponse
  split
  · exact ⟨rfl, rfl⟩
  · unfold copyItem crtx_dict_copy_item
    split <;> exact ⟨rfl, rfl⟩

theorem fill_key (di : Item) (type : Option Char) (key : Option CString) (a : Args) :
    (crtx_fill_data_item di type key a).1.key = key := by
  unfold crtx_fill_data_item
  dsimp only
  split
  · rfl
  · split
    · split
      · rfl
      · rw [copyKey_key, copyData_key]
    · rfl

theorem length_two {l : List Item} (h : l.length = (fieldNames true).length) : ∃ a b, l = [a, b] :=
  List.length_eq_two.mp h

theorem length_five {l : List Item} (h : l.length = (fieldNames false).length) : ∃ a b c d e, l = [a, b, c, d, e] := by
  rcases l with _ | ⟨a, _ | ⟨b, _ | ⟨c, l⟩⟩⟩
  · cases h
  · cases h
  · cases h
  · have hl : l.length = 2 := by simpa [fieldNames] using h
    obtain ⟨d, e, rfl⟩ := List.length_eq_two.mp hl
    exact ⟨a, b, c, d, e, rfl⟩

theorem fillEntry_shaped {noExtFields : Bool} {d : Dict} (h : Sized noExtFields d) (key : Key) (creation : BitVec 64)
    (response : Item) : Shaped noExtFields (fillEntry noExtFields d key creation response) := by
  obtain ⟨hlen, hitems⟩ := h
  obtain ⟨signature, signature_length, items⟩ := d
  cases noExtFields with
  | true =>
    obtain ⟨a, b, rfl⟩ := length_two hitems
    refine ⟨hlen, ?_, rfl⟩
    simp [fillEntry, fieldNames, setItem, fillSlot, Dict.item, (storeResponse_key _ _).1, fill_key]
  | false =>
    obtain ⟨a, b, c, d, e, rfl⟩ := length_five hitems
    refine ⟨hlen, ?_, rfl⟩
    simp [fillEntry, fieldNames, setItem, fillSlot, Dict.item, (storeResponse_key _ _).1, fill_key]

theorem init_sized (noExtFields : Bool) : Sized noExtFields (crtx_init_dict none (if noExtFields then 2 else 5)) := by
  cases noExtFields
  · exact ⟨by decide, by decide⟩
  · exact ⟨by decide, by decide⟩

/-! ## The entries -/

def Free (di : Item) : Prop := di.type = none ∧ di.key = none ∧ di.value = .word 0

def Filled (next : DictId) (di : Item) : Prop := di.type = some 'D' ∧ ∃ x < next, di.value = .dict x

theorem Free.congr {a b : Item} (h : Free a) (hab : SameContent b a) : Free b :=
  ⟨hab.type.trans h.1, hab.key.trans h.2.1, hab.value.trans h.2.2⟩

theorem Filled.congr {next : DictId} {a b : Item} (h : Filled next a) (hab : SameContent b a) : Filled next b := by
  obtain ⟨ht, x, hx, hv⟩ := h
  exact ⟨hab.type.trans ht, x, hx, hab.value.trans hv⟩

theorem Filled.mono {next next' : DictId} {di : Item} (h : Filled next di) (hle : next ≤ next') : Filled next' di := by
  obtain ⟨ht, x, hx, hv⟩ := h
  exact ⟨ht, x, Nat.lt_of_lt_of_le hx hle, hv⟩

theorem free_zero : Free .zero := ⟨rfl, rfl, rfl⟩

/-- In the extended layout, an item is free or has a dictionary of the right shape. -/
structure Wf (c : Cache) : Prop where
  rep : Rep c.list
  slots : c.simple = false → ∀ i, Free (c.list.item i) ∨ Filled c.next (c.list.item i)
  shaped : ∀ x < c.next, Shaped c.noExtFields (c.heap x)

theorem wf_new (simple noExtFields : Bool) (timeout : BitVec 64) : Wf (Cache.new simple noExtFields timeout) where
  rep := ⟨rfl, fun _ hi => absurd hi (Nat.not_lt_zero _)⟩
  slots := fun _ _ => .inl free_zero
  shaped := fun _ hx => absurd hx (Nat.not_lt_zero _)

section

variable {c : Cache} {di : Item} {x : DictId}

theorem field_of_value (hv : di.value = .dict x) (name : CString) :
    c.field di name = (crtx_get_item (c.heap x) name).map fun i => (x, i) := by
  unfold Cache.field dictOf
  rw [hv]
  rfl

theorem Free.field (h : Free di) (name : CString) : c.field di name = none := by
  unfold Cache.field dictOf
  rw [h.2.2]
  rfl

end

/-! ## Looking for a key -/

theorem matchEntry_eq {c : Cache} (hw : Wf c) (hs : c.simple = false) (rx : Regex) (key : CString) (i : Nat) :
    matchEntry rx c key (c.list.item i) = some (c, decide ((c.list.item i).key = some key)) := by
  unfold matchEntry
  rcases hw.slots hs i with hf | ⟨ht, x, hx, hv⟩
  · rw [if_pos (by simp [hf.1]), hf.2.1]
    rfl
  · have hshape := hw.shaped x hx
    rw [if_neg (by simp [ht]), field_of_value hv, hshape.get_regexp, field_of_value hv, hshape.get_key]
    simp [sameKey, Cache.get, hshape.moved]

theorem match_regex_eq {c : Cache} (hw : Wf c) (hs : c.simple = false) (rx : Regex) (key : CString) (l : List Nat) :
    crtx_cache_match_cb_t_regex rx key l c = some (c, l.find? fun i => (c.list.item i).key = some key) := by
  induction l with
  | nil => rfl
  | cons i l ih =>
    unfold crtx_cache_match_cb_t_regex
    rw [matchEntry_eq hw hs]
    by_cases hk : (c.list.item i).key = some key
    · simp [hk]
    · simpa [hk] using ih

theorem matchEvent_eq {c : Cache} (hw : Wf c) (rx : Regex) (key : CString) :
    matchEvent rx c key = some (c, crtx_cache_match_cb_t_strcmp c key) := by
  unfold matchEvent
  split
  · rfl
  · rename_i hs
    exact match_regex_eq hw (by simpa using hs) rx key _

theorem match_strcmp_some {c : Cache} (hw : Wf c) {key : CString} {i : Nat}
    (h : crtx_cache_match_cb_t_strcmp c key = some i) : i < c.list.items.length ∧ (c.list.item i).key = some key := by
  unfold crtx_cache_match_cb_t_strcmp at h
  rw [visit_eq hw.rep, List.find?_range_eq_some] at h
  exact ⟨List.mem_range.mp h.2.1, by simpa using h.1⟩

theorem match_strcmp_none {c : Cache} (hw : Wf c) {key : CString} :
    crtx_cache_match_cb_t_strcmp c key = none ↔ ∀ i, (c.list.item i).key ≠ some key := by
  unfold crtx_cache_match_cb_t_strcmp
  rw [visit_eq hw.rep, List.find?_range_eq_none]
  constructor
  · intro h i
    by_cases hi : i < c.list.items.length
    · simpa using h i hi
    · rw [item_beyond (Nat.le_of_not_lt hi)]
      simp [Item.zero]
  · intro h i _
    simpa using h i

/-! ## The handler -/

/-- The handler changes the statistics and the key of an entry that it drops, nothing else. -/
structure Touched (c c' : Cache) : Prop where
  same : ∃ heap, c' = { c with heap }
  shaped : ∀ x < c.next, Shaped c.noExtFields (c'.heap x)
  value : ∀ x < c.next, (c'.heap x).item 1 = (c.heap x).item 1

theorem Touched.wf {c c' : Cache} (h : Touched c c') (hw : Wf c) : Wf c' := by
  obtain ⟨⟨heap, rfl⟩, hshaped, -⟩ := h
  exact ⟨hw.rep, hw.slots, hshaped⟩

theorem Wf.touched {c : Cache} (hw : Wf c) : Touched c c := ⟨⟨c.heap, rfl⟩, hw.shaped, fun _ _ => rfl⟩

theorem Touched.trans {c c' c'' : Cache} (h : Touched c c') (h' : Touched c' c'') : Touched c c'' := by
  obtain ⟨⟨heap, rfl⟩, hshaped, hvalue⟩ := h
  obtain ⟨⟨heap', rfl⟩, hshaped', hvalue'⟩ := h'
  exact ⟨⟨heap', rfl⟩, hshaped', fun x hx => (hvalue' x hx).trans (hvalue x hx)⟩

theorem set_item_ne (c : Cache) (x : DictId) {i j : Nat} (h : i ≠ j) (di : Item) (y : DictId) :
    ((c.set (x, i) di).heap y).item j = (c.heap y).item j := by
  simp only [Cache.set, Cache.setDict]
  by_cases hxy : y = x
  · subst hxy
    rw [Function.update_self, item_setItem_ne _ h]
  · rw [Function.update_of_ne hxy]

theorem Wf.set_touched {c : Cache} (hw : Wf c) {x i : Nat} (hx : x < c.next) (hi : i ≠ 1) {di : Item}
    (hk : di.key = ((c.heap x).item i).key) (hm : i = 0 → stringOf di = none) : Touched c (c.set (x, i) di) := by
  refine ⟨⟨_, rfl⟩, ?_, fun y _ => set_item_ne c x hi di y⟩
  intro y hy
  simp only [Cache.set, Cache.setDict]
  by_cases hxy : y = x
  · subst hxy
    rw [Function.update_self]
    exact (hw.shaped y hx).setItem hk hm
  · rw [Function.update_of_ne hxy]
    exact hw.shaped y hy

theorem freeKey_string {di : Item} (h : stringOf di = none) : stringOf (freeKey di) = none := by
  unfold freeKey
  split
  · rfl
  · rfl
  · rfl
  · exact h

theorem freeKey_key (di : Item) : (freeKey di).key = di.key := by
  unfold freeKey
  split <;> rfl

theorem updateStats_eq {c : Cache} (hw : Wf c) (hn : c.noExtFields = false) {x : DictId} (hx : x < c.next)
    (time : BitVec 64) :
    ∃ a b : Item, a.key = ((c.heap x).item 3).key ∧ b.key = (((c.set (x, 3) a).heap x).item 4).key ∧
      updateStats c x time = (c.set (x, 3) a).set (x, 4) b := by
  have hshape : Shaped false (c.heap x) := hn ▸ hw.shaped x hx
  have hset : ∀ a : Item, a.key = ((c.heap x).item 3).key → Shaped false ((c.set (x, 3) a).heap x) := by
    intro a ha
    have htouched := hw.set_touched hx (by decide) ha fun h => absurd h (by decide)
    exact hn ▸ htouched.shaped x hx
  let a : Item := { (c.heap x).item 3 with type := some 'U', value := .word time }
  let b : Item := ((c.set (x, 3) a).heap x).item 4
  refine ⟨a, { b with value := .word (wordOf b + 1) }, rfl, rfl, ?_⟩
  unfold updateStats updateField
  dsimp only
  rw [hshape.get_last_match]
  dsimp only
  rw [(hset a rfl).get_n_hits]

theorem updateStats_touched {c : Cache} (hw : Wf c) (hn : c.noExtFields = false) {x : DictId} (hx : x < c.next)
    (time : BitVec 64) :
    Touched c (updateStats c x time) ∧
      ∀ y, ((updateStats c x time).heap y).item 0 = (c.heap y).item 0 := by
  obtain ⟨a, b, ha, hb, h⟩ := updateStats_eq hw hn hx time
  rw [h]
  have h3 : Touched c (c.set (x, 3) a) := hw.set_touched hx (by decide) ha fun h => absurd h (by decide)
  have h4 := (h3.wf hw).set_touched hx (by decide) hb fun h => absurd h (by decide)
  refine ⟨h3.trans h4, ?_⟩
  intro y
  rw [set_item_ne _ _ (by decide), set_item_ne _ _ (by decide)]

theorem handler_spec {c : Cache} (hw : Wf c) (rx : Regex) (key : Option Key) (now time : BitVec 64) (response : Item) :
    ∃ c' session response' ret,
      crtx_cache_task_handler rx c key now time response = some (c', session, response', ret) ∧ Touched c c' := by
  cases key with
  | none => exact ⟨c, _, _, _, rfl, hw.touched⟩
  | some key =>
    unfold crtx_cache_task_handler
    dsimp only
    rw [matchEvent_eq hw]
    cases hf : crtx_cache_match_cb_t_strcmp c key.string with
    | none => exact ⟨c, _, _, _, rfl, hw.touched⟩
    | some i =>
      dsimp only [Option.bind_eq_bind, Option.bind_some]
      split
      · exact ⟨c, _, _, _, rfl, hw.touched⟩
      · rename_i hflags
        simp only [not_or, Bool.not_eq_true] at hflags
        obtain ⟨-, hkey⟩ := match_strcmp_some hw hf
        rcases hw.slots hflags.1 i with hfree | ⟨-, x, hx, hv⟩
        · rw [hfree.2.1] at hkey
          cases hkey
        · have hshape := hw.shaped x hx
          split
          · rw [field_of_value hv, hshape.get_key]
            refine ⟨_, _, _, _, rfl, hw.set_touched hx (by decide) (freeKey_key _) ?_⟩
            intro _
            exact freeKey_string hshape.moved
          · have hd : dictOf (c.list.item i) = some x := by
              unfold dictOf
              rw [hv]
            rw [hd]
            exact ⟨_, _, _, _, rfl, (updateStats_touched hw hflags.2 hx time).1⟩

/-! ## Adding an entry -/

theorem list_eq (c : Cache) : c.entries.getD (crtx_init_dict none 0) = c.list := rfl

theorem chooseSlot_spec {c : Cache} (hw : Wf c) :
    Rep (chooseSlot c).1 ∧ (chooseSlot c).2 < (chooseSlot c).1.items.length ∧
      ∀ j, SameContent ((chooseSlot c).1.item j) (c.list.item j) := by
  obtain ⟨hrep, -, hlt, hsame⟩ := alloc_spec hw.rep
  unfold chooseSlot
  dsimp only
  rw [list_eq]
  split
  · exact ⟨hrep, hlt, hsame⟩
  · split
    · rename_i i hi
      have hmem := List.mem_of_find?_eq_some hi
      rw [visit_eq hw.rep, List.mem_range] at hmem
      exact ⟨hw.rep, hmem, fun _ => SameContent.refl _⟩
    · exact ⟨hrep, hlt, hsame⟩

/-- The dictionary `x` of an entry has been found or made, the others are as they were. -/
structure Prepared (c c' : Cache) (x : DictId) : Prop where
  same : ∃ heap next, c' = { c with heap, next }
  le_next : c.next ≤ c'.next
  lt_next : x < c'.next
  sized : Sized c.noExtFields (c'.heap x)
  others : ∀ y < c'.next, y ≠ x → y < c.next ∧ c'.heap y = c.heap y

theorem entryDict_spec {c : Cache} (hw : Wf c) {di : Item} (hdi : Free di ∨ Filled c.next di) :
    Prepared c (entryDict c di).1 (entryDict c di).2 := by
  unfold entryDict
  rcases hdi with hfree | ⟨-, x, hx, hv⟩
  · have hd : dictOf di = none := by
      unfold dictOf
      rw [hfree.2.2]
    rw [hd]
    refine ⟨⟨_, _, rfl⟩, Nat.le_succ _, Nat.lt_succ_self _, ?_, ?_⟩
    · simp only [Cache.setDict, Function.update_self]
      exact init_sized c.noExtFields
    · intro y hy hne
      exact ⟨Nat.lt_of_le_of_ne (Nat.le_of_lt_succ hy) hne, Function.update_of_ne hne ..⟩
  · have hd : dictOf di = some x := by
      unfold dictOf
      rw [hv]
    rw [hd]
    exact ⟨⟨_, _, rfl⟩, Nat.le_refl _, hx, (hw.shaped x hx).sized, fun y hy _ => ⟨hy, rfl⟩⟩

theorem entryDict_free {c : Cache} {di : Item} (h : Free di) : (entryDict c di).2 = c.next := by
  unfold entryDict dictOf
  rw [h.2.2]

theorem add_setup (c : Cache) (key : Key) (creation : BitVec 64) (response : Item) :
    ∃ entries heap next, crtx_cache_add_entry c key creation response = { c with entries, heap, next } := by
  unfold crtx_cache_add_entry entryDict
  dsimp only
  split
  · exact ⟨_, _, _, rfl⟩
  · split
    · exact ⟨_, _, _, rfl⟩
    · exact ⟨_, _, _, rfl⟩

theorem add_list (c : Cache) (key : Key) (creation : BitVec 64) (response : Item) :
    ∃ e : Item, (crtx_cache_add_entry c key creation response).list = setItem (chooseSlot c).1 (chooseSlot c).2 e ∧
      e.key = some key.string ∧ (e.isLast = ((chooseSlot c).1.item (chooseSlot c).2).isLast ∨ e.isLast = false) := by
  unfold crtx_cache_add_entry
  dsimp only
  split
  · refine ⟨_, rfl, (storeResponse_key _ _).1, .inr ?_⟩
    rw [Item.isLast, (storeResponse_key _ _).2]
    dsimp only
    decide
  · refine ⟨_, rfl, rfl, .inl ?_⟩
    apply isLast_congr
    dsimp only
    split
    · generalize ((chooseSlot c).1.item (chooseSlot c).2).flags = f
      revert f
      decide
    · rfl

theorem add_key {c : Cache} (hw : Wf c) (key : Key) (creation : BitVec 64) (response : Item) (j : Nat) :
    ((crtx_cache_add_entry c key creation response).list.item j).key =
      if j = (chooseSlot c).2 then some key.string else (c.list.item j).key := by
  obtain ⟨e, he, hk, -⟩ := add_list c key creation response
  obtain ⟨-, hlt, hsame⟩ := chooseSlot_spec hw
  rw [he, item_setItem]
  by_cases hj : j = (chooseSlot c).2
  · rw [if_pos ⟨hj.symm, hj ▸ hlt⟩, if_pos hj, hk]
  · rw [if_neg fun h => hj h.1.symm, if_neg hj]
    exact (hsame j).key

theorem add_extended {c : Cache} (hw : Wf c) (hs : c.simple = false) (key : Key) (creation : BitVec 64)
    (response : Item) :
    ∃ c₁ x, Prepared c c₁ x ∧ (Free (c.list.item (chooseSlot c).2) → x = c.next) ∧
      (crtx_cache_add_entry c key creation response).next = c₁.next ∧
      (crtx_cache_add_entry c key creation response).heap =
        Function.update c₁.heap x (fillEntry c.noExtFields (c₁.heap x) key creation response) ∧
      ((crtx_cache_add_entry c key creation response).list.item (chooseSlot c).2).type = some 'D' ∧
      ((crtx_cache_add_entry c key creation response).list.item (chooseSlot c).2).value = .dict x := by
  obtain ⟨-, hlt, hsame⟩ := chooseSlot_spec hw
  have hslot : Free ((chooseSlot c).1.item (chooseSlot c).2) ∨ Filled c.next ((chooseSlot c).1.item (chooseSlot c).2) :=
    (hw.slots hs (chooseSlot c).2).imp (fun h => h.congr (hsame _)) fun h => h.congr (hsame _)
  have hprep := entryDict_spec hw hslot
  have hno : (entryDict c ((chooseSlot c).1.item (chooseSlot c).2)).1.noExtFields = c.noExtFields := by
    obtain ⟨heap, next, hc⟩ := hprep.same
    rw [hc]
  refine ⟨_, _, hprep, ?_, ?_⟩
  · intro hfree
    exact entryDict_free (hfree.congr (hsame _))
  unfold crtx_cache_add_entry
  dsimp only
  rw [if_neg (by simp [hs]), hno]
  refine ⟨rfl, rfl, ?_⟩
  simp only [Cache.list, Option.getD_some]
  rw [item_setItem, if_pos ⟨rfl, hlt⟩]
  exact ⟨rfl, rfl⟩

theorem add_wf {c : Cache} (hw : Wf c) (key : Key) (creation : BitVec 64) (response : Item) :
    Wf (crtx_cache_add_entry c key creation response) := by
  obtain ⟨hrep, hlt, hsame⟩ := chooseSlot_spec hw
  obtain ⟨e, he, -, hlast⟩ := add_list c key creation response
  have hrep' : Rep (crtx_cache_add_entry c key creation response).list := he ▸ set_rep hrep _ hlast
  obtain ⟨entries, heap, next, hc⟩ := add_setup c key creation response
  by_cases hs : c.simple = true
  · -- The simple layout has no dictionaries, and those that are there stay.
    have hheap : (crtx_cache_add_entry c key creation response).heap = c.heap ∧
        (crtx_cache_add_entry c key creation response).next = c.next := by
      unfold crtx_cache_add_entry
      dsimp only
      rw [if_pos hs]
      exact ⟨rfl, rfl⟩
    refine ⟨hrep', ?_, ?_⟩
    · intro hs'
      rw [hc] at hs'
      rw [hs] at hs'
      cases hs'
    · rw [hheap.1, hheap.2, hc]
      exact hw.shaped
  · have hs : c.simple = false := by simpa using hs
    obtain ⟨c₁, x, hprep, -, hnext, hheap, htype, hvalue⟩ := add_extended hw hs key creation response
    refine ⟨hrep', ?_, ?_⟩
    · intro _ j
      by_cases hj : j = (chooseSlot c).2
      · subst hj
        exact .inr ⟨htype, x, by rw [hnext]; exact hprep.lt_next, hvalue⟩
      · have hitem : SameContent ((crtx_cache_add_entry c key creation response).list.item j) (c.list.item j) := by
          rw [he, item_setItem_ne _ (Ne.symm hj)]
          exact hsame j
        rcases hw.slots hs j with h | h
        · exact .inl (h.congr hitem)
        · exact .inr ((h.congr hitem).mono (hnext ▸ hprep.le_next))
    · intro y hy
      have hno : (crtx_cache_add_entry c key creation response).noExtFields = c.noExtFields := by rw [hc]
      rw [hnext] at hy
      rw [hno, hheap]
      by_cases hyx : y = x
      · subst hyx
        rw [Function.update_self]
        exact fillEntry_shaped hprep.sized key creation response
      · obtain ⟨hy', hold⟩ := hprep.others y hy hyx
        rw [Function.update_of_ne hyx, hold]
        exact hw.shaped y hy'

/-! ## Removing an entry -/

theorem get_item_eq {c : Cache} (hw : Wf c) (key : CString) :
    crtx_get_item c.list key = crtx_cache_match_cb_t_strcmp c key := by
  unfold crtx_get_item crtx_cache_match_cb_t_strcmp
  rw [visit_eq hw.rep, hw.rep.length]

theorem remove_eq {c : Cache} (hw : Wf c) (key : CString) :
    crtx_cache_remove_entry c key = c ∧ crtx_cache_match_cb_t_strcmp c key = none ∨
      ∃ i, crtx_cache_match_cb_t_strcmp c key = some i ∧
        crtx_cache_remove_entry c key = { c with entries := some (setItem c.list i .zero) } := by
  unfold crtx_cache_remove_entry
  rw [← get_item_eq hw]
  cases hc : c.entries with
  | none =>
    left
    refine ⟨rfl, ?_⟩
    unfold Cache.list
    rw [hc]
    rfl
  | some d =>
    have hlist : c.list = d := by
      unfold Cache.list
      rw [hc]
      rfl
    rw [hlist, Option.bind_some]
    unfold crtx_dict_remove_item
    cases hi : crtx_get_item d key with
    | none => exact .inl ⟨rfl, rfl⟩
    | some i => exact .inr ⟨i, rfl, rfl⟩

theorem remove_wf {c : Cache} (hw : Wf c) (key : CString) : Wf (crtx_cache_remove_entry c key) := by
  rcases remove_eq hw key with ⟨h, -⟩ | ⟨i, -, h⟩
  · rw [h]
    exact hw
  · rw [h]
    refine ⟨set_rep hw.rep i (.inr zero_isLast), ?_, hw.shaped⟩
    intro hs j
    simp only [Cache.list, Option.getD_some]
    rw [item_setItem]
    split
    · exact .inl free_zero
    · exact hw.slots hs j

theorem remove_key {c : Cache} (hw : Wf c) (key : CString) (j : Nat) :
    ((crtx_cache_remove_entry c key).list.item j).key =
      if crtx_cache_match_cb_t_strcmp c key = some j then none else (c.list.item j).key := by
  rcases remove_eq hw key with ⟨h, hnone⟩ | ⟨i, hi, h⟩
  · rw [h, hnone]
    rfl
  · obtain ⟨hlt, -⟩ := match_strcmp_some hw hi
    rw [h, hi]
    simp only [Cache.list, Option.getD_some, Option.some.injEq]
    rw [item_setItem]
    by_cases hij : i = j
    · rw [if_pos ⟨hij, hij ▸ hlt⟩, if_pos hij]
      rfl
    · rw [if_neg fun h => hij h.1, if_neg hij]

theorem remove_gone {c : Cache} (hw : Wf c) {key : CString}
    (hu : ∀ i j, (c.list.item i).key = some key → (c.list.item j).key = some key → i = j) (i : Nat) :
    ((crtx_cache_remove_entry c key).list.item i).key ≠ some key := by
  intro hi
  rw [remove_key hw] at hi
  split at hi
  · cases hi
  · rename_i hne
    cases hf : crtx_cache_match_cb_t_strcmp c key with
    | none => exact (match_strcmp_none hw).mp hf i hi
    | some j => exact hne (hf ▸ congrArg some (hu j i (match_strcmp_some hw hf).2 hi))

end Libcortex.Caches
