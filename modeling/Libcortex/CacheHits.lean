import Libcortex.Caches
import Libcortex.Lib.Handles
import Libcortex.Lib.Run

/-!
# Answers from the cache

Events that come one after another, through a graph with the cache and a task that answers. A response of type `s` or
`D` is given back as it was stored. `crtx_dict_copy_item` returns early for a number, so the response to a later event
has the value and no type. A dictionary is not copied: the entry, the response of each event and whoever else uses it
have a reference each, and whoever gives back the last one frees it.
-/

open Libcortex.Lib

namespace Libcortex.Caches.Hits

open Dicts

/-! ## Events in sequence -/

def isNumber : Option Char → Bool
  | some 'u' | some 'i' | some 'U' | some 'I' => true
  | _ => false

/-- The responses that a task may give: none is NULL or 0. -/
def isAnswer (r : Item) : Bool :=
  match r.value with
  | .word w => isNumber r.type ∧ w ≠ 0
  | .string s => r.type = some 's' ∧ s.isSome
  | .dict _ => r.type = some 'D'
  | .pointer _ => false

/-- `traverse_graph_r` goes on to the next task. -/
def goesOn (keepGoing : Bool) (ret : Int) (response : Item) : Bool := !nonNull response || ret ≠ 0 || keepGoing

/-- The item with the response of an entry. -/
def valueItem (c : Cache) (i : Nat) : Item :=
  if c.simple then c.list.item i
  else
    match dictOf (c.list.item i) with
    | some x => (c.heap x).item 1
    | none => .zero

/-- `refs` are the counters of the dictionaries of responses, and `live` says which of these are not freed. The rest is
history: what the cleanup has stored under each key and has not been removed, the responses of the events that were not
released, and the references that others have. -/
structure St where
  cache : Cache
  refs : Refs
  live : DictId → Bool
  stored : CString → Option Item
  held : List Item
  own : List DictId

def St.init (simple noExtFields : Bool) : St where
  cache := Cache.new simple noExtFields 0
  refs := fun _ => 0
  live := fun _ => false
  stored := fun _ => none
  held := []
  own := []

inductive Action where
  | event (key : Option Key) (answer : Option Item) (now time creation : BitVec 64)
  | remove (key : CString)

/-- What is done with the cache, and with dictionaries: one is made, and counted as `crtx_init_dict` does or not as by
`crtx_read_dict`, somebody else takes a reference or gives one back, and an event is released. -/
inductive Move where
  | cache (a : Action)
  | create (d : DictId) (counted : Bool)
  | ref (d : DictId)
  | unref (d : DictId)
  | release (response : Item)

/-- The cleanup stores the response. -/
def stores (session : Session) (response : Item) : Bool := session.hit = false ∧ nonNull response

def remember (stored : CString → Option Item) (session : Session) (response : Item) : CString → Option Item :=
  match session.key with
  | none => stored
  | some key => if stores session response then Function.update stored key.string (some response) else stored

/-- The dictionary that the item refers to. -/
def dictIn (di : Item) : Option DictId := if di.type = some 'D' then dictOf di else none

/-- The item is new, and a copy of one that refers to the same dictionary. -/
def refItem (refs : Refs) (di : Item) : Refs := if di.type = some 'D' then crtx_dict_ref refs di.value else refs

def crtx_dict_unref (s : St) (d : DictId) : St :=
  let n := if 0 < s.refs d then s.refs d - 1 else s.refs d
  { s with
    refs := Function.update s.refs d n
    live := if n = 0 then Function.update s.live d false else s.live }

/-- `crtx_free_dict_item_data`, for what the item refers to. -/
def freeItem (s : St) (di : Item) : St := (dictIn di).elim s (crtx_dict_unref s)

/-- The task hands its reference over. One in a response that it overwrites is lost, and counts as one of others. -/
def handOver (own : List DictId) (copied answer : Item) : List DictId :=
  (dictIn copied).toList ++ (dictIn answer).elim own own.erase

/-- What the cache copies, and what the event leaves behind until it is released. -/
def process (s : St) (keepGoing : Bool) (answer : Option Item) (creation : BitVec 64) (c : Cache) (session : Session)
    (copied : Item) (ret : Int) : St :=
  let refs := refItem s.refs copied
  let answer := if goesOn keepGoing ret copied then answer else none
  let response := answer.getD copied
  { s with
    cache := crtx_cache_task_cleanup c session creation response
    refs := if session.key.isSome ∧ stores session response then refItem refs response else refs
    stored := remember s.stored session response
    held := response :: s.held
    own := answer.elim s.own (handOver s.own copied) }

/-- The memory of a new dictionary was free. -/
def step (rx : Regex) (keepGoing : Bool) (s : St) : Move → Option St
  | .cache (.event key answer now time creation) =>
    if answer.all isAnswer then
      (crtx_cache_task_handler rx s.cache key now time .zero).map fun (c, session, copied, ret) =>
        process s keepGoing answer creation c session copied ret
    else none
  | .cache (.remove key) =>
    let entry := (s.cache.entries.bind fun d => crtx_get_item d key).map (valueItem s.cache)
    some { entry.elim s (freeItem s) with
      cache := crtx_cache_remove_entry s.cache key
      stored := Function.update s.stored key none }
  | .create d counted =>
    if s.live d then none
    else
      some { s with
        refs := Function.update s.refs d (if counted then 1 else 0)
        live := Function.update s.live d true
        own := if counted then d :: s.own else s.own }
  | .ref d => some { s with refs := crtx_dict_ref s.refs (.dict d), own := d :: s.own }
  | .unref d => some { crtx_dict_unref s d with own := s.own.erase d }
  | .release response =>
    if response ∈ s.held then some { freeItem s response with held := s.held.erase response } else none

/-! ## What has to hold -/

/-- An event with a key that is stored gets the response that was stored, and the next task is not run for it unless the
graph says so. The dictionary of a response is still there. -/
def Answered (rx : Regex) (keepGoing : Bool) (s : St) : Move → Prop
  | .cache (.event (some key) _ now time _) =>
    ∀ r, s.stored key.string = some r →
      (∀ d, r.refersTo d → s.live d = true) ∧
        ∃ c session response,
          crtx_cache_task_handler rx s.cache (some key) now time .zero = some (c, session, response, 0) ∧
          response.type = r.type ∧ response.value = r.value ∧ goesOn keepGoing 0 response = keepGoing
  | _ => True

/-- The response is of a type that is copied in full. -/
def Copied (s : St) : Move → Prop
  | .cache (.event (some key) _ _ _ _) => ∀ r, s.stored key.string = some r → r.type = some 's' ∨ r.type = some 'D'
  | _ => True

/-- The entries have room for a new response. -/
def Room (s : St) : Move → Prop
  | .cache (.event (some key) (some _) _ _ _) => s.stored key.string = none → CanGrow s.cache.list
  | _ => True

/-- The counter does not overflow with one more reference to the dictionary of the item. -/
def Countable (refs : Refs) (r : Item) : Prop := ∀ d ∈ dictIn r, refs d ≠ BitVec.allOnes 32

/-- A task that answers has a counted reference to hand over, nobody gives back one that he does not have, and the
counters do not overflow. -/
def Owned (keepGoing : Bool) (s : St) : Move → Prop
  | .cache (.event key answer _ _ _) =>
    (∀ k ∈ key, ∀ r ∈ s.stored k.string, Countable s.refs r) ∧
      ∀ r ∈ answer, (keepGoing = true ∨ ∀ k ∈ key, s.stored k.string = none) →
        Countable s.refs r ∧ ∀ d ∈ dictIn r, d ∈ s.own
  | .ref d => s.live d = true ∧ s.refs d ≠ BitVec.allOnes 32
  | .unref d => d ∈ s.own
  | .cache (.remove _) | .create _ _ | .release _ => True

def Provided (keepGoing : Bool) (s : St) (m : Move) : Prop := Room s m ∧ Owned keepGoing s m

/-! ## Invariant -/

/-- The entry `i` has the response `r` and is the only one with the key. -/
structure HoldsAt (c : Cache) (key : CString) (r : Item) (i : Nat) : Prop where
  found : (c.list.item i).key = some key
  type : (valueItem c i).type = r.type
  value : (valueItem c i).value = r.value
  unique : ∀ j, (c.list.item j).key = some key → j = i

/-- No entry with a key is taken for a free one. -/
structure Tidy (c : Cache) : Prop where
  wf : Wf c
  timeout : c.timeout = 0
  typed : c.simple = true → ∀ i, (c.list.item i).type = none → (c.list.item i).key = none
  kept : ∀ x < c.next, ((c.heap x).item 0).type = some 's'

/-- The entries are what is stored. -/
structure Agrees (c : Cache) (stored : CString → Option Item) : Prop where
  answer : ∀ key r, stored key = some r → isAnswer r = true
  absent : ∀ key, stored key = none → ∀ i, (c.list.item i).key ≠ some key
  present : ∀ key r, stored key = some r → ∃ i, HoldsAt c key r i

structure Inv (s : St) : Prop where
  tidy : Tidy s.cache
  agrees : Agrees s.cache s.stored

theorem inv_init (simple noExtFields : Bool) : Inv (St.init simple noExtFields) where
  tidy :=
    { wf := wf_new simple noExtFields 0
      timeout := rfl
      typed := fun _ _ _ => rfl
      kept := fun _ hx => absurd hx (Nat.not_lt_zero _) }
  agrees :=
    { answer := fun _ _ h => by cases h
      absent := fun _ _ _ h => by cases h
      present := fun _ _ h => by cases h }

/-! ## A hit -/

theorem isAnswer_type {r : Item} (h : isAnswer r = true) : r.type ≠ none := by
  unfold isAnswer at h
  intro ht
  split at h <;> simp [ht, isNumber] at h

theorem isAnswer_nonNull {r : Item} (h : isAnswer r = true) : nonNull r = true := by
  unfold isAnswer at h
  unfold nonNull
  split at h
  · rename_i w hv
    simp only [hv]
    simpa using (of_decide_eq_true h).2
  · rename_i s hv
    simp only [hv]
    simpa using (of_decide_eq_true h).2
  · rename_i d hv
    simp only [hv]
  · cases h

theorem isAnswer_ne_pointer {r : Item} (h : isAnswer r = true) : r.type ≠ some 'p' := by
  unfold isAnswer at h
  intro ht
  split at h <;> simp [ht, isNumber] at h

theorem copyItem_answer {r v : Item} (h : isAnswer r = true) (ht : v.type = r.type) (hv : v.value = r.value) :
    (copyItem .zero v false).value = r.value ∧
      ((copyItem .zero v false).type = r.type ↔ r.type = some 's' ∨ r.type = some 'D') := by
  have hkey : ∀ dst : Item, (copyHead dst v false).value = dst.value := by
    intro dst
    unfold copyHead copyItemKey
    simp only [Bool.false_eq_true, if_false]
    split
    · split <;> rfl
    · rfl
  unfold copyItem crtx_dict_copy_item
  split
  · rename_i htype
    exact ⟨(hkey _).trans hv, iff_of_true ht (.inr (ht.symm.trans htype))⟩
  · rename_i htype
    exact ⟨(hkey _).trans hv, iff_of_true ht (.inl (ht.symm.trans htype))⟩
  · rename_i htype
    exact absurd (ht.symm.trans htype) (isAnswer_ne_pointer h)
  · rename_i hD hs _
    refine ⟨hv, iff_of_false ?_ ?_⟩
    · intro hnone
      exact isAnswer_type h hnone.symm
    · rintro (hr | hr)
      · exact hs (ht.trans hr)
      · exact hD (ht.trans hr)

theorem nonNull_congr {a b : Item} (h : a.value = b.value) : nonNull a = nonNull b := by
  unfold nonNull
  rw [h]

theorem handler_hit {c : Cache} (hw : Wf c) (ht : c.timeout = 0) {key : Key} {i : Nat}
    (hi : crtx_cache_match_cb_t_strcmp c key.string = some i) (hv : (valueItem c i).type ≠ none) (rx : Regex)
    (now time : BitVec 64) :
    ∃ c', crtx_cache_task_handler rx c (some key) now time .zero =
        some (c', ⟨some key, true⟩, copyItem .zero (valueItem c i) false, 0) ∧
      Touched c c' ∧ ∀ y, (c'.heap y).item 0 = (c.heap y).item 0 := by
  unfold crtx_cache_task_handler
  dsimp only
  rw [matchEvent_eq hw, hi]
  dsimp only [Option.bind_eq_bind, Option.bind_some]
  by_cases hs : c.simple = true
  · have hvalue : valueItem c i = c.list.item i := if_pos hs
    rw [hvalue] at hv ⊢
    refine ⟨c, ?_, hw.touched, fun _ => rfl⟩
    simp [hs, crtx_cache_on_hit, hv]
  · have hs : c.simple = false := by simpa using hs
    obtain ⟨-, hkey⟩ := match_strcmp_some hw hi
    rcases hw.slots hs i with hfree | ⟨-, x, hx, hval⟩
    · rw [hfree.2.1] at hkey
      cases hkey
    · have hd : dictOf (c.list.item i) = some x := by
        unfold dictOf
        rw [hval]
      have hvalue : valueItem c i = (c.heap x).item 1 := by
        unfold valueItem
        rw [if_neg (by simp [hs]), hd]
      rw [hvalue] at hv ⊢
      -- Whatever the statistics are, the response is found under its name.
      have hhit : ∀ c', Touched c c' →
          crtx_cache_on_hit c' (c.list.item i) .zero = (copyItem .zero ((c.heap x).item 1) false, true) := by
        intro c' htouched
        have hs' : c'.simple = false := by
          obtain ⟨⟨heap, rfl⟩, -, -⟩ := htouched
          exact hs
        unfold crtx_cache_on_hit
        rw [if_neg (by simp [hs']), field_of_value hval, (htouched.shaped x hx).get_value]
        simp only [Option.map_some, Cache.get]
        rw [htouched.value x hx, if_neg hv]
      by_cases hn : c.noExtFields = true
      · refine ⟨c, ?_, hw.touched, fun _ => rfl⟩
        simp [hn, hhit c hw.touched]
      · have hn : c.noExtFields = false := by simpa using hn
        obtain ⟨htouched, hfirst⟩ := updateStats_touched hw hn hx time
        have hexpired : expired c now (c.list.item i) = false := by
          unfold expired
          rw [ht]
          simp
        have hpass : (updateStats c x time).field (c.list.item i) passthroughField = none := by
          rw [field_of_value hval, (htouched.shaped x hx).get_passthrough]
          rfl
        refine ⟨updateStats c x time, ?_, htouched, hfirst⟩
        simp [hs, hn, hexpired, hd, hhit _ htouched, hpass]

/-! ## Steps -/

theorem dictOf_lt {c : Cache} (hw : Wf c) (hs : c.simple = false) {i : Nat} {x : DictId}
    (h : dictOf (c.list.item i) = some x) : x < c.next := by
  unfold dictOf at h
  rcases hw.slots hs i with hfree | ⟨-, y, hy, hv⟩
  · rw [hfree.2.2] at h
    cases h
  · rw [hv] at h
    cases h
    exact hy

theorem valueItem_touched {c c' : Cache} (hw : Wf c) (h : Touched c c') (i : Nat) : valueItem c' i = valueItem c i := by
  have hvalue := h.value
  obtain ⟨⟨heap, rfl⟩, -, -⟩ := h
  unfold valueItem
  by_cases hs : c.simple = true
  · rw [if_pos hs, if_pos hs]
    rfl
  · rw [if_neg hs, if_neg hs]
    have hlist : ({ c with heap := heap } : Cache).list = c.list := rfl
    rw [hlist]
    split
    · rename_i x hx
      exact hvalue x (dictOf_lt hw (by simpa using hs) hx)
    · rfl

theorem HoldsAt.congr {c c' : Cache} {key : CString} {r : Item} {i : Nat} (h : HoldsAt c key r i)
    (hkeys : ∀ j, (c'.list.item j).key = (c.list.item j).key) (hvalue : valueItem c' i = valueItem c i) :
    HoldsAt c' key r i := by
  refine ⟨?_, ?_, ?_, ?_⟩
  · rw [hkeys, h.found]
  · rw [hvalue, h.type]
  · rw [hvalue, h.value]
  · intro j hj
    rw [hkeys] at hj
    exact h.unique j hj

theorem Inv.touched {s : St} (hi : Inv s) {c' : Cache} (h : Touched s.cache c')
    (hfirst : ∀ y, (c'.heap y).item 0 = (s.cache.heap y).item 0) : Inv { s with cache := c' } := by
  have hvalue := valueItem_touched hi.tidy.wf h
  have hwf := h.wf hi.tidy.wf
  obtain ⟨⟨heap, rfl⟩, -, -⟩ := h
  refine ⟨⟨hwf, hi.tidy.timeout, hi.tidy.typed, ?_⟩, ⟨hi.agrees.answer, hi.agrees.absent, ?_⟩⟩
  · intro x hx
    rw [hfirst x]
    exact hi.tidy.kept x hx
  · intro key r hr
    obtain ⟨i, hi'⟩ := hi.agrees.present key r hr
    exact ⟨i, hi'.congr (fun _ => rfl) (hvalue i)⟩

theorem storeResponse_answer {r : Item} (h : isAnswer r = true) (v : Item) :
    (storeResponse v r).type = r.type ∧ (storeResponse v r).value = r.value := by
  unfold storeResponse
  split
  · rename_i ht
    exact ⟨ht.symm, rfl⟩
  · unfold copyItem crtx_dict_copy_item
    split
    · exact ⟨rfl, rfl⟩
    · exact ⟨rfl, rfl⟩
    · rename_i ht
      exact absurd ht (isAnswer_ne_pointer h)
    · exact ⟨rfl, rfl⟩

theorem fillEntry_items {noExtFields : Bool} {d : Dict} (h : Sized noExtFields d) (key : Key) (creation : BitVec 64)
    (response : Item) :
    ((fillEntry noExtFields d key creation response).item 0).type = some 's' ∧
      ∃ v, (fillEntry noExtFields d key creation response).item 1 = storeResponse v response := by
  obtain ⟨-, hitems⟩ := h
  obtain ⟨signature, signature_length, items⟩ := d
  cases noExtFields with
  | true =>
    obtain ⟨a, b, rfl⟩ := length_two hitems
    exact ⟨rfl, _, rfl⟩
  | false =>
    obtain ⟨a, b, c, d, e, rfl⟩ := length_five hitems
    exact ⟨rfl, _, rfl⟩

theorem chooseSlot_free {c : Cache} (ht : Tidy c) (hg : CanGrow c.list) :
    (c.list.item (chooseSlot c).2).type = none ∧
      (c.list.item (chooseSlot c).2).key = none ∧
        (c.simple = false → Free (c.list.item (chooseSlot c).2)) := by
  -- The item that `crtx_dict_alloc_next_item` returns has no type.
  have halloc : (c.list.item (crtx_dict_alloc_next_item c.list).2).type = none := by
    obtain ⟨-, hfree, hfresh, -⟩ := alloc_rep ht.wf.rep hg
    by_cases hfull : Full c.list
    · rw [(hfresh hfull).1, item_beyond (Nat.le_refl _)]
      rfl
    · exact (hfree hfull).1.2.1
  have hext : c.simple = false → ∀ i, (c.list.item i).type = none → Free (c.list.item i) := by
    intro hs i hnone
    rcases ht.wf.slots hs i with h | h
    · exact h
    · rw [h.1] at hnone
      cases hnone
  unfold chooseSlot
  dsimp only
  rw [list_eq]
  by_cases hs : c.simple = true
  · rw [if_pos hs]
    refine ⟨halloc, ht.typed hs _ halloc, ?_⟩
    intro hs'
    rw [hs] at hs'
    cases hs'
  · have hs' : c.simple = false := by simpa using hs
    rw [if_neg hs]
    split
    · rename_i i hfind
      have hempty := List.find?_some hfind
      have hfree : Free (c.list.item i) := by
        rcases ht.wf.slots hs' i with h | ⟨-, x, hx, hv⟩
        · exact h
        · -- The key of an entry is never dropped, so it is not empty.
          unfold isEmpty at hempty
          rw [field_of_value hv, (ht.wf.shaped x hx).get_key] at hempty
          simp [Cache.get, ht.kept x hx] at hempty
      exact ⟨hfree.1, hfree.2.1, fun _ => hfree⟩
    · have hfree := hext hs' _ halloc
      exact ⟨hfree.1, hfree.2.1, fun _ => hfree⟩

theorem valueItem_simple {c : Cache} (hs : c.simple = true) (i : Nat) : valueItem c i = c.list.item i := if_pos hs

theorem valueItem_extended {c : Cache} (hs : c.simple = false) {i : Nat} {x : DictId}
    (h : (c.list.item i).value = .dict x) : valueItem c i = (c.heap x).item 1 := by
  unfold valueItem dictOf
  rw [if_neg (by simp [hs]), h]

/-- What a stored response looks like: the new entry has it, and the others are as they were. -/
structure Added (c c' : Cache) (t : Nat) (r : Item) : Prop where
  type : (valueItem c' t).type = r.type
  value : (valueItem c' t).value = r.value
  other_type : ∀ i, i ≠ t → (c.list.item i).key ≠ none → (valueItem c' i).type = (valueItem c i).type
  other_value : ∀ i, i ≠ t → (c.list.item i).key ≠ none → (valueItem c' i).value = (valueItem c i).value
  typed : c'.simple = true → (∀ i, (c.list.item i).type = none → (c.list.item i).key = none) →
    ∀ i, (c'.list.item i).type = none → (c'.list.item i).key = none
  kept : (∀ x < c.next, ((c.heap x).item 0).type = some 's') → ∀ x < c'.next, ((c'.heap x).item 0).type = some 's'

theorem add_other {c : Cache} (hw : Wf c) (key : Key) (creation : BitVec 64) (r : Item) {i : Nat}
    (hi : i ≠ (chooseSlot c).2) :
    SameContent ((crtx_cache_add_entry c key creation r).list.item i) (c.list.item i) := by
  obtain ⟨e, he, -, -⟩ := add_list c key creation r
  obtain ⟨-, -, hsame⟩ := chooseSlot_spec hw
  rw [he, item_setItem_ne _ (Ne.symm hi)]
  exact hsame i

theorem added_simple {c : Cache} (hw : Wf c) (hs : c.simple = true) (key : Key) (creation : BitVec 64) {r : Item}
    (hr : isAnswer r = true) : Added c (crtx_cache_add_entry c key creation r) (chooseSlot c).2 r := by
  obtain ⟨entries, heap, next, hc⟩ := add_setup c key creation r
  obtain ⟨-, hlt, -⟩ := chooseSlot_spec hw
  have hs' : (crtx_cache_add_entry c key creation r).simple = true := by rw [hc]; exact hs
  have hslot : ∃ v, (crtx_cache_add_entry c key creation r).list.item (chooseSlot c).2 = storeResponse v r := by
    unfold crtx_cache_add_entry
    dsimp only
    rw [if_pos hs]
    simp only [Cache.list, Option.getD_some]
    rw [item_setItem, if_pos ⟨rfl, hlt⟩]
    exact ⟨_, rfl⟩
  have hheap : (crtx_cache_add_entry c key creation r).heap = c.heap ∧
      (crtx_cache_add_entry c key creation r).next = c.next := by
    unfold crtx_cache_add_entry
    dsimp only
    rw [if_pos hs]
    exact ⟨rfl, rfl⟩
  obtain ⟨v, hv⟩ := hslot
  obtain ⟨htype, hvalue⟩ := storeResponse_answer hr v
  refine ⟨?_, ?_, ?_, ?_, ?_, ?_⟩
  · rw [valueItem_simple hs', hv, htype]
  · rw [valueItem_simple hs', hv, hvalue]
  · intro i hi _
    rw [valueItem_simple hs', valueItem_simple hs, (add_other hw key creation r hi).type]
  · intro i hi _
    rw [valueItem_simple hs', valueItem_simple hs, (add_other hw key creation r hi).value]
  · intro _ htyped i hi
    by_cases hit : i = (chooseSlot c).2
    · subst hit
      rw [hv, htype] at hi
      exact absurd hi (isAnswer_type hr)
    · rw [(add_other hw key creation r hit).key]
      exact htyped i ((add_other hw key creation r hit).type.symm.trans hi)
  · rw [hheap.1, hheap.2]
    exact id

theorem added_extended {c : Cache} (hw : Wf c) (hs : c.simple = false) (hfree : Free (c.list.item (chooseSlot c).2))
    (key : Key) (creation : BitVec 64) {r : Item} (hr : isAnswer r = true) :
    Added c (crtx_cache_add_entry c key creation r) (chooseSlot c).2 r := by
  obtain ⟨entries, heap, next, hc⟩ := add_setup c key creation r
  have hs' : (crtx_cache_add_entry c key creation r).simple = false := by rw [hc]; exact hs
  obtain ⟨c₁, x, hprep, hx, hnext, hheap, -, hdict⟩ := add_extended hw hs key creation r
  have hx := hx hfree
  obtain ⟨hfirst, v, hv⟩ := fillEntry_items hprep.sized key creation r
  obtain ⟨htype, hvalue⟩ := storeResponse_answer hr v
  have hnew : valueItem (crtx_cache_add_entry c key creation r) (chooseSlot c).2 = storeResponse v r := by
    rw [valueItem_extended hs' hdict, hheap, Function.update_self, hv]
  have hold : ∀ y < c.next, (crtx_cache_add_entry c key creation r).heap y = c.heap y := by
    intro y hy
    have hyx : y ≠ x := hx ▸ Nat.ne_of_lt hy
    rw [hheap, Function.update_of_ne hyx]
    exact (hprep.others y (Nat.lt_of_lt_of_le hy hprep.le_next) hyx).2
  have hother : ∀ i, i ≠ (chooseSlot c).2 → (c.list.item i).key ≠ none →
      valueItem (crtx_cache_add_entry c key creation r) i = valueItem c i := by
    intro i hi hk
    rcases hw.slots hs i with h | ⟨-, y, hy, hval⟩
    · exact absurd h.2.1 hk
    · rw [valueItem_extended hs' ((add_other hw key creation r hi).value.trans hval), valueItem_extended hs hval,
        hold y hy]
  refine ⟨?_, ?_, ?_, ?_, ?_, ?_⟩
  · rw [hnew, htype]
  · rw [hnew, hvalue]
  · intro i hi hk
    rw [hother i hi hk]
  · intro i hi hk
    rw [hother i hi hk]
  · intro h
    rw [hs'] at h
    cases h
  · intro hkept y hy
    by_cases hyx : y = x
    · rw [hheap, hyx, Function.update_self]
      exact hfirst
    · rw [hnext] at hy
      have hy' := (hprep.others y hy hyx).1
      rw [hold y hy']
      exact hkept y hy'

theorem Tidy.add {c : Cache} (ht : Tidy c) (hg : CanGrow c.list) (key : Key) (creation : BitVec 64) {r : Item}
    (hr : isAnswer r = true) :
    Tidy (crtx_cache_add_entry c key creation r) ∧
      Added c (crtx_cache_add_entry c key creation r) (chooseSlot c).2 r := by
  obtain ⟨-, -, hfree⟩ := chooseSlot_free ht hg
  have hadded : Added c (crtx_cache_add_entry c key creation r) (chooseSlot c).2 r := by
    by_cases hs : c.simple = true
    · exact added_simple ht.wf hs key creation hr
    · have hs : c.simple = false := by simpa using hs
      exact added_extended ht.wf hs (hfree hs) key creation hr
  obtain ⟨entries, heap, next, hc⟩ := add_setup c key creation r
  have hsimple : (crtx_cache_add_entry c key creation r).simple = c.simple := by rw [hc]
  refine ⟨⟨add_wf ht.wf key creation r, ?_, ?_, hadded.kept ht.kept⟩, hadded⟩
  · rw [hc]
    exact ht.timeout
  · intro hs
    exact hadded.typed hs (ht.typed (hsimple ▸ hs))

theorem HoldsAt.add {c : Cache} (hw : Wf c) (hnokey : (c.list.item (chooseSlot c).2).key = none) {key : Key}
    {creation : BitVec 64} {r r' : Item} (hadded : Added c (crtx_cache_add_entry c key creation r) (chooseSlot c).2 r)
    {k : CString} (hk : k ≠ key.string) {i : Nat} (h : HoldsAt c k r' i) :
    HoldsAt (crtx_cache_add_entry c key creation r) k r' i := by
  have hit : i ≠ (chooseSlot c).2 := by
    rintro rfl
    rw [h.found] at hnokey
    cases hnokey
  have hsome : (c.list.item i).key ≠ none := by
    rw [h.found]
    exact Option.some_ne_none _
  refine ⟨?_, ?_, ?_, ?_⟩
  · rw [add_key hw, if_neg hit]
    exact h.found
  · rw [hadded.other_type i hit hsome]
    exact h.type
  · rw [hadded.other_value i hit hsome]
    exact h.value
  · intro j hj
    rw [add_key hw] at hj
    split at hj
    · cases hj
      exact absurd rfl hk
    · exact h.unique j hj

theorem Agrees.add {c : Cache} {stored : CString → Option Item} (h : Agrees c stored) (hw : Wf c)
    (hnokey : (c.list.item (chooseSlot c).2).key = none) {key : Key} (hkey : stored key.string = none)
    {creation : BitVec 64} {r : Item} (hr : isAnswer r = true)
    (hadded : Added c (crtx_cache_add_entry c key creation r) (chooseSlot c).2 r) :
    Agrees (crtx_cache_add_entry c key creation r) (Function.update stored key.string (some r)) := by
  refine ⟨?_, ?_, ?_⟩
  · intro k r' hr'
    obtain ⟨-, rfl⟩ | ⟨-, hr'⟩ := update_some_eq_some.mp hr'
    · exact hr
    · exact h.answer k r' hr'
  · intro k hk i hik
    by_cases hkk : k = key.string
    · subst hkk
      rw [Function.update_self] at hk
      cases hk
    · rw [Function.update_of_ne hkk] at hk
      rw [add_key hw] at hik
      split at hik
      · cases hik
        exact hkk rfl
      · exact h.absent k hk i hik
  · intro k r' hr'
    obtain ⟨rfl, rfl⟩ | ⟨hk, hr'⟩ := update_some_eq_some.mp hr'
    · refine ⟨(chooseSlot c).2, ?_, hadded.type, hadded.value, ?_⟩
      · rw [add_key hw, if_pos rfl]
      · intro j hj
        rw [add_key hw] at hj
        split at hj
        · assumption
        · exact absurd hj (h.absent key.string hkey j)
    · obtain ⟨i, hold⟩ := h.present k r' hr'
      exact ⟨i, hold.add hw hnokey hadded hk⟩

theorem Tidy.remove {c : Cache} (ht : Tidy c) (key : CString) : Tidy (crtx_cache_remove_entry c key) := by
  have hwf := remove_wf ht.wf key
  rcases remove_eq ht.wf key with ⟨h, -⟩ | ⟨i, -, h⟩
  · rw [h]
    exact ht
  · rw [h] at hwf ⊢
    refine ⟨hwf, ht.timeout, ?_, ht.kept⟩
    intro hs j hj
    simp only [Cache.list, Option.getD_some] at hj ⊢
    rw [item_setItem] at hj ⊢
    split
    · rfl
    · rename_i hij
      rw [if_neg hij] at hj
      exact ht.typed hs j hj

theorem remove_other {c : Cache} (hw : Wf c) {key : CString} {i : Nat} (hi : (c.list.item i).key ≠ some key) :
    (crtx_cache_remove_entry c key).list.item i = c.list.item i ∧
      valueItem (crtx_cache_remove_entry c key) i = valueItem c i := by
  rcases remove_eq hw key with ⟨h, -⟩ | ⟨j, hj, h⟩
  · rw [h]
    exact ⟨rfl, rfl⟩
  · have hji : j ≠ i := by
      rintro rfl
      exact hi (match_strcmp_some hw hj).2
    have hitem : (crtx_cache_remove_entry c key).list.item i = c.list.item i := by
      rw [h]
      exact item_setItem_ne _ hji _
    refine ⟨hitem, ?_⟩
    unfold valueItem
    rw [hitem, h]

theorem Agrees.remove {c : Cache} {stored : CString → Option Item} (h : Agrees c stored) (hw : Wf c) (key : CString) :
    Agrees (crtx_cache_remove_entry c key) (Function.update stored key none) := by
  have hkeys : ∀ k i, ((crtx_cache_remove_entry c key).list.item i).key = some k → (c.list.item i).key = some k := by
    intro k i hk
    rw [remove_key hw] at hk
    split at hk
    · cases hk
    · exact hk
  refine ⟨?_, ?_, ?_⟩
  · exact fun k r hr => h.answer k r (update_none_eq_some.mp hr).2
  · intro k hk i hik
    by_cases hkk : k = key
    · subst hkk
      cases hstored : stored k with
      | none => exact h.absent k hstored i (hkeys k i hik)
      | some r =>
        obtain ⟨m, hm⟩ := h.present k r hstored
        refine remove_gone hw ?_ i hik
        intro a b ha hb
        rw [hm.unique a ha, hm.unique b hb]
    · rw [Function.update_of_ne hkk] at hk
      exact h.absent k hk i (hkeys k i hik)
  · intro k r hr
    obtain ⟨hk, hr⟩ := update_none_eq_some.mp hr
    obtain ⟨i, hold⟩ := h.present k r hr
    have hne : (c.list.item i).key ≠ some key := by
      rw [hold.found]
      exact fun h => hk (Option.some.inj h)
    obtain ⟨hitem, hvalue⟩ := remove_other hw hne
    refine ⟨i, ?_, ?_, ?_, fun j hj => hold.unique j (hkeys k j hj)⟩
    · rw [hitem]
      exact hold.found
    · rw [hvalue]
      exact hold.type
    · rw [hvalue]
      exact hold.value

theorem Inv.hit {s : St} (hi : Inv s) {key : Key} {r : Item} (hr : s.stored key.string = some r) (rx : Regex)
    (now time : BitVec 64) :
    ∃ c' v, crtx_cache_task_handler rx s.cache (some key) now time .zero =
        some (c', ⟨some key, true⟩, copyItem .zero v false, 0) ∧
      v.type = r.type ∧ v.value = r.value ∧ Touched s.cache c' ∧
        ∀ y, (c'.heap y).item 0 = (s.cache.heap y).item 0 := by
  obtain ⟨i, hold⟩ := hi.agrees.present key.string r hr
  have hfind : crtx_cache_match_cb_t_strcmp s.cache key.string = some i := by
    cases hf : crtx_cache_match_cb_t_strcmp s.cache key.string with
    | none => exact absurd hold.found ((match_strcmp_none hi.tidy.wf).mp hf i)
    | some j => rw [hold.unique j (match_strcmp_some hi.tidy.wf hf).2]
  have htype : (valueItem s.cache i).type ≠ none := by
    rw [hold.type]
    exact isAnswer_type (hi.agrees.answer key.string r hr)
  obtain ⟨c', hh, htouched, hfirst⟩ := handler_hit hi.tidy.wf hi.tidy.timeout hfind htype rx now time
  exact ⟨c', valueItem s.cache i, hh, hold.type, hold.value, htouched, hfirst⟩

theorem Inv.miss {s : St} (hi : Inv s) {key : Key} (hkey : s.stored key.string = none) (rx : Regex)
    (now time : BitVec 64) :
    crtx_cache_task_handler rx s.cache (some key) now time .zero = some (s.cache, ⟨some key, false⟩, .zero, 1) := by
  unfold crtx_cache_task_handler
  dsimp only
  rw [matchEvent_eq hi.tidy.wf, (match_strcmp_none hi.tidy.wf).mpr (hi.agrees.absent key.string hkey)]
  rfl

/-! ## References -/

/-- How many references there are to `d`: those of others, of events and of entries. -/
def owed (s : St) (kept : List (CString × Item)) (d : DictId) : Nat :=
  s.own.count d + s.held.countP (Item.refersTo d) + kept.countP fun e => e.2.refersTo d

/-- `kept` are the entries. The counters are right, and nothing is freed that somebody refers to. -/
structure Ledger (s : St) (kept : List (CString × Item)) : Prop where
  entries : ∀ k r, (k, r) ∈ kept ↔ s.stored k = some r
  nodup : kept.Nodup
  counts : ∀ d, s.live d = true → (s.refs d).toNat = owed s kept d
  live : ∀ d, 0 < owed s kept d → s.live d = true

theorem ledger_init (simple noExtFields : Bool) : Ledger (St.init simple noExtFields) [] := by
  refine ⟨?_, List.nodup_nil, ?_, ?_⟩ <;> simp [St.init, owed]

theorem mem_dictIn {di : Item} {d : DictId} : d ∈ dictIn di ↔ di.refersTo d = true := by
  unfold dictIn dictOf Item.refersTo
  split
  · rename_i ht
    cases di.value <;> simp [ht]
  · rename_i ht
    simp [ht]

theorem refersTo_congr {a b : Item} (ht : a.type = b.type) (hv : a.value = b.value) (d : DictId) :
    a.refersTo d = b.refersTo d := by
  unfold Item.refersTo
  rw [ht, hv]

theorem zero_refersTo (d : DictId) : Item.zero.refersTo d = false := by
  simp [Item.refersTo, Item.zero]

theorem refItem_apply (refs : Refs) (di : Item) (x : DictId) :
    refItem refs di x = refs x + if di.refersTo x then 1 else 0 := by
  unfold refItem Item.refersTo
  split
  · rename_i ht
    cases hv : di.value with
    | dict d =>
      by_cases hx : x = d
      · subst hx
        simp [crtx_dict_ref, ht]
      · have hx' : d ≠ x := fun h => hx h.symm
        simp [crtx_dict_ref, hx, hx']
    | word _ | string _ | pointer _ => simp [crtx_dict_ref]
  · rename_i ht
    simp [ht]

theorem copyItem_refersTo (v : Item) (x : DictId) : (copyItem .zero v false).refersTo x = v.refersTo x := by
  unfold copyItem crtx_dict_copy_item copyHead copyItemKey
  split
  · rename_i ht
    simp only [Bool.false_eq_true, if_false, Item.refersTo, ht]
    split
    · split <;> rfl
    · rfl
  · rename_i ht
    simp [Item.refersTo, ht]
  · rename_i ht
    simp [Item.refersTo, ht]
  · rename_i hD _ _
    have hne : v.type ≠ some 'D' := hD
    simp [Item.refersTo, hne, Item.zero]

/-- The counters after a copy are those that `crtx_dict_copy_item` leaves. -/
theorem copy_refs (refs : Refs) (v : Item) :
    (crtx_dict_copy_item refs .zero v false).1 = refItem refs (copyItem .zero v false) := by
  funext x
  rw [copy_item_refs, refItem_apply, copyItem_refersTo]

theorem refItem_toNat {refs : Refs} {di : Item} (h : Countable refs di) (x : DictId) :
    (refItem refs di x).toNat = (refs x).toNat + if di.refersTo x then 1 else 0 := by
  rw [refItem_apply]
  split
  · rename_i hx
    have hne := h x (mem_dictIn.mpr hx)
    have hlt : (refs x).toNat ≠ 2 ^ 32 - 1 := fun heq => hne (BitVec.eq_of_toNat_eq (by simpa using heq))
    have hbound := (refs x).isLt
    rw [BitVec.toNat_add, show (1 : BitVec 32).toNat = 1 from rfl, Nat.mod_eq_of_lt (by omega)]
  · simp

theorem Ledger.of_same {s s' : St} {kept : List (CString × Item)} (h : Ledger s kept) (hrefs : s'.refs = s.refs)
    (hlive : s'.live = s.live) (hstored : s'.stored = s.stored) (howed : ∀ d, owed s' kept d = owed s kept d) :
    Ledger s' kept := by
  refine ⟨?_, h.nodup, ?_, ?_⟩
  · rw [hstored]
    exact h.entries
  · intro d hd
    rw [hlive] at hd
    rw [hrefs, howed, h.counts d hd]
  · intro d hd
    rw [howed] at hd
    rw [hlive, h.live d hd]

theorem Ledger.take {s s' : St} {kept kept' : List (CString × Item)} (h : Ledger s kept) (di : Item)
    (hrefs : s'.refs = refItem s.refs di) (hlive : s'.live = s.live) (hcount : Countable s.refs di)
    (hthere : ∀ d, di.refersTo d → s.live d = true) (hentries : ∀ k r, (k, r) ∈ kept' ↔ s'.stored k = some r)
    (hnodup : kept'.Nodup) (howed : ∀ d, owed s' kept' d = owed s kept d + if di.refersTo d then 1 else 0) :
    Ledger s' kept' := by
  refine ⟨hentries, hnodup, ?_, ?_⟩
  · intro d hd
    rw [hlive] at hd
    rw [hrefs, refItem_toNat hcount, howed, h.counts d hd]
  · intro d hd
    rw [hlive]
    rw [howed] at hd
    by_cases hdi : di.refersTo d = true
    · exact hthere d hdi
    · rw [if_neg hdi] at hd
      exact h.live d hd

theorem Ledger.unref {s s' : St} {kept kept' : List (CString × Item)} (h : Ledger s kept) {d : DictId}
    (hrefs : s'.refs = (crtx_dict_unref s d).refs) (hlive : s'.live = (crtx_dict_unref s d).live)
    (hentries : ∀ k r, (k, r) ∈ kept' ↔ s'.stored k = some r) (hnodup : kept'.Nodup)
    (howed : ∀ x, owed s kept x = owed s' kept' x + if x = d then 1 else 0) : Ledger s' kept' := by
  have howedd := howed d
  rw [if_pos rfl] at howedd
  have hlived := h.live d (by omega)
  have hcountd := h.counts d hlived
  have hpos : 0 < s.refs d := by
    rw [BitVec.lt_def, show (0 : BitVec 32).toNat = 0 from rfl]
    omega
  have hone : (s.refs d - 1).toNat = owed s' kept' d := by
    have hbound := (s.refs d).isLt
    rw [BitVec.toNat_sub_of_le (by rw [BitVec.le_def]; simp; omega)]
    simp
    omega
  unfold crtx_dict_unref at hrefs hlive
  simp only [if_pos hpos] at hrefs hlive
  have hzero : s.refs d - 1 = 0 ↔ owed s' kept' d = 0 := by
    rw [← hone]
    exact ⟨fun h => by rw [h]; rfl, fun h => BitVec.eq_of_toNat_eq h⟩
  refine ⟨hentries, hnodup, ?_, ?_⟩
  · intro x hx
    rw [hrefs]
    by_cases hxd : x = d
    · subst hxd
      rw [Function.update_self, hone]
    · rw [Function.update_of_ne hxd]
      have hox := howed x
      rw [if_neg hxd] at hox
      rw [← Nat.add_zero (owed s' kept' x), ← hox]
      apply h.counts
      rw [hlive] at hx
      split at hx
      · rwa [Function.update_of_ne hxd] at hx
      · exact hx
  · intro x hx
    have hsx := h.live x (by have := howed x; omega)
    rw [hlive]
    split
    · rename_i hz
      have hxd : x ≠ d := by
        rintro rfl
        rw [hzero.mp hz] at hx
        omega
      rw [Function.update_of_ne hxd, hsx]
    · exact hsx

theorem Ledger.free {s s' : St} {kept kept' : List (CString × Item)} (h : Ledger s kept) (di : Item)
    (hrefs : s'.refs = (freeItem s di).refs) (hlive : s'.live = (freeItem s di).live)
    (hentries : ∀ k r, (k, r) ∈ kept' ↔ s'.stored k = some r) (hnodup : kept'.Nodup)
    (howed : ∀ x, owed s kept x = owed s' kept' x + if di.refersTo x then 1 else 0) : Ledger s' kept' := by
  unfold freeItem at hrefs hlive
  cases hd : dictIn di with
  | some d =>
    rw [hd] at hrefs hlive
    refine h.unref hrefs hlive hentries hnodup fun x => ?_
    rw [howed]
    congr 2
    rw [← mem_dictIn, hd]
    simp [eq_comm]
  | none =>
    rw [hd] at hrefs hlive
    have hno : ∀ x, di.refersTo x = false := by
      intro x
      by_contra hx
      have hmem := mem_dictIn.mpr (Bool.eq_true_of_not_eq_false hx)
      simp [hd] at hmem
    have howed' : ∀ x, owed s' kept' x = owed s kept x := fun x => by simp [howed x, hno x]
    refine ⟨hentries, hnodup, ?_, ?_⟩
    · intro x hx
      rw [hlive] at hx
      rw [hrefs, howed']
      exact h.counts x hx
    · intro x hx
      rw [howed'] at hx
      rw [hlive]
      exact h.live x hx

theorem countP_erase {α : Type} [BEq α] [LawfulBEq α] {l : List α} {a : α} (h : a ∈ l) (p : α → Bool) :
    l.countP p = (l.erase a).countP p + if p a then 1 else 0 := by
  rw [(List.perm_cons_erase h).countP_eq p, List.countP_cons]

theorem toList_count (di : Item) (x : DictId) : (dictIn di).toList.count x = if di.refersTo x then 1 else 0 := by
  have hmem : x ∈ dictIn di ↔ di.refersTo x = true := mem_dictIn
  cases hd : dictIn di with
  | none =>
    rw [hd] at hmem
    simp [← hmem]
  | some d =>
    rw [hd, Option.mem_def, Option.some.injEq] at hmem
    simp only [Option.toList_some, List.count_singleton, beq_iff_eq, hmem]

theorem handOver_count {own : List DictId} {answer : Item} (h : ∀ d ∈ dictIn answer, d ∈ own) (copied : Item)
    (x : DictId) :
    (handOver own copied answer).count x + (if answer.refersTo x then 1 else 0) =
      own.count x + if copied.refersTo x then 1 else 0 := by
  have herase : ((dictIn answer).elim own own.erase).count x + (if answer.refersTo x then 1 else 0) = own.count x := by
    have hmem : x ∈ dictIn answer ↔ answer.refersTo x = true := mem_dictIn
    cases hd : dictIn answer with
    | none =>
      rw [hd] at hmem
      simp [← hmem]
    | some d =>
      rw [hd] at h
      rw [hd, Option.mem_def, Option.some.injEq] at hmem
      have hperm := (List.perm_cons_erase (h d rfl)).count_eq x
      simp only [List.count_cons, beq_iff_eq, hmem] at hperm
      rw [Option.elim_some, hperm]
  unfold handOver
  rw [List.count_append, toList_count]
  omega

section

variable {s s' : St} {kept : List (CString × Item)}

theorem Ledger.copy (h : Ledger s kept) {copied : Item} (hcount : Countable s.refs copied)
    (hthere : ∀ d, copied.refersTo d → s.live d = true) (hrefs : s'.refs = refItem s.refs copied)
    (hlive : s'.live = s.live) (hstored : s'.stored = s.stored) (hheld : s'.held = copied :: s.held)
    (hown : s'.own = s.own) : Ledger s' kept := by
  refine h.take copied hrefs hlive hcount hthere (by rw [hstored]; exact h.entries) h.nodup fun d => ?_
  unfold owed
  rw [hown, hheld, List.countP_cons]
  omega

theorem Ledger.answer (h : Ledger s kept) {copied answer : Item} (hcount : Countable s.refs copied)
    (hthere : ∀ d, copied.refersTo d → s.live d = true) (hhands : ∀ d ∈ dictIn answer, d ∈ s.own)
    (hrefs : s'.refs = refItem s.refs copied) (hlive : s'.live = s.live) (hstored : s'.stored = s.stored)
    (hheld : s'.held = answer :: s.held) (hown : s'.own = handOver s.own copied answer) : Ledger s' kept := by
  refine h.take copied hrefs hlive hcount hthere (by rw [hstored]; exact h.entries) h.nodup fun d => ?_
  have hmove := handOver_count hhands copied d
  unfold owed
  rw [hown, hheld, List.countP_cons]
  omega

theorem Ledger.store (h : Ledger s kept) {key : CString} {answer : Item} (hcount : Countable s.refs answer)
    (hhands : ∀ d ∈ dictIn answer, d ∈ s.own) (hkey : s.stored key = none) (hrefs : s'.refs = refItem s.refs answer)
    (hlive : s'.live = s.live) (hstored : s'.stored = Function.update s.stored key (some answer))
    (hheld : s'.held = answer :: s.held) (hown : s'.own = handOver s.own .zero answer) :
    Ledger s' ((key, answer) :: kept) := by
  have hnew : ∀ r, (key, r) ∉ kept := by
    intro r hr
    rw [h.entries, hkey] at hr
    cases hr
  refine h.take answer hrefs hlive hcount ?_ ?_ (List.nodup_cons.mpr ⟨hnew _, h.nodup⟩) fun d => ?_
  · intro d hd
    apply h.live d
    have hpos := List.count_pos_iff.mpr (hhands d (mem_dictIn.mpr hd))
    unfold owed
    omega
  · intro k r
    rw [hstored, List.mem_cons, Prod.mk.injEq, update_some_eq_some, h.entries]
    constructor
    · rintro (⟨rfl, rfl⟩ | hr)
      · exact .inl ⟨rfl, rfl⟩
      · refine .inr ⟨?_, hr⟩
        rintro rfl
        rw [hkey] at hr
        cases hr
    · rintro (⟨rfl, rfl⟩ | ⟨-, hr⟩)
      · exact .inl ⟨rfl, rfl⟩
      · exact .inr hr
  · have hmove := handOver_count hhands .zero d
    rw [zero_refersTo] at hmove
    unfold owed
    rw [hown, hheld, List.countP_cons, List.countP_cons]
    simp only [Bool.false_eq_true, if_false, add_zero] at hmove ⊢
    omega

theorem refItem_zero (refs : Refs) : refItem refs .zero = refs := rfl

theorem Countable.congr {refs : Refs} {a b : Item} (h : Countable refs a) (hab : ∀ d, b.refersTo d = a.refersTo d) :
    Countable refs b := by
  intro d hd
  rw [mem_dictIn, hab, ← mem_dictIn] at hd
  exact h d hd

theorem countable_zero (refs : Refs) : Countable refs .zero := by
  intro d hd
  rw [mem_dictIn, zero_refersTo] at hd
  cases hd

theorem Ledger.entry_live (h : Ledger s kept) {key : CString} {r : Item} (hr : s.stored key = some r) {d : DictId}
    (hd : r.refersTo d) : s.live d = true := by
  apply h.live d
  have hpos : 0 < kept.countP fun e => e.2.refersTo d :=
    List.countP_pos_iff.mpr ⟨(key, r), (h.entries key r).mpr hr, hd⟩
  unfold owed
  omega

theorem event_ledger {rx : Regex} {keepGoing : Bool} (hi : Inv s) (h : Ledger s kept) {key : Option Key}
    {answer : Option Item} {now time creation : BitVec 64}
    (hp : Owned keepGoing s (.cache (.event key answer now time creation)))
    (hs : step rx keepGoing s (.cache (.event key answer now time creation)) = some s') :
    ∃ kept', Ledger s' kept' := by
  obtain ⟨hstored, hanswer⟩ := hp
  simp only [step, Option.ite_none_right_eq_some] at hs
  obtain ⟨hall, hs⟩ := hs
  cases key with
  | none =>
    cases hs
    cases answer with
    | none => exact ⟨kept, h.of_same rfl rfl rfl fun d => by simp [process, owed, goesOn, zero_refersTo]⟩
    | some r =>
      obtain ⟨-, hhands⟩ := hanswer r rfl (.inr nofun)
      exact ⟨kept, h.answer (countable_zero _) (by simp [zero_refersTo]) hhands rfl rfl rfl rfl rfl⟩
  | some key =>
    cases hkey : s.stored key.string with
    | some r =>
      obtain ⟨c', v, hh, htype, hvalue, -, -⟩ := hi.hit hkey rx now time
      have hsame : ∀ d, (copyItem .zero v false).refersTo d = r.refersTo d := fun d => by
        rw [copyItem_refersTo, refersTo_congr htype hvalue]
      have hcount := (hstored key rfl r hkey).congr hsame
      have hthere : ∀ d, (copyItem .zero v false).refersTo d → s.live d = true := by
        intro d hd
        rw [hsame] at hd
        exact h.entry_live hkey hd
      simp only [hh, Option.map_some, Option.some.injEq] at hs
      subst hs
      unfold process
      cases hgo : (if goesOn keepGoing 0 (copyItem .zero v false) then answer else none) with
      | none => exact ⟨kept, h.copy hcount hthere (by simp [stores]) rfl (by simp [remember, stores]) rfl rfl⟩
      | some a =>
        have hkept : remember s.stored ⟨some key, true⟩ a = s.stored := by simp [remember, stores]
        refine ⟨kept, h.answer hcount hthere ?_ (by simp [stores]) rfl hkept rfl rfl⟩
        simp only [Option.ite_none_right_eq_some] at hgo
        obtain ⟨hgo, rfl⟩ := hgo
        have hr' := hi.agrees.answer key.string r hkey
        have hkeep : keepGoing = true := by
          have hn : nonNull (copyItem .zero v false) = true :=
            (nonNull_congr (copyItem_answer hr' htype hvalue).1).trans (isAnswer_nonNull hr')
          simpa [goesOn, hn] using hgo
        exact (hanswer a rfl (.inl hkeep)).2
    | none =>
      rw [hi.miss hkey] at hs
      cases hs
      cases answer with
      | none => exact ⟨kept, h.of_same rfl rfl rfl fun d => by simp [process, owed, goesOn, zero_refersTo]⟩
      | some r =>
        have hr : isAnswer r = true := by simpa using hall
        obtain ⟨hcount, hhands⟩ := hanswer r rfl (.inr (by simpa using hkey))
        have hstores : stores ⟨some key, false⟩ r = true := by simp [stores, isAnswer_nonNull hr]
        have hz : goesOn keepGoing 1 .zero = true := rfl
        refine ⟨_, h.store hcount hhands hkey ?_ rfl ?_ rfl rfl⟩
        · simp [process, hz, hstores, refItem_zero]
        · simp [process, hz, hstores, remember]

theorem bind_get_item {c : Cache} (hw : Wf c) (key : CString) :
    (c.entries.bind fun d => crtx_get_item d key) = crtx_cache_match_cb_t_strcmp c key := by
  rw [← get_item_eq hw]
  unfold Cache.list
  cases c.entries <;> rfl

theorem Inv.find (hi : Inv s) {key : CString} {r : Item} (hr : s.stored key = some r) :
    ∃ i, crtx_cache_match_cb_t_strcmp s.cache key = some i ∧ HoldsAt s.cache key r i := by
  obtain ⟨i, hold⟩ := hi.agrees.present key r hr
  refine ⟨i, ?_, hold⟩
  cases hf : crtx_cache_match_cb_t_strcmp s.cache key with
  | none => exact absurd hold.found ((match_strcmp_none hi.tidy.wf).mp hf i)
  | some j => rw [hold.unique j (match_strcmp_some hi.tidy.wf hf).2]

theorem remove_ledger {rx : Regex} {keepGoing : Bool} (hi : Inv s) (h : Ledger s kept) {key : CString}
    (hs : step rx keepGoing s (.cache (.remove key)) = some s') : ∃ kept', Ledger s' kept' := by
  cases hs
  rw [bind_get_item hi.tidy.wf]
  cases hkey : s.stored key with
  | none =>
    rw [(match_strcmp_none hi.tidy.wf).mpr (hi.agrees.absent key hkey)]
    refine ⟨kept, h.of_same rfl rfl ?_ fun _ => rfl⟩
    rw [← hkey]
    exact Function.update_eq_self ..
  | some r =>
    obtain ⟨i, hfind, hold⟩ := hi.find hkey
    have hmem := (h.entries key r).mpr hkey
    rw [hfind]
    refine ⟨kept.erase (key, r), h.free (valueItem s.cache i) rfl rfl ?_ (h.nodup.erase _) fun x => ?_⟩
    · intro k r'
      rw [h.nodup.mem_erase_iff, h.entries, update_none_eq_some]
      refine and_congr_left fun hr' => ?_
      refine ⟨?_, ?_⟩
      · rintro hne rfl
        rw [hkey] at hr'
        exact hne (by rw [Option.some.inj hr'])
      · rintro hne heq
        exact hne (congrArg Prod.fst heq)
    · have hcount := countP_erase hmem fun e => e.2.refersTo x
      have hval := refersTo_congr hold.type hold.value x
      unfold owed
      have hown : (freeItem s (valueItem s.cache i)).own = s.own := by
        unfold freeItem
        cases dictIn (valueItem s.cache i) <;> rfl
      have hheld : (freeItem s (valueItem s.cache i)).held = s.held := by
        unfold freeItem
        cases dictIn (valueItem s.cache i) <;> rfl
      dsimp only at hcount
      simp only [Option.map_some, Option.elim_some, hown, hheld, hval]
      omega

theorem create_ledger (h : Ledger s kept) {d : DictId} (counted : Bool) (hdead : ¬ s.live d = true) :
    Ledger { s with
      refs := Function.update s.refs d (if counted then 1 else 0)
      live := Function.update s.live d true
      own := if counted then d :: s.own else s.own } kept := by
  have hzero : owed s kept d = 0 := by
    by_contra hpos
    exact hdead (h.live d (Nat.pos_of_ne_zero hpos))
  have howed : ∀ x, owed { s with own := if counted then d :: s.own else s.own } kept x =
      owed s kept x + if counted ∧ x = d then 1 else 0 := by
    intro x
    unfold owed
    cases counted with
    | false => simp
    | true =>
      simp only [if_true, List.count_cons, beq_iff_eq, true_and, eq_comm (a := d)]
      omega
  refine ⟨h.entries, h.nodup, fun x hx => ?_, fun x hx => ?_⟩
  · refine Eq.trans ?_ (howed x).symm
    by_cases hxd : x = d
    · subst hxd
      simp only [Function.update_self, hzero]
      cases counted <;> simp
    · simp only [Function.update_of_ne hxd] at hx ⊢
      simp [hxd, h.counts x hx]
  · have hx' := (howed x).symm.trans_gt hx
    by_cases hxd : x = d
    · subst hxd
      simp
    · simp only [Function.update_of_ne hxd]
      apply h.live x
      simpa [hxd] using hx'

theorem step_ledger {rx : Regex} {keepGoing : Bool} {m : Move} (hi : Inv s) (h : Ledger s kept)
    (hp : Owned keepGoing s m) (hs : step rx keepGoing s m = some s') : ∃ kept', Ledger s' kept' := by
  match m with
  | .cache (.event ..) => exact event_ledger hi h hp hs
  | .cache (.remove key) => exact remove_ledger hi h hs
  | .create d counted =>
    simp only [step, Option.ite_none_left_eq_some, Option.some.injEq] at hs
    obtain ⟨hdead, rfl⟩ := hs
    exact ⟨kept, create_ledger h counted hdead⟩
  | .ref d =>
    obtain ⟨hlive, hmax⟩ := hp
    cases hs
    have hdict : ∀ x, Item.refersTo x ⟨some 'D', 0, none, 0, .dict d⟩ = decide (d = x) := fun x => by
      simp [Item.refersTo]
    refine ⟨kept, h.take ⟨some 'D', 0, none, 0, .dict d⟩ rfl rfl ?_ ?_ h.entries h.nodup fun x => ?_⟩
    · intro x hx
      rw [mem_dictIn, hdict, decide_eq_true_eq] at hx
      exact hx ▸ hmax
    · intro x hx
      rw [hdict, decide_eq_true_eq] at hx
      exact hx ▸ hlive
    · rw [hdict]
      unfold owed
      simp only [List.count_cons, beq_iff_eq, decide_eq_true_eq]
      omega
  | .unref d =>
    cases hs
    refine ⟨kept, h.unref rfl rfl h.entries h.nodup fun x => ?_⟩
    have hcount := (List.perm_cons_erase (show d ∈ s.own from hp)).count_eq x
    rw [List.count_cons] at hcount
    unfold owed
    simp only [crtx_dict_unref, beq_iff_eq, eq_comm (a := d)] at hcount ⊢
    omega
  | .release response =>
    simp only [step, Option.ite_none_right_eq_some, Option.some.injEq] at hs
    obtain ⟨hmem, rfl⟩ := hs
    have hother : (freeItem s response).stored = s.stored ∧ (freeItem s response).own = s.own := by
      unfold freeItem
      cases dictIn response <;> exact ⟨rfl, rfl⟩
    refine ⟨kept, h.free response rfl rfl ?_ h.nodup fun x => ?_⟩
    · simp only [hother.1]
      exact h.entries
    · have hcount := countP_erase hmem (Item.refersTo x)
      unfold owed
      simp only [hother.2]
      omega

theorem answered_iff (hi : Inv s) (h : Ledger s kept) (rx : Regex) (keepGoing : Bool) (m : Move) :
    Answered rx keepGoing s m ↔ Copied s m := by
  match m with
  | .cache (.remove _) | .cache (.event none _ _ _ _) => exact Iff.rfl
  | .create _ _ | .ref _ | .unref _ | .release _ => exact Iff.rfl
  | .cache (.event (some key) answer now time creation) =>
    refine forall₂_congr fun r hr => ?_
    obtain ⟨c', v, hh, htype, hvalue, -, -⟩ := hi.hit hr rx now time
    have hr' := hi.agrees.answer key.string r hr
    obtain ⟨hval, hiff⟩ := copyItem_answer hr' htype hvalue
    constructor
    · rintro ⟨-, c, session, response, hh', ht, -, -⟩
      rw [hh] at hh'
      cases hh'
      exact hiff.mp ht
    · intro hcopied
      refine ⟨fun d hd => h.entry_live hr hd, c', _, _, hh, hiff.mpr hcopied, hval, ?_⟩
      have hn : nonNull (copyItem .zero v false) = true := (nonNull_congr hval).trans (isAnswer_nonNull hr')
      simp [goesOn, hn]

theorem freeItem_cache (s : St) (di : Item) : (freeItem s di).cache = s.cache := by
  unfold freeItem
  cases dictIn di <;> rfl

theorem freeItem_stored (s : St) (di : Item) : (freeItem s di).stored = s.stored := by
  unfold freeItem
  cases dictIn di <;> rfl

theorem Inv.of_same (hi : Inv s) (hcache : s'.cache = s.cache) (hstored : s'.stored = s.stored) : Inv s' := by
  obtain ⟨htidy, hagrees⟩ := hi
  rw [← hcache] at htidy hagrees
  rw [← hstored] at hagrees
  exact ⟨htidy, hagrees⟩

theorem event_inv {rx : Regex} {keepGoing : Bool} (hi : Inv s) {key : Option Key} {answer : Option Item}
    {now time creation : BitVec 64} (hroom : Room s (.cache (.event key answer now time creation)))
    (hs : step rx keepGoing s (.cache (.event key answer now time creation)) = some s') : Inv s' := by
  simp only [step, Option.ite_none_right_eq_some] at hs
  obtain ⟨hall, hs⟩ := hs
  cases key with
  | none =>
    cases hs
    exact hi.of_same rfl rfl
  | some key =>
    cases hstored : s.stored key.string with
    | some r =>
      obtain ⟨c', v, hh, -, -, htouched, hfirst⟩ := hi.hit hstored rx now time
      rw [hh] at hs
      cases hs
      exact (hi.touched htouched hfirst).of_same rfl rfl
    | none =>
      rw [hi.miss hstored] at hs
      cases hs
      have hz : goesOn keepGoing 1 .zero = true := rfl
      cases answer with
      | none =>
        have hn : nonNull .zero = false := rfl
        apply hi.of_same <;> simp [process, crtx_cache_task_cleanup, remember, stores, hz, hn]
      | some r =>
        have hr : isAnswer r = true := by simpa using hall
        have hg : CanGrow s.cache.list := hroom hstored
        obtain ⟨-, hnokey, -⟩ := chooseSlot_free hi.tidy hg
        obtain ⟨htidy, hadded⟩ := hi.tidy.add hg key creation hr
        have hagrees := hi.agrees.add hi.tidy.wf hnokey hstored hr hadded
        constructor <;>
          simpa [process, crtx_cache_task_cleanup, remember, stores, hz, isAnswer_nonNull hr]

theorem step_inv {rx : Regex} {keepGoing : Bool} {m : Move} (hi : Inv s) (hroom : Room s m)
    (hs : step rx keepGoing s m = some s') : Inv s' := by
  match m with
  | .cache (.event ..) => exact event_inv hi hroom hs
  | .cache (.remove key) =>
    cases hs
    exact ⟨hi.tidy.remove key, hi.agrees.remove hi.tidy.wf key⟩
  | .create _ _ =>
    simp only [step, Option.ite_none_left_eq_some, Option.some.injEq] at hs
    obtain ⟨-, rfl⟩ := hs
    exact hi.of_same rfl rfl
  | .ref _ | .unref _ =>
    cases hs
    exact hi.of_same rfl rfl
  | .release response =>
    simp only [step, Option.ite_none_right_eq_some, Option.some.injEq] at hs
    obtain ⟨-, rfl⟩ := hs
    exact hi.of_same (freeItem_cache s response) (freeItem_stored s response)

end

/-! ## Runs -/

/-- In every run in which the entries do not outgrow their number and references are counted, every event with a key
that is stored gets the response from the cache, exactly if each of these is a string or a dictionary. -/
theorem cache_answers_iff (rx : Regex) (keepGoing simple noExtFields : Bool) (as : List Move)
    (hp : Meets (step rx keepGoing) (Provided keepGoing) as (St.init simple noExtFields)) :
    Meets (step rx keepGoing) (Answered rx keepGoing) as (St.init simple noExtFields) ↔
      Meets (step rx keepGoing) Copied as (St.init simple noExtFields) := by
  let Kept (s : St) : Prop := Inv s ∧ ∃ kept, Ledger s kept
  have hinit : Kept (St.init simple noExtFields) :=
    ⟨inv_init simple noExtFields, [], ledger_init simple noExtFields⟩
  have hiff : ∀ s m, Kept s → (Answered rx keepGoing s m ↔ Copied s m) := by
    rintro s m ⟨hi, kept, h⟩
    exact answered_iff hi h rx keepGoing m
  have hstep : ∀ s m s', Kept s → Copied s m → Provided keepGoing s m → step rx keepGoing s m = some s' → Kept s' := by
    rintro s m s' ⟨hi, kept, h⟩ - ⟨hroom, howned⟩ hs
    exact ⟨step_inv hi hroom hs, step_ledger hi h howned hs⟩
  exact meets_congr hiff hstep as _ hinit hp

def aString : Item := ⟨some 's', 0, none, 1, .string (some keyB)⟩

def aNumber : Item := ⟨some 'u', 0, none, 0, .word 7⟩

def aDict : Item := ⟨some 'D', 0, none, 0, .dict 3⟩

instance (refs : Refs) (r : Item) : Decidable (Countable refs r) :=
  inferInstanceAs (Decidable (∀ d ∈ dictIn r, refs d ≠ BitVec.allOnes 32))

instance (s : St) : ∀ m, Decidable (Room s m)
  | .cache (.event (some _) (some _) _ _ _) => inferInstanceAs (Decidable (_ → _))
  | .cache (.event (some _) none _ _ _) | .cache (.event none _ _ _ _) | .cache (.remove _) | .create _ _ | .ref _
  | .unref _ | .release _ => inferInstanceAs (Decidable True)

instance (keepGoing : Bool) (s : St) : ∀ m, Decidable (Owned keepGoing s m)
  | .cache (.event key answer _ _ _) =>
    inferInstanceAs (Decidable ((∀ k ∈ key, ∀ r ∈ s.stored k.string, Countable s.refs r) ∧
      ∀ r ∈ answer, (keepGoing = true ∨ ∀ k ∈ key, s.stored k.string = none) →
        Countable s.refs r ∧ ∀ d ∈ dictIn r, d ∈ s.own))
  | .ref _ => inferInstanceAs (Decidable (_ ∧ _))
  | .unref d => inferInstanceAs (Decidable (d ∈ s.own))
  | .cache (.remove _) | .create _ _ | .release _ => inferInstanceAs (Decidable True)

instance (keepGoing : Bool) (s : St) (m : Move) : Decidable (Provided keepGoing s m) :=
  inferInstanceAs (Decidable (_ ∧ _))

/-- The same event twice, and once more after the entry was removed. -/
def repeated (r : Item) : List Move :=
  [.cache (.event (some aKey) (some r) 0 0 0), .cache (.event (some aKey) (some r) 0 0 0), .cache (.remove keyA),
    .cache (.event (some aKey) (some r) 0 0 0)]

/-- A dictionary is the response to two events. They are released, and a third asks for it. -/
def shared : List Move :=
  [.create 3 true, .cache (.event (some aKey) (some aDict) 0 0 0), .release aDict,
    .cache (.event (some aKey) none 0 0 0), .release { aDict with key := some valueField },
    .cache (.event (some aKey) none 0 0 0)]

theorem cache_answers_repeated :
    Meets (step noRegex false) (Answered noRegex false) (shared ++ .cache (.remove keyA) :: repeated aString)
      (St.init false false) := by
  rw [cache_answers_iff noRegex false false false (shared ++ .cache (.remove keyA) :: repeated aString) (by decide)]
  refine ⟨trivial, ?_, trivial, ?_, trivial, ?_, trivial, ?_, ?_, trivial, ?_, trivial⟩
  all_goals
    intro r hr
    cases hr
  · exact .inr rfl
  · exact .inr rfl
  · exact .inl rfl

theorem number_loses_type :
    ¬ ∀ (rx : Regex) (keepGoing simple noExtFields : Bool) (as : List Move),
      Meets (step rx keepGoing) (Answered rx keepGoing) as (St.init simple noExtFields) := by
  intro h
  obtain ⟨-, c, session, response, hh, ht, -⟩ := (h noRegex false true false (repeated aNumber)).2.1 aNumber rfl
  have hnone : response.type = none := by
    cases hh
    rfl
  rw [hnone] at ht
  cases ht

end Libcortex.Caches.Hits
