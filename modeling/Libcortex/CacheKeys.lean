import Libcortex.Caches
import Libcortex.Lib.Run

/-!
# One entry for each key

The handler looks for a key and the cleanup stores under it, each with the lock of the cache, but the lock is not held in
between. If two events with one key overlap, both find nothing and both store.
-/

open Libcortex.Lib

namespace Libcortex.Caches

open Dicts

/-! ## Events that overlap -/

/-- The events between handler and cleanup, with their sessions and responses. -/
structure St where
  cache : Cache
  session : EventId → Option (Session × Item)

def St.init (simple noExtFields : Bool) (timeout : BitVec 64) : St where
  cache := Cache.new simple noExtFields timeout
  session := fun _ => none

inductive Action where
  | handle (e : EventId) (key : Option Key) (response : Item) (now time : BitVec 64)
  | respond (e : EventId) (response : Item)
  | cleanup (e : EventId) (creation : BitVec 64)
  | remove (key : CString)

def step (rx : Regex) (s : St) : Action → Option St
  | .handle e key response now time =>
    match s.session e with
    | some _ => none
    | none =>
      (crtx_cache_task_handler rx s.cache key now time response).map fun (cache, session, response, _) =>
        { cache, session := Function.update s.session e (some (session, response)) }
  | .respond e response =>
    (s.session e).map fun p => { s with session := Function.update s.session e (some (p.1, response)) }
  | .cleanup e creation =>
    (s.session e).map fun p =>
      { cache := crtx_cache_task_cleanup s.cache p.1 creation p.2, session := Function.update s.session e none }
  | .remove key => some { s with cache := crtx_cache_remove_entry s.cache key }

/-! ## What has to hold -/

/-- `match_event` would return the entry `i`. -/
def MatchesAt (rx : Regex) (c : Cache) (key : CString) (i : Nat) : Prop :=
  i ∈ visit c.list ∧
    if c.simple then (c.list.item i).key = some key
    else ∃ c', matchEntry rx c key (c.list.item i) = some (c', true)

def OnePerKey (rx : Regex) (c : Cache) : Prop :=
  ∀ key i j, MatchesAt rx c key i → MatchesAt rx c key j → i = j

def Misses (rx : Regex) (c : Cache) (key : CString) : Prop := ∃ c', matchEvent rx c key = some (c', none)

/-- After the step there is one entry for each key, and a key that was removed is not found. -/
def KeepsOne (rx : Regex) (s : St) (a : Action) : Prop :=
  ∀ s', step rx s a = some s' → OnePerKey rx s'.cache ∧ ∀ key, a = .remove key → Misses rx s'.cache key

/-- A response is stored only if no entry has the key but the one that is used for it. -/
def Alone (s : St) : Action → Prop
  | .cleanup e _ =>
    ∀ session response key, s.session e = some (session, response) → session.key = some key → session.hit = false →
      nonNull response = true →
      ∀ j, j ≠ (chooseSlot s.cache).2 → (s.cache.list.item j).key ≠ some key.string
  | _ => True

/-! ## Steps -/

def UniqueKeys (c : Cache) : Prop :=
  ∀ key i j, (c.list.item i).key = some key → (c.list.item j).key = some key → i = j

theorem matchesAt_iff {c : Cache} (hw : Wf c) (rx : Regex) (key : CString) (i : Nat) :
    MatchesAt rx c key i ↔ (c.list.item i).key = some key := by
  have hvisit : (c.list.item i).key = some key → i ∈ visit c.list := by
    intro hk
    rw [visit_eq hw.rep, List.mem_range]
    by_contra hi
    rw [item_beyond (Nat.le_of_not_lt hi)] at hk
    cases hk
  unfold MatchesAt
  split
  · exact ⟨fun h => h.2, fun h => ⟨hvisit h, h⟩⟩
  · rename_i hs
    simp only [matchEntry_eq hw (by simpa using hs) rx key i, Option.some.injEq, Prod.mk.injEq, decide_eq_true_eq]
    exact ⟨fun h => h.2.choose_spec.2, fun h => ⟨hvisit h, c, rfl, h⟩⟩

theorem onePerKey_iff {c : Cache} (hw : Wf c) (rx : Regex) : OnePerKey rx c ↔ UniqueKeys c := by
  unfold OnePerKey UniqueKeys
  simp only [matchesAt_iff hw]

theorem misses_iff {c : Cache} (hw : Wf c) (rx : Regex) (key : CString) :
    Misses rx c key ↔ ∀ i, (c.list.item i).key ≠ some key := by
  unfold Misses
  rw [matchEvent_eq hw, ← match_strcmp_none hw]
  simp

theorem Touched.list {c c' : Cache} (h : Touched c c') : c'.list = c.list := by
  obtain ⟨⟨heap, rfl⟩, -, -⟩ := h
  rfl

theorem add_uniqueKeys {c : Cache} (hw : Wf c) (hu : UniqueKeys c) (key : Key) (creation : BitVec 64)
    (response : Item) :
    UniqueKeys (crtx_cache_add_entry c key creation response) ↔
      ∀ j, j ≠ (chooseSlot c).2 → (c.list.item j).key ≠ some key.string := by
  constructor
  · intro h j hj hk
    apply hj
    apply h key.string
    · rw [add_key hw, if_neg hj, hk]
    · rw [add_key hw, if_pos rfl]
  · intro h k i j hi hj
    rw [add_key hw] at hi hj
    split at hi
    · rename_i hit
      cases hi
      split at hj
      · rename_i hjt
        rw [hit, hjt]
      · rename_i hjt
        exact absurd hj (h j hjt)
    · rename_i hit
      split at hj
      · cases hj
        exact absurd hi (h i hit)
      · exact hu k i j hi hj

theorem remove_uniqueKeys {c : Cache} (hw : Wf c) (hu : UniqueKeys c) (key : CString) :
    UniqueKeys (crtx_cache_remove_entry c key) := by
  intro k i j hi hj
  rw [remove_key hw] at hi hj
  split at hi
  · cases hi
  · split at hj
    · cases hj
    · exact hu k i j hi hj

theorem cleanup_eq (c : Cache) (session : Session) (creation : BitVec 64) (response : Item) :
    (∃ key, session.key = some key ∧ session.hit = false ∧ nonNull response = true ∧
      crtx_cache_task_cleanup c session creation response = crtx_cache_add_entry c key creation response) ∨
    ((∀ key, session.key = some key → session.hit = false → nonNull response = true → False) ∧
      crtx_cache_task_cleanup c session creation response = c) := by
  unfold crtx_cache_task_cleanup
  split
  · rename_i hk
    refine .inr ⟨?_, rfl⟩
    intro key h
    rw [hk] at h
    cases h
  · rename_i key hk
    split
    · rename_i h
      exact .inl ⟨key, hk, h.1, h.2, rfl⟩
    · rename_i h
      exact .inr ⟨fun _ _ hhit hn => h ⟨hhit, hn⟩, rfl⟩

structure Inv (s : St) : Prop where
  wf : Wf s.cache
  unique : UniqueKeys s.cache

theorem step_wf {rx : Regex} {s s' : St} {a : Action} (hw : Wf s.cache) (hs : step rx s a = some s') : Wf s'.cache := by
  cases a with
  | handle e key response now time =>
    obtain ⟨c', session, response', ret, hh, htouched⟩ := handler_spec hw rx key now time response
    simp only [step] at hs
    split at hs
    · cases hs
    · rw [hh] at hs
      cases hs
      exact htouched.wf hw
  | respond e response =>
    simp only [step, Option.map_eq_some_iff] at hs
    obtain ⟨p, -, rfl⟩ := hs
    exact hw
  | cleanup e creation =>
    simp only [step, Option.map_eq_some_iff] at hs
    obtain ⟨p, -, rfl⟩ := hs
    dsimp only
    rcases cleanup_eq s.cache p.1 creation p.2 with ⟨key, -, -, -, h⟩ | ⟨-, h⟩
    · rw [h]
      exact add_wf hw key creation p.2
    · rw [h]
      exact hw
  | remove key =>
    cases hs
    exact remove_wf hw key

theorem step_unique {rx : Regex} {s s' : St} {a : Action} (hi : Inv s) (hs : step rx s a = some s') :
    (UniqueKeys s'.cache ↔ Alone s a) ∧ ∀ key, a = .remove key → ∀ i, (s'.cache.list.item i).key ≠ some key := by
  cases a with
  | handle e key response now time =>
    obtain ⟨c', session, response', ret, hh, htouched⟩ := handler_spec hi.wf rx key now time response
    simp only [step] at hs
    split at hs
    · cases hs
    · rw [hh] at hs
      cases hs
      refine ⟨iff_of_true ?_ trivial, fun key h => by cases h⟩
      unfold UniqueKeys
      rw [htouched.list]
      exact hi.unique
  | respond e response =>
    simp only [step, Option.map_eq_some_iff] at hs
    obtain ⟨p, -, rfl⟩ := hs
    exact ⟨iff_of_true hi.unique trivial, fun key h => by cases h⟩
  | cleanup e creation =>
    simp only [step, Option.map_eq_some_iff] at hs
    obtain ⟨⟨session, response⟩, hsession, rfl⟩ := hs
    refine ⟨?_, fun key h => by cases h⟩
    dsimp only
    rcases cleanup_eq s.cache session creation response with ⟨key, hk, hhit, hn, h⟩ | ⟨hnot, h⟩
    · rw [h, add_uniqueKeys hi.wf hi.unique]
      constructor
      · intro halone session' response' key' hsession' hk' _ _
        rw [hsession] at hsession'
        cases hsession'
        rw [hk] at hk'
        cases hk'
        exact halone
      · intro halone
        exact halone session response key hsession hk hhit hn
    · rw [h]
      refine iff_of_true hi.unique ?_
      intro session' response' key' hsession' hk' hhit' hn'
      rw [hsession] at hsession'
      cases hsession'
      exact (hnot key' hk' hhit' hn').elim
  | remove key =>
    cases hs
    refine ⟨iff_of_true (remove_uniqueKeys hi.wf hi.unique key) trivial, ?_⟩
    intro key' h
    cases h
    exact remove_gone hi.wf (hi.unique key)

theorem alone_of_disabled {rx : Regex} {s : St} {a : Action} (hs : step rx s a = none) : Alone s a := by
  cases a with
  | cleanup e creation =>
    simp only [step, Option.map_eq_none_iff] at hs
    intro session response key hsession
    rw [hs] at hsession
    cases hsession
  | handle => trivial
  | respond => trivial
  | remove => trivial

/-! ## Runs -/

/-- In every run, after every step there is one entry for each key and a removed key is not found, exactly if every
response that is stored finds no other entry with its key. -/
theorem one_entry_per_key_iff (rx : Regex) (simple noExtFields : Bool) (timeout : BitVec 64) (as : List Action) :
    Meets (step rx) (KeepsOne rx) as (St.init simple noExtFields timeout) ↔
      Meets (step rx) Alone as (St.init simple noExtFields timeout) := by
  have hinit : Inv (St.init simple noExtFields timeout) := by
    refine ⟨wf_new simple noExtFields timeout, ?_⟩
    intro key i j hi
    cases hi
  apply meets_congr _ _ as _ hinit (meets_true _ _ _)
  · intro s a hi
    cases hs : step rx s a with
    | none =>
      refine iff_of_true ?_ (alone_of_disabled hs)
      intro s' hs'
      rw [hs] at hs'
      cases hs'
    | some s' =>
      have hw := step_wf hi.wf hs
      obtain ⟨hiff, hgone⟩ := step_unique hi hs
      unfold KeepsOne
      simp only [hs, Option.some.injEq, forall_eq', onePerKey_iff hw, misses_iff hw]
      exact ⟨fun h => hiff.mp h.1, fun h => ⟨hiff.mpr h, hgone⟩⟩
  · intro s a s' hi halone _ hs
    exact ⟨step_wf hi.wf hs, (step_unique hi hs).1.mpr halone⟩

def aResponse : Item := ⟨some 's', 0, none, 1, .string (some keyB)⟩

/-- Two events with one key, the second of which comes before the first is done. -/
def overlap : List Action :=
  [.handle 0 (some aKey) .zero 0 0, .handle 1 (some aKey) .zero 0 0, .respond 0 aResponse, .respond 1 aResponse,
    .cleanup 0 0, .cleanup 1 0]

theorem overlap_stores_twice :
    ¬ ∀ (rx : Regex) (simple noExtFields : Bool) (timeout : BitVec 64) (as : List Action),
      Meets (step rx) (KeepsOne rx) as (St.init simple noExtFields timeout) := by
  intro h
  have hlast := (h noRegex true false 0 overlap).2.2.2.2.2.1 _ rfl
  have := hlast.1 keyA 0 1 ⟨by decide, rfl⟩ ⟨by decide, rfl⟩
  cases this

end Libcortex.Caches
