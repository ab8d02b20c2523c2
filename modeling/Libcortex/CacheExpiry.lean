import Libcortex.CacheHits

/-!
# Expiry of cache entries

The extended layout with a timeout. An entry is dropped if the clock is past the sum of its creation and the timeout,
which has 64 bits like the two. What is dropped is only the key in the dictionary of the entry: the entry is still found
by its key, and is the first choice for a new response.
-/

open Libcortex.Lib

namespace Libcortex.Caches.Expiry

open Dicts Hits

/-! ## Events in sequence -/

/-- The task behind the cache may give any answer. -/
def step (rx : Regex) (keepGoing : Bool) (c : Cache) : Hits.Action → Option Cache
  | .event key answer now time creation =>
    (crtx_cache_task_handler rx c key now time .zero).map fun (c, session, response, ret) =>
      crtx_cache_task_cleanup c session creation (if goesOn keepGoing ret response then answer.getD response else response)
  | .remove key => some (crtx_cache_remove_entry c key)

/-! ## What has to hold -/

/-- When the entry `i` was made. -/
def creationOf (c : Cache) (i : Nat) : Option (BitVec 64) :=
  (c.field (c.list.item i) creationField).map fun p => wordOf (c.get p)

/-- The clock, as an exact number, is further from the creation than the timeout. -/
def Expired (c : Cache) (creation now : BitVec 64) : Prop := c.timeout.toNat < now.toNat - creation.toNat

/-- The matching entry, if the clock is not before its creation. -/
structure Matches (rx : Regex) (c : Cache) (key : CString) (now creation : BitVec 64) : Prop where
  found : ∃ c' i, matchEvent rx c key = some (c', some i) ∧ creationOf c' i = some creation
  le : creation.toNat ≤ now.toNat

/-- The handler takes the entry for no hit exactly if it has expired, and then the response is not from the entry. -/
def Treats (rx : Regex) (c : Cache) : Hits.Action → Prop
  | .event (some key) _ now time _ =>
    ∃ c' session response ret, crtx_cache_task_handler rx c (some key) now time .zero = some (c', session, response, ret) ∧
      ∀ creation, Matches rx c key.string now creation →
        (session.hit = false ↔ Expired c creation now) ∧ (Expired c creation now → response = .zero ∧ ret = 1)
  | _ => True

/-- The sum of the creation and the timeout does not wrap. -/
def InTime (rx : Regex) (c : Cache) : Hits.Action → Prop
  | .event (some key) _ now _ _ =>
    ∀ creation, Matches rx c key.string now creation → creation.toNat + c.timeout.toNat < 2 ^ 64
  | _ => True

/-! ## Invariant -/

structure Extended (c : Cache) : Prop where
  wf : Wf c
  simple : c.simple = false
  ext : c.noExtFields = false
  timeout : 0 < c.timeout.toNat

theorem Extended.congr {c c' : Cache} (h : Extended c) (hw : Wf c')
    (hsame : ∃ entries heap next, c' = { c with entries, heap, next }) : Extended c' := by
  obtain ⟨entries, heap, next, rfl⟩ := hsame
  exact ⟨hw, h.simple, h.ext, h.timeout⟩

theorem Extended.touched {c c' : Cache} (h : Extended c) (ht : Touched c c') : Extended c' := by
  obtain ⟨heap, hheap⟩ := ht.same
  exact h.congr (ht.wf h.wf) ⟨_, heap, _, hheap⟩

theorem Extended.cleanup {c : Cache} (h : Extended c) (session : Session) (creation : BitVec 64) (response : Item) :
    Extended (crtx_cache_task_cleanup c session creation response) := by
  unfold crtx_cache_task_cleanup
  split
  · exact h
  · split
    · exact h.congr (add_wf h.wf ..) (add_setup ..)
    · exact h

theorem Extended.remove {c : Cache} (h : Extended c) (key : CString) : Extended (crtx_cache_remove_entry c key) := by
  refine h.congr (remove_wf h.wf key) ?_
  rcases remove_eq h.wf key with ⟨heq, -⟩ | ⟨i, -, heq⟩
  · exact ⟨_, _, _, heq⟩
  · exact ⟨_, _, _, heq⟩

theorem step_extended {rx : Regex} {keepGoing : Bool} {c c' : Cache} {a : Hits.Action} (h : Extended c)
    (hs : step rx keepGoing c a = some c') : Extended c' := by
  cases a with
  | event key answer now time creation =>
    obtain ⟨c₁, session, response, ret, hh, htouched⟩ := handler_spec h.wf rx key now time .zero
    rw [step, hh] at hs
    cases hs
    exact (h.touched htouched).cleanup ..
  | remove key =>
    cases hs
    exact h.remove key

/-! ## The handler -/

theorem lt_sum_iff {creation timeout now : BitVec 64} (hle : creation.toNat ≤ now.toNat) :
    (creation + timeout < now ↔ timeout.toNat < now.toNat - creation.toNat) ↔
      creation.toNat + timeout.toNat < 2 ^ 64 := by
  have hnow := now.isLt
  have htimeout := timeout.isLt
  rw [BitVec.lt_def, BitVec.toNat_add]
  by_cases hlt : creation.toNat + timeout.toNat < 2 ^ 64
  · rw [Nat.mod_eq_of_lt hlt]
    omega
  · -- The wrapped sum is below the creation, and the exact one above any clock.
    have hmod : (creation.toNat + timeout.toNat) % 2 ^ 64 = creation.toNat + timeout.toNat - 2 ^ 64 := by
      omega
    rw [hmod]
    omega

theorem match_some {c : Cache} (h : Extended c) {key : CString} {i : Nat}
    (hf : crtx_cache_match_cb_t_strcmp c key = some i) :
    ∃ x < c.next, (c.list.item i).value = .dict x ∧ creationOf c i = some (wordOf ((c.heap x).item 2)) := by
  obtain ⟨-, hkey⟩ := match_strcmp_some h.wf hf
  rcases h.wf.slots h.simple i with hfree | ⟨-, x, hx, hv⟩
  · rw [hfree.2.1] at hkey
    cases hkey
  · have hshape : Shaped false (c.heap x) := h.ext ▸ h.wf.shaped x hx
    refine ⟨x, hx, hv, ?_⟩
    rw [creationOf, field_of_value hv, hshape.get_item]
    rfl

theorem expired_eq {c : Cache} (h : Extended c) {i : Nat} {creation : BitVec 64}
    (hc : creationOf c i = some creation) (now : BitVec 64) :
    expired c now (c.list.item i) = true ↔ creation + c.timeout < now := by
  obtain ⟨p, hp, rfl⟩ := Option.map_eq_some_iff.mp hc
  have hpos : 0 < c.timeout := by
    rw [BitVec.lt_def]
    exact h.timeout
  simp only [expired, hp, Option.any_some, decide_eq_true_eq]
  exact and_iff_right hpos

theorem handler_found {c : Cache} (h : Extended c) (rx : Regex) {key : Key} {i : Nat} {creation : BitVec 64}
    (hf : crtx_cache_match_cb_t_strcmp c key.string = some i) (hc : creationOf c i = some creation) (now time : BitVec 64) :
    ∃ c' session response ret, crtx_cache_task_handler rx c (some key) now time .zero = some (c', session, response, ret) ∧
      (session.hit = false ↔ creation + c.timeout < now) ∧ (session.hit = false → response = .zero ∧ ret = 1) := by
  obtain ⟨x, hx, hv, -⟩ := match_some h hf
  have hexpired := expired_eq h hc now
  unfold crtx_cache_task_handler
  dsimp only
  rw [matchEvent_eq h.wf, hf]
  dsimp only [Option.bind_eq_bind, Option.bind_some]
  rw [if_neg (by simp [h.simple, h.ext])]
  split
  · rename_i hold
    rw [field_of_value hv, (h.wf.shaped x hx).get_key]
    exact ⟨_, _, _, _, rfl, iff_of_true rfl (hexpired.mp hold), fun _ => ⟨rfl, rfl⟩⟩
  · rename_i hnew
    have hd : dictOf (c.list.item i) = some x := by
      unfold dictOf
      rw [hv]
    rw [hd]
    exact ⟨_, _, _, _, rfl, iff_of_false (by simp) (mt hexpired.mpr hnew), by simp⟩

theorem matches_iff {c : Cache} (h : Extended c) (rx : Regex) {key : CString} {i : Nat} {creation : BitVec 64}
    (hf : crtx_cache_match_cb_t_strcmp c key = some i) (hc : creationOf c i = some creation) {now creation' : BitVec 64} :
    Matches rx c key now creation' ↔ creation' = creation ∧ creation.toNat ≤ now.toNat := by
  have hm := matchEvent_eq h.wf rx key
  rw [hf] at hm
  constructor
  · rintro ⟨⟨c', j, hfound, hc'⟩, hle⟩
    rw [hm] at hfound
    cases hfound
    obtain rfl := Option.some.inj (hc'.symm.trans hc)
    exact ⟨rfl, hle⟩
  · rintro ⟨rfl, hle⟩
    exact ⟨⟨c, i, hm, hc⟩, hle⟩

theorem not_matches {c : Cache} (h : Extended c) (rx : Regex) {key : CString}
    (hf : crtx_cache_match_cb_t_strcmp c key = none) (now creation : BitVec 64) :
    ¬ Matches rx c key now creation := by
  rintro ⟨⟨c', j, hfound, -⟩, -⟩
  rw [matchEvent_eq h.wf, hf] at hfound
  cases hfound

theorem treats_iff {c : Cache} (h : Extended c) (rx : Regex) (a : Hits.Action) : Treats rx c a ↔ InTime rx c a := by
  rcases a with ⟨_ | key, answer, now, time, creation⟩ | key
  · exact Iff.rfl
  · simp only [Treats, InTime]
    cases hf : crtx_cache_match_cb_t_strcmp c key.string with
    | none =>
      obtain ⟨c', session, response, ret, hh, -⟩ := handler_spec h.wf rx (some key) now time .zero
      have hno := not_matches h rx hf now
      exact iff_of_true ⟨c', session, response, ret, hh, fun cr hcr => absurd hcr (hno cr)⟩
        fun cr hcr => absurd hcr (hno cr)
    | some i =>
      obtain ⟨x, -, -, hc⟩ := match_some h hf
      generalize wordOf ((c.heap x).item 2) = made at hc
      obtain ⟨c', session, response, ret, hh, hhit, hresponse⟩ := handler_found h rx hf hc now time
      simp only [matches_iff h rx hf hc]
      constructor
      · rintro ⟨c₁, session₁, response₁, ret₁, hh₁, htreats⟩ _ ⟨rfl, hle⟩
        rw [hh] at hh₁
        cases hh₁
        exact (lt_sum_iff hle).mp (hhit.symm.trans (htreats _ ⟨rfl, hle⟩).1)
      · intro hin
        refine ⟨c', session, response, ret, hh, ?_⟩
        rintro _ ⟨rfl, hle⟩
        have hiff : session.hit = false ↔ Expired c _ now := hhit.trans ((lt_sum_iff hle).mpr (hin _ ⟨rfl, hle⟩))
        exact ⟨hiff, fun hexpired => hresponse (hiff.mpr hexpired)⟩
  · exact Iff.rfl

/-! ## Runs -/

theorem extended_new {timeout : BitVec 64} (ht : 0 < timeout.toNat) : Extended (Cache.new false false timeout) :=
  ⟨wf_new false false timeout, rfl, rfl, ht⟩

/-- In every run, each event takes the matching entry for what it is, exactly if no sum of a creation and the timeout
wraps that an event looks at. -/
theorem cache_expiry_iff (rx : Regex) (keepGoing : Bool) {timeout : BitVec 64} (ht : 0 < timeout.toNat)
    (as : List Hits.Action) :
    Meets (step rx keepGoing) (Treats rx) as (Cache.new false false timeout) ↔
      Meets (step rx keepGoing) (InTime rx) as (Cache.new false false timeout) :=
  meets_congr (fun _ a h => treats_iff h rx a) (fun _ _ _ h _ _ hs => step_extended h hs) as _ (extended_new ht)
    (meets_true _ as _)

/-- An event at this time, with or without an answer from the task behind the cache. -/
def eventAt (t : BitVec 64) (answer : Option Item) : Hits.Action := .event (some aKey) answer t t t

theorem cache_expiry_iff_five :
    0 < (10 : BitVec 64).toNat ∧
      (Meets (step noRegex false) (Treats noRegex) [eventAt 5 (some aString), eventAt 16 none] (Cache.new false false 10) ↔
        Meets (step noRegex false) (InTime noRegex) [eventAt 5 (some aString), eventAt 16 none]
          (Cache.new false false 10)) :=
  ⟨by decide, cache_expiry_iff noRegex false (by decide) _⟩

/-- With the longest timeout, what was made at 1 has expired at 1. -/
theorem cache_expires_at_once :
    ¬ ∀ (rx : Regex) (keepGoing : Bool) (timeout : BitVec 64), 0 < timeout.toNat → ∀ as,
      Meets (step rx keepGoing) (Treats rx) as (Cache.new false false timeout) := by
  intro h
  have hmeets := h noRegex false (-1) (by decide) [eventAt 1 (some aString), eventAt 1 none]
  obtain ⟨c, hstep, hmatch, hmade, htimeout, hhit⟩ : ∃ c,
      step noRegex false (Cache.new false false (-1)) (eventAt 1 (some aString)) = some c ∧
      matchEvent noRegex c keyA = some (c, some 0) ∧ creationOf c 0 = some 1 ∧ c.timeout = -1 ∧
      (crtx_cache_task_handler noRegex c (some aKey) 1 1 .zero).map (fun r => r.2.1.hit) = some false := by
    refine ⟨_, rfl, ?_, ?_, ?_, ?_⟩ <;> rfl
  rw [meets_cons hstep] at hmeets
  obtain ⟨c', session, response, ret, hh, htreats⟩ := hmeets.2.1
  rw [hh] at hhit
  have hiff := (htreats 1 ⟨⟨c, 0, hmatch, hmade⟩, Nat.le_refl _⟩).1
  have hexpired := hiff.mp (Option.some.inj hhit)
  rw [Expired, htimeout] at hexpired
  exact absurd hexpired (by decide)

end Libcortex.Caches.Expiry
