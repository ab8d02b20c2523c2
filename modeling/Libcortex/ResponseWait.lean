import Libcortex.Lifetime

/-!
# Waiting for the response to an event

`crtx_wait_on_event` sleeps until `refs_before_response` is zero. Every call of `crtx_add_event` adds one to it, and
whoever drops the entry takes one away. An event that is invalidated is not waited for any more, whatever its entries.
-/

open Libcortex.Lib Libcortex.Dispatch Libcortex.Lifetime

namespace Libcortex.ResponseWait

/-- What the loop of `crtx_wait_on_event` comes to with the event as it is: `none` if the thread sleeps. -/
def crtx_wait_on_event (ev : Event) : Option Bool :=
  if 0 < ev.refs_before_response then none else some ev.error

/-! ## One event -/

/-- The event is still to be processed `n` times. -/
def Awaits (ev : Event) (n : Nat) : Prop := ev.refs_before_response.toNat = if ev.error then 0 else n

theorem Awaits.wait {ev : Event} {n : Nat} (h : Awaits ev n) :
    crtx_wait_on_event ev = if ev.error then some true else if 0 < n then none else some false := by
  unfold crtx_wait_on_event
  have hlt : 0 < ev.refs_before_response ↔ 0 < ev.refs_before_response.toNat := by simp [BitVec.lt_def]
  simp only [hlt, Awaits] at h ⊢
  cases herr : ev.error <;> simp [herr] at h ⊢ <;> simp [h]

theorem Awaits.reference_response {ev : Event} {n : Nat} (h : Awaits ev n) (hlt : n < 255) :
    Awaits (crtx_reference_event_response ev) (n + 1) := by
  unfold crtx_reference_event_response
  cases herr : ev.error
  · have hrefs : ev.refs_before_response.toNat = n := by simpa [Awaits, herr] using h
    simp [Awaits, BitVec.toNat_add]
    omega
  · simpa [Awaits, herr] using h

theorem Awaits.dereference_response {ev : Event} {n : Nat} (h : Awaits ev (n + 1)) :
    Awaits (crtx_dereference_event_response ev) n := by
  unfold crtx_dereference_event_response
  have hlt : 0 < ev.refs_before_response ↔ 0 < ev.refs_before_response.toNat := by simp [BitVec.lt_def]
  cases herr : ev.error
  · have hrefs : ev.refs_before_response.toNat = n + 1 := by simpa [Awaits, herr] using h
    have hpos : 0 < ev.refs_before_response := hlt.mpr (by omega)
    have := ev.refs_before_response.isLt
    rw [if_pos hpos]
    simp [Awaits, BitVec.toNat_sub]
    omega
  · have hrefs : ev.refs_before_response.toNat = 0 := by simpa [Awaits, herr] using h
    have hzero : ¬ 0 < ev.refs_before_response := by
      rw [hlt]
      omega
    rw [if_neg hzero]
    simp [Awaits, herr, hrefs]

/-- Once an event has an error, there is nothing to wait for. -/
def Failed (ev : Event) : Prop := ev.error = true ∧ ev.refs_before_response.toNat = 0

theorem Failed.awaits {ev : Event} (h : Failed ev) (n : Nat) : Awaits ev n := by simp [Awaits, h.1, h.2]

theorem invalidate_failed (ev : Event) : Failed (crtx_invalidate_event ev) := ⟨rfl, rfl⟩

theorem Failed.dereference_response {ev : Event} (h : Failed ev) : Failed (crtx_dereference_event_response ev) := by
  have hawaits := (h.awaits 1).dereference_response
  obtain ⟨r, hr⟩ := dereference_response_eq ev
  rw [hr] at hawaits ⊢
  exact ⟨h.1, by simpa [Awaits, h.1] using hawaits⟩

theorem dereference_release_cases (ev : Event) :
    Failed (crtx_dereference_event_release ev) ∨
    (crtx_dereference_event_release ev).error = ev.error ∧
      (crtx_dereference_event_release ev).refs_before_response = ev.refs_before_response := by
  unfold crtx_dereference_event_release
  have hfree : ∀ ev' : Event, ev'.error = ev.error → ev'.refs_before_response = ev.refs_before_response →
      Failed (crtx_free_event ev').1 ∨
      (crtx_free_event ev').1.error = ev.error ∧
        (crtx_free_event ev').1.refs_before_response = ev.refs_before_response := by
    intro ev' h1 h2
    unfold crtx_free_event
    dsimp only
    split
    · exact .inr ⟨h1, h2⟩
    · split <;> exact .inl ⟨rfl, rfl⟩
  dsimp only
  split <;> split
  · exact hfree _ rfl rfl
  · exact .inr ⟨rfl, rfl⟩
  · exact hfree _ rfl rfl
  · exact .inr ⟨rfl, rfl⟩

theorem Awaits.dereference_release {ev : Event} {n : Nat} (h : Awaits ev n) :
    Awaits (crtx_dereference_event_release ev) n := by
  rcases dereference_release_cases ev with hfailed | ⟨herr, hrefs⟩
  · exact hfailed.awaits n
  · simpa [Awaits, herr, hrefs] using h

theorem Failed.dereference_release {ev : Event} (h : Failed ev) : Failed (crtx_dereference_event_release ev) := by
  rcases dereference_release_cases ev with hfailed | ⟨herr, hrefs⟩
  · exact hfailed
  · exact ⟨herr ▸ h.1, hrefs ▸ h.2⟩

/-! ## Flushing -/

theorem flushEvent_other (events : EventId → Event) {q : Entry} {e : EventId} (h : q.event ≠ e) :
    flushEvent events q e = events e := Function.update_of_ne h.symm ..

theorem flushEvent_self (events : EventId → Event) (q : Entry) : Failed (flushEvent events q q.event) := by
  unfold flushEvent
  rw [Function.update_self]
  exact (invalidate_failed _).dereference_response.dereference_release

theorem flush_cases (l : List Entry) (events : EventId → Event) (e : EventId) :
    (l.foldl flushEvent events e = events e ∧ ∀ q ∈ l, q.event ≠ e) ∨ Failed (l.foldl flushEvent events e) := by
  induction l generalizing events with
  | nil => exact .inl ⟨rfl, by simp⟩
  | cons q l ih =>
    rw [List.foldl_cons]
    rcases ih (flushEvent events q) with ⟨heq, hl⟩ | hfailed
    · by_cases hq : q.event = e
      · right
        rw [heq, ← hq]
        exact flushEvent_self events q
      · left
        rw [heq, flushEvent_other events hq]
        exact ⟨rfl, List.forall_mem_cons.mpr ⟨hq, hl⟩⟩
    · exact .inr hfailed

/-! ## The whole system -/

/-- How often the event is still to be processed: the calls that have not queued it yet, and the entries that nobody
has dropped. -/
def unprocessed (s : Sys) (e : EventId) : Nat :=
  s.adding.countP (fun p => p.2 = e) + s.held.countP (fun p => p.2.event = e)

def AllAwait (s : Sys) : Prop := ∀ e, Awaits (s.root.events e) (unprocessed s e)

/-- The event that `crtx_add_event` is called for. -/
def adds? : Action → Option EventId
  | .addBegin _ e => some e
  | _ => none

/-- An event is not handed to 256 graphs at once. -/
def FewGraphs (s : Sys) (a : Action) : Prop := FlushesIdle s a ∧ ∀ e ∈ adds? a, unprocessed s e < 255

instance (s : Sys) (a : Action) : Decidable (FewGraphs s a) := inferInstanceAs (Decidable (_ ∧ ∀ e ∈ adds? a, _))

theorem init_allAwait (c : Setup) : AllAwait (init c) := fun _ => rfl

theorem AllAwait.frame {s s' : Sys} (h : AllAwait s) (hev : s'.root.events = s.root.events)
    (ha : s'.adding = s.adding) (hh : s'.held = s.held) : AllAwait s' := by
  intro e
  unfold unprocessed
  rw [hev, ha, hh]
  exact h e

theorem AllAwait.update {s s' : Sys} (h : AllAwait s) (e : EventId)
    (hself : Awaits (s'.root.events e) (unprocessed s' e))
    (hev : ∀ e', e' ≠ e → s'.root.events e' = s.root.events e')
    (hn : ∀ e', e' ≠ e → unprocessed s' e' = unprocessed s e') : AllAwait s' := by
  intro e'
  by_cases heq : e' = e
  · subst heq
    exact hself
  · rw [hev e' heq, hn e' heq]
    exact h e'

theorem addBegin_awaits {s : Sys} {g : GraphId} {e : EventId} (h : AllAwait s) (hlt : unprocessed s e < 255) :
    AllAwait (apply s (.addBegin g e)) := by
  apply h.update e
  · have hn : unprocessed (apply s (.addBegin g e)) e = unprocessed s e + 1 := by
      simp [unprocessed, apply]
      omega
    have hawaits : Awaits (crtx_reference_event_release (s.root.events e)) (unprocessed s e) := h e
    rw [hn]
    simpa [apply, addReference] using hawaits.reference_response hlt
  · intro e' hne
    exact Root.setEvent_other _ hne _
  · intro e' hne
    simp [unprocessed, apply, hne.symm]

theorem queueEntry_awaits {s : Sys} {g : GraphId} {e : EventId} (h : AllAwait s) (hen : (g, e) ∈ s.adding)
    (ht : (s.root.graphs g).tasks ≠ []) : AllAwait (queueEntry s g e) := by
  have hn : ∀ e', unprocessed (queueEntry s g e) e' = unprocessed s e' := by
    intro e'
    have := countP_erase hen (fun p => p.2 = e')
    simp only [unprocessed, queueEntry, List.countP_cons]
    simp only at this
    omega
  obtain ⟨o, ho⟩ := setOrigin_eq s.root g e
  have hev : (queueEntry s g e).root.events = (s.root.setEvent e { s.root.events e with origin := o }).events := by
    simp only [queueEntry, addQueue, ht, if_false, appendEntry, Root.setGraph_events, ho]
  apply h.update e
  · rw [hn, hev, Root.setEvent_self]
    exact h e
  · intro e' hne
    rw [hev]
    exact Root.setEvent_other _ hne _
  · intro e' _
    exact hn e'

theorem dropped_awaits {s s' : Sys} {e : EventId} (h : AllAwait s) (hroot : s'.root = dropReference s.root e)
    (hself : unprocessed s e = unprocessed s' e + 1) (hother : ∀ e', e' ≠ e → unprocessed s' e' = unprocessed s e') :
    AllAwait s' := by
  apply h.update e
  · have hawaits := h e
    rw [hself] at hawaits
    rw [hroot, dropReference, Root.setEvent_self]
    exact hawaits.dereference_response.dereference_release
  · intro e' hne
    rw [hroot]
    exact Root.setEvent_other _ hne _
  · exact hother

theorem dropUnqueued_awaits {s : Sys} {g : GraphId} {e : EventId} (h : AllAwait s) (hen : (g, e) ∈ s.adding)
    (ht : (s.root.graphs g).tasks = []) : AllAwait (dropUnqueued s g e) := by
  have hn : ∀ e', unprocessed s e' = unprocessed (dropUnqueued s g e) e' + if e = e' then 1 else 0 := by
    intro e'
    have := countP_erase hen (fun p => p.2 = e')
    simp only [decide_eq_true_eq] at this
    simp only [unprocessed, dropUnqueued]
    omega
  apply dropped_awaits h (e := e)
  · simp only [dropUnqueued, addQueue, ht, if_true]
  · rw [hn, if_pos rfl]
  · intro e' hne
    rw [hn e', if_neg hne.symm, Nat.add_zero]

theorem drop_awaits {s : Sys} {g : GraphId} {q : Entry} (h : AllAwait s) (hheld : (g, q) ∈ s.held) :
    AllAwait (apply s (.drop g q)) := by
  have hn : ∀ e', unprocessed s e' = unprocessed (apply s (.drop g q)) e' + if q.event = e' then 1 else 0 := by
    intro e'
    have := countP_erase hheld (fun p => p.2.event = e')
    simp only [decide_eq_true_eq] at this
    simp only [unprocessed, apply]
    omega
  apply dropped_awaits h (e := q.event) rfl
  · rw [hn, if_pos rfl]
  · intro e' hne
    rw [hn e', if_neg hne.symm, Nat.add_zero]

theorem claimEntry_awaits {s : Sys} (h : AllAwait s) (g : GraphId) : AllAwait (claimEntry s g) := by
  unfold claimEntry
  cases hq : nextEntry? s.root g with
  | none => simpa only [claim_none hq] using h
  | some q =>
    simp only [claim_some hq]
    exact h.frame rfl rfl rfl

theorem flushOne_awaits {s : Sys} (h : AllAwait s) (hi : Inv s) (g : GraphId) : AllAwait (flushOne s g) := by
  intro e
  rcases flush_cases ((s.root.graphs g).equeue ++ (s.root.graphs g).claimed) s.root.events e with ⟨heq, hnone⟩ | hfailed
  · have hheld : ∀ p ∈ s.held, p.2.event = e → p.1 ≠ g := by
      rintro ⟨g', q⟩ hp he rfl
      refine hnone q ?_ he
      rcases (hi.held g' q).mp hp with hq | hq
      · exact List.mem_append_left _ hq
      · exact List.mem_append_right _ ((hi.claimed g' q).mpr (.inl hq))
    have hn : unprocessed (flushOne s g) e = unprocessed s e := by
      simp only [unprocessed, flushOne, List.countP_filter, Nat.add_left_cancel_iff]
      refine List.countP_congr fun p hp => ?_
      have := hheld p hp
      simpa using this
    rw [hn]
    change Awaits (List.foldl flushEvent s.root.events _ e) _
    rw [heq]
    exact h e
  · exact hfailed.awaits _

theorem step_awaits (s : Sys) (a : Action) (h : Inv s ∧ AllAwait s) (hok : FewGraphs s a) (hen : enabled s a) :
    Inv (apply s a) ∧ AllAwait (apply s a) := by
  obtain ⟨hi, hw⟩ := h
  refine ⟨step_inv s a hi hok.1 hen, ?_⟩
  cases a with
  | reference e =>
    refine hw.update e ?_ (fun e' hne => Root.setEvent_other _ hne _) fun _ _ => rfl
    rw [show (apply s (.reference e)).root.events e = _ from Root.setEvent_self ..]
    exact hw e
  | dereference e =>
    refine hw.update e ?_ (fun e' hne => Root.setEvent_other _ hne _) fun _ _ => rfl
    rw [show (apply s (.dereference e)).root.events e = _ from Root.setEvent_self ..]
    exact (hw e).dereference_release
  | invalidate e =>
    refine hw.update e ?_ (fun e' hne => Root.setEvent_other _ hne _) fun _ _ => rfl
    simpa [apply] using (invalidate_failed (s.root.events e)).awaits _
  | addBegin g e => exact addBegin_awaits hw (hok.2 e rfl)
  | addQueue g e =>
    unfold apply
    dsimp only
    split
    · rename_i ht
      exact dropUnqueued_awaits hw hen.1 ht
    · rename_i ht
      exact queueEntry_awaits hw hen.1 ht
  | addTrigger g => exact hw.frame (addTrigger_events s.root g) rfl rfl
  | claim g => exact claimEntry_awaits hw g
  | drop g q => exact drop_awaits hw ((hi.held g q).mpr (Or.inr hen))
  | finish g q => exact hw.frame rfl rfl rfl
  | readPipe =>
    obtain ⟨pipe, draining, hr⟩ := apply_readPipe s
    rw [hr]
    exact hw.frame rfl rfl rfl
  | poll g =>
    unfold apply
    dsimp only
    split
    · exact hw.frame rfl rfl rfl
    · exact claimEntry_awaits hw g
  | flushBegin => exact hw.frame rfl rfl rfl
  | flushNext i =>
    unfold apply
    dsimp only
    have hi' : Inv { s with flushing := s.flushing.erase i } := hi.frame rfl rfl rfl rfl rfl
    have hw' : AllAwait { s with flushing := s.flushing.erase i } := hw.frame rfl rfl rfl
    split
    · exact hw'
    · exact hw'.frame rfl rfl rfl
    · rename_i g _
      exact (flushOne_awaits hw' hi' g).frame rfl rfl rfl

/-! ## Waking up -/

/-- Whether `crtx_dereference_event_response` broadcasts `response_cond`. -/
def ResponseBroadcasts (ev : Event) : Prop := (crtx_dereference_event_response ev).refs_before_response = 0

/-- Whether `crtx_dereference_event_release` does: `crtx_free_event` invalidates the event if nobody else has begun to
release it, and that broadcasts. -/
def ReleaseBroadcasts (ev : Event) : Prop :=
  (if 0 < ev.refs_before_release then ev.refs_before_release - 1 else ev.refs_before_release) = 0 ∧
    ev.release_in_progress = false

def DropBroadcasts (ev : Event) : Prop :=
  ResponseBroadcasts ev ∨ ReleaseBroadcasts (crtx_dereference_event_response ev)

/-- The step broadcasts the `response_cond` of the event. -/
def Broadcasts (s : Sys) (e : EventId) : Action → Prop
  | .dereference e' => e' = e ∧ ReleaseBroadcasts (s.root.events e)
  | .invalidate e' => e' = e
  | .addQueue g e' => e' = e ∧ (s.root.graphs g).tasks = [] ∧ DropBroadcasts (s.root.events e)
  | .drop _ q => q.event = e ∧ DropBroadcasts (s.root.events e)
  | .flushNext i =>
    ∃ g, s.root.registry[i]? = some (some g) ∧
      ∃ q ∈ (s.root.graphs g).equeue ++ (s.root.graphs g).claimed, q.event = e
  | _ => False

theorem wait_eq_none {ev : Event} : crtx_wait_on_event ev = none ↔ ev.refs_before_response ≠ 0 := by
  unfold crtx_wait_on_event
  split
  · rename_i hpos
    exact iff_of_true rfl ((BitVec.pos_iff_ne_zero _).mp hpos)
  · rename_i hpos
    exact iff_of_false nofun fun hne => hpos ((BitVec.pos_iff_ne_zero _).mpr hne)

theorem release_silent {ev : Event} (h : ¬ ReleaseBroadcasts ev) :
    (crtx_dereference_event_release ev).refs_before_response = ev.refs_before_response := by
  unfold ReleaseBroadcasts at h
  unfold crtx_dereference_event_release crtx_free_event
  dsimp only
  split at h
  · rename_i hpos
    rw [if_pos hpos]
    split
    · rename_i hzero
      rw [if_pos (Bool.eq_true_of_not_eq_false fun hr => h ⟨hzero, hr⟩)]
    · rfl
  · rename_i hpos
    rw [if_neg hpos]
    split
    · rename_i hzero
      rw [if_pos (Bool.eq_true_of_not_eq_false fun hr => h ⟨hzero, hr⟩)]
    · rfl

theorem drop_silent {ev : Event} (h : ¬ DropBroadcasts ev) :
    crtx_wait_on_event (crtx_dereference_event_release (crtx_dereference_event_response ev)) = none := by
  obtain ⟨hresponse, hrelease⟩ := not_or.mp h
  rw [wait_eq_none, release_silent hrelease]
  exact hresponse

theorem flush_other {l : List Entry} (events : EventId → Event) {e : EventId} (h : ∀ q ∈ l, q.event ≠ e) :
    l.foldl flushEvent events e = events e := by
  induction l generalizing events with
  | nil => rfl
  | cons q l ih =>
    obtain ⟨hq, hl⟩ := List.forall_mem_cons.mp h
    rw [List.foldl_cons, ih _ hl, flushEvent_other events hq]

theorem claimEntry_events (s : Sys) (g : GraphId) : (claimEntry s g).root.events = s.root.events := by
  unfold claimEntry
  cases hq : nextEntry? s.root g with
  | none => simp only [claim_none hq]
  | some q =>
    simp only [claim_some hq]
    rfl

/-- A step that ends a wait wakes those who sleep. -/
theorem step_wakes {s : Sys} {a : Action} {e : EventId} (h : Inv s ∧ AllAwait s) (hok : FewGraphs s a)
    (hen : enabled s a) (hs : crtx_wait_on_event (s.root.events e) = none)
    (hw : crtx_wait_on_event ((apply s a).root.events e) ≠ none) : Broadcasts s e a := by
  by_contra hnot
  apply hw
  have hother : ∀ {e'} ev, (e' = e → crtx_wait_on_event ev = none) →
      crtx_wait_on_event ((s.root.setEvent e' ev).events e) = none := by
    intro e' ev hev
    by_cases he : e' = e
    · subst he
      rw [Root.setEvent_self]
      exact hev rfl
    · rw [Root.setEvent_other _ (Ne.symm he)]
      exact hs
  cases a with
  | reference e' =>
    refine hother _ ?_
    rintro rfl
    exact hs
  | dereference e' =>
    refine hother _ ?_
    rintro rfl
    rw [wait_eq_none, release_silent fun hb => hnot ⟨rfl, hb⟩]
    exact wait_eq_none.mp hs
  | invalidate e' => exact hother _ fun he => absurd he hnot
  | addBegin g e' =>
    refine hother _ ?_
    rintro rfl
    have herr : (s.root.events e').error = false := by
      have hwait := (h.2 e').wait
      cases herr : (s.root.events e').error
      · rfl
      · simp [hs, herr] at hwait
    have hawaits : Awaits (crtx_reference_event_release (s.root.events e')) (unprocessed s e') := h.2 e'
    rw [(hawaits.reference_response (hok.2 e' rfl)).wait]
    simp [crtx_reference_event_response, crtx_reference_event_release, herr]
  | addQueue g e' =>
    unfold apply
    dsimp only
    split
    · rename_i ht
      simp only [dropUnqueued, addQueue, ht, if_true]
      exact hother _ fun he => by subst he; exact drop_silent fun hb => hnot ⟨rfl, ht, hb⟩
    · rename_i ht
      obtain ⟨o, ho⟩ := setOrigin_eq s.root g e'
      simp only [queueEntry, addQueue, ht, if_false, appendEntry, Root.setGraph_events, ho]
      exact hother _ fun he => by subst he; exact hs
  | addTrigger g => simpa [apply] using hs
  | claim g => exact claimEntry_events s g ▸ hs
  | drop g q => exact hother _ fun he => by subst he; exact drop_silent fun hb => hnot ⟨rfl, hb⟩
  | finish g q => exact hs
  | readPipe =>
    obtain ⟨pipe, draining, hr⟩ := apply_readPipe s
    rw [hr]
    exact hs
  | poll g =>
    unfold apply
    dsimp only
    split
    · exact hs
    · exact claimEntry_events s g ▸ hs
  | flushBegin => exact hs
  | flushNext i =>
    unfold apply
    dsimp only
    split
    · exact hs
    · exact hs
    · rename_i g hg
      have hnone : ∀ q ∈ (s.root.graphs g).equeue ++ (s.root.graphs g).claimed, q.event ≠ e :=
        fun q hq he => hnot ⟨g, hg, q, hq, he⟩
      change crtx_wait_on_event (List.foldl flushEvent s.root.events _ e) = none
      rw [flush_other _ hnone]
      exact hs

/-- Nobody sleeps on: the step after which a thread that waits for the event need not wait any more broadcasts. -/
theorem sleepers_woken (c : Setup) (as : List Action) (s s' : Sys) (a : Action) (e : EventId)
    (hm : Meets step FewGraphs as (init c)) (hr : run step as (init c) = some s) (hok : FewGraphs s a)
    (hs : step s a = some s') (hsleep : crtx_wait_on_event (s.root.events e) = none)
    (hwake : crtx_wait_on_event (s'.root.events e) ≠ none) : Broadcasts s e a := by
  have h := guarded_keeps step_awaits as (init c) s ⟨init_inv c, init_allAwait c⟩ hm hr
  obtain ⟨hen, rfl⟩ := guarded_eq_some.mp hs
  exact step_wakes h hok hen hsleep hwake

/-! ## The result -/

/-- Somebody has the event in `crtx_add_event`, or it is in a queue, or a task may still see it. -/
def Unprocessed (s : Sys) (e : EventId) : Prop :=
  (∃ g, (g, e) ∈ s.adding) ∨ (∃ g, ∃ q ∈ (s.root.graphs g).equeue, q.event = e) ∨
    ∃ g, ∃ q ∈ (s.root.graphs g).claimed, (g, q) ∉ s.dropped ∧ q.event = e

theorem unprocessed_pos {s : Sys} (hi : Inv s) (e : EventId) : 0 < unprocessed s e ↔ Unprocessed s e := by
  have hheld : (∃ p ∈ s.held, p.2.event = e) ↔ (∃ g, ∃ q ∈ (s.root.graphs g).equeue, q.event = e) ∨
      ∃ g, ∃ q ∈ (s.root.graphs g).claimed, (g, q) ∉ s.dropped ∧ q.event = e := by
    constructor
    · rintro ⟨⟨g, q⟩, hp, he⟩
      rcases (hi.held g q).mp hp with hq | hq
      · exact .inl ⟨g, q, hq, he⟩
      · exact .inr ⟨g, q, (hi.claimed g q).mpr (.inl hq), hi.not_dropped hp, he⟩
    · rintro (⟨g, q, hq, he⟩ | ⟨g, q, hq, hnd, he⟩)
      · exact ⟨(g, q), (hi.held g q).mpr (.inl hq), he⟩
      · exact ⟨(g, q), (hi.held g q).mpr (.inr (((hi.claimed g q).mp hq).resolve_right hnd)), he⟩
  unfold Unprocessed unprocessed
  rw [← hheld, Nat.add_pos_iff_pos_or_pos, List.countP_pos_iff, List.countP_pos_iff]
  refine or_congr ⟨?_, ?_⟩ (by simp)
  · rintro ⟨⟨g, e'⟩, hp, he⟩
    obtain rfl : e' = e := by simpa using he
    exact ⟨g, hp⟩
  · rintro ⟨g, hp⟩
    exact ⟨(g, e), hp, by simp⟩

/-- Whatever the threads do, a wait for an event that has no error ends exactly when it has been processed as often as
it was added, and with 0. With an error it ends at once. -/
theorem wait_until_processed (c : Setup) (as : List Action) (s : Sys) (hm : Meets step FewGraphs as (init c))
    (hr : run step as (init c) = some s) (e : EventId) :
    (crtx_wait_on_event (s.root.events e) = some true ↔ (s.root.events e).error = true) ∧
    (crtx_wait_on_event (s.root.events e) = some false ↔ (s.root.events e).error = false ∧ ¬ Unprocessed s e) := by
  obtain ⟨hi, hw⟩ := guarded_keeps step_awaits as (init c) s ⟨init_inv c, init_allAwait c⟩ hm hr
  rw [(hw e).wait, ← unprocessed_pos hi e]
  cases (s.root.events e).error
  · by_cases hpos : 0 < unprocessed s e <;> simp [hpos]
  · simp

/-- An event in two graphs, of which the first has processed it. The caller has a reference of its own. -/
def oneOfTwo : List Action :=
  [.reference 7, .addBegin 0 7, .addQueue 0 7, .addBegin 1 7, .addQueue 1 7, .claim 0, .drop 0 ⟨0, 7⟩]

theorem wait_until_processed_two : ∃ s s', run step oneOfTwo (init twoGraphs) = some s ∧ Unprocessed s 7 ∧
    crtx_wait_on_event (s.root.events 7) = none ∧ run step [.claim 1, .drop 1 ⟨1, 7⟩] s = some s' ∧
    crtx_wait_on_event (s'.root.events 7) = some false ∧ ¬ Unprocessed s' 7 := by
  have h' := wait_until_processed twoGraphs (oneOfTwo ++ [.claim 1, .drop 1 ⟨1, 7⟩]) _ (by decide) rfl 7
  refine ⟨_, _, rfl, ?_, rfl, rfl, rfl, (h'.2.mp rfl).2⟩
  exact .inr (.inl ⟨1, ⟨1, 7⟩, by decide, rfl⟩)

end Libcortex.ResponseWait
