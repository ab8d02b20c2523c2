import Libcortex.NestedLoop

/-!
# The flags of a callback

The entry of an element is read once, but its flags are read again for every callback. If the
handler of one callback enters the event loop, and `epoll_wait` writes to the array, the callbacks behind it
are called with the flags of another entry.
-/

open Libcortex.Lib
open Libcortex.Epoll (EPOLLIN EPOLLOUT CRTX_EVLOOP_WRITE crtx_epoll_flags2crtx_event_flags)

namespace Libcortex.EpollLoop

/-! ## What has to hold -/

/-- The flags are those that the kernel reported for the entry. -/
structure OwnFlags (r : Ready) (i : Invocation) : Prop where
  reported : r.reported i.taken.batch i.taken.idx = some i.taken.event
  flags : i.triggered_flags = crtx_epoll_flags2crtx_event_flags i.taken.event.events

/-- No call of `epoll_wait` since then wrote to the place of the element. -/
def Ready.Untouched (r : Ready) (t : Taken) : Prop := ∀ evs ∈ r.returned.drop (t.batch + 1), evs.length ≤ t.idx

instance (r : Ready) (t : Taken) : Decidable (r.Untouched t) := inferInstanceAs (Decidable (∀ _ ∈ _, _))

/-- The element and the callback that is called next, if any. -/
def callsNext (s : State) : Action → Option (Taken × CallbackId)
  | .advance =>
    match s.stack.head?.map Level.pc with
    | some (.walk t error (some c)) => if called s.tables error c then some (t, c) else none
    | _ => none
  | _ => none

/-- Where a callback is called, the element is still in the array. -/
def InPlace (s : State) (a : Action) : Prop := ∀ t c, callsNext s a = some (t, c) → s.ready.Untouched t

instance (s : State) (a : Action) : Decidable (InPlace s a) :=
  match h : callsNext s a with
  | none => .isTrue fun t c hc => by rw [h] at hc; cases hc
  | some (t, c) =>
    decidable_of_iff (s.ready.Untouched t)
      ⟨fun hu t' c' hc => by rw [h] at hc; cases hc; exact hu, fun hp => hp t c h⟩

/-! ## What a step does -/

/-- The element that a call is dispatching. -/
def Level.element (lv : Level) : Option Taken :=
  match lv.pc with
  | .walk t _ _ | .inCallback t _ _ => some t
  | _ => none

def State.elements (s : State) : List Taken := s.stack.filterMap Level.element

/-- A step takes an element, waits for new ones, calls a callback, or does none of that. -/
inductive Effect (s s' : State) (a : Action) : Prop where
  | none (ready : s'.ready = s.ready) (invoked : s'.invoked = s.invoked) (elements : s'.elements ⊆ s.elements)
  | take (hlt : s.ready.cur_event_idx < s.ready.n_rdy_events) (ready : s'.ready = s.ready.take)
    (invoked : s'.invoked = s.invoked) (elements : s'.elements ⊆ s.ready.next :: s.elements)
  | wait (evs : List EpollEvent) (ready : s'.ready = s.ready.epoll_wait evs) (invoked : s'.invoked = s.invoked)
    (elements : s'.elements ⊆ s.elements)
  | call (t : Taken) (c : CallbackId) (hnext : callsNext s a = some (t, c)) (ht : t ∈ s.elements)
    (ready : s'.ready = s.ready) (invoked : s'.invoked = (invoke s t c).invoked) (elements : s'.elements ⊆ s.elements)

theorem elements_goto {lv lv' : Level} (below : List Level) (h : lv'.element = none ∨ lv'.element = lv.element) :
    (lv' :: below).filterMap Level.element ⊆ (lv :: below).filterMap Level.element := by
  intro t ht
  rw [List.filterMap_cons] at ht ⊢
  obtain h | h := h
  · rw [h] at ht
    split
    · exact ht
    · exact List.mem_cons_of_mem _ ht
  · rw [h] at ht
    exact ht

theorem elements_pop (lv : Level) (below : List Level) :
    below.filterMap Level.element ⊆ (lv :: below).filterMap Level.element := by
  intro t ht
  rw [List.filterMap_cons]
  split
  · exact ht
  · exact List.mem_cons_of_mem _ ht

theorem visit_effect {s : State} {lv : Level} {below : List Level} {t : Taken} {error : Bool} {c : CallbackId}
    (hstack : s.stack = lv :: below) (hpc : lv.pc = .walk t error (some c)) :
    Effect s (visit s lv below t error c) .advance := by
  have helement : lv.element = some t := by
    unfold Level.element
    rw [hpc]
  have hsame : ∀ pc, Level.element { lv with pc } = some t →
      ({ lv with pc } :: below).filterMap Level.element ⊆ s.elements := by
    intro pc h
    unfold State.elements
    rw [hstack]
    exact elements_goto below (.inr (h.trans helement.symm))
  have ht : t ∈ s.elements := by
    unfold State.elements
    rw [hstack, List.filterMap_cons, helement]
    exact List.mem_cons_self ..
  have hnext : called s.tables error c = true → callsNext s .advance = some (t, c) := by
    intro hc
    unfold callsNext
    rw [hstack, List.head?_cons, Option.map_some, hpc]
    exact if_pos hc
  obtain ⟨-, hv⟩ | ⟨hc, hv | hv⟩ := visit_cases s lv below t error c
  · rw [hv]
    exact .none rfl rfl (hsame _ rfl)
  · rw [hv]
    exact .call t c (hnext hc) ht rfl rfl (hsame _ rfl)
  · rw [hv]
    exact .call t c (hnext hc) ht rfl rfl (hsame _ rfl)

theorem advance_effect {s s' : State} {lv : Level} {below : List Level} (hstack : s.stack = lv :: below)
    (hs : advance s lv below = some s') : Effect s s' .advance := by
  have hgoto : ∀ lv' : Level, lv'.element = none → (lv' :: below).filterMap Level.element ⊆ s.elements := by
    intro lv' h
    unfold State.elements
    rw [hstack]
    exact elements_goto below (.inl h)
  have hpop : below.filterMap Level.element ⊆ s.elements := by
    unfold State.elements
    rw [hstack]
    exact elements_pop lv below
  unfold advance at hs
  dsimp only at hs
  split at hs
  case h_1 =>
    split at hs <;> cases hs
    · exact .none rfl rfl hpop
    · exact .none rfl rfl (hgoto _ rfl)
  case h_2 =>
    split at hs
    · rename_i hlt
      cases hs
      refine .take hlt rfl rfl ?_
      exact List.cons_subset_cons _ hpop
    · cases hs
      exact .none rfl rfl (hgoto _ rfl)
  case h_3 =>
    cases hs
    exact .none rfl rfl (hgoto _ rfl)
  case h_4 hpc =>
    cases hs
    exact visit_effect hstack hpc
  case h_5 =>
    split at hs
    · cases hs
      exact .none rfl rfl hpop
    · split at hs <;> cases hs
      · exact .none rfl rfl hpop
      · exact .none rfl rfl (hgoto _ rfl)
  all_goals cases hs

theorem step_effect {s s' : State} {a : Action} (hs : step s a = some s') : Effect s s' a := by
  have hgoto : ∀ {lv lv' : Level} {below : List Level}, s.stack = lv :: below →
      lv'.element = none ∨ lv'.element = lv.element → (lv' :: below).filterMap Level.element ⊆ s.elements := by
    intro lv lv' below hstack h
    unfold State.elements
    rw [hstack]
    exact elements_goto below h
  unfold step at hs
  split at hs
  case h_1 onetime =>
    split at hs
    · split at hs <;> cases hs
      · exact .none rfl rfl (List.Subset.refl _)
      · exact .none rfl rfl (List.Subset.refl _)
    · cases hs
  case h_2 lv below hstack => exact advance_effect hstack hs
  case h_3 lv below hstack =>
    unfold handlerReturned at hs
    split at hs
    · rename_i hpc
      cases hs
      refine .none rfl rfl (hgoto hstack (.inr ?_))
      simp only [Level.element, hpc]
    · cases hs
      exact .none rfl rfl (hgoto hstack (.inl rfl))
    · cases hs
  case h_4 c lv below hstack =>
    split at hs <;> cases hs
    have hnone : ∀ b : Bool, Level.element
        { lv with events_processed := true, pc := if b then .inTimeout else .timeouts } = none := by
      intro b
      cases b <;> rfl
    exact .none rfl rfl (hgoto hstack (.inl (hnone _)))
  case h_5 lv below hstack =>
    split at hs <;> cases hs
    exact .none rfl rfl (hgoto hstack (.inl rfl))
  case h_6 evs lv below hstack =>
    split at hs <;> cases hs
    unfold waited
    dsimp only
    split
    · refine .wait evs rfl rfl ?_
      unfold State.elements
      rw [hstack]
      exact elements_pop lv below
    · exact .wait evs rfl rfl (hgoto hstack (.inl rfl))
  case h_7 =>
    cases hs
    exact .none rfl rfl (List.Subset.refl _)
  case h_8 =>
    cases hs
    exact .none rfl rfl (List.Subset.refl _)
  case h_9 => cases hs

/-! ## The invariant -/

/-- An element that was not overwritten is in its place. -/
def Slots (r : Ready) : Prop :=
  ∀ t, r.reported t.batch t.idx = some t.event → r.Untouched t → r.events t.idx = t.event

/-- What is being dispatched was reported, and so far all flags were right. -/
structure FlagsInv (s : State) : Prop where
  array : Inv s.ready s.stack
  slots : Slots s.ready
  elements : ∀ t ∈ s.elements, s.ready.reported t.batch t.idx = some t.event
  invoked : ∀ i ∈ s.invoked, OwnFlags s.ready i

theorem flagsInv_init (n : Nat) (events : Nat → EpollEvent) (tables : Tables) : FlagsInv (init n events tables) where
  array := inv_init n events tables
  slots _ h := by cases h
  elements _ h := absurd h List.not_mem_nil
  invoked _ h := absurd h List.not_mem_nil

theorem reported_epoll_wait {r : Ready} {b i : Nat} {ev : EpollEvent} (evs : List EpollEvent)
    (h : r.reported b i = some ev) : (r.epoll_wait evs).reported b i = some ev := by
  unfold Ready.reported Ready.epoll_wait at *
  obtain ⟨evs', hb, hi⟩ := Option.bind_eq_some_iff.mp h
  dsimp only
  rw [List.getElem?_append_left (List.getElem?_eq_some_iff.mp hb).1, hb]
  exact hi

theorem reported_next {r : Ready} (h : r.Ok) (hlt : r.cur_event_idx < r.n_rdy_events) :
    r.reported r.next.batch r.next.idx = some r.next.event := by
  have hw := h.written _ hlt
  unfold Ready.current at hw
  unfold Ready.reported Ready.next
  dsimp only
  rw [← List.getLast?_eq_getElem?]
  cases hl : r.returned.getLast? with
  | none =>
    rw [hl] at hw
    cases hw
  | some evs =>
    rw [hl] at hw
    exact hw

theorem slots_epoll_wait {r : Ready} (h : Slots r) (evs : List EpollEvent) : Slots (r.epoll_wait evs) := by
  intro t ht hu
  unfold Ready.reported Ready.epoll_wait at ht
  unfold Ready.Untouched Ready.epoll_wait at hu
  unfold Ready.epoll_wait
  dsimp only at ht hu ⊢
  obtain ⟨evs', hb, hi⟩ := Option.bind_eq_some_iff.mp ht
  obtain hlt | hge := Nat.lt_or_ge t.batch r.returned.length
  · -- an older element: the new events end before its place
    rw [List.drop_append_of_le_length (by omega)] at hu
    rw [List.getElem?_append_left hlt] at hb
    rw [List.getElem?_eq_none (hu evs (by simp))]
    refine h t ?_ fun evs'' hevs => hu evs'' (List.mem_append_left _ hevs)
    unfold Ready.reported
    rw [hb]
    exact hi
  · have heq : evs' = evs := by
      rw [List.getElem?_append_right hge, List.getElem?_singleton] at hb
      split at hb
      · exact (Option.some.inj hb).symm
      · cases hb
    rw [← heq, hi]
    rfl

theorem step_flags {s s' : State} {a : Action} (h : FlagsInv s) (hok : InPlace s a) (hs : step s a = some s') :
    FlagsInv s' := by
  have harray := step_inv h.array hs
  cases step_effect hs with
  | none hready hinvoked helements =>
    refine ⟨harray, ?_, ?_, ?_⟩
    · rw [hready]
      exact h.slots
    · rw [hready]
      exact fun t ht => h.elements t (helements ht)
    · rw [hready, hinvoked]
      exact h.invoked
  | take hlt hready hinvoked helements =>
    refine ⟨harray, ?_, ?_, ?_⟩
    · rw [hready]
      exact h.slots
    · intro t ht
      rw [hready]
      obtain rfl | ht := List.mem_cons.mp (helements ht)
      · exact reported_next h.array.ready hlt
      · exact h.elements t ht
    · rw [hready, hinvoked]
      exact fun i hi => ⟨(h.invoked i hi).reported, (h.invoked i hi).flags⟩
  | wait evs hready hinvoked helements =>
    refine ⟨harray, ?_, ?_, ?_⟩
    · rw [hready]
      exact slots_epoll_wait h.slots evs
    · rw [hready]
      exact fun t ht => reported_epoll_wait evs (h.elements t (helements ht))
    · rw [hready, hinvoked]
      exact fun i hi => ⟨reported_epoll_wait evs (h.invoked i hi).reported, (h.invoked i hi).flags⟩
  | call t c hnext ht hready hinvoked helements =>
    refine ⟨harray, ?_, ?_, ?_⟩
    · rw [hready]
      exact h.slots
    · rw [hready]
      exact fun t ht => h.elements t (helements ht)
    · rw [hready, hinvoked]
      intro i hi
      obtain hi | hi := List.mem_append.mp hi
      · exact h.invoked i hi
      · have hrep := h.elements t ht
        rw [List.mem_singleton.mp hi]
        refine ⟨hrep, ?_⟩
        dsimp only
        rw [h.slots t hrep (hok t c hnext)]

/-! ## All runs -/

/-- In a run in which every callback is called while its element is still in the array, every callback gets the flags
of its own entry. -/
theorem callbacks_see_own_flags (n : Nat) (events : Nat → EpollEvent) (tables : Tables) (as : List Action) (s : State)
    (hm : Meets step InPlace as (init n events tables)) (hr : run step as (init n events tables) = some s) :
    ∀ i ∈ s.invoked, OwnFlags s.ready i := by
  have hstep : ∀ s a s', FlagsInv s → InPlace s a → step s a = some s' → FlagsInv s' :=
    fun _ _ _ hi hok hs => step_flags hi hok hs
  exact (run_keeps hstep as _ s (flagsInv_init n events tables) hm hr).invoked

/-- The handler of the first callback takes the rest of the array, and then the second callback is called. -/
def leftOver : List Action :=
  [.call false, .advance, .advance, .timeoutsDone, .advance,
    .wait [{ ptr := 0, events := EPOLLIN }, { ptr := 1, events := EPOLLOUT }], .advance, .advance, .advance,
    .call true, .advance, .advance, .advance, .handlerReturns, .advance, .advance, .timeoutsDone, .advance,
    .handlerReturns, .advance]

theorem callbacks_see_own_flags_left_over :
    ∃ s, run step leftOver (init 2 (fun _ => ⟨0, 0⟩) threeCallbacks) = some s ∧ s.invoked.length = 3 ∧
      ∀ i ∈ s.invoked, OwnFlags s.ready i := by
  have hrun : (run step leftOver (init 2 (fun _ => ⟨0, 0⟩) threeCallbacks)).map (fun s => s.invoked.length) = some 3 :=
    rfl
  obtain ⟨s, hs, hlen⟩ := Option.map_eq_some_iff.mp hrun
  exact ⟨s, hs, hlen, callbacks_see_own_flags 2 _ threeCallbacks leftOver s (by decide) hs⟩

/-- The handler of the first callback waits for new events, and then the second callback is called. -/
def overwritten : List Action :=
  [.call false, .advance, .advance, .timeoutsDone, .advance, .wait [{ ptr := 0, events := EPOLLIN }], .advance,
    .advance, .advance, .call true, .advance, .advance, .timeoutsDone, .advance,
    .wait [{ ptr := 1, events := EPOLLOUT }], .advance, .advance, .advance, .handlerReturns, .advance, .advance,
    .timeoutsDone, .advance, .handlerReturns, .advance]

/-- The kernel reported input for entry 0, and its second callback is told that it may write. -/
theorem second_callback_sees_other_flags :
    ∃ s, run step overwritten (init 1 (fun _ => ⟨0, 0⟩) threeCallbacks) = some s ∧
      ∃ i ∈ s.invoked, i.el_cb = 1 ∧ i.taken.event = { ptr := 0, events := EPOLLIN } ∧
        i.triggered_flags = CRTX_EVLOOP_WRITE ∧ ¬ OwnFlags s.ready i := by
  have hrun : (run step overwritten (init 1 (fun _ => ⟨0, 0⟩) threeCallbacks)).map (fun s => s.invoked.getLast?) =
      some (some ⟨⟨0, 0, ⟨0, EPOLLIN⟩⟩, 1, CRTX_EVLOOP_WRITE⟩) := by decide
  obtain ⟨s, hs, hlast⟩ := Option.map_eq_some_iff.mp hrun
  refine ⟨s, hs, _, List.mem_of_getLast? hlast, rfl, rfl, rfl, ?_⟩
  intro hown
  exact absurd hown.flags (by decide)

end Libcortex.EpollLoop
