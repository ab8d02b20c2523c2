import Libcortex.EpollLoop

/-!
# Handlers that remove their own callback

The loop over the callbacks of an entry goes on at the `next` of the one that was called. A handler may have called
`crtx_evloop_remove_cb` for it in between, and a node that was unlinked leads nowhere.
-/

open Libcortex.Lib
open Libcortex.Epoll (EntryId EPOLLIN CRTX_EVLOOP_READ crtx_epoll_flags2crtx_event_flags)

namespace Libcortex.EpollLoop

/-! ## What the handlers do -/

/-- `e` is the entry of the callback. What the kernel is told does not matter here. `none`: the list of the entry does
not come to an end. -/
def crtx_evloop_remove_cb (fuel : Nat) (tb : Tables) (e : EntryId) (c : CallbackId) : Option Tables :=
  (SList.crtx_ll_unlink fuel ⟨tb.callbacks e, tb.next⟩ c).map fun (ll, _) =>
    { callbacks := Function.update tb.callbacks e ll.head
      next := ll.next
      cbs := Function.update tb.cbs c { tb.cbs c with active := false } }

/-- Each handler removes its own callback, or leaves the callbacks alone. -/
def runHandler (removes : CallbackId → Bool) (n : Nat) (s : State) (e : EntryId) (c : CallbackId) : Option State :=
  if removes c then (crtx_evloop_remove_cb n s.tables e c).map fun tables => { s with tables } else some s

/-- The innermost call goes on to the end of the list, with the handlers that were called. -/
def serve (removes : CallbackId → Bool) (n : Nat) : Nat → State → Option (State × List CallbackId)
  | 0, _ => none
  | fuel + 1, s =>
    match s.stack with
    | [] => none
    | lv :: below =>
      match lv.pc with
      | .walk _ _ none => some (s, [])
      | .walk t error (some c) => serve removes n fuel (visit s lv below t error c)
      | .inCallback t _ c =>
        (runHandler removes n s t.event.ptr c).bind fun s =>
        (handlerReturned s lv below).bind fun s =>
        (serve removes n fuel s).map fun r => (r.1, c :: r.2)
      | _ => none

/-- It takes the next event. -/
def serveEvent (removes : CallbackId → Bool) (n fuel : Nat) (s : State) : Option (State × List CallbackId) :=
  (step s .advance).bind (serve removes n fuel)

/-! ## What has to hold -/

/-- The innermost call takes an event without error flags, and `l` are the callbacks of its entry. -/
structure Takes (s : State) (l : List CallbackId) : Prop where
  dispatch : s.stack.head?.map Level.pc = some .dispatch
  ready : s.ready.cur_event_idx < s.ready.n_rdy_events
  noError : isError s.ready.next.event.events = false
  callbacks : Chain s.tables.next (s.tables.callbacks s.ready.next.event.ptr) l

/-- The callback is active, and waits for one of the flags. -/
def matching (tb : Tables) (events : BitVec 32) (c : CallbackId) : Bool :=
  (tb.cbs c).active && callsHandler { tb.cbs c with triggered_flags := crtx_epoll_flags2crtx_event_flags events }

/-- Every callback that matches is called once. -/
def Complete (m : CallbackId → Bool) (l called : List CallbackId) : Prop := ∀ c ∈ l, m c = true → called.count c = 1

/-- Behind a callback whose handler removes it there is none that matches. -/
def LastToLeave (m removes : CallbackId → Bool) (l : List CallbackId) : Prop :=
  l.Pairwise fun c c' => m c = true → removes c = true → m c' = false

/-! ## What is called -/

def served (m removes : CallbackId → Bool) : List CallbackId → List CallbackId
  | [] => []
  | c :: l => if m c then if removes c then [c] else c :: served m removes l else served m removes l

theorem served_cons (m removes : CallbackId → Bool) (c : CallbackId) (l : List CallbackId) :
    served m removes (c :: l) =
      if m c then if removes c then [c] else c :: served m removes l else served m removes l := rfl

theorem served_subset (m removes : CallbackId → Bool) (l : List CallbackId) : served m removes l ⊆ l := by
  induction l with
  | nil => exact List.Subset.refl _
  | cons c l ih =>
    rw [served_cons]
    split
    · split
      · simp
      · exact List.cons_subset_cons c ih
    · exact List.subset_cons_of_subset c ih

theorem complete_iff {m removes : CallbackId → Bool} {l : List CallbackId} (hnd : l.Nodup) :
    Complete m l (served m removes l) ↔ LastToLeave m removes l := by
  induction l with
  | nil => exact iff_of_true (fun c hc => by cases hc) List.Pairwise.nil
  | cons c l ih =>
    obtain ⟨hc, hnd⟩ := List.nodup_cons.mp hnd
    have hne : ∀ c' ∈ l, c' ≠ c := fun c' hc' => ne_of_mem_of_not_mem hc' hc
    unfold Complete LastToLeave at *
    rw [List.pairwise_cons, List.forall_mem_cons, ← ih hnd, served_cons]
    cases hm : m c with
    | false => simp
    | true =>
      cases hr : removes c with
      | false =>
        have hcount : (served m removes l).count c = 0 := List.count_eq_zero.mpr fun h => hc (served_subset _ _ _ h)
        simp only [if_true, Bool.false_eq_true, if_false, List.count_cons_self, hcount, true_and, false_implies,
          implies_true]
        exact forall₂_congr fun c' hc' => by rw [List.count_cons_of_ne (hne c' hc').symm]
      | true =>
        simp only [if_true, List.count_singleton_self, true_and, forall_const]
        constructor
        · intro h
          have hnone : ∀ c' ∈ l, m c' = false := by
            intro c' hc'
            by_contra hm'
            have := h c' hc' (by simpa using hm')
            rw [List.count_eq_zero.mpr (by simpa using hne c' hc')] at this
            cases this
          exact ⟨hnone, fun c' hc' hm' => by rw [hnone c' hc'] at hm'; cases hm'⟩
        · rintro ⟨h, -⟩ c' hc' hm'
          rw [h c' hc'] at hm'
          cases hm'

/-! ## The loop -/

theorem matching_trigger (tb : Tables) (c : CallbackId) (flags events : BitVec 32) :
    matching (tb.trigger c flags) events = matching tb events := by
  funext c'
  unfold matching Tables.trigger
  by_cases h : c' = c
  · subst h
    simp
  · simp [Function.update_of_ne h]

theorem visit_matching (s : State) (lv : Level) (below : List Level) (t : Taken) (c : CallbackId) :
    ∃ tables invoked, visit s lv below t false c = { s with
        tables
        invoked
        stack := { lv with
          pc := if matching s.tables (s.ready.events t.idx).events c = true then .inCallback t false c
            else .walk t false (s.tables.next c) } :: below } ∧
      tables.callbacks = s.tables.callbacks ∧ tables.next = s.tables.next ∧ matching tables = matching s.tables := by
  unfold visit matching
  cases hact : (s.tables.cbs c).active with
  | false => exact ⟨s.tables, s.invoked, by simp, rfl, rfl, rfl⟩
  | true =>
    refine ⟨s.tables.trigger c (crtx_epoll_flags2crtx_event_flags (s.ready.events t.idx).events),
      (invoke s t c).invoked, ?_, rfl, rfl, funext fun events => matching_trigger ..⟩
    have hcb : (invoke s t c).tables.cbs c = { s.tables.cbs c with
        triggered_flags := crtx_epoll_flags2crtx_event_flags (s.ready.events t.idx).events } := Function.update_self ..
    simp only [Bool.false_eq_true, if_false, if_true, Bool.true_and, hcb]
    split <;> rfl

theorem remove_cb_next {tb : Tables} {e : EntryId} {c : CallbackId} {l : List CallbackId} {n : Nat}
    (hlist : Chain tb.next (tb.callbacks e) l) (hc : c ∈ l) (hn : l.length < n) :
    ∃ tables, crtx_evloop_remove_cb n tb e c = some tables ∧ tables.next c = none := by
  obtain ⟨ll, hunlink, -, hend, -⟩ := SList.crtx_ll_unlink_present (s := ⟨tb.callbacks e, tb.next⟩) hlist hc hn
  unfold crtx_evloop_remove_cb
  rw [hunlink]
  exact ⟨_, rfl, hend⟩

theorem serve_end {removes : CallbackId → Bool} {n fuel : Nat} {s : State} {lv : Level} {below : List Level} {t : Taken}
    {error : Bool} (hstack : s.stack = { lv with pc := .walk t error none } :: below) (hfuel : 0 < fuel) :
    serve removes n fuel s = some (s, []) := by
  obtain ⟨fuel, rfl⟩ := Nat.exists_eq_succ_of_ne_zero hfuel.ne'
  unfold serve
  rw [hstack]

theorem serve_eq (removes : CallbackId → Bool) {n : Nat} {lv : Level} {below : List Level} {t : Taken}
    (l : List CallbackId) : ∀ (front : List CallbackId) (s : State) (h : Option CallbackId) (fuel : Nat),
    s.stack = { lv with pc := .walk t false h } :: below →
    Chain s.tables.next (s.tables.callbacks t.event.ptr) (front ++ l) → Chain s.tables.next h l →
    (front ++ l).length < n → 2 * l.length < fuel →
      ∃ s', serve removes n fuel s =
        some (s', served (matching s.tables (s.ready.events t.idx).events) removes l) := by
  induction l with
  | nil =>
    intro front s h fuel hstack _ hc _ hfuel
    have hn : h = none := hc
    subst hn
    exact ⟨s, serve_end hstack (by simpa using hfuel)⟩
  | cons c l ih =>
    intro front s h fuel hstack hlist hc hn hfuel
    obtain ⟨rfl, hnext⟩ := hc
    obtain ⟨fuel, rfl⟩ : ∃ f, fuel = f + 2 := ⟨fuel - 2, by simp at hfuel; omega⟩
    obtain ⟨tables, invoked, hvisit, hcallbacks, hnext', hmatching⟩ := visit_matching s
      { lv with pc := .walk t false (some c) } below t c
    have hlen : 2 * l.length < fuel := by simp at hfuel; omega
    rw [← hcallbacks, ← hnext', List.append_cons] at hlist
    rw [List.append_cons] at hn
    rw [← hnext'] at hnext
    rw [served_cons]
    unfold serve
    rw [hstack]
    dsimp only
    rw [hvisit]
    split
    · unfold serve runHandler
      dsimp only
      cases hr : removes c with
      | false =>
        obtain ⟨s', hrest⟩ := ih (front ++ [c])
          { s with tables, invoked, stack := { lv with pc := .walk t false (tables.next c) } :: below } _ fuel rfl
          hlist hnext hn hlen
        rw [hmatching] at hrest
        refine ⟨s', ?_⟩
        simp only [Bool.false_eq_true, if_false, Option.bind_some, handlerReturned, hrest, Option.map_some]
      | true =>
        obtain ⟨tables', hremove, hend⟩ := remove_cb_next (e := t.event.ptr) (c := c) hlist (by simp) hn
        simp only [if_true, hremove, Option.map_some, Option.bind_some, handlerReturned, hend]
        rw [serve_end rfl (by omega)]
        exact ⟨_, rfl⟩
    · obtain ⟨s', hrest⟩ := ih (front ++ [c])
        { s with tables, invoked, stack := { lv with pc := .walk t false (tables.next c) } :: below } _ (fuel + 1) rfl
        hlist hnext hn (by omega)
      rw [hmatching, hnext'] at hrest
      exact ⟨s', hrest⟩

/-- The loop comes to an end. It calls all callbacks that match, if and only if none of them is behind one whose
handler removes its own callback. -/
theorem serveEvent_complete {s : State} {l : List CallbackId} (hs : Takes s l) (removes : CallbackId → Bool)
    {n fuel : Nat} (hn : l.length < n) (hfuel : 2 * l.length < fuel) :
    ∃ s' called, serveEvent removes n fuel s = some (s', called) ∧
      (Complete (matching s.tables s.ready.next.event.events) l called ↔
        LastToLeave (matching s.tables s.ready.next.event.events) removes l) := by
  obtain ⟨hdispatch, hready, herror, hlist⟩ := hs
  obtain ⟨lv, hhead, hpc⟩ := Option.map_eq_some_iff.mp hdispatch
  obtain ⟨below, hstack⟩ := List.head?_eq_some_iff.mp hhead
  obtain ⟨s', hserve⟩ := serve_eq removes l [] { s with
      ready := s.ready.take
      stack := { lv with pc := .walk s.ready.next false (s.tables.callbacks s.ready.next.event.ptr) } :: below }
    _ fuel rfl hlist hlist hn hfuel
  refine ⟨s', _, ?_, complete_iff hlist.nodup⟩
  unfold serveEvent step
  rw [hstack]
  dsimp only
  unfold advance
  rw [hpc]
  dsimp only
  rw [if_pos hready, Option.bind_some, herror]
  exact hserve

theorem runHandler_runs {removes : CallbackId → Bool} {n : Nat} {s s' : State} {e : EntryId} {c : CallbackId}
    (h : runHandler removes n s e c = some s') : ∃ as, run step as s = some s' ∧ s'.stack = s.stack := by
  unfold runHandler at h
  split at h
  · obtain ⟨tables, -, rfl⟩ := Option.map_eq_some_iff.mp h
    exact ⟨[.edit tables], rfl, rfl⟩
  · cases h
    exact ⟨[], rfl, rfl⟩

theorem serve_runs {removes : CallbackId → Bool} {n : Nat} (fuel : Nat) : ∀ (s s' : State) (called : List CallbackId),
    serve removes n fuel s = some (s', called) → ∃ as, run step as s = some s' := by
  induction fuel with
  | zero => intro s s' called h; cases h
  | succ fuel ih =>
    intro s s' called h
    unfold serve at h
    split at h
    · cases h
    · rename_i lv below hstack
      split at h
      · cases h
        exact ⟨[], rfl⟩
      · rename_i t error c hpc
        obtain ⟨as, hrun⟩ := ih _ _ _ h
        refine ⟨.advance :: as, ?_⟩
        have hstep : step s .advance = some (visit s lv below t error c) := by simp [step, hstack, advance, hpc]
        rw [run_cons, hstep, Option.bind_some, hrun]
      · rename_i t error c hpc
        obtain ⟨s₁, hhandler, h⟩ := Option.bind_eq_some_iff.mp h
        obtain ⟨s₂, hreturn, h⟩ := Option.bind_eq_some_iff.mp h
        obtain ⟨r, hserve, hr⟩ := Option.map_eq_some_iff.mp h
        cases hr
        obtain ⟨as, hrun⟩ := ih _ _ _ hserve
        obtain ⟨edits, hedits, hstack₁⟩ := runHandler_runs hhandler
        refine ⟨edits ++ .handlerReturns :: as, ?_⟩
        have hstep : step s₁ .handlerReturns = some s₂ := by
          unfold step
          rw [hstack₁, hstack]
          exact hreturn
        rw [run_append, hedits, Option.bind_some, run_cons, hstep, Option.bind_some, hrun]
      · cases h

/-- Two callbacks of entry 0, the first of which removes itself. -/
def twoReaders : State where
  max_n_events := 1
  ready := ⟨fun _ => ⟨0, EPOLLIN⟩, 0, 1, [[⟨0, EPOLLIN⟩]], []⟩
  phase_out := false
  tables :=
    ⟨fun _ => some 0, fun c => if c = 0 then some 1 else none, fun _ => ⟨CRTX_EVLOOP_READ, true, false, true, 0⟩⟩
  stack := [⟨false, 1, true, .dispatch⟩]
  invoked := []

theorem twoReaders_takes : Takes twoReaders [0, 1] := ⟨rfl, by decide, rfl, rfl, rfl, rfl⟩

theorem serveEvent_complete_both :
    ∃ s' called, serveEvent (fun _ => false) 3 5 twoReaders = some (s', called) ∧
      (Complete (matching twoReaders.tables EPOLLIN) [0, 1] called ↔
        LastToLeave (matching twoReaders.tables EPOLLIN) (fun _ => false) [0, 1]) :=
  serveEvent_complete twoReaders_takes (fun _ => false) (by decide) (by decide)

theorem serveEvent_complete_first :
    ¬ ∃ s' called, serveEvent (· = 0) 3 5 twoReaders = some (s', called) ∧
      Complete (matching twoReaders.tables EPOLLIN) [0, 1] called := by
  rintro ⟨s', called, hserve, hcomplete⟩
  have hcalled : (serveEvent (· = 0) 3 5 twoReaders).map Prod.snd = some [0] := by rfl
  rw [hserve] at hcalled
  cases hcalled
  exact absurd (hcomplete 1 (by simp) (by decide)) (by decide)

end Libcortex.EpollLoop
