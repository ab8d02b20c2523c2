import Libcortex.EpollLoop

/-!
# Nested calls of the event loop

A call waits for new events only after all of the array was taken, and also returns only then. So
no element is lost if a handler enters the event loop again, and none is taken twice.
-/

open Libcortex.Lib
open Libcortex.Epoll (EPOLLIN CRTX_EVLOOP_READ CRTX_EVLOOP_WRITE)

namespace Libcortex.EpollLoop

/-! ## What has to hold -/

/-- What the kernel wrote to element `i` in call `b` of `epoll_wait`. -/
def Ready.reported (r : Ready) (b i : Nat) : Option EpollEvent := (r.returned[b]?).bind fun evs => evs[i]?

/-- Whatever was taken was reported, no element is taken twice, and all have been taken once the array
is written again or no call is left. -/
structure NothingLost (s : State) : Prop where
  real : ∀ t ∈ s.ready.taken, s.ready.reported t.batch t.idx = some t.event
  once : ∀ t, s.ready.taken.count t ≤ 1
  all : ∀ t, s.ready.reported t.batch t.idx = some t.event →
    t.batch + 1 < s.ready.returned.length ∨ s.stack = [] → s.ready.taken.count t = 1

/-- The innermost call goes on, or the handler it waits for returns. -/
def Action.goesOn : Action → Bool
  | .advance | .handlerReturns => true
  | _ => false

/-- From here on, all elements are taken if the handlers return, before `epoll_wait` is called again. -/
def Drains (s : State) : Prop :=
  ∃ as s', (∀ a ∈ as, a.goesOn = true) ∧ run step as s = some s' ∧ s'.ready.returned = s.ready.returned ∧
    ∀ t, s.ready.reported t.batch t.idx = some t.event → s'.ready.taken.count t = 1

/-- Every list of callbacks comes to an end. -/
def Tables.ListsEnd (tb : Tables) : Prop := ∀ h, ∃ l, Chain tb.next h l

/-! ## The elements in order -/

def tag (b : Nat) (evs : List EpollEvent) : List Taken := evs.mapIdx fun i ev => { batch := b, idx := i, event := ev }

/-- All elements of all calls of `epoll_wait`. -/
def tagged (returned : List (List EpollEvent)) : List Taken := (returned.mapIdx tag).flatten

theorem tagged_append (returned : List (List EpollEvent)) (evs : List EpollEvent) :
    tagged (returned ++ [evs]) = tagged returned ++ tag returned.length evs := by
  unfold tagged
  simp [List.mapIdx_append]

theorem mem_tag {b : Nat} {evs : List EpollEvent} {t : Taken} :
    t ∈ tag b evs ↔ t.batch = b ∧ evs[t.idx]? = some t.event := by
  unfold tag
  rw [List.mem_mapIdx]
  constructor
  · rintro ⟨i, hi, rfl⟩
    exact ⟨rfl, List.getElem?_eq_getElem hi⟩
  · rintro ⟨rfl, hev⟩
    obtain ⟨hi, hev⟩ := List.getElem?_eq_some_iff.mp hev
    exact ⟨t.idx, hi, by rw [hev]⟩

theorem mem_tagged {r : Ready} {t : Taken} : t ∈ tagged r.returned ↔ r.reported t.batch t.idx = some t.event := by
  unfold tagged Ready.reported
  rw [List.mem_flatten, Option.bind_eq_some_iff]
  constructor
  · rintro ⟨l, hl, ht⟩
    obtain ⟨b, hb, rfl⟩ := List.mem_mapIdx.mp hl
    obtain ⟨rfl, hev⟩ := mem_tag.mp ht
    exact ⟨_, List.getElem?_eq_getElem hb, hev⟩
  · rintro ⟨evs, hevs, hev⟩
    obtain ⟨hb, rfl⟩ := List.getElem?_eq_some_iff.mp hevs
    exact ⟨_, List.mem_mapIdx.mpr ⟨t.batch, hb, rfl⟩, mem_tag.mpr ⟨rfl, hev⟩⟩

theorem tag_nodup (b : Nat) (evs : List EpollEvent) : (tag b evs).Nodup := by
  unfold tag
  rw [List.nodup_iff_injective_get]
  intro i j hij
  simp at hij
  exact Fin.ext hij.1

theorem tagged_nodup (returned : List (List EpollEvent)) : (tagged returned).Nodup := by
  induction returned using List.reverseRecOn with
  | nil => exact List.nodup_nil
  | append_singleton returned evs ih =>
    rw [tagged_append]
    refine List.Nodup.append ih (tag_nodup _ _) ?_
    intro t ht ht'
    have hb := (mem_tag.mp ht').1
    unfold tagged at ht
    obtain ⟨l, hl, ht⟩ := List.mem_flatten.mp ht
    obtain ⟨b, hlt, rfl⟩ := List.mem_mapIdx.mp hl
    have hb' := (mem_tag.mp ht).1
    omega

/-! ## The invariant of the array -/

/-- What the last call of `epoll_wait` returned. -/
def Ready.current (r : Ready) : List EpollEvent := r.returned.getLast?.getD []

/-- The elements that are not taken yet are still in the array. -/
structure Ready.Ok (r : Ready) : Prop where
  cur : r.cur_event_idx ≤ r.n_rdy_events
  length : r.current.length = r.n_rdy_events
  written : ∀ i < r.n_rdy_events, r.current[i]? = some (r.events i)
  all : r.taken ++ (tag (r.returned.length - 1) r.current).drop r.cur_event_idx = tagged r.returned

theorem length_tag (b : Nat) (evs : List EpollEvent) : (tag b evs).length = evs.length := List.length_mapIdx

theorem tag_drop {r : Ready} (h : r.Ok) (hlt : r.cur_event_idx < r.n_rdy_events) :
    (tag (r.returned.length - 1) r.current).drop r.cur_event_idx =
      r.next :: (tag (r.returned.length - 1) r.current).drop (r.cur_event_idx + 1) := by
  have hlen : r.cur_event_idx < (tag (r.returned.length - 1) r.current).length := by
    rw [length_tag, h.length]
    exact hlt
  rw [List.drop_eq_getElem_cons hlen]
  congr 1
  have hw := h.written _ hlt
  obtain ⟨_, hw⟩ := List.getElem?_eq_some_iff.mp hw
  unfold Ready.next
  rw [← hw]
  exact List.getElem_mapIdx ..

theorem take_ok {r : Ready} (h : r.Ok) (hlt : r.cur_event_idx < r.n_rdy_events) : r.take.Ok where
  cur := hlt
  length := h.length
  written := h.written
  all := by
    have hall := h.all
    rw [tag_drop h hlt] at hall
    unfold Ready.take
    dsimp only
    rw [List.append_assoc]
    exact hall

theorem taken_all {r : Ready} (h : r.Ok) (hcur : r.cur_event_idx = r.n_rdy_events) : r.taken = tagged r.returned := by
  have hall := h.all
  rw [List.drop_of_length_le, List.append_nil] at hall
  · exact hall
  · rw [length_tag, h.length, hcur]

theorem epoll_wait_ok {r : Ready} (h : r.Ok) (hcur : r.cur_event_idx = r.n_rdy_events) (evs : List EpollEvent) :
    (r.epoll_wait evs).Ok := by
  have hcurrent : (r.epoll_wait evs).current = evs := by
    unfold Ready.current Ready.epoll_wait
    simp
  refine ⟨Nat.zero_le _, ?_, ?_, ?_⟩
  · rw [hcurrent]
    rfl
  · intro i hi
    rw [hcurrent]
    unfold Ready.epoll_wait at hi ⊢
    dsimp only at hi ⊢
    rw [List.getElem?_eq_getElem hi]
    rfl
  · rw [hcurrent]
    unfold Ready.epoll_wait
    dsimp only
    rw [taken_all h hcur, tagged_append]
    simp

/-! ## The invariant of the calls -/

/-- The loop over the events is over. -/
def Level.settled (lv : Level) : Bool :=
  match lv.pc with
  | .timeouts | .inTimeout | .exits | .wait => true
  | _ => false

/-- A call never gets to the end of its counter: it returns before. -/
structure Level.Ok (lv : Level) : Prop where
  loop : 1 ≤ lv.loop
  wait : lv.onetime = true → lv.pc = .wait → 2 ≤ lv.loop

/-- A call that is behind the loop over the events has left nothing in the array, and so has the last call that
returned. -/
structure Inv (r : Ready) (stack : List Level) : Prop where
  ready : r.Ok
  levels : ∀ lv ∈ stack, lv.Ok
  drained : (∀ lv, stack.head? = some lv → lv.settled = true) → r.cur_event_idx = r.n_rdy_events

theorem inv_init (n : Nat) (events : Nat → EpollEvent) (tables : Tables) :
    Inv (init n events tables).ready (init n events tables).stack where
  ready := ⟨Nat.le_refl _, rfl, fun _ hi => absurd hi (Nat.not_lt_zero _), rfl⟩
  levels _ h := absurd h List.not_mem_nil
  drained _ := rfl

theorem Inv.top {r : Ready} {lv : Level} {below : List Level} (h : Inv r (lv :: below)) (hs : lv.settled = true) :
    r.cur_event_idx = r.n_rdy_events := by
  apply h.drained
  intro lv' hlv
  cases hlv
  exact hs

theorem Inv.pop {r : Ready} {lv : Level} {below : List Level} (h : Inv r (lv :: below))
    (hcur : r.cur_event_idx = r.n_rdy_events) : Inv r below where
  ready := h.ready
  levels lv' hlv := h.levels lv' (List.mem_cons_of_mem _ hlv)
  drained _ := hcur

theorem Inv.push {r : Ready} {lv : Level} {below : List Level} (hr : r.Ok) (hb : ∀ lv ∈ below, lv.Ok) (hl : lv.Ok)
    (hs : lv.settled = true → r.cur_event_idx = r.n_rdy_events) : Inv r (lv :: below) where
  ready := hr
  levels lv' hlv := by
    obtain rfl | hlv := List.mem_cons.mp hlv
    · exact hl
    · exact hb lv' hlv
  drained hd := hs (hd lv rfl)

theorem Inv.below {r : Ready} {lv : Level} {below : List Level} (h : Inv r (lv :: below)) : ∀ lv ∈ below, lv.Ok :=
  fun lv' hlv => h.levels lv' (List.mem_cons_of_mem _ hlv)

theorem Inv.goto {r : Ready} {lv : Level} {below : List Level} (h : Inv r (lv :: below)) (lv' : Level)
    (hloop : lv'.loop = lv.loop) (hwait : lv'.pc ≠ .wait)
    (hs : lv'.settled = true → r.cur_event_idx = r.n_rdy_events) : Inv r (lv' :: below) := by
  refine Inv.push h.ready h.below ⟨?_, fun _ hw => absurd hw hwait⟩ hs
  rw [hloop]
  exact (h.levels lv (List.mem_cons_self ..)).loop

theorem visit_inv {s : State} {lv : Level} {below : List Level} (h : Inv s.ready (lv :: below)) (t : Taken)
    (error : Bool) (c : CallbackId) :
    Inv (visit s lv below t error c).ready (visit s lv below t error c).stack := by
  have hwalk : ∀ next, Inv s.ready ({ lv with pc := .walk t error next } :: below) := fun next =>
    h.goto _ rfl Pc.noConfusion Bool.noConfusion
  have hin : Inv s.ready ({ lv with pc := .inCallback t error c } :: below) :=
    h.goto _ rfl Pc.noConfusion Bool.noConfusion
  obtain ⟨-, hv⟩ | ⟨-, hv | hv⟩ := visit_cases s lv below t error c
  · rw [hv]
    exact hwalk _
  · rw [hv]
    exact hwalk _
  · rw [hv]
    exact hin

theorem advance_inv {s s' : State} {lv : Level} {below : List Level} (h : Inv s.ready (lv :: below))
    (hs : advance s lv below = some s') : Inv s'.ready s'.stack := by
  have hlv := h.levels lv (List.mem_cons_self ..)
  unfold advance at hs
  dsimp only at hs
  split at hs
  case h_1 hpc =>
    rw [if_neg (by have := hlv.loop; omega)] at hs
    cases hs
    exact h.goto _ rfl Pc.noConfusion Bool.noConfusion
  case h_2 hpc =>
    split at hs
    · rename_i hlt
      cases hs
      exact Inv.push (take_ok h.ready hlt) h.below ⟨hlv.loop, fun _ hw => Pc.noConfusion hw⟩ Bool.noConfusion
    · rename_i hge
      cases hs
      refine h.goto _ rfl Pc.noConfusion fun _ => ?_
      have := h.ready.cur
      omega
  case h_3 =>
    cases hs
    exact h.goto _ rfl Pc.noConfusion Bool.noConfusion
  case h_4 =>
    cases hs
    exact visit_inv h ..
  case h_5 hpc =>
    have hcur := h.top (by simp [Level.settled, hpc])
    split at hs
    · cases hs
      exact h.pop hcur
    · split at hs
      · cases hs
        exact h.pop hcur
      · rename_i hloop
        cases hs
        refine Inv.push h.ready h.below ⟨hlv.loop, ?_⟩ fun _ => hcur
        intro hone _
        have := hlv.loop
        have hne : lv.loop ≠ 1 := fun h1 => hloop ⟨hone, h1⟩
        dsimp only
        omega
  all_goals cases hs

theorem handlerReturned_inv {s s' : State} {lv : Level} {below : List Level} (h : Inv s.ready (lv :: below))
    (hs : handlerReturned s lv below = some s') : Inv s'.ready s'.stack := by
  unfold handlerReturned at hs
  split at hs
  · cases hs
    exact h.goto _ rfl Pc.noConfusion Bool.noConfusion
  · rename_i hpc
    cases hs
    exact h.goto _ rfl Pc.noConfusion fun _ => h.top (by simp [Level.settled, hpc])
  · cases hs

theorem waited_inv {s : State} {lv : Level} {below : List Level} (h : Inv s.ready (lv :: below)) (hpc : lv.pc = .wait)
    (evs : List EpollEvent) : Inv (waited s lv below evs).ready (waited s lv below evs).stack := by
  have hlv := h.levels lv (List.mem_cons_self ..)
  have hr := epoll_wait_ok h.ready (h.top (by simp [Level.settled, hpc])) evs
  unfold waited
  dsimp only
  split
  · rename_i hempty
    exact ⟨hr, h.below, fun _ => hempty.1.symm⟩
  · refine Inv.push hr h.below ⟨?_, fun _ hw => Pc.noConfusion hw⟩ Bool.noConfusion
    dsimp only
    split
    · rename_i hone
      have := hlv.wait hone hpc
      omega
    · exact hlv.loop

theorem timedOut_inv {s : State} {lv : Level} {below : List Level} (h : Inv s.ready (lv :: below))
    (hpc : lv.pc = .timeouts) (c : CallbackId) :
    Inv (timedOut s lv below c).ready (timedOut s lv below c).stack := by
  have hcur := h.top (by simp [Level.settled, hpc])
  unfold timedOut
  refine h.goto _ rfl ?_ fun _ => hcur
  dsimp only
  split <;> exact Pc.noConfusion

theorem step_inv {s s' : State} {a : Action} (h : Inv s.ready s.stack) (hs : step s a = some s') :
    Inv s'.ready s'.stack := by
  unfold step at hs
  split at hs
  case h_1 onetime =>
    split at hs
    · split at hs
      · cases hs
        exact h
      · cases hs
        refine Inv.push h.ready h.levels ⟨?_, fun _ hw => Pc.noConfusion hw⟩ Bool.noConfusion
        dsimp only
        split <;> omega
    · cases hs
  case h_2 lv below hstack =>
    rw [hstack] at h
    exact advance_inv h hs
  case h_3 lv below hstack =>
    rw [hstack] at h
    exact handlerReturned_inv h hs
  case h_4 c lv below hstack =>
    rw [hstack] at h
    split at hs
    · rename_i hpc
      cases hs
      exact timedOut_inv h hpc.1 c
    · cases hs
  case h_5 lv below hstack =>
    rw [hstack] at h
    split at hs
    · rename_i hpc
      cases hs
      exact h.goto _ rfl Pc.noConfusion fun _ => h.top (by simp [Level.settled, hpc])
    · cases hs
  case h_6 evs lv below hstack =>
    rw [hstack] at h
    split at hs
    · rename_i hpc
      cases hs
      exact waited_inv h hpc.1 evs
    · cases hs
  case h_7 =>
    cases hs
    exact h
  case h_8 =>
    cases hs
    exact h
  case h_9 => cases hs

/-! ## Nothing is lost -/

theorem nothingLost_of_inv {s : State} (h : Inv s.ready s.stack) : NothingLost s := by
  have hall := h.ready.all
  have hnodup := tagged_nodup s.ready.returned
  rw [← hall, List.nodup_append] at hnodup
  refine ⟨?_, ?_, ?_⟩
  · intro t ht
    apply mem_tagged.mp
    rw [← hall]
    exact List.mem_append_left _ ht
  · intro t
    exact List.nodup_iff_count_le_one.mp hnodup.1 t
  · intro t ht hdone
    have hmem : t ∈ s.ready.taken := by
      have htag := mem_tagged.mpr ht
      obtain hdone | hdone := hdone
      · rw [← hall, List.mem_append] at htag
        obtain htag | htag := htag
        · exact htag
        · have hb := (mem_tag.mp (List.mem_of_mem_drop htag)).1
          omega
      · have hcur := h.drained (by simp [hdone])
        rwa [taken_all h.ready hcur]
    exact List.count_eq_one_of_mem hnodup.1 hmem

/-! ## The array is emptied -/

/-- `s'` is reached from `s` without another call of `epoll_wait`. -/
structure Leads (s s' : State) : Prop where
  run : ∃ as, (∀ a ∈ as, Action.goesOn a = true) ∧ run step as s = some s'
  returned : s'.ready.returned = s.ready.returned
  next : s'.tables.next = s.tables.next

theorem Leads.refl (s : State) : Leads s s := ⟨⟨[], by simp, rfl⟩, rfl, rfl⟩

theorem Leads.trans {s t u : State} (h : Leads s t) (h' : Leads t u) : Leads s u := by
  obtain ⟨as, has, hrun⟩ := h.run
  obtain ⟨bs, hbs, hrun'⟩ := h'.run
  refine ⟨⟨as ++ bs, ?_, ?_⟩, h'.returned.trans h.returned, h'.next.trans h.next⟩
  · intro a ha
    obtain ha | ha := List.mem_append.mp ha
    · exact has a ha
    · exact hbs a ha
  · rw [run_append, hrun]
    exact hrun'

theorem Leads.single {s s' : State} {a : Action} (ha : a.goesOn = true) (hs : step s a = some s')
    (hr : s'.ready.returned = s.ready.returned) (hn : s'.tables.next = s.tables.next) : Leads s s' := by
  refine ⟨⟨[a], by simpa using ha, ?_⟩, hr, hn⟩
  rw [run_cons, hs]
  rfl

theorem Leads.listsEnd {s s' : State} (h : Leads s s') (hend : s.tables.ListsEnd) : s'.tables.ListsEnd := by
  unfold Tables.ListsEnd
  rw [h.next]
  exact hend

theorem handler_leads {s : State} (lv : Level) {below : List Level} {t : Taken} {error : Bool} {c : CallbackId}
    (hstack : s.stack = { lv with pc := .inCallback t error c } :: below) :
    Leads s { s with stack := { lv with pc := .walk t error (s.tables.next c) } :: below } := by
  refine Leads.single (a := .handlerReturns) rfl ?_ rfl rfl
  simp only [step, hstack, handlerReturned]

theorem visit_leads {s : State} {lv : Level} {below : List Level} {t : Taken} {error : Bool} {c : CallbackId}
    (hstack : s.stack = { lv with pc := .walk t error (some c) } :: below) :
    ∃ s', Leads s s' ∧ s'.stack = { lv with pc := .walk t error (s.tables.next c) } :: below ∧ s'.ready = s.ready := by
  have hstep : step s .advance = some (visit s { lv with pc := .walk t error (some c) } below t error c) := by
    simp only [step, hstack, advance]
  obtain ⟨-, hv⟩ | ⟨-, hv | hv⟩ := visit_cases s { lv with pc := .walk t error (some c) } below t error c
  · rw [hv] at hstep
    exact ⟨_, .single rfl hstep rfl rfl, rfl, rfl⟩
  · rw [hv] at hstep
    exact ⟨_, .single rfl hstep rfl rfl, rfl, rfl⟩
  · rw [hv] at hstep
    exact ⟨_, .trans (.single rfl hstep rfl rfl) (handler_leads lv rfl), rfl, rfl⟩

theorem walk_leads {lv : Level} {below : List Level} {t : Taken} {error : Bool} (l : List CallbackId) :
    ∀ (s : State) (h : Option CallbackId), Chain s.tables.next h l →
      s.stack = { lv with pc := .walk t error h } :: below →
      ∃ s', Leads s s' ∧ s'.stack = { lv with pc := .dispatch } :: below ∧ s'.ready = s.ready := by
  induction l with
  | nil =>
    intro s h hc hstack
    have hnone : h = none := hc
    subst hnone
    refine ⟨{ s with stack := { lv with pc := .dispatch } :: below }, .single (a := .advance) rfl ?_ rfl rfl, rfl, rfl⟩
    simp only [step, hstack, advance]
  | cons c l ih =>
    intro s h hc hstack
    rw [hc.head_eq, List.head?_cons] at hstack
    obtain ⟨s₁, hs₁, hstack₁, hready₁⟩ := visit_leads hstack
    obtain ⟨s₂, hs₂, hstack₂, hready₂⟩ := ih s₁ (s.tables.next c) (by rw [hs₁.next]; exact hc.tail) hstack₁
    exact ⟨s₂, hs₁.trans hs₂, hstack₂, hready₂.trans hready₁⟩

theorem take_leads {s : State} {lv : Level} {below : List Level}
    (hstack : s.stack = { lv with pc := .dispatch } :: below)
    (hlt : s.ready.cur_event_idx < s.ready.n_rdy_events) :
    ∃ s' t error h, Leads s s' ∧ s'.stack = { lv with pc := .walk t error h } :: below ∧ s'.ready = s.ready.take := by
  have hstep : ∃ s', step s .advance = some s' := ⟨_, by simp only [step, hstack, advance, if_pos hlt]; rfl⟩
  obtain ⟨s', hstep⟩ := hstep
  have hs' := hstep
  simp only [step, hstack, advance, if_pos hlt, Option.some.injEq] at hs'
  subst hs'
  exact ⟨_, _, _, _, .single rfl hstep rfl rfl, rfl, rfl⟩

theorem dispatch_leads {below : List Level} (k : Nat) : ∀ (s : State) (lv : Level), s.tables.ListsEnd →
    s.stack = { lv with pc := .dispatch } :: below → s.ready.n_rdy_events - s.ready.cur_event_idx = k →
    ∃ s', Leads s s' ∧ s'.ready.n_rdy_events ≤ s'.ready.cur_event_idx := by
  induction k with
  | zero =>
    intro s lv _ _ hk
    exact ⟨s, .refl s, by omega⟩
  | succ k ih =>
    intro s lv hend hstack hk
    obtain ⟨s₁, t, error, h, hs₁, hstack₁, hready₁⟩ := take_leads hstack (by omega)
    obtain ⟨l, hc⟩ := hs₁.listsEnd hend h
    obtain ⟨s₂, hs₂, hstack₂, hready₂⟩ := walk_leads l s₁ h hc hstack₁
    have hlead := hs₁.trans hs₂
    have hk₂ : s₂.ready.n_rdy_events - s₂.ready.cur_event_idx = k := by
      rw [hready₂, hready₁]
      simp only [Ready.take]
      omega
    obtain ⟨s₃, hs₃, hcur₃⟩ := ih s₂ lv (hlead.listsEnd hend) hstack₂ hk₂
    exact ⟨s₃, hlead.trans hs₃, hcur₃⟩

theorem walk_leads_to_end {s : State} (lv : Level) {below : List Level} {t : Taken} {error : Bool}
    {c : Option CallbackId} (hend : s.tables.ListsEnd) (hstack : s.stack = { lv with pc := .walk t error c } :: below) :
    ∃ s', Leads s s' ∧ s'.ready.n_rdy_events ≤ s'.ready.cur_event_idx := by
  obtain ⟨l, hc⟩ := hend c
  obtain ⟨s₁, hs₁, hstack₁, -⟩ := walk_leads l s c hc hstack
  obtain ⟨s₂, hs₂, hcur₂⟩ := dispatch_leads _ s₁ lv (hs₁.listsEnd hend) hstack₁ rfl
  exact ⟨s₂, hs₁.trans hs₂, hcur₂⟩

theorem leads_to_end {s : State} (h : Inv s.ready s.stack) (hend : s.tables.ListsEnd) :
    ∃ s', Leads s s' ∧ s'.ready.n_rdy_events ≤ s'.ready.cur_event_idx := by
  match hstack : s.stack with
  | [] =>
    have hcur := h.drained (by simp [hstack])
    exact ⟨s, .refl s, by omega⟩
  | ⟨onetime, loop, events_processed, pc⟩ :: below =>
    rw [hstack] at h
    have hloop := (h.levels _ (List.mem_cons_self ..)).loop
    have hsettled : Level.settled ⟨onetime, loop, events_processed, pc⟩ = true →
        ∃ s', Leads s s' ∧ s'.ready.n_rdy_events ≤ s'.ready.cur_event_idx :=
      fun hs => ⟨s, .refl s, (h.top hs).ge⟩
    cases pc with
    | start =>
      have hstep : step s .advance = some { s with stack := ⟨onetime, loop,
          decide (s.ready.cur_event_idx < s.ready.n_rdy_events), .dispatch⟩ :: below } := by
        simp only [step, hstack, advance]
        rw [if_neg (by dsimp only at hloop; omega)]
      have hlead := Leads.single rfl hstep rfl rfl
      obtain ⟨s', hs', hcur⟩ := dispatch_leads _ _ ⟨onetime, loop,
        decide (s.ready.cur_event_idx < s.ready.n_rdy_events), .dispatch⟩ (hlead.listsEnd hend) rfl rfl
      exact ⟨s', hlead.trans hs', hcur⟩
    | dispatch => exact dispatch_leads _ s ⟨onetime, loop, events_processed, .dispatch⟩ hend hstack rfl
    | walk t error c => exact walk_leads_to_end ⟨onetime, loop, events_processed, .dispatch⟩ hend hstack
    | inCallback t error c =>
      have hlead := handler_leads ⟨onetime, loop, events_processed, .dispatch⟩ hstack
      obtain ⟨s', hs', hcur⟩ := walk_leads_to_end ⟨onetime, loop, events_processed, .dispatch⟩
        (hlead.listsEnd hend) rfl
      exact ⟨s', hlead.trans hs', hcur⟩
    | timeouts => exact hsettled rfl
    | inTimeout => exact hsettled rfl
    | exits => exact hsettled rfl
    | wait => exact hsettled rfl

/-! ## All runs -/

theorem run_inv {as : List Action} {s s' : State} (h : Inv s.ready s.stack) (hr : run step as s = some s') :
    Inv s'.ready s'.stack := by
  have hstep : ∀ s a s', (fun s : State => Inv s.ready s.stack) s → step s a = some s' → Inv s'.ready s'.stack :=
    fun _ _ _ hi hs => step_inv hi hs
  exact run_invariant hstep as s s' h hr

theorem drains_of_inv {s : State} (h : Inv s.ready s.stack) (hend : s.tables.ListsEnd) : Drains s := by
  obtain ⟨s', hlead, hcur⟩ := leads_to_end h hend
  obtain ⟨as, has, hrun⟩ := hlead.run
  refine ⟨as, s', has, hrun, hlead.returned, ?_⟩
  have hready := (run_inv h hrun).ready
  have htaken := taken_all hready (Nat.le_antisymm hready.cur hcur)
  intro t ht
  rw [htaken, hlead.returned]
  exact List.count_eq_one_of_mem (tagged_nodup _) (mem_tagged.mpr ht)

/-- A handler may call `crtx_loop_onetime`, to any depth. -/
theorem nested_loops_lose_nothing (n : Nat) (events : Nat → EpollEvent) (tables : Tables) (as : List Action) (s : State)
    (hr : run step as (init n events tables) = some s) : NothingLost s ∧ (s.tables.ListsEnd → Drains s) :=
  have hinv := run_inv (inv_init n events tables) hr
  ⟨nothingLost_of_inv hinv, drains_of_inv hinv⟩

/-- Two callbacks of entry 0, and one of entry 1, which also waits until it may write. -/
def threeCallbacks : Tables where
  callbacks e := match e with
    | 0 => some 0
    | 1 => some 2
    | _ => none
  next c := if c = 0 then some 1 else none
  cbs c :=
    { crtx_event_flags := if c = 2 then CRTX_EVLOOP_READ ||| CRTX_EVLOOP_WRITE else CRTX_EVLOOP_READ
      active := true
      error_cb := true
      event_handler := true
      triggered_flags := 0 }

/-- The handler of the first callback enters the event loop, which takes what is left of the array and returns. The
next call waits. -/
def nestedCalls : List Action :=
  [.call false, .advance, .advance, .timeoutsDone, .advance,
    .wait [{ ptr := 0, events := EPOLLIN }, { ptr := 1, events := EPOLLIN }], .advance, .advance, .advance,
    .call true, .advance, .advance, .advance, .handlerReturns, .advance, .advance, .timeoutsDone, .advance,
    .call true, .advance, .advance, .timeoutsDone, .advance, .wait [{ ptr := 1, events := EPOLLIN }], .advance]

theorem threeCallbacks_end : threeCallbacks.ListsEnd := by
  intro h
  match h with
  | none => exact ⟨[], rfl⟩
  | some 0 => exact ⟨[0, 1], rfl, rfl, rfl⟩
  | some (c + 1) => exact ⟨[c + 1], rfl, rfl⟩

theorem nested_loops_lose_nothing_depth_two :
    ∃ s, run step nestedCalls (init 2 (fun _ => ⟨0, 0⟩) threeCallbacks) = some s ∧ s.stack.length = 2 ∧
      s.ready.taken.length = 2 ∧ NothingLost s ∧ Drains s := by
  have hrun : (run step nestedCalls (init 2 (fun _ => ⟨0, 0⟩) threeCallbacks)).map
      (fun s => (s.stack.length, s.ready.taken.length, s.tables.next)) = some (2, 2, threeCallbacks.next) := rfl
  obtain ⟨s, hs, hlen⟩ := Option.map_eq_some_iff.mp hrun
  simp only [Prod.mk.injEq] at hlen
  have hall := nested_loops_lose_nothing 2 _ threeCallbacks nestedCalls s hs
  refine ⟨s, hs, hlen.1, hlen.2.1, hall.1, hall.2 ?_⟩
  unfold Tables.ListsEnd
  rw [hlen.2.2]
  exact threeCallbacks_end

end Libcortex.EpollLoop
