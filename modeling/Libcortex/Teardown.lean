import Libcortex.Dispatch

/-!
# Freeing a graph with pending events

`shutdown_graph_intern` calls `crtx_free_event` for every entry that is left in the two lists of the
graph. It does not give back the reference that the entry stands for, and `crtx_free_event` waits
until the counter is zero. In a single thread nobody will ever lower it.
-/

open Libcortex.Lib Libcortex.Dispatch

namespace Libcortex.Teardown

/-! ## The code -/

/-- Why a call does not come back: it waits for the references to an event, or it uses an event that was freed. -/
inductive Stuck where
  | waits (e : EventId)
  | usesFreed (e : EventId)
deriving DecidableEq, Repr

/-- What the teardown changes. `entries` are the nodes of the queues that were freed. The two pointers of the graph
to its queues are not reset. -/
structure Mem where
  root : Root
  entries : List Entry
  graph_freed : Bool

/-- `crtx_free_event(qe->event)` and `free(qe)`, in a program with one thread. -/
def freeEntry (m : Mem) (q : Entry) : Except Stuck Mem :=
  if (m.root.events q.event).freed then .error (.usesFreed q.event)
  else
    match crtx_free_event (m.root.events q.event) with
    | (_, .waits) => .error (.waits q.event)
    | (ev, _) => .ok { m with root := m.root.setEvent q.event ev, entries := q :: m.entries }

def freeEntries : List Entry → Mem → Except Stuck Mem
  | [], m => .ok m
  | q :: l, m => do freeEntries l (← freeEntry m q)

def freeTasks (m : Mem) (g : GraphId) : Mem :=
  { m with root := m.root.setGraph g { m.root.graphs g with tasks := [] } }

/-- The graph is taken out of the registry, unless the whole library is being shut down. -/
def leaveRegistry (r : Root) (g : GraphId) (crtx_shutdown : Bool) : Root :=
  if crtx_shutdown then r else unregisterGraph r g

@[simp] theorem leaveRegistry_events (r : Root) (g : GraphId) (b : Bool) : (leaveRegistry r g b).events = r.events := by
  cases b <;> rfl

@[simp] theorem leaveRegistry_graphs (r : Root) (g : GraphId) (b : Bool) : (leaveRegistry r g b).graphs = r.graphs := by
  cases b <;> rfl

def shutdown_graph_intern (r : Root) (g : GraphId) (crtx_shutdown : Bool) : Except Stuck Mem := do
  let r := leaveRegistry r g crtx_shutdown
  let m ← freeEntries (r.graphs g).equeue ⟨r, [], false⟩
  let m ← freeEntries (r.graphs g).claimed m
  return freeTasks m g

def crtx_shutdown_graph (r : Root) (g : GraphId) : Except Stuck Mem := shutdown_graph_intern r g false

def free_graph_intern (r : Root) (g : GraphId) (crtx_shutdown : Bool) : Except Stuck Mem := do
  return { ← shutdown_graph_intern r g crtx_shutdown with graph_freed := true }

def crtx_free_graph (r : Root) (g : GraphId) : Except Stuck Mem := free_graph_intern r g false

/-! ## How the lists were built -/

/-- `callers` counts the references that the callers took, `refs` all those that are out. -/
structure Sys where
  root : Root
  callers : EventId → Nat
  refs : EventId → Nat

inductive Action where
  | reference (e : EventId)
  | add (g : GraphId) (e : EventId)
  | claim (g : GraphId)
deriving DecidableEq

/-- A freed event must not be used again. -/
def enabled (s : Sys) : Action → Prop
  | .reference e | .add _ e => (s.root.events e).freed = false
  | .claim _ => True

instance (s : Sys) : ∀ a, Decidable (enabled s a)
  | .reference _ | .add _ _ => inferInstanceAs (Decidable (_ = _))
  | .claim _ => inferInstanceAs (Decidable True)

def apply (s : Sys) : Action → Sys
  | .reference e =>
    { root := s.root.setEvent e (crtx_reference_event_release (s.root.events e))
      callers := bump s.callers e
      refs := bump s.refs e }
  | .add g e =>
    { s with
      root := crtx_add_event s.root g e
      refs := if (s.root.graphs g).tasks = [] then s.refs else bump s.refs e }
  | .claim g => { s with root := (crtx_claim_next_event_of_graph s.root g).1 }

def step : Sys → Action → Option Sys := guarded enabled apply

def init (c : Setup) : Sys where
  root := c.root
  callers _ := 0
  refs _ := 0

/-! ## What a teardown has to do -/

def pending (r : Root) (g : GraphId) : List Entry := (r.graphs g).equeue ++ (r.graphs g).claimed

/-- Nobody but the entries of `g` has a reference to `e`, and there is one. -/
def OnlyQueued (s : Sys) (g : GraphId) (e : EventId) : Prop :=
  s.callers e = 0 ∧ (∃ q ∈ pending s.root g, q.event = e) ∧ ∀ g' ≠ g, ∀ q ∈ pending s.root g', q.event ≠ e

/-- The call comes back, every event that only the queues of the graph refer to was released exactly once, and no
entry is left. -/
def TearsDown (s : Sys) (g : GraphId) (call : Except Stuck Mem) : Prop :=
  ∃ m, call = .ok m ∧
    (∀ e, OnlyQueued s g e → (m.root.events e).freed = true ∧ (m.root.events e).free_calls = 1) ∧
    ∀ q ∈ pending s.root g, q ∈ m.entries

/-- The counter of the event of every entry reads zero although the entry has a reference, the event was not freed,
and no other entry of the list has it. -/
def Free (evs : EventId → Event) (l : List Entry) : Prop :=
  (∀ q ∈ l, (evs q.event).freed = false ∧ (evs q.event).refs_before_release = 0) ∧ (l.map Entry.event).Nodup

def Unreferenced (r : Root) (g : GraphId) : Prop := Free r.events (pending r g)

/-! ## One event -/

/-- Nobody is in the middle of a release. -/
structure Settled (ev : Event) : Prop where
  releasing : ev.release_in_progress = ev.freed
  calls : ev.free_calls = if ev.freed then 1 else 0

theorem fresh_settled : Settled Event.fresh := ⟨rfl, rfl⟩

theorem free_event_settled {ev : Event} (h : Settled ev) (hlive : ev.freed = false) (hz : ev.refs_before_release = 0) :
    (crtx_free_event ev).2 = .released ∧ (crtx_free_event ev).1.freed = true ∧ Settled (crtx_free_event ev).1 := by
  have hrel : ev.release_in_progress = false := by rw [h.releasing, hlive]
  have hcalls : ev.free_calls = 0 := by rw [h.calls, hlive]; rfl
  simp only [crtx_free_event, crtx_invalidate_event, hrel, hz]
  exact ⟨rfl, rfl, rfl, by simp [hcalls]⟩

theorem free_event_waits {ev : Event} (h : Settled ev) (hlive : ev.freed = false) (hz : ev.refs_before_release ≠ 0) :
    (crtx_free_event ev).2 = .waits := by
  have hrel : ev.release_in_progress = false := by rw [h.releasing, hlive]
  have hpos : 0 < ev.refs_before_release := by
    rw [BitVec.lt_def]
    have : ev.refs_before_release.toNat ≠ 0 := fun h0 => hz (BitVec.eq_of_toNat_eq h0)
    simp only [BitVec.ofNat_eq_ofNat, BitVec.toNat_ofNat]
    omega
  unfold crtx_free_event crtx_invalidate_event
  dsimp only
  rw [hrel, if_neg (by decide), if_pos hpos]

theorem dereference_settled {ev : Event} (h : Settled ev) (hlive : ev.freed = false) :
    Settled (crtx_dereference_event_release ev) := by
  unfold crtx_dereference_event_release
  dsimp only
  have hkeep : ∀ r, Settled { ev with refs_before_release := r } := fun _ => ⟨h.releasing, h.calls⟩
  split
  · split
    · rename_i hz
      exact (free_event_settled (hkeep (ev.refs_before_release - 1)) hlive hz).2.2
    · exact hkeep _
  · split
    · rename_i hz
      exact (free_event_settled h hlive hz).2.2
    · exact h

/-! ## The loop over the entries -/

theorem freeEntry_ok {m : Mem} {q : Entry} (hs : Settled (m.root.events q.event))
    (hlive : (m.root.events q.event).freed = false) (hz : (m.root.events q.event).refs_before_release = 0) :
    freeEntry m q = .ok { m with
      root := m.root.setEvent q.event (crtx_free_event (m.root.events q.event)).1, entries := q :: m.entries } := by
  obtain ⟨h2, -, -⟩ := free_event_settled hs hlive hz
  unfold freeEntry
  rw [hlive]
  split
  · rename_i h
    cases h
  · split
    · rename_i heq
      rw [heq] at h2
      cases h2
    · rename_i heq
      rw [heq]

theorem freeEntry_stuck {m : Mem} {q : Entry} (hs : Settled (m.root.events q.event))
    (h : ¬ ((m.root.events q.event).freed = false ∧ (m.root.events q.event).refs_before_release = 0)) :
    ∃ w, freeEntry m q = .error w := by
  unfold freeEntry
  split
  · exact ⟨_, rfl⟩
  · rename_i hlive
    rw [Bool.not_eq_true] at hlive
    have hz : (m.root.events q.event).refs_before_release ≠ 0 := fun hz => h ⟨hlive, hz⟩
    have hw := free_event_waits hs hlive hz
    split
    · exact ⟨_, rfl⟩
    · rename_i ev out hne heq
      rw [heq] at hw
      exact absurd hw hne

theorem setEvent_settled {r : Root} {e : EventId} {ev : Event} (h : ∀ e, Settled (r.events e)) (hev : Settled ev) :
    ∀ e', Settled ((r.setEvent e ev).events e') := by
  intro e'
  by_cases he : e' = e
  · rw [he, Root.setEvent_self]
    exact hev
  · rw [Root.setEvent_other _ he]
    exact h e'

theorem free_cons {r : Root} {q : Entry} {l : List Entry} {ev : Event} (hfreed : ev.freed = true)
    (hq : (r.events q.event).freed = false ∧ (r.events q.event).refs_before_release = 0) :
    Free r.events (q :: l) ↔ Free (r.setEvent q.event ev).events l := by
  unfold Free
  rw [List.map_cons, List.nodup_cons]
  constructor
  · rintro ⟨hall, hnew, hnd⟩
    refine ⟨?_, hnd⟩
    intro p hp
    have hne : p.event ≠ q.event := by
      intro h
      exact hnew (h ▸ List.mem_map_of_mem hp)
    rw [Root.setEvent_other _ hne]
    exact hall p (List.mem_cons_of_mem _ hp)
  · rintro ⟨hall, hnd⟩
    have hne : ∀ p ∈ l, p.event ≠ q.event := by
      intro p hp h
      have := (hall p hp).1
      rw [h, Root.setEvent_self, hfreed] at this
      cases this
    refine ⟨?_, ?_, hnd⟩
    · intro p hp
      rcases List.mem_cons.mp hp with rfl | hp
      · exact hq
      · have := hall p hp
        rw [Root.setEvent_other _ (hne p hp)] at this
        exact this
    · intro h
      obtain ⟨p, hp, he⟩ := List.mem_map.mp h
      exact hne p hp he

/-- What the loop has done once it is through: every entry was freed, and every event of one. -/
structure Freed (m m' : Mem) (l : List Entry) : Prop where
  events : ∀ e, (m'.root.events e).freed = true ↔ (m.root.events e).freed = true ∨ ∃ q ∈ l, q.event = e
  entries : ∀ q, q ∈ m'.entries ↔ q ∈ l ∨ q ∈ m.entries
  settled : ∀ e, Settled (m'.root.events e)
  root : m'.root = { m.root with
    events := l.foldl (fun evs q => Function.update evs q.event (crtx_free_event (evs q.event)).1) m.root.events }

theorem freeEntries_cons (q : Entry) (l : List Entry) (m : Mem) :
    freeEntries (q :: l) m = (freeEntry m q).bind (freeEntries l) := rfl

theorem freeEntries_append (l l' : List Entry) : ∀ m : Mem,
    freeEntries (l ++ l') m = (freeEntries l m).bind (freeEntries l') := by
  induction l with
  | nil =>
    intro m
    rfl
  | cons q l ih =>
    intro m
    rw [List.cons_append, freeEntries_cons, freeEntries_cons]
    cases freeEntry m q with
    | error w => rfl
    | ok m1 => exact ih m1

theorem freeEntries_iff (l : List Entry) : ∀ (m : Mem), (∀ e, Settled (m.root.events e)) →
    (Free m.root.events l → ∃ m', freeEntries l m = .ok m' ∧ Freed m m' l) ∧
    (¬ Free m.root.events l → ∃ w, freeEntries l m = .error w) := by
  induction l with
  | nil =>
    intro m hs
    refine ⟨fun _ => ⟨m, rfl, by simp, by simp, hs, rfl⟩, fun h => ?_⟩
    exact absurd ⟨by simp, by simp⟩ h
  | cons q l ih =>
    intro m hs
    by_cases hq : (m.root.events q.event).freed = false ∧ (m.root.events q.event).refs_before_release = 0
    · obtain ⟨-, hfreed, hset⟩ := free_event_settled (hs q.event) hq.1 hq.2
      let m1 : Mem := { m with
        root := m.root.setEvent q.event (crtx_free_event (m.root.events q.event)).1, entries := q :: m.entries }
      obtain ⟨hok, hbad⟩ := ih m1 (setEvent_settled hs hset)
      have hrun : freeEntries (q :: l) m = freeEntries l m1 := by
        rw [freeEntries_cons, freeEntry_ok (hs q.event) hq.1 hq.2]
        rfl
      rw [hrun, free_cons hfreed hq]
      refine ⟨fun h => ?_, hbad⟩
      obtain ⟨m', hm', hfd⟩ := hok h
      refine ⟨m', hm', ?_, ?_, hfd.settled, hfd.root⟩
      · intro e
        rw [hfd.events, List.exists_mem_cons_iff]
        by_cases he : e = q.event
        · subst he
          simp [m1, hfreed]
        · have hkeep : m1.root.events e = m.root.events e := Root.setEvent_other _ he _
          have : q.event ≠ e := fun h => he h.symm
          rw [hkeep]
          tauto
      · intro p
        rw [hfd.entries, List.mem_cons, List.mem_cons]
        tauto
    · refine ⟨fun h => absurd (h.1 q (List.mem_cons_self ..)) hq, fun _ => ?_⟩
      obtain ⟨w, hw⟩ := freeEntry_stuck (hs q.event) hq
      refine ⟨w, ?_⟩
      rw [freeEntries_cons, hw]
      rfl

/-! ## States that were built by adds and claims -/

structure Built (s : Sys) : Prop where
  settled : ∀ e, Settled (s.root.events e)
  counted : ∀ e, s.refs e < 255 → (s.root.events e).refs_before_release.toNat = s.refs e
  used : ∀ g, ∀ q ∈ pending s.root g, 0 < s.refs q.event

theorem init_built (c : Setup) : Built (init c) := by
  refine ⟨fun _ => fresh_settled, fun _ _ => rfl, ?_⟩
  intro g q hq
  simp [pending, init, Setup.root] at hq

theorem reference_toNat (ev : Event) {n : Nat} (hn : n < 255) (h : ev.refs_before_release.toNat = n) :
    (crtx_reference_event_release ev).refs_before_release.toNat = n + 1 := by
  simp only [crtx_reference_event_release, BitVec.toNat_add, BitVec.ofNat_eq_ofNat, BitVec.toNat_ofNat]
  omega

theorem dereference_toNat (ev : Event) {n : Nat} (h : ev.refs_before_release.toNat = n + 1) :
    (crtx_dereference_event_release ev).refs_before_release.toNat = n := by
  have hlt := ev.refs_before_release.isLt
  have hpos : (0 : BitVec 8) < ev.refs_before_release := by
    rw [BitVec.lt_def]; simp; omega
  have hsub : (ev.refs_before_release - 1).toNat = n := by
    rw [BitVec.toNat_sub]; simp; omega
  unfold crtx_dereference_event_release
  simp only [hpos, if_true]
  split
  · -- `crtx_free_event` leaves the counter alone.
    unfold crtx_free_event crtx_invalidate_event
    dsimp only
    split
    · exact hsub
    · split <;> exact hsub
  · exact hsub

theorem add_dropped {r : Root} {g : GraphId} (ht : (r.graphs g).tasks = []) (e : EventId) :
    ∃ n, crtx_add_event r g e = r.setEvent e (crtx_dereference_event_release
      { crtx_reference_event_release (r.events e) with refs_before_response := n }) := by
  have ht' : ((addReference r e).graphs g).tasks = [] := ht
  obtain ⟨n, hn⟩ := reference_response_eq (crtx_reference_event_release (r.events e))
  obtain ⟨n', hn'⟩ := dereference_response_eq
    { crtx_reference_event_release (r.events e) with refs_before_response := n }
  refine ⟨n', ?_⟩
  unfold crtx_add_event addQueue
  dsimp only
  rw [if_pos ht', if_pos ht']
  unfold dropReference addReference
  rw [Root.setEvent_self, hn, hn']
  simp [Root.setEvent]

theorem add_queued {r : Root} {g : GraphId} (ht : (r.graphs g).tasks ≠ []) (e : EventId) :
    (∃ n o, (crtx_add_event r g e).events = Function.update r.events e
      { crtx_reference_event_release (r.events e) with refs_before_response := n, origin := o }) ∧
    (crtx_add_event r g e).graphs =
      Function.update r.graphs g { r.graphs g with equeue := (r.graphs g).equeue ++ [⟨r.nextEntry, e⟩] } := by
  have ht' : ((addReference r e).graphs g).tasks ≠ [] := ht
  unfold crtx_add_event
  dsimp only
  rw [if_neg ht', addTrigger_events, addTrigger_graphs, addQueue_graphs ht']
  refine ⟨?_, rfl⟩
  obtain ⟨n, hn⟩ := reference_response_eq (crtx_reference_event_release (r.events e))
  obtain ⟨o, ho⟩ := setOrigin_eq (addReference r e) g e
  refine ⟨n, o, ?_⟩
  unfold addQueue
  rw [if_neg ht', ho]
  unfold appendEntry addReference
  rw [hn]
  simp [Root.setEvent, Root.setGraph]

theorem Built.update {s s' : Sys} (hb : Built s) (e : EventId) {ev : Event}
    (hev : s'.root.events = Function.update s.root.events e ev) (hrefs : ∀ e' ≠ e, s'.refs e' = s.refs e')
    (hmono : s.refs e ≤ s'.refs e) (hset : Settled ev)
    (hcount : s'.refs e < 255 → ev.refs_before_release.toNat = s'.refs e)
    (hpend : ∀ g, ∀ q ∈ pending s'.root g, q ∈ pending s.root g ∨ q.event = e ∧ 0 < s'.refs e) : Built s' := by
  refine ⟨?_, ?_, ?_⟩
  · intro e'
    rw [hev]
    exact setEvent_settled (r := s.root) hb.settled hset e'
  · intro e' hlt
    rw [hev]
    by_cases he : e' = e
    · subst he
      rw [Function.update_self]
      exact hcount hlt
    · rw [Function.update_of_ne he, hrefs e' he]
      rw [hrefs e' he] at hlt
      exact hb.counted e' hlt
  · intro g q hq
    rcases hpend g q hq with h | ⟨h, hpos⟩
    · have hold := hb.used g q h
      by_cases he : q.event = e
      · rw [he] at hold ⊢
        omega
      · rw [hrefs _ he]
        exact hold
    · rw [h]
      exact hpos

theorem reference_built {s : Sys} (hb : Built s) (e : EventId) : Built (apply s (.reference e)) := by
  have hset : Settled (crtx_reference_event_release (s.root.events e)) :=
    ⟨(hb.settled e).releasing, (hb.settled e).calls⟩
  refine hb.update e rfl (fun e' he => Function.update_of_ne he ..) ?_ hset ?_ (fun g q hq => Or.inl hq)
  · simp [apply, bump]
  · intro hlt
    simp only [apply, bump, Function.update_self] at hlt ⊢
    exact reference_toNat _ (by omega) (hb.counted e (by omega))

theorem add_dropped_built {s : Sys} (hb : Built s) {g : GraphId} {e : EventId} (hen : enabled s (.add g e))
    (ht : (s.root.graphs g).tasks = []) : Built (apply s (.add g e)) := by
  obtain ⟨n, hn⟩ := add_dropped ht e
  have hev : (apply s (.add g e)).root.events = _ := congrArg Root.events hn
  have hrefs : (apply s (.add g e)).refs = s.refs := if_pos ht
  refine hb.update e hev (fun e' _ => by rw [hrefs]) (by rw [hrefs]) ?_ ?_ ?_
  · exact dereference_settled ⟨(hb.settled e).releasing, (hb.settled e).calls⟩ hen
  · intro hlt
    rw [hrefs] at hlt ⊢
    exact dereference_toNat _ (reference_toNat _ hlt (hb.counted e hlt))
  · intro g' q hq
    simp only [apply, hn] at hq
    exact Or.inl hq

theorem add_queued_built {s : Sys} (hb : Built s) {g : GraphId} (e : EventId)
    (ht : (s.root.graphs g).tasks ≠ []) : Built (apply s (.add g e)) := by
  obtain ⟨⟨n, o, hev⟩, hgr⟩ := add_queued ht e
  have hrefs : (apply s (.add g e)).refs = bump s.refs e := if_neg ht
  refine hb.update e hev (fun e' he => ?_) ?_ ⟨(hb.settled e).releasing, (hb.settled e).calls⟩ ?_ ?_
  · rw [hrefs]
    exact Function.update_of_ne he ..
  · simp [hrefs, bump]
  · intro hlt
    simp only [hrefs, bump, Function.update_self] at hlt ⊢
    exact reference_toNat _ (by omega) (hb.counted e (by omega))
  · intro g' q hq
    have hpos : 0 < (apply s (.add g e)).refs e := by simp [hrefs, bump]
    simp only [pending, apply, hgr] at hq
    by_cases hg : g' = g
    · subst hg
      rw [Function.update_self] at hq
      simp only [List.mem_append, List.mem_singleton] at hq
      rcases hq with (hq | rfl) | hq
      · exact Or.inl (List.mem_append_left _ hq)
      · exact Or.inr ⟨rfl, hpos⟩
      · exact Or.inl (List.mem_append_right _ hq)
    · rw [Function.update_of_ne hg] at hq
      exact Or.inl hq

theorem claim_built {s : Sys} (hb : Built s) (g : GraphId) : Built (apply s (.claim g)) := by
  cases hq : nextEntry? s.root g with
  | none =>
    have hid : apply s (.claim g) = s := by simp [apply, claim_none hq]
    rw [hid]
    exact hb
  | some q =>
    simp only [apply, claim_some hq]
    refine ⟨hb.settled, hb.counted, ?_⟩
    intro g' p hp
    apply hb.used g'
    unfold pending at hp ⊢
    by_cases hg : g' = g
    · subst hg
      simp only [Root.setGraph_self, List.mem_append, List.mem_singleton] at hp ⊢
      rcases hp with hp | hp | rfl
      · exact Or.inl (List.mem_of_mem_erase hp)
      · exact Or.inr hp
      · exact Or.inl (nextEntry_mem hq)
    · rw [Root.setGraph_other _ hg] at hp
      exact hp

theorem step_built (s : Sys) (a : Action) (hb : Built s) (hen : enabled s a) : Built (apply s a) := by
  cases a with
  | reference e => exact reference_built hb e
  | add g e =>
    by_cases ht : (s.root.graphs g).tasks = []
    · exact add_dropped_built hb hen ht
    · exact add_queued_built hb e ht
  | claim g => exact claim_built hb g

theorem run_built {c : Setup} {as : List Action} {s : Sys} (hr : run step as (init c) = some s) : Built s :=
  guarded_invariant step_built as (init c) s (init_built c) hr

/-! ## The two calls -/

theorem shutdown_graph_intern_eq (r : Root) (g : GraphId) (crtx_shutdown : Bool) :
    shutdown_graph_intern r g crtx_shutdown =
      (freeEntries (pending r g) ⟨leaveRegistry r g crtx_shutdown, [], false⟩).map (freeTasks · g) := by
  unfold shutdown_graph_intern pending
  dsimp only
  rw [leaveRegistry_graphs, freeEntries_append]
  cases freeEntries (r.graphs g).equeue _ with
  | error w => rfl
  | ok m => cases h : freeEntries (r.graphs g).claimed m <;> simp [Except.bind, Except.map, bind, pure, Except.pure, h]

section

variable {r : Root} {g : GraphId}

theorem shutdown_graph_ok (hs : ∀ e, Settled (r.events e)) (h : Unreferenced r g) (crtx_shutdown : Bool) :
    ∃ m, shutdown_graph_intern r g crtx_shutdown = .ok (freeTasks m g) ∧
      Freed ⟨leaveRegistry r g crtx_shutdown, [], false⟩ m (pending r g) := by
  obtain ⟨m, hm, hfd⟩ := (freeEntries_iff (pending r g) ⟨leaveRegistry r g crtx_shutdown, [], false⟩ (by simpa)).1
    (by simpa [Unreferenced] using h)
  refine ⟨m, ?_, hfd⟩
  rw [shutdown_graph_intern_eq, hm]
  rfl

theorem shutdown_graph_stuck (hs : ∀ e, Settled (r.events e)) (h : ¬ Unreferenced r g) (crtx_shutdown : Bool) :
    ∃ w, shutdown_graph_intern r g crtx_shutdown = .error w := by
  obtain ⟨w, hw⟩ := (freeEntries_iff (pending r g) ⟨leaveRegistry r g crtx_shutdown, [], false⟩ (by simpa)).2
    (by simpa [Unreferenced] using h)
  refine ⟨w, ?_⟩
  rw [shutdown_graph_intern_eq, hw]
  rfl

/-- A teardown that comes back has done what `Libcortex.shutdown_graph_intern` says. That one also forgets the
entries, which are gone. -/
theorem shutdown_graph_refines (hs : ∀ e, Settled (r.events e)) (h : Unreferenced r g) :
    ∃ m, crtx_shutdown_graph r g = .ok m ∧
      m.root.setGraph g { m.root.graphs g with equeue := [], claimed := [] } = Libcortex.shutdown_graph_intern r g := by
  obtain ⟨m, hm, hfd⟩ := shutdown_graph_ok hs h false
  refine ⟨_, hm, ?_⟩
  rw [freeTasks, hfd.root]
  simp [Root.setGraph, Libcortex.shutdown_graph_intern, pending, leaveRegistry, unregisterGraph]

end

theorem tearsDown_of_freed {s : Sys} {g : GraphId} {m₀ m m' : Mem} (hfd : Freed m₀ m (pending s.root g))
    (hroot : m'.root = (freeTasks m g).root) (hentries : m'.entries = m.entries) : TearsDown s g (.ok m') := by
  refine ⟨m', rfl, ?_, ?_⟩
  · rintro e ⟨-, ⟨q, hq, rfl⟩, -⟩
    have hfreed : (m.root.events q.event).freed = true := (hfd.events _).mpr (Or.inr ⟨q, hq, rfl⟩)
    have hev : m'.root.events = m.root.events := by rw [hroot]; rfl
    rw [hev]
    refine ⟨hfreed, ?_⟩
    rw [(hfd.settled _).calls, hfreed, if_pos rfl]
  · intro q hq
    rw [hentries, hfd.entries]
    exact Or.inl hq

/-- Both calls come back and leave nothing behind exactly if no pending event seems to have a reference. -/
theorem teardown_completes_iff (c : Setup) (as : List Action) (s : Sys) (hr : run step as (init c) = some s)
    (g : GraphId) :
    (TearsDown s g (crtx_free_graph s.root g) ↔ Unreferenced s.root g) ∧
    (TearsDown s g (crtx_shutdown_graph s.root g) ↔ Unreferenced s.root g) := by
  have hb := run_built hr
  by_cases h : Unreferenced s.root g
  · obtain ⟨m, hm, hfd⟩ := shutdown_graph_ok hb.settled h false
    refine ⟨iff_of_true ?_ h, iff_of_true ?_ h⟩
    · have hfree : crtx_free_graph s.root g = .ok { freeTasks m g with graph_freed := true } := by
        rw [crtx_free_graph, free_graph_intern, hm]
        rfl
      rw [hfree]
      exact tearsDown_of_freed hfd rfl rfl
    · rw [crtx_shutdown_graph, hm]
      exact tearsDown_of_freed hfd rfl rfl
  · obtain ⟨w, hw⟩ := shutdown_graph_stuck hb.settled h false
    refine ⟨iff_of_false ?_ h, iff_of_false ?_ h⟩
    · rintro ⟨m, hm, -⟩
      rw [crtx_free_graph, free_graph_intern, hw] at hm
      cases hm
    · rintro ⟨m, hm, -⟩
      rw [crtx_shutdown_graph, hw] at hm
      cases hm

theorem unreferenced_iff_idle {s : Sys} {g : GraphId} (hb : Built s) (hfew : ∀ e, s.refs e < 255) :
    Unreferenced s.root g ↔ pending s.root g = [] := by
  constructor
  · rintro ⟨hall, -⟩
    rw [List.eq_nil_iff_forall_not_mem]
    intro q hq
    have hz := (hall q hq).2
    have hcount := hb.counted q.event (hfew _)
    rw [hz] at hcount
    have hpos := hb.used g q hq
    simp only [BitVec.ofNat_eq_ofNat, BitVec.toNat_ofNat] at hcount
    omega
  · intro h
    simp [Unreferenced, Free, h]

/-- Graph 0 has a task. -/
def oneTask : Setup where
  tasks g := if g = 0 then [0] else []
  mode _ := .preferEloop
  listener _ := none
  registry := [some 0]
  pipe_capacity := 65536
  force_mode := .preferNone
  default_mode := .preferEloop

/-- A graph with two pending events, one of them claimed: neither call comes back. -/
theorem teardown_completes_iff_two_pending :
    ∃ s, run step [.add 0 0, .add 0 1, .claim 0] (init oneTask) = some s ∧
      ((s.root.graphs 0).equeue.length = 1 ∧ (s.root.graphs 0).claimed.length = 1) ∧
      (TearsDown s 0 (crtx_free_graph s.root 0) ↔ Unreferenced s.root 0) ∧
      (TearsDown s 0 (crtx_shutdown_graph s.root 0) ↔ Unreferenced s.root 0) :=
  ⟨_, rfl, by decide, teardown_completes_iff oneTask [.add 0 0, .add 0 1, .claim 0] _ rfl 0⟩

/-- One event in the queue, and nobody else has a reference to it: `crtx_free_graph` waits for that very entry. -/
theorem pending_event_blocks_teardown :
    let s := apply (init oneTask) (.add 0 0)
    run step [.add 0 0] (init oneTask) = some s ∧ s.callers 0 = 0 ∧ pending s.root 0 = [⟨0, 0⟩] ∧
      crtx_free_graph s.root 0 = .error (.waits 0) ∧ ¬ TearsDown s 0 (crtx_free_graph s.root 0) := by
  refine ⟨rfl, rfl, by decide, rfl, ?_⟩
  rintro ⟨m, hm, -⟩
  cases hm

end Libcortex.Teardown
