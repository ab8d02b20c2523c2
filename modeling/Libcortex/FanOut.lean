import Libcortex.Dispatch
import Libcortex.SignalTable

/-!
# One event for all listeners of a signal

`selfpipe_event_handler` of `signals.c` creates one event for a signal and adds it to the graph of every
listener. It takes no reference of its own, so the event lives on the references of the graphs that have
it already. Other threads process it in the meantime, as in `Dispatch`.
-/

open Libcortex.Lib

namespace Libcortex.FanOut

/-! ## The machine -/

/-- `signals` is the table of the main listener, and `graph` the graph of each listener. -/
structure Config where
  setup : Dispatch.Setup
  signals : List SignalTable.Entry
  graph : ListenerId → GraphId

/-- `next`: the loop has come to the listener. `adding` and `queued` are those of `Dispatch`. -/
inductive Phase where
  | idle
  | next (l : ListenerId)
  | adding (l : ListenerId)
  | queued (l : ListenerId)
  | finished
deriving DecidableEq

/-- `todo` are the listeners that follow. The last three fields are history: the listeners whose graph has
queued or dropped the event, how many entries a listener got, and whether the event was freed before the
loop was over. -/
structure St where
  sys : Dispatch.Sys
  phase : Phase
  event : EventId
  lstnrs : List ListenerId
  todo : List ListenerId
  handled : List ListenerId
  got : ListenerId → Nat
  released : Bool

inductive Action where
  | receive (r : Int) (signal_num : SignalTable.Signum) (e : EventId)
  | add
  | queue
  | trigger
  | other (a : Dispatch.Action)
deriving DecidableEq

def St.InLoop (s : St) : Prop := s.phase ≠ .idle ∧ s.phase ≠ .finished

instance (s : St) : Decidable s.InLoop := inferInstanceAs (Decidable (_ ∧ _))

/-- `r` is what `read` returned. The signal is a number of four bytes. -/
def readSignal (signals : List SignalTable.Entry) (r : Int) (signal_num : SignalTable.Signum) :
    Except Int (Option SignalTable.Entry) :=
  if r < 0 then .error r
  else if r ≠ 4 then .error (-EBADE)
  else .ok (SignalTable.lookup signals signal_num)

/-- `lit = lit->next` -/
def goOn (s : St) : St :=
  match s.todo with
  | [] => { s with phase := .finished }
  | l :: todo => { s with phase := .next l, todo }

/-- What the action is for the queues. -/
def dispatched (c : Config) (s : St) (a : Action) : Option Dispatch.Action :=
  match a, s.phase with
  | .add, .next l => some (.addBegin (c.graph l) s.event)
  | .queue, .adding l => some (.addQueue (c.graph l) s.event)
  | .trigger, .queued l => some (.addTrigger (c.graph l))
  | .other a, _ => some a
  | _, _ => none

/-- The calls of other threads, and not the one of the loop. -/
def NotOurs (c : Config) (s : St) : Dispatch.Action → Prop
  | .addQueue g e => dispatched c s .queue = some (.addQueue g e) → 1 < s.sys.adding.count (g, e)
  | .addTrigger g => dispatched c s .trigger ≠ some (.addTrigger g)
  | _ => True

instance (c : Config) (s : St) : ∀ a, Decidable (NotOurs c s a)
  | .addQueue _ _ => inferInstanceAs (Decidable (_ → _))
  | .addTrigger _ => inferInstanceAs (Decidable (_ ≠ _))
  | .reference _ | .dereference _ | .invalidate _ | .addBegin _ _ | .claim _ | .drop _ _ | .finish _ _ | .readPipe
  | .poll _ | .flushBegin | .flushNext _ => inferInstanceAs (Decidable True)

/-- `crtx_create_event` returns an event that nobody has used. -/
def enabled (c : Config) (s : St) : Action → Prop
  | .receive _ _ e => s.phase = .idle ∧ s.sys.root.events e = Event.fresh ∧ s.sys.taken e = 0
  | .other a => NotOurs c s a ∧ Dispatch.enabled s.sys a
  | a => ∃ d, dispatched c s a = some d ∧ Dispatch.enabled s.sys d

instance (o : Option Dispatch.Action) (sys : Dispatch.Sys) :
    Decidable (∃ d, o = some d ∧ Dispatch.enabled sys d) :=
  match o with
  | none => .isFalse (by simp)
  | some d => decidable_of_iff (Dispatch.enabled sys d) (by simp)

instance (c : Config) (s : St) : ∀ a, Decidable (enabled c s a)
  | .receive _ _ _ | .other _ => inferInstanceAs (Decidable (_ ∧ _))
  | .add | .queue | .trigger => inferInstanceAs (Decidable (∃ _, _))

/-- The step of the queues. -/
def applySys (c : Config) (s : St) (a : Action) : St :=
  let sys := (dispatched c s a).elim s.sys (Dispatch.apply s.sys)
  { s with sys, released := s.released || (decide s.InLoop && (sys.root.events s.event).freed) }

@[simp] theorem applySys_event (c : Config) (s : St) (a : Action) : (applySys c s a).event = s.event := rfl
@[simp] theorem applySys_lstnrs (c : Config) (s : St) (a : Action) : (applySys c s a).lstnrs = s.lstnrs := rfl
@[simp] theorem applySys_todo (c : Config) (s : St) (a : Action) : (applySys c s a).todo = s.todo := rfl
@[simp] theorem applySys_handled (c : Config) (s : St) (a : Action) : (applySys c s a).handled = s.handled := rfl
@[simp] theorem applySys_phase (c : Config) (s : St) (a : Action) : (applySys c s a).phase = s.phase := rfl

/-- The number of entries that were queued between `s` and `s'`. -/
def appended (s s' : St) (g : GraphId) : Nat :=
  (s'.sys.root.graphs g).equeue.length - (s.sys.root.graphs g).equeue.length

/-- The graph of `l` has queued or dropped the event. -/
def afterQueue (c : Config) (s s' : St) (l : ListenerId) : St :=
  let s' := { s' with
    handled := s.handled ++ [l]
    got := Function.update s.got l (s.got l + appended s s' (c.graph l)) }
  if (s.sys.root.graphs (c.graph l)).tasks = [] then goOn s' else { s' with phase := .queued l }

def apply (c : Config) (s : St) (a : Action) : St :=
  let s' := applySys c s a
  match a, s.phase with
  | .receive r signal_num e, _ =>
    match readSignal c.signals r signal_num with
    | .ok (some sig) => goOn { s' with event := e, lstnrs := sig.lstnrs, todo := sig.lstnrs }
    | _ => { s' with phase := .finished }
  | .add, .next l => { s' with phase := .adding l }
  | .queue, .adding l => afterQueue c s s' l
  | .trigger, .queued _ => goOn s'
  | _, _ => s'

def step (c : Config) : St → Action → Option St := guarded (enabled c) (apply c)

def init (c : Config) : St where
  sys := Dispatch.init c.setup
  phase := .idle
  event := 0
  lstnrs := []
  todo := []
  handled := []
  got _ := 0
  released := false

/-! ## The last reference to an event -/

def Alive (ev : Event) : Prop := ev.freed = false ∧ ev.release_in_progress = false

/-- The event, which had `refs` references, got `n` and lost `k`. With the last of them it is freed. -/
structure Moved (refs : BitVec 8) (n k : Nat) (ev : Event) : Prop where
  alive : k = 0 ∨ k < refs.toNat → Alive ev ∧ ev.refs_before_release = refs + BitVec.ofNat 8 n - BitVec.ofNat 8 k
  freed : ¬ (k = 0 ∨ k < refs.toNat) → ev.freed = true

theorem Alive.moved {ev : Event} (ha : Alive ev) : Moved ev.refs_before_release 0 0 ev :=
  ⟨fun _ => ⟨ha, by simp⟩, fun h => absurd (Or.inl rfl) h⟩

theorem reference_moved {ev : Event} (ha : Alive ev) :
    Moved ev.refs_before_release 1 0 (crtx_reference_event_release ev) :=
  ⟨fun _ => ⟨ha, by simp [crtx_reference_event_release]⟩, fun h => absurd (Or.inl rfl) h⟩

theorem dereference_moved {ev : Event} (ha : Alive ev) :
    Moved ev.refs_before_release 0 1 (crtx_dereference_event_release ev) := by
  obtain ⟨hf, hr⟩ := ha
  have hlt := ev.refs_before_release.isLt
  constructor
  · intro h
    have hpos : (0 : BitVec 8) < ev.refs_before_release := by rw [BitVec.lt_def]; simp; omega
    have hsub : (ev.refs_before_release - 1).toNat = ev.refs_before_release.toNat - 1 := by
      rw [BitVec.toNat_sub]; simp; omega
    have hne : ev.refs_before_release - 1 ≠ 0 := by
      intro h0
      rw [h0] at hsub
      simp at hsub
      omega
    simp only [crtx_dereference_event_release, hpos, if_true, hne, if_false]
    exact ⟨⟨hf, hr⟩, by simp⟩
  · intro h
    -- The counter was 0 or 1, and is 0 now.
    have hzero : (if 0 < ev.refs_before_release then
        { ev with refs_before_release := ev.refs_before_release - 1 } else ev) = { ev with refs_before_release := 0 } := by
      split
      · rename_i hpos
        rw [BitVec.lt_def] at hpos
        have h1 : ev.refs_before_release = 1 := BitVec.eq_of_toNat_eq (by simp at hpos ⊢; omega)
        simp [h1]
      · rename_i hpos
        rw [BitVec.lt_def] at hpos
        have h0 : ev.refs_before_release = 0 := BitVec.eq_of_toNat_eq (by simp at hpos ⊢; omega)
        rw [← h0]
    unfold crtx_dereference_event_release
    dsimp only
    rw [hzero]
    simp [crtx_free_event, crtx_invalidate_event, hr]

theorem addReference_moved {ev : Event} (ha : Alive ev) :
    Moved ev.refs_before_release 1 0 (crtx_reference_event_response (crtx_reference_event_release ev)) := by
  obtain ⟨r, hr⟩ := reference_response_eq (crtx_reference_event_release ev)
  rw [hr]
  exact ⟨(reference_moved ha).alive, (reference_moved ha).freed⟩

theorem dropReference_moved {ev : Event} (ha : Alive ev) :
    Moved ev.refs_before_release 0 1 (crtx_dereference_event_release (crtx_dereference_event_response ev)) := by
  obtain ⟨r, hr⟩ := dereference_response_eq ev
  rw [hr]
  exact @dereference_moved { ev with refs_before_response := r } ha

theorem dereference_freed {ev : Event} (h : ev.freed = true) : (crtx_dereference_event_release ev).freed = true := by
  unfold crtx_dereference_event_release crtx_free_event crtx_invalidate_event
  grind

theorem dropReference_freed {ev : Event} (h : ev.freed = true) :
    (crtx_dereference_event_release (crtx_dereference_event_response ev)).freed = true := by
  obtain ⟨r, hr⟩ := dereference_response_eq ev
  rw [hr]
  exact dereference_freed h

theorem flushEvent_other (events : EventId → Event) {q : Entry} {e : EventId} (h : q.event ≠ e) :
    flushEvent events q e = events e := Function.update_of_ne (Ne.symm h) ..

theorem flushEvent_self (events : EventId → Event) (q : Entry) :
    flushEvent events q q.event =
      crtx_dereference_event_release (crtx_dereference_event_response (crtx_invalidate_event (events q.event))) :=
  Function.update_self ..

theorem flush_freed {events : EventId → Event} {e : EventId} (h : (events e).freed = true) (l : List Entry) :
    (l.foldl flushEvent events e).freed = true := by
  induction l generalizing events with
  | nil => exact h
  | cons q l ih =>
    apply ih
    by_cases hq : q.event = e
    · subst hq
      rw [flushEvent_self]
      exact dropReference_freed h
    · rw [flushEvent_other events hq, h]

theorem flush_moved {events : EventId → Event} {e : EventId} (ha : Alive (events e)) (l : List Entry) :
    Moved (events e).refs_before_release 0 (l.countP fun q => q.event = e) (l.foldl flushEvent events e) := by
  induction l generalizing events with
  | nil => exact ha.moved
  | cons q l ih =>
    rw [List.foldl_cons, List.countP_cons]
    by_cases hq : q.event = e
    · subst hq
      have hone : Moved (events q.event).refs_before_release 0 1 (flushEvent events q q.event) := by
        rw [flushEvent_self]
        exact @dropReference_moved (crtx_invalidate_event (events q.event)) ha
      by_cases hk : 1 < (events q.event).refs_before_release.toNat
      · obtain ⟨ha', hc⟩ := hone.alive (Or.inr hk)
        have hrest := ih ha'
        have hsub : (flushEvent events q q.event).refs_before_release.toNat =
            (events q.event).refs_before_release.toNat - 1 := by
          rw [hc, BitVec.toNat_sub]; simp; omega
        constructor
        · intro h
          obtain ⟨ha'', hc''⟩ := hrest.alive (by simp at h; omega)
          refine ⟨ha'', ?_⟩
          rw [hc'', hc, Nat.add_comm, BitVec.ofNat_add]
          simp [BitVec.sub_sub]
        · intro h
          exact hrest.freed (by simp at h; omega)
      · constructor
        · intro h
          simp at h
          omega
        · intro _
          exact flush_freed (hone.freed (by omega)) l
    · rw [← flushEvent_other events hq] at ha ⊢
      simpa [hq] using ih ha

/-! ## What an action does to the event -/

/-- The references to `e` that the action takes. -/
def takes (e : EventId) : Dispatch.Action → Nat
  | .reference e' | .addBegin _ e' => if e' = e then 1 else 0
  | _ => 0

/-- The references to `e` that the action gives back. -/
def gives (sys : Dispatch.Sys) (e : EventId) : Dispatch.Action → Nat
  | .dereference e' => if e' = e then 1 else 0
  | .addQueue g e' => if e' = e ∧ (sys.root.graphs g).tasks = [] then 1 else 0
  | .drop _ q => if q.event = e then 1 else 0
  | .flushNext i =>
    match sys.root.registry[i]? with
    | some (some g) => ((sys.root.graphs g).equeue ++ (sys.root.graphs g).claimed).countP fun q => q.event = e
    | _ => 0
  | _ => 0

theorem setEvent_moved {r : Root} {e : EventId} (ha : Alive (r.events e)) (e' : EventId) {f : Event → Event} {n k : Nat}
    (h : ∀ ev, Alive ev → Moved ev.refs_before_release n k (f ev)) :
    Moved (r.events e).refs_before_release (if e' = e then n else 0) (if e' = e then k else 0)
      ((r.setEvent e' (f (r.events e'))).events e) := by
  by_cases he : e' = e
  · subst he
    rw [if_pos rfl, if_pos rfl, Root.setEvent_self]
    exact h _ ha
  · rw [if_neg he, if_neg he, Root.setEvent_other _ (Ne.symm he)]
    exact ha.moved

theorem claimEntry_events (sys : Dispatch.Sys) (g : GraphId) :
    (Dispatch.claimEntry sys g).root.events = sys.root.events := by
  unfold Dispatch.claimEntry
  cases hq : nextEntry? sys.root g with
  | none => simp only [claim_none hq]
  | some q => simp only [claim_some hq, Root.setGraph_events]

theorem setOrigin_moved {r : Root} {e : EventId} (ha : Alive (r.events e)) (g : GraphId) (e' : EventId) :
    Moved (r.events e).refs_before_release 0 0 ((setOrigin r g e').events e) := by
  obtain ⟨o, ho⟩ := setOrigin_eq r g e'
  rw [ho]
  have h : ∀ ev, Alive ev → Moved ev.refs_before_release 0 0 { ev with origin := o } := fun ev hev =>
    @Alive.moved { ev with origin := o } hev
  simpa only [ite_self] using setEvent_moved ha e' h

theorem addQueue_moved {sys : Dispatch.Sys} {e : EventId} (ha : Alive (sys.root.events e)) (g : GraphId) (e' : EventId) :
    Moved (sys.root.events e).refs_before_release 0 (gives sys e (.addQueue g e'))
      ((Dispatch.apply sys (.addQueue g e')).root.events e) := by
  unfold Dispatch.apply gives
  dsimp only
  by_cases ht : (sys.root.graphs g).tasks = []
  · rw [if_pos ht]
    simp only [ht, and_true, Dispatch.dropUnqueued, addQueue, if_true]
    simpa only [ite_self, dropReference] using setEvent_moved ha e' fun _ h => dropReference_moved h
  · rw [if_neg ht, if_neg (fun h => ht h.2)]
    simp only [Dispatch.queueEntry, addQueue, ht, if_false, appendEntry, Root.setGraph_events]
    exact setOrigin_moved ha g e'

theorem flushNext_moved {sys : Dispatch.Sys} {e : EventId} (ha : Alive (sys.root.events e)) (i : Nat) :
    Moved (sys.root.events e).refs_before_release 0 (gives sys e (.flushNext i))
      ((Dispatch.apply sys (.flushNext i)).root.events e) := by
  unfold Dispatch.apply gives
  dsimp only
  rcases sys.root.registry[i]? with _ | _ | g
  · exact ha.moved
  · exact ha.moved
  · exact flush_moved ha _

theorem apply_moved {sys : Dispatch.Sys} {e : EventId} (ha : Alive (sys.root.events e)) (a : Dispatch.Action) :
    Moved (sys.root.events e).refs_before_release (takes e a) (gives sys e a) ((Dispatch.apply sys a).root.events e) := by
  cases a with
  | reference e' =>
    simpa only [takes, gives, ite_self, Dispatch.apply] using setEvent_moved ha e' fun _ h => reference_moved h
  | dereference e' =>
    simpa only [takes, gives, ite_self, Dispatch.apply] using setEvent_moved ha e' fun _ h => dereference_moved h
  | invalidate e' =>
    have h : ∀ ev, Alive ev → Moved ev.refs_before_release 0 0 (crtx_invalidate_event ev) := fun ev hev =>
      @Alive.moved (crtx_invalidate_event ev) hev
    simpa only [takes, gives, ite_self, Dispatch.apply] using setEvent_moved ha e' h
  | addBegin g e' =>
    simpa only [takes, gives, ite_self, Dispatch.apply, addReference] using
      setEvent_moved ha e' fun _ h => addReference_moved h
  | addQueue g e' => exact addQueue_moved ha g e'
  | addTrigger g =>
    have h : (Dispatch.apply sys (.addTrigger g)).root.events = sys.root.events := addTrigger_events sys.root g
    rw [h]
    exact ha.moved
  | claim g =>
    have h : (Dispatch.apply sys (.claim g)).root.events = sys.root.events := claimEntry_events sys g
    rw [h]
    exact ha.moved
  | drop g q =>
    simpa only [takes, gives, ite_self, Dispatch.apply, dropReference] using
      setEvent_moved ha q.event fun _ h => dropReference_moved h
  | finish g q => exact ha.moved
  | readPipe =>
    obtain ⟨pipe, draining, hr⟩ := Dispatch.apply_readPipe sys
    have h : (Dispatch.apply sys .readPipe).root.events = sys.root.events := by rw [hr]
    rw [h]
    exact ha.moved
  | poll g =>
    have h : (Dispatch.apply sys (.poll g)).root.events = sys.root.events := by
      unfold Dispatch.apply
      dsimp only
      split
      · rfl
      · exact claimEntry_events sys g
    rw [h]
    exact ha.moved
  | flushBegin => exact ha.moved
  | flushNext i => exact flushNext_moved ha i

/-! ## Steps of the loop -/

def gained (c : Config) (s : St) (a : Action) : Nat := (dispatched c s a).elim 0 (takes s.event)

def lost (c : Config) (s : St) (a : Action) : Nat := (dispatched c s a).elim 0 (gives s.sys s.event)

/-- While the loop runs, the event keeps a reference: the counter is above the number of those given back. -/
def KeepsOne (c : Config) (s : St) (a : Action) : Prop :=
  s.InLoop → lost c s a = 0 ∨ lost c s a < (s.sys.root.events s.event).refs_before_release.toNat

instance (c : Config) (s : St) (a : Action) : Decidable (KeepsOne c s a) := inferInstanceAs (Decidable (_ → _))

theorem applySys_moved {c : Config} {s : St} (ha : Alive (s.sys.root.events s.event)) (a : Action) :
    Moved (s.sys.root.events s.event).refs_before_release (gained c s a) (lost c s a)
      ((applySys c s a).sys.root.events s.event) := by
  unfold applySys gained lost
  cases dispatched c s a with
  | none => exact ha.moved
  | some d => exact apply_moved ha d

theorem applySys_released {c : Config} {s : St} (ha : s.InLoop → Alive (s.sys.root.events s.event))
    (hr : s.released = false) (a : Action) :
    ((applySys c s a).released = false ↔ KeepsOne c s a) ∧
      (s.InLoop → (applySys c s a).released = false → Alive ((applySys c s a).sys.root.events s.event) ∧
        ((applySys c s a).sys.root.events s.event).refs_before_release =
          (s.sys.root.events s.event).refs_before_release + BitVec.ofNat 8 (gained c s a) -
            BitVec.ofNat 8 (lost c s a)) := by
  have hrel : (applySys c s a).released = false ↔
      (s.InLoop → ((applySys c s a).sys.root.events s.event).freed = false) := by
    simp [applySys, hr]
  by_cases hl : s.InLoop
  · have hm := applySys_moved (c := c) (ha hl) a
    have hiff : (applySys c s a).released = false ↔
        (lost c s a = 0 ∨ lost c s a < (s.sys.root.events s.event).refs_before_release.toNat) := by
      rw [hrel]
      constructor
      · intro h
        by_contra hn
        rw [hm.freed hn] at h
        exact absurd (h hl) (by simp)
      · intro h _
        exact (hm.alive h).1.1
    exact ⟨by rw [hiff, KeepsOne, imp_iff_right hl], fun _ h => hm.alive (hiff.mp h)⟩
  · exact ⟨iff_of_true (hrel.mpr fun h => absurd h hl) fun h => absurd h hl, fun h => absurd h hl⟩

theorem applySys_idle {c : Config} {s : St} {a : Action} (hp : ¬ s.InLoop) (hd : dispatched c s a = none) :
    applySys c s a = s := by
  simp [applySys, hp, hd]

theorem step_cases {c : Config} {s s' : St} {a : Action} (h : step c s a = some s') :
    (∃ r n e, a = .receive r n e ∧ s.phase = .idle ∧ s.sys.root.events e = Event.fresh ∧
      (s' = { s with phase := .finished } ∨
        ∃ lstnrs, s' = goOn { s with event := e, lstnrs, todo := lstnrs })) ∨
    (∃ l, a = .add ∧ s.phase = .next l ∧ s' = { applySys c s a with phase := .adding l }) ∨
    (∃ l, a = .queue ∧ s.phase = .adding l ∧ s' = afterQueue c s (applySys c s a) l) ∨
    (∃ l, a = .trigger ∧ s.phase = .queued l ∧ s' = goOn (applySys c s a)) ∨
    (∃ d, a = .other d ∧ s' = applySys c s a) := by
  obtain ⟨he, rfl⟩ := guarded_eq_some.mp h
  cases a with
  | receive r n e =>
    obtain ⟨hp, hf, -⟩ := he
    have hidle : applySys c s (.receive r n e) = s := applySys_idle (by simp [St.InLoop, hp]) rfl
    refine Or.inl ⟨r, n, e, rfl, hp, hf, ?_⟩
    unfold apply
    rw [hidle]
    dsimp only
    split
    · rename_i sig _
      exact Or.inr ⟨sig.lstnrs, rfl⟩
    · exact Or.inl rfl
  | add =>
    obtain ⟨d, hd, -⟩ := he
    cases hp : s.phase <;> simp [dispatched, hp] at hd
    exact Or.inr (Or.inl ⟨_, rfl, rfl, by simp only [apply, hp]⟩)
  | queue =>
    obtain ⟨d, hd, -⟩ := he
    cases hp : s.phase <;> simp [dispatched, hp] at hd
    exact Or.inr (Or.inr (Or.inl ⟨_, rfl, rfl, by simp only [apply, hp]⟩))
  | trigger =>
    obtain ⟨d, hd, -⟩ := he
    cases hp : s.phase <;> simp [dispatched, hp] at hd
    exact Or.inr (Or.inr (Or.inr (Or.inl ⟨_, rfl, rfl, by simp only [apply, hp]⟩)))
  | other d => exact Or.inr (Or.inr (Or.inr (Or.inr ⟨d, rfl, rfl⟩)))

theorem goOn_eq (s : St) : ∃ phase todo, goOn s = { s with phase, todo } ∧
    (phase = .finished ∧ s.todo = [] ∧ todo = [] ∨ ∃ l, phase = .next l ∧ s.todo = l :: todo) := by
  unfold goOn
  split
  · rename_i h
    exact ⟨_, _, by rw [h], Or.inl ⟨rfl, h, rfl⟩⟩
  · rename_i l todo h
    exact ⟨_, _, rfl, Or.inr ⟨l, rfl, h⟩⟩

/-! ## The invariant of the loop -/

/-- The listener that the loop has come to, unless its graph has queued or dropped the event. -/
def Phase.pending : Phase → List ListenerId
  | .next l | .adding l => [l]
  | _ => []

/-- Has the graph of the listener a task? -/
def HasTask (c : Config) (l : ListenerId) : Prop := c.setup.tasks (c.graph l) ≠ []

instance (c : Config) (l : ListenerId) : Decidable (HasTask c l) := inferInstanceAs (Decidable (_ ≠ _))

structure Inv (c : Config) (s : St) : Prop where
  tasks : ∀ g, (s.sys.root.graphs g).tasks = c.setup.tasks g
  idle : s.phase = .idle → s.handled = [] ∧ s.todo = [] ∧ s.lstnrs = [] ∧ s.released = false
  lists : s.lstnrs = s.handled ++ s.phase.pending ++ s.todo
  finished : s.phase = .finished → s.todo = []
  got : ∀ l, s.got l = if HasTask c l then s.handled.count l else 0

theorem applySys_tasks (c : Config) (s : St) (a : Action) (g : GraphId) :
    ((applySys c s a).sys.root.graphs g).tasks = (s.sys.root.graphs g).tasks := by
  unfold applySys
  cases dispatched c s a with
  | none => rfl
  | some d => exact (Dispatch.apply_sameSetup s.sys d).tasks g

theorem appended_eq {c : Config} {s : St} {l : ListenerId} (hp : s.phase = .adding l) :
    appended s (applySys c s .queue) (c.graph l) = if (s.sys.root.graphs (c.graph l)).tasks = [] then 0 else 1 := by
  have hd : dispatched c s .queue = some (.addQueue (c.graph l) s.event) := by simp only [dispatched, hp]
  unfold appended applySys
  rw [hd]
  dsimp only [Option.elim_some]
  unfold Dispatch.apply
  dsimp only
  split
  · rename_i ht
    simp [Dispatch.dropUnqueued, addQueue, ht, dropReference]
  · rename_i ht
    simp [Dispatch.queueEntry, addQueue_graphs ht]

theorem goOn_inv {c : Config} {s : St} (htasks : ∀ g, (s.sys.root.graphs g).tasks = c.setup.tasks g)
    (hlists : s.lstnrs = s.handled ++ s.todo) (hgot : ∀ l, s.got l = if HasTask c l then s.handled.count l else 0) :
    Inv c (goOn s) := by
  obtain ⟨phase, todo, heq, h⟩ := goOn_eq s
  rw [heq]
  rcases h with ⟨rfl, hs, rfl⟩ | ⟨l, rfl, hs⟩
  · exact ⟨htasks, by simp, by simpa [Phase.pending, hs] using hlists, fun _ => rfl, hgot⟩
  · exact ⟨htasks, by simp, by simpa [Phase.pending, hs] using hlists, by simp, hgot⟩

theorem step_inv {c : Config} (s : St) (a : Action) (s' : St) (hi : Inv c s) (h : step c s a = some s') : Inv c s' := by
  have htasks : ∀ g, ((applySys c s a).sys.root.graphs g).tasks = c.setup.tasks g := fun g =>
    (applySys_tasks c s a g).trans (hi.tasks g)
  obtain ⟨r, n, e, rfl, hp, -, rfl | ⟨lstnrs, rfl⟩⟩ | ⟨l, rfl, hp, rfl⟩ | ⟨l, rfl, hp, rfl⟩ | ⟨l, rfl, hp, rfl⟩ |
    ⟨d, rfl, rfl⟩ := step_cases h
  · obtain ⟨hh, ht, hl, -⟩ := hi.idle hp
    exact ⟨hi.tasks, by simp, by simp [Phase.pending, hh, ht, hl], fun _ => ht, hi.got⟩
  · obtain ⟨hh, -, -, -⟩ := hi.idle hp
    exact goOn_inv hi.tasks (by simp [hh]) hi.got
  · have hlists := hi.lists
    rw [hp] at hlists
    exact ⟨htasks, by simp, hlists, by simp, hi.got⟩
  · -- The graph of `l` has got one entry if it has a task.
    have hlists : s.lstnrs = s.handled ++ [l] ++ s.todo := by simpa [hp, Phase.pending] using hi.lists
    have hgot : ∀ k, Function.update s.got l (s.got l + appended s (applySys c s .queue) (c.graph l)) k =
        if HasTask c k then (s.handled ++ [l]).count k else 0 := by
      intro k
      rw [appended_eq hp, hi.tasks]
      by_cases hk : k = l
      · subst hk
        rw [Function.update_self, hi.got, List.count_append, List.count_singleton_self]
        unfold HasTask
        split <;> rename_i hc <;> simp [hc]
      · rw [Function.update_of_ne hk, hi.got, List.count_append, List.count_singleton]
        simp [Ne.symm hk]
    unfold afterQueue
    dsimp only
    split
    · exact goOn_inv htasks hlists hgot
    · exact ⟨htasks, by simp, by simpa [Phase.pending] using hlists, by simp, hgot⟩
  · exact goOn_inv htasks (by simpa [hp, Phase.pending] using hi.lists) hi.got
  · refine ⟨htasks, fun hp => ?_, hi.lists, hi.finished, hi.got⟩
    obtain ⟨hh, ht, hl, hr⟩ := hi.idle hp
    refine ⟨hh, ht, hl, ?_⟩
    have hp : s.phase = .idle := hp
    simp [applySys, St.InLoop, hp, hr]

theorem init_inv (c : Config) : Inv c (init c) where
  tasks _ := rfl
  idle _ := ⟨rfl, rfl, rfl, rfl⟩
  lists := rfl
  finished _ := rfl
  got _ := by simp [init]

/-! ## The event lives while the loop runs -/

def Living (s : St) : Prop := s.InLoop → s.released = false → Alive (s.sys.root.events s.event)

theorem goOn_sys (s : St) : (goOn s).sys = s.sys ∧ (goOn s).released = s.released ∧ (goOn s).event = s.event ∧
    (goOn s).handled = s.handled := by
  obtain ⟨_, _, heq, -⟩ := goOn_eq s
  rw [heq]
  exact ⟨rfl, rfl, rfl, rfl⟩

theorem afterQueue_sys (c : Config) (s s' : St) (l : ListenerId) :
    (afterQueue c s s' l).sys = s'.sys ∧ (afterQueue c s s' l).released = s'.released ∧
      (afterQueue c s s' l).event = s'.event ∧ (afterQueue c s s' l).handled = s.handled ++ [l] := by
  unfold afterQueue
  dsimp only
  split
  · exact goOn_sys _
  · exact ⟨rfl, rfl, rfl, rfl⟩

theorem step_sys {c : Config} {s s' : St} {a : Action} (h : step c s a = some s') :
    (¬ s.InLoop ∧ s'.released = s.released ∧ s'.handled = s.handled ∧
      (s'.InLoop → s'.sys.root.events s'.event = Event.fresh)) ∨
    (s'.sys = (applySys c s a).sys ∧ s'.released = (applySys c s a).released ∧ s'.event = s.event ∧
      (s'.InLoop → s.InLoop)) := by
  obtain ⟨r, n, e, rfl, hp, hf, rfl | ⟨lstnrs, rfl⟩⟩ | ⟨l, rfl, hp, rfl⟩ | ⟨l, rfl, hp, rfl⟩ | ⟨l, rfl, hp, rfl⟩ |
    ⟨d, rfl, rfl⟩ := step_cases h
  · exact Or.inl ⟨by simp [St.InLoop, hp], rfl, rfl, by simp [St.InLoop]⟩
  · obtain ⟨h1, h2, h3, h4⟩ := goOn_sys { s with event := e, lstnrs, todo := lstnrs }
    refine Or.inl ⟨by simp [St.InLoop, hp], h2, h4, fun _ => ?_⟩
    rw [h1, h3, hf]
  · exact Or.inr ⟨rfl, rfl, rfl, fun _ => by simp [St.InLoop, hp]⟩
  · obtain ⟨h1, h2, h3, -⟩ := afterQueue_sys c s (applySys c s .queue) l
    exact Or.inr ⟨h1, h2, h3, fun _ => by simp [St.InLoop, hp]⟩
  · obtain ⟨h1, h2, h3, -⟩ := goOn_sys (applySys c s .trigger)
    exact Or.inr ⟨h1, h2, h3, fun _ => by simp [St.InLoop, hp]⟩
  · exact Or.inr ⟨rfl, rfl, rfl, id⟩

theorem fresh_alive : Alive Event.fresh := ⟨rfl, rfl⟩

theorem step_living {c : Config} (s : St) (a : Action) (s' : St) (hl : Living s) (hr : s.released = false)
    (h : step c s a = some s') : Living s' ∧ (s'.released = false ↔ KeepsOne c s a) := by
  rcases step_sys h with ⟨hn, hr', -, hf⟩ | ⟨h1, h2, h3, h4⟩
  · exact ⟨fun hin _ => by rw [hf hin]; exact fresh_alive, iff_of_true (hr'.trans hr) fun h => absurd h hn⟩
  · obtain ⟨hiff, ha⟩ := applySys_released (c := c) (fun hin => hl hin hr) hr a
    rw [← h2] at hiff ha
    refine ⟨fun hin hrel => ?_, hiff⟩
    rw [h1, h3]
    exact (ha (h4 hin) hrel).1

theorem released_stays {c : Config} (s : St) (a : Action) (s' : St) (hr : ¬ s.released = false)
    (h : step c s a = some s') : ¬ s'.released = false := by
  rcases step_sys h with ⟨-, hr', -, -⟩ | ⟨-, h2, -, -⟩
  · rw [hr']
    exact hr
  · rw [h2]
    simp only [Bool.not_eq_false] at hr
    simp [applySys, hr]

/-- The event was not freed before the loop was over, and every listener got its entry if its graph has a task. -/
structure FansOut (c : Config) (s : St) : Prop where
  kept : s.released = false
  entries : s.phase = .finished → ∀ l, HasTask c l → s.got l = s.lstnrs.count l

theorem entries_of_inv {c : Config} {s : St} (hi : Inv c s) (hp : s.phase = .finished) (l : ListenerId)
    (ht : HasTask c l) : s.got l = s.lstnrs.count l := by
  rw [hi.got, if_pos ht, hi.lists, hi.finished hp, hp]
  simp [Phase.pending]

theorem fansOut_iff {c : Config} {as : List Action} {s : St} (hr : run (step c) as (init c) = some s) :
    FansOut c s ↔ s.released = false := by
  have hi := run_invariant step_inv as (init c) s (init_inv c) hr
  exact ⟨fun h => h.kept, fun h => ⟨h, entries_of_inv hi⟩⟩

theorem kept_iff {c : Config} {as : List Action} {s : St} (hr : run (step c) as (init c) = some s) :
    s.released = false ↔ Meets (step c) (KeepsOne c) as (init c) :=
  run_good_iff step_living released_stays as (init c) s (fun h => absurd rfl h.1) rfl hr

/-! ## Without other threads -/

/-- While the loop runs, nobody else takes a reference to the event or gives one back. -/
def Alone (s : St) : Action → Prop
  | .other d => s.InLoop → takes s.event d = 0 ∧ gives s.sys s.event d = 0
  | _ => True

instance (s : St) : ∀ a, Decidable (Alone s a)
  | .other _ => inferInstanceAs (Decidable (_ → _))
  | .receive _ _ _ | .add | .queue | .trigger => inferInstanceAs (Decidable True)

def withTask (c : Config) (ls : List ListenerId) : Nat := ls.countP fun l => HasTask c l

/-- The listeners before one whose graph has no task keep the event for it. Their references and the one that the
graph drops at once are counted with 8 bits. -/
def Spared (c : Config) (ls : List ListenerId) : Prop :=
  ∀ xs l ys, ls = xs ++ l :: ys → ¬ HasTask c l → withTask c xs % 256 ≠ 0 ∧ withTask c xs % 256 ≠ 255

theorem withTask_snoc (c : Config) (ls : List ListenerId) (l : ListenerId) :
    withTask c (ls ++ [l]) = withTask c ls + if HasTask c l then 1 else 0 := by
  simp [withTask, List.countP_singleton]

theorem spared_nil (c : Config) : Spared c [] := by
  intro xs l ys h
  simp at h

theorem spared_snoc {c : Config} {ls : List ListenerId} {l : ListenerId} :
    Spared c (ls ++ [l]) ↔
      Spared c ls ∧ (¬ HasTask c l → withTask c ls % 256 ≠ 0 ∧ withTask c ls % 256 ≠ 255) := by
  constructor
  · intro h
    exact ⟨fun xs k ys heq => h xs k (ys ++ [l]) (by simp [heq]), h ls l [] rfl⟩
  · rintro ⟨h, hlast⟩ xs k ys heq
    rcases List.eq_nil_or_concat ys with rfl | ⟨zs, z, rfl⟩
    · obtain ⟨rfl, rfl⟩ : ls = xs ∧ l = k := by simpa using heq
      exact hlast
    · rw [List.concat_eq_append, ← List.cons_append, ← List.append_assoc] at heq
      exact h xs k zs (List.append_inj' heq rfl).1

/-- The reference of the call that is under way. -/
def Phase.adds : Phase → Nat
  | .adding _ => 1
  | _ => 0

structure AloneInv (c : Config) (s : St) : Prop where
  inv : Inv c s
  living : Living s
  kept : s.released = false ↔ Spared c s.handled
  refs : s.InLoop → s.released = false →
    (s.sys.root.events s.event).refs_before_release = BitVec.ofNat 8 (withTask c s.handled + s.phase.adds)

theorem step_handled {c : Config} {s s' : St} {a : Action} (h : step c s a = some s') :
    s'.handled = s.handled ∨ ∃ l, s'.handled = s.handled ++ [l] := by
  obtain ⟨r, n, e, rfl, hp, hf, rfl | ⟨lstnrs, rfl⟩⟩ | ⟨l, rfl, hp, rfl⟩ | ⟨l, rfl, hp, rfl⟩ | ⟨l, rfl, hp, rfl⟩ |
    ⟨d, rfl, rfl⟩ := step_cases h
  · exact Or.inl rfl
  · exact Or.inl (goOn_sys _).2.2.2
  · exact Or.inl rfl
  · exact Or.inr ⟨l, (afterQueue_sys c s _ l).2.2.2⟩
  · exact Or.inl (goOn_sys _).2.2.2
  · exact Or.inl rfl

theorem one_lt_wrapped (n : Nat) : 1 < (BitVec.ofNat 8 (n + 1)).toNat ↔ n % 256 ≠ 0 ∧ n % 256 ≠ 255 := by
  rw [BitVec.toNat_ofNat]
  omega

theorem AloneInv.keeps {c : Config} {s s' : St} {a : Action} (hi : AloneInv c s) (hr : s.released = false)
    (h : step c s a = some s') (hlost : s.InLoop → lost c s a = 0)
    (hspared : Spared c s'.handled ↔ Spared c s.handled)
    (hrefs : s'.InLoop → (s.InLoop ∧ s'.sys = (applySys c s a).sys ∧ s'.event = s.event ∧
      withTask c s'.handled + s'.phase.adds = withTask c s.handled + s.phase.adds + gained c s a) ∨
        s'.sys.root.events s'.event = Event.fresh ∧ withTask c s'.handled + s'.phase.adds = 0) : AloneInv c s' := by
  obtain ⟨hl', hiff⟩ := step_living s a s' hi.living hr h
  have hr' : s'.released = false := hiff.mpr fun hin => Or.inl (hlost hin)
  refine ⟨step_inv s a s' hi.inv h, hl', by rw [hspared, ← hi.kept, hr, hr'], fun hin _ => ?_⟩
  rcases hrefs hin with ⟨hin', hsys, hev, hsum⟩ | ⟨hf, hsum⟩
  · have hm := (applySys_moved (c := c) (hi.living hin' hr) a).alive (Or.inl (hlost hin'))
    rw [hsys, hev, hm.2, hi.refs hin' hr, hlost hin', hsum, BitVec.ofNat_add (withTask c s.handled + s.phase.adds)]
    simp
  · rw [hf, hsum]
    rfl

theorem goOn_adds (s : St) : (goOn s).phase.adds = 0 := by
  obtain ⟨_, _, heq, ⟨rfl, -⟩ | ⟨_, rfl, -⟩⟩ := goOn_eq s <;> rw [heq] <;> rfl

theorem AloneInv.drops {c : Config} {s : St} (hi : AloneInv c s) (hr : s.released = false) {l : ListenerId}
    (hp : s.phase = .adding l) (ht : ¬ HasTask c l)
    (h : step c s .queue = some (afterQueue c s (applySys c s .queue) l)) :
    AloneInv c (afterQueue c s (applySys c s .queue) l) := by
  have hin : s.InLoop := by simp [St.InLoop, hp]
  have htasks : (s.sys.root.graphs (c.graph l)).tasks = [] := by rw [hi.inv.tasks]; exact not_not.mp ht
  have hgained : gained c s .queue = 0 := by simp [gained, dispatched, hp, takes]
  have hlost : lost c s .queue = 1 := by simp [lost, dispatched, hp, gives, htasks]
  have hrefs := hi.refs hin hr
  rw [hp] at hrefs
  obtain ⟨hsys, -, hev, hhandled⟩ := afterQueue_sys c s (applySys c s .queue) l
  have hadds : (afterQueue c s (applySys c s .queue) l).phase.adds = 0 := by
    unfold afterQueue
    rw [if_pos htasks]
    exact goOn_adds _
  obtain ⟨hl', hiff⟩ := step_living s .queue _ hi.living hr h
  have hcond : KeepsOne c s .queue ↔ withTask c s.handled % 256 ≠ 0 ∧ withTask c s.handled % 256 ≠ 255 := by
    rw [KeepsOne, imp_iff_right hin, hlost, hrefs, ← one_lt_wrapped]
    simp [Phase.adds]
  refine ⟨step_inv s .queue _ hi.inv h, hl', ?_, fun _ hr' => ?_⟩
  · rw [hiff, hcond, hhandled, spared_snoc, imp_iff_right ht, and_iff_right (hi.kept.mp hr)]
  · have hm := (applySys_moved (c := c) (hi.living hin hr) .queue).alive (hiff.mp hr' hin)
    rw [hsys, hev, applySys_event, hm.2, hgained, hlost, hrefs, hhandled, withTask_snoc, if_neg ht, hadds,
      BitVec.ofNat_add]
    simp [Phase.adds]

theorem step_alone {c : Config} (s : St) (a : Action) (s' : St) (hi : AloneInv c s) (hok : Alone s a)
    (h : step c s a = some s') : AloneInv c s' := by
  by_cases hr : s.released = false
  swap
  · have hr' := released_stays s a s' hr h
    refine ⟨step_inv s a s' hi.inv h, fun _ h => absurd h hr', iff_of_false hr' fun hs => hr (hi.kept.mpr ?_),
      fun _ h => absurd h hr'⟩
    rcases step_handled h with heq | ⟨l, heq⟩
    · rwa [heq] at hs
    · rw [heq, spared_snoc] at hs
      exact hs.1
  have hcases := step_cases h
  obtain ⟨r, n, e, rfl, hp, hf, rfl | ⟨lstnrs, rfl⟩⟩ | ⟨l, rfl, hp, rfl⟩ | ⟨l, rfl, hp, rfl⟩ | ⟨l, rfl, hp, rfl⟩ |
    ⟨d, rfl, rfl⟩ := hcases
  · exact hi.keeps hr h (fun _ => rfl) Iff.rfl (by simp [St.InLoop])
  · obtain ⟨hsys, -, hev, hhandled⟩ := goOn_sys { s with event := e, lstnrs, todo := lstnrs }
    refine hi.keeps hr h (fun _ => rfl) (by rw [hhandled]) fun _ => Or.inr ⟨by rw [hsys, hev, hf], ?_⟩
    rw [hhandled, goOn_adds, (hi.inv.idle hp).1]
    rfl
  · have hd : dispatched c s .add = some (.addBegin (c.graph l) s.event) := by simp only [dispatched, hp]
    refine hi.keeps hr h (fun _ => by simp [lost, hd, gives]) Iff.rfl fun _ =>
      Or.inl ⟨by simp [St.InLoop, hp], rfl, rfl, ?_⟩
    simp [gained, hd, takes, hp, Phase.adds]
  · by_cases ht : HasTask c l
    · have htasks : (s.sys.root.graphs (c.graph l)).tasks ≠ [] := by rw [hi.inv.tasks]; exact ht
      have hd : dispatched c s .queue = some (.addQueue (c.graph l) s.event) := by simp only [dispatched, hp]
      obtain ⟨hsys, -, hev, hhandled⟩ := afterQueue_sys c s (applySys c s .queue) l
      refine hi.keeps hr h (fun _ => by simp [lost, hd, gives, htasks]) ?_ fun _ =>
        Or.inl ⟨by simp [St.InLoop, hp], hsys, hev, ?_⟩
      · rw [hhandled, spared_snoc]
        simp [ht]
      · -- The entry takes over the reference of the call.
        rw [hhandled, withTask_snoc]
        simp [afterQueue, htasks, ht, gained, hd, takes, hp, Phase.adds]
    · exact hi.drops hr hp ht h
  · have hd : dispatched c s .trigger = some (.addTrigger (c.graph l)) := by simp only [dispatched, hp]
    obtain ⟨hsys, -, hev, hhandled⟩ := goOn_sys (applySys c s .trigger)
    refine hi.keeps hr h (fun _ => by simp [lost, hd, gives]) (by rw [hhandled, applySys_handled]) fun _ =>
      Or.inl ⟨by simp [St.InLoop, hp], hsys, hev, ?_⟩
    rw [hhandled, goOn_adds]
    simp [gained, hd, takes, hp, Phase.adds]
  · refine hi.keeps hr h (fun hin => (hok hin).2) Iff.rfl fun hin => Or.inl ⟨hin, rfl, rfl, ?_⟩
    have htakes : takes s.event d = 0 := (hok hin).1
    simp [gained, dispatched, htakes]

theorem spared_iff {c : Config} {as : List Action} {s : St} (hm : Meets (step c) Alone as (init c))
    (hr : run (step c) as (init c) = some s) : s.released = false ↔ Spared c s.handled :=
  (run_keeps step_alone as (init c) s
    ⟨init_inv c, fun h => absurd rfl h.1, iff_of_true rfl (spared_nil c), fun h => absurd rfl h.1⟩ hm hr).kept

/-! ## The result -/

/-- While the loop runs, the event must not lose its last reference. As long as nobody else has to do with it, that
depends on the order of the listeners only. -/
theorem signal_fan_out_iff (c : Config) (as : List Action) (s : St) (hr : run (step c) as (init c) = some s) :
    (FansOut c s ↔ Meets (step c) (KeepsOne c) as (init c)) ∧
      (Meets (step c) Alone as (init c) → (FansOut c s ↔ Spared c s.handled)) ∧
      (s.phase = .finished → s.handled = s.lstnrs) := by
  have hi := run_invariant step_inv as (init c) s (init_inv c) hr
  refine ⟨(fansOut_iff hr).trans (kept_iff hr), fun hm => (fansOut_iff hr).trans (spared_iff hm hr), fun hp => ?_⟩
  rw [hi.lists, hi.finished hp, hp]
  simp [Phase.pending]

/-- Two listeners have asked for `SIGINT`. -/
def twoListeners (tasks : GraphId → List TaskId) : Config where
  setup :=
    { tasks, mode := fun _ => .preferEloop, listener := some, registry := [some 0, some 1], pipe_capacity := 65536,
      force_mode := .preferNone, default_mode := .preferEloop }
  signals := [⟨SignalTable.SIGINT, [0, 1], .selfpipe_signal_handler⟩]
  graph l := l

/-- The second graph has no task, and another thread has claimed the entry of the first. -/
def secondEmpty : Config := twoListeners fun g => if g = 0 then [0] else []

def secondEmptyRun : List Action :=
  [.receive 4 SignalTable.SIGINT 7, .add, .queue, .trigger, .other (.claim 0), .add, .queue]

theorem signal_fan_out_iff_second_empty :
    ∃ s, run (step secondEmpty) secondEmptyRun (init secondEmpty) = some s ∧ s.phase = .finished ∧ s.lstnrs = [0, 1] ∧
      s.got 0 = 1 ∧
      (FansOut secondEmpty s ↔
        Meets (step secondEmpty) (KeepsOne secondEmpty) secondEmptyRun (init secondEmpty)) ∧
      (Meets (step secondEmpty) Alone secondEmptyRun (init secondEmpty) →
        (FansOut secondEmpty s ↔ Spared secondEmpty s.handled)) ∧
      (s.phase = .finished → s.handled = s.lstnrs) :=
  ⟨_, rfl, by decide, by decide, by decide, signal_fan_out_iff secondEmpty secondEmptyRun _ rfl⟩

/-- The first graph has no task. -/
def firstEmpty : Config := twoListeners fun g => if g = 0 then [] else [0]

/-- Both graphs have a task. -/
def noneEmpty : Config := twoListeners fun _ => [0]

/-- The event is freed while the second listener is to come: by the first graph, because it has no task, or by
a thread that has processed the event in the meantime. -/
theorem event_freed_in_loop :
    (∃ s, run (step firstEmpty) [.receive 4 SignalTable.SIGINT 7, .add, .queue] (init firstEmpty) = some s ∧
      s.phase = .next 1 ∧ (s.sys.root.events 7).freed = true ∧ ¬ FansOut firstEmpty s) ∧
    ∃ s, run (step noneEmpty)
        [.receive 4 SignalTable.SIGINT 7, .add, .queue, .trigger, .other (.claim 0), .other (.drop 0 ⟨0, 7⟩)]
        (init noneEmpty) = some s ∧
      s.phase = .next 1 ∧ (s.sys.root.events 7).freed = true ∧ ¬ FansOut noneEmpty s :=
  ⟨⟨_, rfl, by decide, by decide, fun h => absurd h.kept (by decide)⟩,
    ⟨_, rfl, by decide, by decide, fun h => absurd h.kept (by decide)⟩⟩

end Libcortex.FanOut
