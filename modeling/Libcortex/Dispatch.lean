import Mathlib.Data.List.Perm.Basic
import Libcortex.Graph
import Libcortex.Lib.Run

/-!
# Any number of threads add, process and flush events

The system behind the queues: events are added to any number of graphs, claimed, processed and
flushed by any number of threads. What a thread does between two locks is one step. The lists
`adding`, `queued`, `procs`, `dropped`, `draining` and `flushing` hold the calls that are under
way, one element for each call, whatever thread it runs on.
-/

open Libcortex.Lib

namespace Libcortex.Dispatch

/-! ## The machine -/

/-- The first seven fields after `root` are the local state of the calls:
- `adding`: `crtx_add_event` has taken its references and waits for `graph->mutex`
- `queued`: it has appended the entry and not yet written its message. It holds `graph->mutex`
- `procs`: `crtx_process_one_event` has claimed the entry
- `dropped`: it has dropped the references and not yet unlinked the entry
- `draining`: `evloop_ctrl_pipe_handler` is in its loop
- `flushing`: the index that `crtx_flush_events` has reached
- `callers`: the references that callers took and still have

The others are history: `held` are the entries whose reference nobody has dropped, `taken` and `given`
count the references and dereferences of an event, `drops` and `unlinks` what happened to an entry.
The move from `equeue` to `claimed` is no unlink in this sense. -/
structure Sys where
  root : Root
  adding : List (GraphId × EventId)
  queued : List GraphId
  procs : List (GraphId × Entry)
  dropped : List (GraphId × Entry)
  draining : List GraphId
  flushing : List Nat
  callers : EventId → Nat
  held : List (GraphId × Entry)
  taken : EventId → Nat
  given : EventId → Nat
  drops : Nat → Nat
  unlinks : Nat → Nat

inductive Action where
  | reference (e : EventId)
  | dereference (e : EventId)
  | invalidate (e : EventId)
  | addBegin (g : GraphId) (e : EventId)
  | addQueue (g : GraphId) (e : EventId)
  | addTrigger (g : GraphId)
  | claim (g : GraphId)
  | drop (g : GraphId) (q : Entry)
  | finish (g : GraphId) (q : Entry)
  | readPipe
  | poll (g : GraphId)
  | flushBegin
  | flushNext (i : Nat)
deriving DecidableEq

def bump (f : Nat → Nat) (i : Nat) : Nat → Nat := Function.update f i (f i + 1)

def bumpAll (f : Nat → Nat) (l : List Nat) : Nat → Nat := fun i => f i + l.count i

/-- What `crtx_process_one_event` does first, with a claimed entry. -/
def claimEntry (s : Sys) (g : GraphId) : Sys :=
  match crtx_claim_next_event_of_graph s.root g with
  | (_, none) => s
  | (r, some q) => { s with root := r, procs := (g, q) :: s.procs }

def flushOne (s : Sys) (g : GraphId) : Sys :=
  let l := (s.root.graphs g).equeue ++ (s.root.graphs g).claimed
  { s with
    root := flushGraph s.root g
    held := s.held.filter fun p => p.1 ≠ g
    given := bumpAll s.given (l.map Entry.event)
    drops := bumpAll s.drops (l.map Entry.id)
    unlinks := bumpAll s.unlinks (l.map Entry.id) }

def queueEntry (s : Sys) (g : GraphId) (e : EventId) : Sys :=
  { s with
    root := addQueue s.root g e
    adding := s.adding.erase (g, e)
    queued := g :: s.queued
    held := (g, ⟨s.root.nextEntry, e⟩) :: s.held }

def dropUnqueued (s : Sys) (g : GraphId) (e : EventId) : Sys :=
  { s with
    root := addQueue s.root g e
    adding := s.adding.erase (g, e)
    given := bump s.given e }

def readMsg (s : Sys) : Sys :=
  match s.root.pipe with
  | [] => s
  | m :: rest =>
    let s := { s with root := { s.root with pipe := rest } }
    match m.graph with
    | some g => if some g ∈ s.root.registry then { s with draining := g :: s.draining } else s
    | none => s

/-- A freed event must not be used again, so `reference` and `addBegin` need a live one. Only a
reference that was taken can be given back. -/
def enabled (s : Sys) : Action → Prop
  | .reference e => (s.root.events e).freed = false
  | .dereference e => 0 < s.callers e
  | .invalidate e => (s.root.events e).freed = false
  | .addBegin _ e => (s.root.events e).freed = false
  | .addQueue g e => (g, e) ∈ s.adding ∧ g ∉ s.queued
  | .addTrigger g => g ∈ s.queued ∧ (crtx_get_mode s.root (s.root.graphs g).mode = .preferThread ∨ s.root.HasRoom)
  | .claim _ => True
  | .drop g q => (g, q) ∈ s.procs
  | .finish g q => (g, q) ∈ s.dropped
  | .readPipe => s.root.pipe ≠ []
  | .poll g => g ∈ s.draining
  | .flushBegin => True
  | .flushNext i => i ∈ s.flushing

instance (s : Sys) : ∀ a, Decidable (enabled s a)
  | .reference _ | .invalidate _ | .addBegin _ _ => inferInstanceAs (Decidable (_ = _))
  | .dereference _ => inferInstanceAs (Decidable (_ < _))
  | .addQueue _ _ => inferInstanceAs (Decidable (_ ∧ _))
  | .addTrigger _ => inferInstanceAs (Decidable (_ ∧ _))
  | .claim _ | .flushBegin => inferInstanceAs (Decidable True)
  | .drop _ _ | .finish _ _ | .poll _ | .flushNext _ => inferInstanceAs (Decidable (_ ∈ _))
  | .readPipe => inferInstanceAs (Decidable (_ ≠ _))

def apply (s : Sys) : Action → Sys
  | .reference e =>
    { s with
      root := s.root.setEvent e (crtx_reference_event_release (s.root.events e))
      callers := bump s.callers e
      taken := bump s.taken e }
  | .dereference e =>
    { s with
      root := s.root.setEvent e (crtx_dereference_event_release (s.root.events e))
      callers := Function.update s.callers e (s.callers e - 1)
      given := bump s.given e }
  | .invalidate e => { s with root := s.root.setEvent e (crtx_invalidate_event (s.root.events e)) }
  | .addBegin g e =>
    { s with
      root := addReference s.root e
      adding := (g, e) :: s.adding
      taken := bump s.taken e }
  | .addQueue g e => if (s.root.graphs g).tasks = [] then dropUnqueued s g e else queueEntry s g e
  | .addTrigger g => { s with root := addTrigger s.root g, queued := s.queued.erase g }
  | .claim g => claimEntry s g
  | .drop g q =>
    { s with
      root := dropReference s.root q.event
      procs := s.procs.erase (g, q)
      dropped := (g, q) :: s.dropped
      held := s.held.erase (g, q)
      given := bump s.given q.event
      drops := bump s.drops q.id }
  | .finish g q =>
    { s with
      root := finishEntry s.root g q
      dropped := s.dropped.erase (g, q)
      unlinks := bump s.unlinks q.id }
  | .readPipe => readMsg s
  | .poll g => if nextEntry? s.root g = none then { s with draining := s.draining.erase g } else claimEntry s g
  | .flushBegin => { s with flushing := 0 :: s.flushing }
  | .flushNext i =>
    let s := { s with flushing := s.flushing.erase i }
    match s.root.registry[i]? with
    | none => s
    | some none => { s with flushing := (i + 1) :: s.flushing }
    | some (some g) => { flushOne s g with flushing := (i + 1) :: s.flushing }

theorem apply_readPipe (s : Sys) :
    ∃ pipe draining, apply s .readPipe = { s with root := { s.root with pipe }, draining } := by
  unfold apply
  dsimp only
  unfold readMsg
  split
  · exact ⟨s.root.pipe, s.draining, rfl⟩
  · rename_i m rest _
    dsimp only
    split
    · split
      · exact ⟨rest, _, rfl⟩
      · exact ⟨rest, s.draining, rfl⟩
    · exact ⟨rest, s.draining, rfl⟩

def step : Sys → Action → Option Sys := guarded enabled apply

/-- How the program sets up its graphs before events flow. -/
structure Setup where
  tasks : GraphId → List TaskId
  mode : GraphId → ProcessingMode
  listener : GraphId → Option ListenerId
  registry : List (Option GraphId)
  pipe_capacity : Nat
  force_mode : ProcessingMode
  default_mode : ProcessingMode

def Setup.root (c : Setup) : Root where
  events _ := Event.fresh
  graphs g := ⟨c.tasks g, c.mode g, [], [], c.listener g⟩
  registry := c.registry
  pipe := []
  pipe_capacity := c.pipe_capacity
  nextEntry := 0
  force_mode := c.force_mode
  default_mode := c.default_mode

def init (c : Setup) : Sys where
  root := c.root
  adding := []
  queued := []
  procs := []
  dropped := []
  draining := []
  flushing := []
  callers _ := 0
  held := []
  taken _ := 0
  given _ := 0
  drops _ := 0
  unlinks _ := 0

theorem claimEntry_sameSetup (s : Sys) (g : GraphId) : s.root.SameSetup (claimEntry s g).root := by
  have h := Root.SameSetup.claim s.root g
  unfold claimEntry
  cases hq : nextEntry? s.root g with
  | none =>
    rw [claim_none hq]
    exact Root.SameSetup.refl _
  | some q =>
    rw [claim_some hq] at h ⊢
    exact h

theorem apply_sameSetup (s : Sys) (a : Action) : s.root.SameSetup (apply s a).root := by
  cases a with
  | reference e => exact Root.SameSetup.setEvent ..
  | dereference e => exact Root.SameSetup.setEvent ..
  | invalidate e => exact Root.SameSetup.setEvent ..
  | addBegin g e => exact Root.SameSetup.addReference ..
  | addQueue g e =>
    unfold apply
    dsimp only
    split <;> exact Root.SameSetup.addQueue ..
  | addTrigger g => exact Root.SameSetup.addTrigger ..
  | claim g => exact claimEntry_sameSetup s g
  | drop g q => exact Root.SameSetup.dropReference ..
  | finish g q => exact Root.SameSetup.finishEntry ..
  | readPipe =>
    obtain ⟨pipe, draining, hr⟩ := apply_readPipe s
    rw [hr]
    exact Root.SameSetup.setPipe ..
  | poll g =>
    unfold apply
    dsimp only
    split
    · exact Root.SameSetup.refl _
    · exact claimEntry_sameSetup s g
  | flushBegin => exact Root.SameSetup.refl _
  | flushNext i =>
    unfold apply
    dsimp only
    rcases s.root.registry[i]? with _ | _ | g
    · exact Root.SameSetup.refl _
    · exact Root.SameSetup.refl _
    · exact Root.SameSetup.flushGraph s.root g

/-! ## Where the entries are -/

/-- An entry is held until its reference is dropped, and then listed in `dropped` until it is unlinked.
`equeue` and `procs` share out the held ones. -/
structure Inv (s : Sys) : Prop where
  nodup : ((s.held ++ s.dropped).map fun p => p.2.id).Nodup
  old : ∀ p ∈ s.held ++ s.dropped, p.2.id < s.root.nextEntry
  held : ∀ g q, (g, q) ∈ s.held ↔ q ∈ (s.root.graphs g).equeue ∨ (g, q) ∈ s.procs
  apart : ∀ g q, q ∈ (s.root.graphs g).equeue → (g, q) ∉ s.procs
  claimed : ∀ g q, q ∈ (s.root.graphs g).claimed ↔ (g, q) ∈ s.procs ∨ (g, q) ∈ s.dropped
  equeueNodup : ∀ g, (s.root.graphs g).equeue.Nodup
  claimedNodup : ∀ g, (s.root.graphs g).claimed.Nodup
  procsNodup : s.procs.Nodup

theorem init_inv (c : Setup) : Inv (init c) := by
  constructor <;> simp [init, Setup.root]

theorem Inv.frame {s s' : Sys} (hi : Inv s) (hg : s'.root.graphs = s.root.graphs)
    (hn : s'.root.nextEntry = s.root.nextEntry) (hp : s'.procs = s.procs) (hd : s'.dropped = s.dropped)
    (hh : s'.held = s.held) : Inv s' := by
  obtain ⟨h1, h2, h3, h4, h5, h6, h7, h8⟩ := hi
  constructor <;> simp only [hg, hn, hp, hd, hh] <;> assumption

namespace Inv

variable {s : Sys}

theorem held_inj (hi : Inv s) {p p' : GraphId × Entry} (hp : p ∈ s.held ++ s.dropped)
    (hp' : p' ∈ s.held ++ s.dropped) (h : p.2.id = p'.2.id) : p = p' :=
  List.inj_on_of_nodup_map hi.nodup hp hp' h

theorem not_dropped (hi : Inv s) {p : GraphId × Entry} (hp : p ∈ s.held) : p ∉ s.dropped := by
  intro hd
  have := hi.nodup
  rw [List.map_append, List.nodup_append] at this
  exact this.2.2 _ (List.mem_map_of_mem hp) _ (List.mem_map_of_mem hd) rfl

/-- What the invariant says about one graph. -/
structure OfGraph (s : Sys) (g : GraphId) : Prop where
  held : ∀ q, (g, q) ∈ s.held ↔ q ∈ (s.root.graphs g).equeue ∨ (g, q) ∈ s.procs
  apart : ∀ q, q ∈ (s.root.graphs g).equeue → (g, q) ∉ s.procs
  claimed : ∀ q, q ∈ (s.root.graphs g).claimed ↔ (g, q) ∈ s.procs ∨ (g, q) ∈ s.dropped
  equeueNodup : (s.root.graphs g).equeue.Nodup
  claimedNodup : (s.root.graphs g).claimed.Nodup

theorem update {s' : Sys} (g : GraphId) (hi : Inv s)
    (hgraph : ∀ g', g' ≠ g → s'.root.graphs g' = s.root.graphs g')
    (hlists : ∀ p : GraphId × Entry, p.1 ≠ g →
      (p ∈ s'.held ↔ p ∈ s.held) ∧ (p ∈ s'.procs ↔ p ∈ s.procs) ∧ (p ∈ s'.dropped ↔ p ∈ s.dropped))
    (hnodup : ((s'.held ++ s'.dropped).map fun p => p.2.id).Nodup)
    (hold : ∀ p ∈ s'.held ++ s'.dropped, p.2.id < s'.root.nextEntry) (hprocs : s'.procs.Nodup)
    (hself : OfGraph s' g) : Inv s' := by
  have hall : ∀ g', OfGraph s' g' := by
    intro g'
    by_cases hg : g' = g
    · rw [hg]
      exact hself
    · have hgr := hgraph g' hg
      refine ⟨?_, ?_, ?_, ?_, ?_⟩
      · intro q
        obtain ⟨h1, h2, -⟩ := hlists (g', q) hg
        rw [hgr, h1, h2]
        exact hi.held g' q
      · intro q
        obtain ⟨-, h2, -⟩ := hlists (g', q) hg
        rw [hgr, h2]
        exact hi.apart g' q
      · intro q
        obtain ⟨-, h2, h3⟩ := hlists (g', q) hg
        rw [hgr, h2, h3]
        exact hi.claimed g' q
      · rw [hgr]
        exact hi.equeueNodup g'
      · rw [hgr]
        exact hi.claimedNodup g'
  exact ⟨hnodup, hold, fun g' => (hall g').held, fun g' => (hall g').apart, fun g' => (hall g').claimed,
    fun g' => (hall g').equeueNodup, fun g' => (hall g').claimedNodup, hprocs⟩

theorem queueEntry {g : GraphId} (hi : Inv s) (ht : (s.root.graphs g).tasks ≠ []) (e : EventId) :
    Inv (queueEntry s g e) := by
  have hnew : ∀ p ∈ s.held ++ s.dropped, p.2.id ≠ s.root.nextEntry := fun p hp => Nat.ne_of_lt (hi.old p hp)
  have hheld : ∀ q, (g, q) ∈ s.held → q.id ≠ s.root.nextEntry := by
    intro q hq
    exact hnew (g, q) (List.mem_append_left _ hq)
  apply hi.update g
  · intro g' hg
    simp only [Dispatch.queueEntry, addQueue_graphs ht]
    exact Function.update_of_ne hg ..
  · intro p hp
    have hne : p ≠ (g, ⟨s.root.nextEntry, e⟩) := by
      rintro rfl
      exact hp rfl
    simp [Dispatch.queueEntry, hne]
  · simp only [Dispatch.queueEntry]
    rw [List.cons_append, List.map_cons, List.nodup_cons]
    refine ⟨?_, hi.nodup⟩
    rintro h
    obtain ⟨p, hp, hid⟩ := List.mem_map.mp h
    exact hnew p hp hid
  · intro p hp
    simp only [Dispatch.queueEntry, addQueue_nextEntry ht] at hp ⊢
    rw [List.cons_append, List.mem_cons] at hp
    rcases hp with rfl | hp
    · exact Nat.lt_succ_self _
    · exact Nat.lt_succ_of_lt (hi.old p hp)
  · exact hi.procsNodup
  · constructor <;> simp only [Dispatch.queueEntry, addQueue_graphs ht, Function.update_self]
    · intro q
      simp [hi.held g q]
      tauto
    · intro q hq
      rw [List.mem_append, List.mem_singleton] at hq
      rcases hq with hq | rfl
      · exact hi.apart g q hq
      · intro h
        exact hheld _ ((hi.held g _).mpr (Or.inr h)) rfl
    · exact hi.claimed g
    · rw [List.nodup_append]
      refine ⟨hi.equeueNodup g, by simp, ?_⟩
      intro q hq q' hq'
      rw [List.mem_singleton] at hq'
      rintro rfl
      exact hheld q ((hi.held g q).mpr (Or.inl hq)) (by rw [hq'])
    · exact hi.claimedNodup g

theorem claimEntry (hi : Inv s) (g : GraphId) : Inv (claimEntry s g) := by
  unfold Dispatch.claimEntry
  cases hq : nextEntry? s.root g with
  | none => simpa only [claim_none hq] using hi
  | some q =>
    simp only [claim_some hq]
    have hmem := nextEntry_mem hq
    have hproc : (g, q) ∉ s.procs := hi.apart g q hmem
    have herase : ∀ p, p ∈ (s.root.graphs g).equeue.erase q ↔ p ≠ q ∧ p ∈ (s.root.graphs g).equeue :=
      fun p => (hi.equeueNodup g).mem_erase_iff
    have hcl : q ∉ (s.root.graphs g).claimed := by
      rw [hi.claimed, not_or]
      exact ⟨hproc, hi.not_dropped ((hi.held g q).mpr (Or.inl hmem))⟩
    apply hi.update g
    · intro g' hg
      exact Root.setGraph_other _ hg _
    · intro p hp
      have hne : p ≠ (g, q) := by
        rintro rfl
        exact hp rfl
      simp [hne]
    · exact hi.nodup
    · exact hi.old
    · exact List.nodup_cons.mpr ⟨hproc, hi.procsNodup⟩
    · constructor <;> simp only [Root.setGraph_self]
      · intro p
        by_cases hp : p = q
        · subst hp
          simp [hi.held g p, hmem]
        · simp [hi.held g p, herase, hp]
      · intro p hp
        obtain ⟨hne, hp⟩ := (herase p).mp hp
        simpa [hne] using hi.apart g p hp
      · intro p
        simp [hi.claimed g p]
        tauto
      · exact (hi.equeueNodup g).erase q
      · rw [List.nodup_append]
        refine ⟨hi.claimedNodup g, by simp, ?_⟩
        intro p hp p' hp'
        rw [List.mem_singleton] at hp'
        rintro rfl
        exact hcl (hp' ▸ hp)

theorem drop {g : GraphId} {q : Entry} (hi : Inv s) (hq : (g, q) ∈ s.procs) : Inv (apply s (.drop g q)) := by
  have hheld : (g, q) ∈ s.held := (hi.held g q).mpr (Or.inr hq)
  have hnd : s.held.Nodup := by
    have := hi.nodup
    rw [List.map_append, List.nodup_append] at this
    exact this.1.of_map
  have hperm : (s.held.erase (g, q) ++ (g, q) :: s.dropped).Perm (s.held ++ s.dropped) := by
    refine List.perm_middle.trans ?_
    rw [← List.cons_append]
    exact (List.perm_cons_erase hheld).symm.append_right _
  have hmem := fun p => (hnd.mem_erase_iff (a := p) (b := (g, q)))
  have hmemp := fun p => (hi.procsNodup.mem_erase_iff (a := p) (b := (g, q)))
  apply hi.update g
  · intro g' _
    rfl
  · intro p hp
    have hne : p ≠ (g, q) := by
      rintro rfl
      exact hp rfl
    simp [apply, hmem, hmemp, hne]
  · exact (hperm.map _).nodup_iff.mpr hi.nodup
  · intro p hp
    exact hi.old p (hperm.mem_iff.mp hp)
  · exact hi.procsNodup.erase _
  · constructor <;> simp only [apply, hmem, hmemp, dropReference, Root.setEvent_graphs]
    · intro p
      have := hi.apart g q
      rw [hi.held g p]
      grind
    · intro p hp hproc
      exact hi.apart g p hp hproc.2
    · intro p
      rw [hi.claimed g p, List.mem_cons]
      grind
    · exact hi.equeueNodup g
    · exact hi.claimedNodup g

theorem finish {g : GraphId} {q : Entry} (hi : Inv s) (hq : (g, q) ∈ s.dropped) : Inv (apply s (.finish g q)) := by
  have hnd : s.dropped.Nodup := by
    have := hi.nodup
    rw [List.map_append, List.nodup_append] at this
    exact this.2.1.of_map
  have hmem := fun p => (hnd.mem_erase_iff (a := p) (b := (g, q)))
  have hnp : (g, q) ∉ s.procs := by
    intro h
    exact hi.not_dropped ((hi.held g q).mpr (Or.inr h)) hq
  have hsub : (s.held ++ s.dropped.erase (g, q)).Sublist (s.held ++ s.dropped) :=
    List.Sublist.append_left List.erase_sublist _
  apply hi.update g
  · intro g' hg
    exact Root.setGraph_other _ hg _
  · intro p hp
    have hne : p ≠ (g, q) := by
      rintro rfl
      exact hp rfl
    simp [apply, hmem, hne]
  · exact hi.nodup.sublist (hsub.map _)
  · intro p hp
    exact hi.old p (hsub.subset hp)
  · exact hi.procsNodup
  · constructor <;> simp only [apply, finishEntry, Root.setGraph_self]
    · exact hi.held g
    · exact hi.apart g
    · intro p
      rw [(hi.claimedNodup g).mem_erase_iff, hi.claimed g p, hmem]
      grind
    · exact hi.equeueNodup g
    · exact (hi.claimedNodup g).erase q

/-- Nobody is processing an entry of `g`, so the flush takes away all that is held there. -/
theorem flushOne {g : GraphId} (hi : Inv s) (hc : (s.root.graphs g).claimed = []) : Inv (flushOne s g) := by
  have hnone : ∀ q, (g, q) ∉ s.procs ∧ (g, q) ∉ s.dropped := by
    intro q
    have := hi.claimed g q
    rw [hc] at this
    simpa using this
  have hsub : ((s.held.filter fun p => p.1 ≠ g) ++ s.dropped).Sublist (s.held ++ s.dropped) :=
    List.Sublist.append_right List.filter_sublist _
  apply hi.update g
  · intro g' hg
    exact Root.setGraph_other _ hg _
  · intro p hp
    simp [Dispatch.flushOne, hp]
  · exact hi.nodup.sublist (hsub.map _)
  · intro p hp
    exact hi.old p (hsub.subset hp)
  · exact hi.procsNodup
  · constructor <;> simp [Dispatch.flushOne, flushGraph, Root.setGraph, hnone]

end Inv

/-- `crtx_flush_events` reaches a graph only when nobody is processing an event of it. -/
def FlushesIdle (s : Sys) : Action → Prop
  | .flushNext i => ∀ g ∈ s.root.registry[i]?.join, (s.root.graphs g).claimed = []
  | _ => True

instance (s : Sys) : ∀ a, Decidable (FlushesIdle s a)
  | .flushNext i => inferInstanceAs (Decidable (∀ g ∈ s.root.registry[i]?.join, _))
  | .reference _ | .dereference _ | .invalidate _ | .addBegin _ _ | .addQueue _ _ | .addTrigger _ | .claim _
  | .drop _ _ | .finish _ _ | .readPipe | .poll _ | .flushBegin => inferInstanceAs (Decidable True)

theorem step_inv (s : Sys) (a : Action) (hi : Inv s) (hok : FlushesIdle s a) (hen : enabled s a) :
    Inv (apply s a) := by
  cases a with
  | addQueue g e =>
    unfold apply
    dsimp only
    split
    · rename_i ht
      exact hi.frame (by simp [dropUnqueued, addQueue, ht, dropReference])
        (by simp [dropUnqueued, addQueue, ht, dropReference]) rfl rfl rfl
    · rename_i ht
      exact hi.queueEntry ht e
  | addTrigger g =>
    exact hi.frame (addTrigger_graphs s.root g) (addTrigger_nextEntry s.root g) rfl rfl rfl
  | claim g => exact hi.claimEntry g
  | drop g q => exact hi.drop hen
  | finish g q => exact hi.finish hen
  | readPipe =>
    obtain ⟨pipe, draining, hr⟩ := apply_readPipe s
    rw [hr]
    exact hi.frame rfl rfl rfl rfl rfl
  | poll g =>
    unfold apply
    dsimp only
    split
    · exact hi.frame rfl rfl rfl rfl rfl
    · exact hi.claimEntry g
  | flushNext i =>
    unfold apply
    dsimp only
    split
    · exact hi.frame rfl rfl rfl rfl rfl
    · exact hi.frame rfl rfl rfl rfl rfl
    · rename_i g hg
      have hi' : Inv { s with flushing := s.flushing.erase i } := hi.frame rfl rfl rfl rfl rfl
      exact (hi'.flushOne (hok g (Option.join_eq_some_iff.mpr hg))).frame rfl rfl rfl rfl rfl
  | reference e => exact hi.frame rfl rfl rfl rfl rfl
  | dereference e => exact hi.frame rfl rfl rfl rfl rfl
  | invalidate e => exact hi.frame rfl rfl rfl rfl rfl
  | addBegin g e => exact hi.frame rfl rfl rfl rfl rfl
  | flushBegin => exact hi.frame rfl rfl rfl rfl rfl

end Libcortex.Dispatch
