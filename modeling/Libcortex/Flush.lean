import Libcortex.Dispatch

/-!
# Every entry is dropped and unlinked once

`crtx_process_one_event` and `crtx_flush_events` both drop the reference of an entry and unlink
it. The flush also does so for entries that are being processed, and their processing does it
again. As long as each graph is idle when the flush reaches it, each entry is dropped once.
-/

open Libcortex.Lib Libcortex.Dispatch

namespace Libcortex.Flush

/-! ## A counter that counts each number once -/

/-- Of the numbers below `n`, `f` has counted each one once, but for those in `l`. -/
def CountedBut (l : List Nat) (n : Nat) (f : Nat → Nat) : Prop :=
  ∀ i, f i = if i ∈ l then 0 else if i < n then 1 else 0

namespace CountedBut

variable {l m : List Nat} {n : Nat} {f : Nat → Nat}

theorem congr (hf : CountedBut l n f) (hm : ∀ i, i ∈ m ↔ i ∈ l) : CountedBut m n f := by
  intro i
  rw [hf i]
  grind

theorem new (hf : CountedBut l n f) : CountedBut (n :: l) (n + 1) f := by
  intro i
  rw [hf i]
  grind

theorem bump {a : Nat} (hf : CountedBut l n f) (ha : a ∈ l) (hn : a < n) (hm : ∀ i, i ∈ m ↔ i ≠ a ∧ i ∈ l) :
    CountedBut m n (bump f a) := by
  intro i
  unfold Dispatch.bump
  by_cases h : i = a
  · subst h
    rw [Function.update_self, hf i]
    grind
  · rw [Function.update_of_ne h, hf i]
    grind

theorem bumpAll {ks : List Nat} (hf : CountedBut l n f) (hnd : ks.Nodup) (hk : ∀ k ∈ ks, k ∈ l ∧ k < n)
    (hm : ∀ i, i ∈ m ↔ i ∉ ks ∧ i ∈ l) : CountedBut m n (bumpAll f ks) := by
  intro i
  unfold Dispatch.bumpAll
  rw [hf i, hnd.count]
  grind

end CountedBut

/-! ## Drops and unlinks -/

def entryIds (l : List (GraphId × Entry)) : List Nat := l.map fun p => p.2.id

theorem mem_entryIds {l : List (GraphId × Entry)} {p : GraphId × Entry} (hp : p ∈ l) : p.2.id ∈ entryIds l :=
  List.mem_map_of_mem hp

theorem entryIds_append (l m : List (GraphId × Entry)) : entryIds (l ++ m) = entryIds l ++ entryIds m :=
  List.map_append

theorem mem_entryIds_erase {l : List (GraphId × Entry)} (hnd : (entryIds l).Nodup) {p : GraphId × Entry}
    (hp : p ∈ l) (i : Nat) : i ∈ entryIds (l.erase p) ↔ i ≠ p.2.id ∧ i ∈ entryIds l := by
  have hperm : (entryIds l).Perm (p.2.id :: entryIds (l.erase p)) := (List.perm_cons_erase hp).map _
  have hnd' := hperm.nodup_iff.mp hnd
  rw [hperm.mem_iff, List.mem_cons]
  rw [List.nodup_cons] at hnd'
  grind

/-- A held entry was neither dropped nor unlinked. One in `dropped` was dropped, but not unlinked. -/
structure Once (s : Sys) : Prop where
  drops : CountedBut (entryIds s.held) s.root.nextEntry s.drops
  unlinks : CountedBut (entryIds (s.held ++ s.dropped)) s.root.nextEntry s.unlinks

theorem init_once (c : Setup) : Once (init c) := by
  constructor <;> intro i <;> simp [init, Setup.root, entryIds]

theorem Once.frame {s s' : Sys} (ho : Once s) (hn : s'.root.nextEntry = s.root.nextEntry)
    (hh : s'.held = s.held) (hd : s'.dropped = s.dropped) (hdr : s'.drops = s.drops)
    (hu : s'.unlinks = s.unlinks) : Once s' := by
  obtain ⟨h1, h2⟩ := ho
  constructor <;> simp only [hn, hh, hd, hdr, hu] <;> assumption

theorem ids_nodup {s : Sys} (hi : Inv s) :
    (entryIds s.held).Nodup ∧ (entryIds s.dropped).Nodup ∧
      ∀ i ∈ entryIds s.held, ∀ j ∈ entryIds s.dropped, i ≠ j := by
  have := hi.nodup
  rwa [List.map_append, List.nodup_append] at this

theorem ids_old {s : Sys} (hi : Inv s) : ∀ i ∈ entryIds (s.held ++ s.dropped), i < s.root.nextEntry := by
  intro i hmem
  obtain ⟨p, hp, rfl⟩ := List.mem_map.mp hmem
  exact hi.old p hp

theorem queueEntry_once {s : Sys} {g : GraphId} (ho : Once s) (ht : (s.root.graphs g).tasks ≠ [])
    (e : EventId) : Once (queueEntry s g e) := by
  constructor
  · simp only [queueEntry, addQueue_nextEntry ht]
    exact ho.drops.new
  · simp only [queueEntry, addQueue_nextEntry ht]
    exact ho.unlinks.new

theorem claimEntry_once {s : Sys} (ho : Once s) (g : GraphId) : Once (claimEntry s g) := by
  unfold claimEntry
  cases hq : nextEntry? s.root g with
  | none => simpa only [claim_none hq] using ho
  | some q =>
    simp only [claim_some hq]
    exact ho.frame rfl rfl rfl rfl rfl

theorem drop_once {s : Sys} {g : GraphId} {q : Entry} (hi : Inv s) (ho : Once s) (hq : (g, q) ∈ s.procs) :
    Once (apply s (.drop g q)) := by
  have hheld : (g, q) ∈ s.held := (hi.held g q).mpr (Or.inr hq)
  have hlt : q.id < s.root.nextEntry := hi.old (g, q) (List.mem_append_left _ hheld)
  have hid : q.id ∈ entryIds s.held := mem_entryIds hheld
  have hmem := mem_entryIds_erase (ids_nodup hi).1 hheld
  constructor
  · exact ho.drops.bump hid hlt hmem
  · apply ho.unlinks.congr
    intro i
    -- The entry moves from `held` to `dropped`.
    change i ∈ entryIds (s.held.erase (g, q) ++ (g, q) :: s.dropped) ↔ _
    rw [entryIds_append, entryIds_append, List.mem_append, List.mem_append, hmem]
    simp only [entryIds, List.map_cons, List.mem_cons] at hid ⊢
    grind

theorem finish_once {s : Sys} {g : GraphId} {q : Entry} (hi : Inv s) (ho : Once s) (hq : (g, q) ∈ s.dropped) :
    Once (apply s (.finish g q)) := by
  have hlt : q.id < s.root.nextEntry := hi.old (g, q) (List.mem_append_right _ hq)
  have hid : q.id ∈ entryIds (s.held ++ s.dropped) := mem_entryIds (List.mem_append_right _ hq)
  obtain ⟨-, hnd, hne⟩ := ids_nodup hi
  have hmem := mem_entryIds_erase hnd hq
  constructor
  · exact ho.drops
  · apply ho.unlinks.bump hid hlt
    intro i
    have hnh : q.id ∉ entryIds s.held := fun h => hne _ h _ (mem_entryIds hq) rfl
    change i ∈ entryIds (s.held ++ s.dropped.erase (g, q)) ↔ _
    rw [entryIds_append, entryIds_append, List.mem_append, List.mem_append, hmem]
    grind

theorem flushOne_once {s : Sys} {g : GraphId} (hi : Inv s) (ho : Once s) (hc : (s.root.graphs g).claimed = []) :
    Once (flushOne s g) := by
  let ks := ((s.root.graphs g).equeue).map Entry.id
  have hheld : ∀ q, q ∈ (s.root.graphs g).equeue ↔ (g, q) ∈ s.held := by
    intro q
    have hcl := hi.claimed g q
    rw [hc] at hcl
    rw [hi.held]
    simp at hcl
    simp [hcl]
  have hks : ∀ k, k ∈ ks ↔ ∃ q, (g, q) ∈ s.held ∧ q.id = k := by
    intro k
    simp only [ks, List.mem_map, hheld]
  have hmem : ∀ i, i ∈ entryIds (s.held.filter fun p => p.1 ≠ g) ↔ i ∉ ks ∧ i ∈ entryIds s.held := by
    intro i
    rw [hks]
    simp only [entryIds, List.mem_map, List.mem_filter, decide_eq_true_eq]
    constructor
    · rintro ⟨p, ⟨hp, hne⟩, rfl⟩
      refine ⟨?_, p, hp, rfl⟩
      rintro ⟨q, hq, hid⟩
      have := hi.held_inj (List.mem_append_left _ hq) (List.mem_append_left _ hp) hid
      exact hne (this ▸ rfl)
    · rintro ⟨hno, p, hp, rfl⟩
      refine ⟨p, ⟨hp, ?_⟩, rfl⟩
      rintro rfl
      exact hno ⟨p.2, hp, rfl⟩
  have hnd : ks.Nodup := by
    refine List.Nodup.map_on ?_ (hi.equeueNodup g)
    intro q hq q' hq' hid
    have := hi.held_inj (List.mem_append_left _ ((hheld q).mp hq)) (List.mem_append_left _ ((hheld q').mp hq')) hid
    exact congrArg Prod.snd this
  have hk : ∀ k ∈ ks, k ∈ entryIds s.held := by
    intro k h
    obtain ⟨q, hq, rfl⟩ := (hks k).mp h
    exact mem_entryIds hq
  have hall : ∀ k ∈ ks, k ∈ entryIds (s.held ++ s.dropped) := by
    intro k h
    rw [entryIds_append]
    exact List.mem_append_left _ (hk k h)
  have hold := ids_old hi
  constructor
  · simp only [flushOne, hc, List.append_nil]
    exact ho.drops.bumpAll hnd (fun k h => ⟨hk k h, hold k (hall k h)⟩) hmem
  · simp only [flushOne, hc, List.append_nil]
    apply ho.unlinks.bumpAll hnd (fun k h => ⟨hall k h, hold k (hall k h)⟩)
    intro i
    obtain ⟨-, -, hne⟩ := ids_nodup hi
    rw [entryIds_append, entryIds_append, List.mem_append, List.mem_append, hmem]
    have := hk i
    grind

theorem step_once (s : Sys) (a : Action) (h : Inv s ∧ Once s) (hok : FlushesIdle s a) (hen : enabled s a) :
    Inv (apply s a) ∧ Once (apply s a) := by
  obtain ⟨hi, ho⟩ := h
  refine ⟨step_inv s a hi hok hen, ?_⟩
  cases a with
  | addQueue g e =>
    unfold apply
    dsimp only
    split
    · rename_i ht
      exact ho.frame (by simp [dropUnqueued, addQueue, ht, dropReference]) rfl rfl rfl rfl
    · rename_i ht
      exact queueEntry_once ho ht e
  | addTrigger g => exact ho.frame (addTrigger_nextEntry s.root g) rfl rfl rfl rfl
  | claim g => exact claimEntry_once ho g
  | drop g q => exact drop_once hi ho hen
  | finish g q => exact finish_once hi ho hen
  | readPipe =>
    obtain ⟨pipe, draining, hr⟩ := apply_readPipe s
    rw [hr]
    exact ho.frame rfl rfl rfl rfl rfl
  | poll g =>
    unfold apply
    dsimp only
    split
    · exact ho.frame rfl rfl rfl rfl rfl
    · exact claimEntry_once ho g
  | flushNext i =>
    unfold apply
    dsimp only
    split
    · exact ho.frame rfl rfl rfl rfl rfl
    · exact ho.frame rfl rfl rfl rfl rfl
    · rename_i g hg
      have hi' : Inv { s with flushing := s.flushing.erase i } := hi.frame rfl rfl rfl rfl rfl
      have ho' : Once { s with flushing := s.flushing.erase i } := ho.frame rfl rfl rfl rfl rfl
      exact (flushOne_once hi' ho' (hok g (Option.join_eq_some_iff.mpr hg))).frame rfl rfl rfl rfl rfl
  | reference e => exact ho.frame rfl rfl rfl rfl rfl
  | dereference e => exact ho.frame rfl rfl rfl rfl rfl
  | invalidate e => exact ho.frame rfl rfl rfl rfl rfl
  | addBegin g e => exact ho.frame rfl rfl rfl rfl rfl
  | flushBegin => exact ho.frame rfl rfl rfl rfl rfl

/-! ## The result -/

/-- No reference is dropped twice and no entry unlinked twice. An entry that is neither queued nor being
processed has lost its reference, and one that is in no list was unlinked. -/
structure ExactlyOnce (s : Sys) : Prop where
  drops_le : ∀ i, s.drops i ≤ 1
  unlinks_le : ∀ i, s.unlinks i ≤ 1
  drops_one : ∀ i < s.root.nextEntry,
    (∀ g q, q.id = i → q ∉ (s.root.graphs g).equeue ∧ (g, q) ∉ s.procs) → s.drops i = 1
  unlinks_one : ∀ i < s.root.nextEntry,
    (∀ g q, q.id = i → q ∉ (s.root.graphs g).equeue ∧ q ∉ (s.root.graphs g).claimed) → s.unlinks i = 1

theorem exactlyOnce_of_inv {s : Sys} (hi : Inv s) (ho : Once s) : ExactlyOnce s := by
  constructor
  · intro i
    rw [ho.drops i]
    split
    · omega
    · split <;> omega
  · intro i
    rw [ho.unlinks i]
    split
    · omega
    · split <;> omega
  · intro i hlt hno
    have hnot : i ∉ entryIds s.held := by
      intro hmem
      obtain ⟨⟨g, q⟩, hp, hid⟩ := List.mem_map.mp hmem
      obtain ⟨h1, h2⟩ := hno g q hid
      exact ((hi.held g q).mp hp).elim h1 h2
    rw [ho.drops i, if_neg hnot, if_pos hlt]
  · intro i hlt hno
    have hnot : i ∉ entryIds (s.held ++ s.dropped) := by
      intro hmem
      obtain ⟨⟨g, q⟩, hp, hid⟩ := List.mem_map.mp hmem
      obtain ⟨h1, h2⟩ := hno g q hid
      have hcl := hi.claimed g q
      rcases List.mem_append.mp hp with hp | hp
      · rcases (hi.held g q).mp hp with h | h
        · exact h1 h
        · exact h2 (hcl.mpr (Or.inl h))
      · exact h2 (hcl.mpr (Or.inr hp))
    rw [ho.unlinks i, if_neg hnot, if_pos hlt]

theorem exactly_once_if_flushed_idle (c : Setup) (as : List Action) (s : Sys)
    (hm : Meets step FlushesIdle as (init c)) (hr : run step as (init c) = some s) : ExactlyOnce s := by
  obtain ⟨hi, ho⟩ := guarded_keeps step_once as (init c) s ⟨init_inv c, init_once c⟩ hm hr
  exact exactlyOnce_of_inv hi ho

/-- One graph with one task, in the registry, and a pipe of the usual size. -/
def oneGraph : Setup where
  tasks _ := [0]
  mode _ := .preferEloop
  listener _ := none
  registry := [some 0]
  pipe_capacity := 65536
  force_mode := .preferNone
  default_mode := .preferEloop

/-- A flush before the event is claimed. -/
theorem exactly_once_flushed_before_claim :
    ∃ s, run step [.addBegin 0 7, .addQueue 0 7, .addTrigger 0, .flushBegin, .flushNext 0, .flushNext 1, .claim 0]
      (init oneGraph) = some s ∧ ExactlyOnce s := by
  have hrun : (run step [.addBegin 0 7, .addQueue 0 7, .addTrigger 0, .flushBegin, .flushNext 0, .flushNext 1,
      .claim 0] (init oneGraph)).isSome = true := by decide
  obtain ⟨s, hs⟩ := Option.isSome_iff_exists.mp hrun
  refine ⟨s, hs, exactly_once_if_flushed_idle oneGraph _ s ?_ hs⟩
  decide

/-- The handler of event 7 flushes, and then returns. A caller still has its own reference to the event,
but the second drop of the entry's reference frees it. -/
theorem flush_in_handler_drops_twice :
    ∃ s, run step [.reference 7, .addBegin 0 7, .addQueue 0 7, .addTrigger 0, .claim 0, .flushBegin, .flushNext 0,
        .flushNext 1, .drop 0 ⟨0, 7⟩, .finish 0 ⟨0, 7⟩] (init oneGraph) = some s ∧
      s.drops 0 = 2 ∧ s.unlinks 0 = 2 ∧ s.callers 7 = 1 ∧ (s.root.events 7).freed = true ∧ ¬ ExactlyOnce s := by
  have hrun : (run step [.reference 7, .addBegin 0 7, .addQueue 0 7, .addTrigger 0, .claim 0, .flushBegin,
      .flushNext 0, .flushNext 1, .drop 0 ⟨0, 7⟩, .finish 0 ⟨0, 7⟩] (init oneGraph)).map
        (fun s => (s.drops 0, s.unlinks 0, s.callers 7, (s.root.events 7).freed)) = some (2, 2, 1, true) := by
    decide
  obtain ⟨s, hs, hv⟩ := Option.map_eq_some_iff.mp hrun
  obtain ⟨hd, hu, hc, hf⟩ : s.drops 0 = 2 ∧ s.unlinks 0 = 2 ∧ s.callers 7 = 1 ∧ (s.root.events 7).freed = true := by
    simpa using hv
  refine ⟨s, hs, hd, hu, hc, hf, ?_⟩
  intro h
  have := h.drops_le 0
  omega

end Libcortex.Flush
