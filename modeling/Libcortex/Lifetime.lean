import Libcortex.Dispatch

/-!
# An event lives as long as somebody has a reference to it

`refs_before_release` is an `unsigned char`, so it agrees with the number of references only up to
255 of them. One more wraps it to zero, and the next dereference frees the event.
-/

open Libcortex.Lib Libcortex.Dispatch

namespace Libcortex.Lifetime

/-! ## One event -/

/-- `n` references are out: `taken` of them were taken, and `given` given back. -/
structure CountedAt (ev : Event) (taken given n : Nat) : Prop where
  counts : ev.Counts (0 < taken) n
  total : taken = given + n

namespace CountedAt

variable {ev : Event} {t g n : Nat}

theorem used (hc : ev.Counts (0 < t) n) (ht : 0 < t) : ev.Counts True n :=
  ⟨hc.refs, by rw [hc.freed]; simp [ht], hc.releasing, hc.calls⟩

theorem take (h : CountedAt ev t g n) (hlive : ev.freed = false) (hlt : t - g < 255) :
    CountedAt (crtx_reference_event_release ev) (t + 1) g (n + 1) := by
  have htotal := h.total
  obtain ⟨h1, h2, h3, h4⟩ := reference_counts h.counts hlive (by omega)
  exact ⟨⟨h1, by rw [h2]; simp, h3, h4⟩, by omega⟩

theorem give (h : CountedAt ev t g (n + 1)) : CountedAt (crtx_dereference_event_release ev) t (g + 1) n := by
  have htotal := h.total
  have ht : 0 < t := by omega
  obtain ⟨h1, h2, h3, h4⟩ := dereference_counts (used h.counts ht)
  exact ⟨⟨h1, by rw [h2]; simp [ht], h3, h4⟩, by omega⟩

theorem congr {ev' : Event} (h : CountedAt ev t g n) (h1 : ev'.refs_before_release = ev.refs_before_release)
    (h2 : ev'.freed = ev.freed) (h3 : ev'.release_in_progress = ev.release_in_progress)
    (h4 : ev'.free_calls = ev.free_calls) : CountedAt ev' t g n := by
  obtain ⟨⟨c1, c2, c3, c4⟩, ht⟩ := h
  exact ⟨⟨by rw [h1]; exact c1, by rw [h2]; exact c2, by rw [h2, h3]; exact c3, by rw [h2, h4]; exact c4⟩, ht⟩

theorem reference_response (h : CountedAt ev t g n) : CountedAt (crtx_reference_event_response ev) t g n :=
  ⟨reference_response_counts h.counts, h.total⟩

theorem dereference_response (h : CountedAt ev t g n) : CountedAt (crtx_dereference_event_response ev) t g n :=
  ⟨dereference_response_counts h.counts, h.total⟩

end CountedAt

/-! ## The whole system -/

/-- The references to `e` that callers have, that adders took for an entry not yet queued, and that belong
to an entry. -/
def holders (s : Sys) (e : EventId) : Nat :=
  s.callers e + s.adding.countP (fun p => p.2 = e) + s.held.countP (fun p => p.2.event = e)

def Counted (s : Sys) : Prop := ∀ e, CountedAt (s.root.events e) (s.taken e) (s.given e) (holders s e)

theorem init_counted (c : Setup) : Counted (init c) := by
  intro e
  obtain ⟨h1, h2, h3, h4⟩ := Event.fresh_counts
  exact ⟨⟨h1, by simp [init, Setup.root, h2, holders], h3, h4⟩, rfl⟩

theorem Counted.update {s s' : Sys} (e : EventId) (hc : Counted s)
    (hself : CountedAt (s'.root.events e) (s'.taken e) (s'.given e) (holders s' e))
    (hev : ∀ e', e' ≠ e → s'.root.events e' = s.root.events e') (ht : ∀ e', e' ≠ e → s'.taken e' = s.taken e')
    (hg : ∀ e', e' ≠ e → s'.given e' = s.given e') (hh : ∀ e', e' ≠ e → holders s' e' = holders s e') :
    Counted s' := by
  intro e'
  by_cases h : e' = e
  · subst h
    exact hself
  · rw [hev e' h, ht e' h, hg e' h, hh e' h]
    exact hc e'

theorem Counted.frame {s s' : Sys} (hc : Counted s) (hev : s'.root.events = s.root.events)
    (ht : s'.taken = s.taken) (hg : s'.given = s.given) (hcl : s'.callers = s.callers)
    (ha : s'.adding = s.adding) (hh : s'.held = s.held) : Counted s' := by
  intro e
  unfold holders
  rw [hev, ht, hg, hcl, ha, hh]
  exact hc e

/-- Fewer than 255 references are out whenever one more is taken. There is no flush. -/
def FewReferences (s : Sys) : Action → Prop
  | .reference e | .addBegin _ e => s.taken e - s.given e < 255
  | .flushBegin | .flushNext _ => False
  | _ => True

instance (s : Sys) : ∀ a, Decidable (FewReferences s a)
  | .reference _ | .addBegin _ _ => inferInstanceAs (Decidable (_ < _))
  | .flushBegin | .flushNext _ => inferInstanceAs (Decidable False)
  | .dereference _ | .invalidate _ | .addQueue _ _ | .addTrigger _ | .claim _ | .drop _ _ | .finish _ _ | .readPipe
  | .poll _ => inferInstanceAs (Decidable True)

theorem countP_erase {α : Type} [BEq α] [LawfulBEq α] {l : List α} {a : α} (ha : a ∈ l) (p : α → Bool) :
    l.countP p = (l.erase a).countP p + if p a then 1 else 0 := by
  rw [(List.perm_cons_erase ha).countP_eq, List.countP_cons]

@[simp] theorem bump_self (f : Nat → Nat) (i : Nat) : bump f i i = f i + 1 := Function.update_self ..

theorem bump_other (f : Nat → Nat) {i j : Nat} (h : j ≠ i) : bump f i j = f j := Function.update_of_ne h ..

theorem reference_counted {s : Sys} {e : EventId} (hc : Counted s) (hen : (s.root.events e).freed = false)
    (hlt : s.taken e - s.given e < 255) : Counted (apply s (.reference e)) := by
  apply hc.update e
  · have := (hc e).take hen hlt
    have hh : holders (apply s (.reference e)) e = holders s e + 1 := by
      simp only [holders, apply, bump_self]
      omega
    rw [hh]
    simpa only [apply, bump_self, Root.setEvent_self] using this
  · intro e' h
    exact Root.setEvent_other _ h _
  · intro e' h
    exact bump_other _ h
  · intro e' _
    rfl
  · intro e' h
    simp only [holders, apply, bump_other _ h]

theorem dereference_counted {s : Sys} {e : EventId} (hc : Counted s) (hen : 0 < s.callers e) :
    Counted (apply s (.dereference e)) := by
  apply hc.update e
  · have hh : holders s e = holders (apply s (.dereference e)) e + 1 := by
      simp only [holders, apply, Function.update_self]
      omega
    have hat := hc e
    rw [hh] at hat
    simpa only [apply, bump_self, Root.setEvent_self] using hat.give
  · intro e' h
    exact Root.setEvent_other _ h _
  · intro e' _
    rfl
  · intro e' h
    exact bump_other _ h
  · intro e' h
    simp only [holders, apply, Function.update_of_ne h]

theorem addBegin_counted {s : Sys} {g : GraphId} {e : EventId} (hc : Counted s)
    (hen : (s.root.events e).freed = false) (hlt : s.taken e - s.given e < 255) :
    Counted (apply s (.addBegin g e)) := by
  apply hc.update e
  · have := ((hc e).take hen hlt).reference_response
    have hh : holders (apply s (.addBegin g e)) e = holders s e + 1 := by
      simp only [holders, apply, List.countP_cons, decide_true, if_true]
      omega
    rw [hh]
    simpa only [apply, addReference, bump_self, Root.setEvent_self] using this
  · intro e' h
    exact Root.setEvent_other _ h _
  · intro e' h
    exact bump_other _ h
  · intro e' _
    rfl
  · intro e' h
    simp [holders, apply, h.symm]

theorem queueEntry_counted {s : Sys} {g : GraphId} {e : EventId} (hc : Counted s) (hen : (g, e) ∈ s.adding)
    (ht : (s.root.graphs g).tasks ≠ []) : Counted (queueEntry s g e) := by
  have hh : ∀ e', holders (queueEntry s g e) e' = holders s e' := by
    intro e'
    have := countP_erase hen (fun p => p.2 = e')
    simp only [holders, queueEntry, List.countP_cons]
    simp only at this
    omega
  obtain ⟨o, ho⟩ := setOrigin_eq s.root g e
  have hev : (queueEntry s g e).root.events = (s.root.setEvent e { s.root.events e with origin := o }).events := by
    simp only [queueEntry, addQueue, ht, if_false, appendEntry, Root.setGraph_events, ho]
  apply hc.update e
  · rw [hh, hev, Root.setEvent_self]
    exact (hc e).congr rfl rfl rfl rfl
  · intro e' h
    rw [hev]
    exact Root.setEvent_other _ h _
  · intro e' _
    rfl
  · intro e' _
    rfl
  · intro e' _
    exact hh e'

theorem drop_counted {s s' : Sys} {e : EventId} (hc : Counted s) (hroot : s'.root = dropReference s.root e)
    (ht : s'.taken = s.taken) (hg : s'.given = bump s.given e) (hh : holders s e = holders s' e + 1)
    (ho : ∀ e', e' ≠ e → holders s' e' = holders s e') : Counted s' := by
  apply hc.update e
  · have hat := (hc e).dereference_response
    rw [hh] at hat
    rw [hroot, ht, hg, bump_self]
    simpa only [dropReference, Root.setEvent_self] using hat.give
  · intro e' h
    rw [hroot]
    exact Root.setEvent_other _ h _
  · intro e' _
    rw [ht]
  · intro e' h
    rw [hg, bump_other _ h]
  · exact ho

theorem claimEntry_counted {s : Sys} (hc : Counted s) (g : GraphId) : Counted (claimEntry s g) := by
  unfold claimEntry
  cases hq : nextEntry? s.root g with
  | none => simpa only [claim_none hq] using hc
  | some q =>
    simp only [claim_some hq]
    exact hc.frame rfl rfl rfl rfl rfl rfl

theorem invalidate_counted {s : Sys} (hc : Counted s) (e : EventId) : Counted (apply s (.invalidate e)) := by
  apply hc.update e
  · have hat : CountedAt (crtx_invalidate_event (s.root.events e)) _ _ _ := (hc e).congr rfl rfl rfl rfl
    rw [← Root.setEvent_self s.root e (crtx_invalidate_event (s.root.events e))] at hat
    exact hat
  · intro e' h
    exact Root.setEvent_other _ h _
  · intro e' _
    rfl
  · intro e' _
    rfl
  · intro e' _
    rfl

theorem dropUnqueued_counted {s : Sys} {g : GraphId} {e : EventId} (hc : Counted s) (hen : (g, e) ∈ s.adding)
    (ht : (s.root.graphs g).tasks = []) : Counted (dropUnqueued s g e) := by
  have hh : ∀ e', holders s e' = holders (dropUnqueued s g e) e' + if e = e' then 1 else 0 := by
    intro e'
    have := countP_erase hen (fun p => p.2 = e')
    simp only [decide_eq_true_eq] at this
    simp only [holders, dropUnqueued]
    omega
  apply drop_counted hc (e := e)
  · simp only [dropUnqueued, addQueue, ht, if_true]
  · rfl
  · rfl
  · rw [hh, if_pos rfl]
  · intro e' h
    rw [hh e', if_neg h.symm, Nat.add_zero]

theorem dropEntry_counted {s : Sys} {g : GraphId} {q : Entry} (hc : Counted s) (hheld : (g, q) ∈ s.held) :
    Counted (apply s (.drop g q)) := by
  have hh : ∀ e', holders s e' = holders (apply s (.drop g q)) e' + if q.event = e' then 1 else 0 := by
    intro e'
    have := countP_erase hheld (fun p => p.2.event = e')
    simp only [decide_eq_true_eq] at this
    simp only [holders, apply]
    omega
  apply drop_counted hc (e := q.event)
  · rfl
  · rfl
  · rfl
  · rw [hh, if_pos rfl]
  · intro e' h
    rw [hh e', if_neg h.symm, Nat.add_zero]

theorem step_counted (s : Sys) (a : Action) (h : Inv s ∧ Counted s) (hok : FewReferences s a) (hen : enabled s a) :
    Inv (apply s a) ∧ Counted (apply s a) := by
  obtain ⟨hi, hc⟩ := h
  have hflush : FlushesIdle s a := by
    cases a <;> trivial
  refine ⟨step_inv s a hi hflush hen, ?_⟩
  cases a with
  | reference e => exact reference_counted hc hen hok
  | dereference e => exact dereference_counted hc hen
  | invalidate e => exact invalidate_counted hc e
  | addBegin g e => exact addBegin_counted hc hen hok
  | addQueue g e =>
    unfold apply
    dsimp only
    split
    · rename_i ht
      exact dropUnqueued_counted hc hen.1 ht
    · rename_i ht
      exact queueEntry_counted hc hen.1 ht
  | addTrigger g => exact hc.frame (addTrigger_events s.root g) rfl rfl rfl rfl rfl
  | claim g => exact claimEntry_counted hc g
  | drop g q => exact dropEntry_counted hc ((hi.held g q).mpr (Or.inr hen))
  | finish g q => exact hc.frame rfl rfl rfl rfl rfl rfl
  | readPipe =>
    obtain ⟨pipe, draining, hr⟩ := apply_readPipe s
    rw [hr]
    exact hc.frame rfl rfl rfl rfl rfl rfl
  | poll g =>
    unfold apply
    dsimp only
    split
    · exact hc.frame rfl rfl rfl rfl rfl rfl
    · exact claimEntry_counted hc g
  | flushBegin => exact hok.elim
  | flushNext i => exact hok.elim

/-! ## The result -/

/-- `crtx_free_event` was called once if the last reference was given back, and not at all before. Nobody who
has a reference is left with a freed event: no caller, no adder, no queue, and no claimed entry that was
not yet dropped. -/
structure LivesLongEnough (s : Sys) (e : EventId) : Prop where
  freed : (s.root.events e).freed = true ↔ 0 < s.taken e ∧ s.taken e = s.given e
  free_calls : (s.root.events e).free_calls = if 0 < s.taken e ∧ s.taken e = s.given e then 1 else 0
  caller : 0 < s.callers e → (s.root.events e).freed = false
  adder : ∀ g, (g, e) ∈ s.adding → (s.root.events e).freed = false
  equeue : ∀ g, ∀ q ∈ (s.root.graphs g).equeue, q.event = e → (s.root.events e).freed = false
  claimed : ∀ g, ∀ q ∈ (s.root.graphs g).claimed, (g, q) ∉ s.dropped → q.event = e → (s.root.events e).freed = false

theorem livesLongEnough_of_counted {s : Sys} (hi : Inv s) (hc : Counted s) (e : EventId) : LivesLongEnough s e := by
  obtain ⟨hcounts, htotal⟩ := hc e
  have hfreed : (s.root.events e).freed = true ↔ 0 < s.taken e ∧ s.taken e = s.given e := by
    rw [hcounts.freed]
    constructor
    · rintro ⟨h1, h2⟩
      exact ⟨h1, by omega⟩
    · rintro ⟨h1, h2⟩
      exact ⟨h1, by omega⟩
  have hlive : 0 < holders s e → (s.root.events e).freed = false := by
    intro hpos
    rw [Bool.eq_false_iff, ne_eq, hfreed]
    omega
  have hheld : ∀ p ∈ s.held, p.2.event = e → 0 < holders s e := by
    intro p hp he
    have : 0 < s.held.countP (fun p => p.2.event = e) := List.countP_pos_iff.mpr ⟨p, hp, by simpa using he⟩
    unfold holders
    omega
  refine ⟨hfreed, ?_, ?_, ?_, ?_, ?_⟩
  · rw [hcounts.calls]
    simp only [hfreed]
  · intro h
    apply hlive
    unfold holders
    omega
  · intro g hg
    have : 0 < s.adding.countP (fun p => p.2 = e) := List.countP_pos_iff.mpr ⟨(g, e), hg, by simp⟩
    apply hlive
    unfold holders
    omega
  · intro g q hq he
    exact hlive (hheld (g, q) ((hi.held g q).mpr (Or.inl hq)) he)
  · intro g q hq hnd he
    have hproc : (g, q) ∈ s.procs := ((hi.claimed g q).mp hq).resolve_right hnd
    exact hlive (hheld (g, q) ((hi.held g q).mpr (Or.inr hproc)) he)

theorem freed_with_last_reference (c : Setup) (as : List Action) (s : Sys)
    (hm : Meets step FewReferences as (init c)) (hr : run step as (init c) = some s) (e : EventId) :
    LivesLongEnough s e := by
  obtain ⟨hi, hc⟩ := guarded_keeps step_counted as (init c) s ⟨init_inv c, init_counted c⟩ hm hr
  exact livesLongEnough_of_counted hi hc e

/-- Two graphs, each with a task. -/
def twoGraphs : Setup where
  tasks _ := [0]
  mode _ := .preferEloop
  listener _ := none
  registry := [some 0, some 1]
  pipe_capacity := 65536
  force_mode := .preferNone
  default_mode := .preferEloop

/-- One event in both graphs, of which the first has processed it. -/
theorem freed_with_last_reference_two_graphs :
    ∃ s, run step [.addBegin 0 7, .addBegin 1 7, .addQueue 0 7, .addQueue 1 7, .claim 0, .drop 0 ⟨0, 7⟩]
      (init twoGraphs) = some s ∧ LivesLongEnough s 7 := by
  have hrun : (run step [.addBegin 0 7, .addBegin 1 7, .addQueue 0 7, .addQueue 1 7, .claim 0, .drop 0 ⟨0, 7⟩]
      (init twoGraphs)).isSome = true := by decide
  obtain ⟨s, hs⟩ := Option.isSome_iff_exists.mp hrun
  exact ⟨s, hs, freed_with_last_reference twoGraphs _ s (by decide) hs 7⟩

/-! ## 256 references -/

theorem reference_many (n : Nat) (s : Sys) (e : EventId) (hlive : (s.root.events e).freed = false) :
    ∃ s', run step (List.replicate n (.reference e)) s = some s' ∧ s'.callers e = s.callers e + n ∧
      s'.root.events e = { s.root.events e with
        refs_before_release := (s.root.events e).refs_before_release + BitVec.ofNat 8 n } := by
  induction n generalizing s with
  | zero => exact ⟨s, rfl, rfl, by simp⟩
  | succ n ih =>
    have hstep : step s (.reference e) = some (apply s (.reference e)) := guarded_eq_some.mpr ⟨hlive, rfl⟩
    have hev : (apply s (.reference e)).root.events e = crtx_reference_event_release (s.root.events e) :=
      Root.setEvent_self ..
    obtain ⟨s', hr, hc, he⟩ := ih (apply s (.reference e)) (by rw [hev]; exact hlive)
    refine ⟨s', ?_, ?_, ?_⟩
    · rw [List.replicate_succ, run_cons, hstep]
      exact hr
    · rw [hc]
      simp only [apply, bump_self]
      omega
    · rw [he, hev]
      simp only [crtx_reference_event_release, BitVec.add_assoc]
      congr 2
      rw [Nat.add_comm n 1, BitVec.ofNat_add]
      rfl

/-- 256 references and one dereference: the event is freed, with 255 references out. -/
theorem freed_with_255_references_out :
    ∃ s, run step (List.replicate 256 (.reference 7) ++ [.dereference 7]) (init twoGraphs) = some s ∧
      s.callers 7 = 255 ∧ (s.root.events 7).freed = true ∧ ¬ LivesLongEnough s 7 := by
  obtain ⟨s, hr, hc, he⟩ := reference_many 256 (init twoGraphs) 7 rfl
  have hcall : s.callers 7 = 256 := by rw [hc]; rfl
  have hstep : step s (.dereference 7) = some (apply s (.dereference 7)) :=
    guarded_eq_some.mpr ⟨by simp only [enabled, hcall]; omega, rfl⟩
  have hcaller : (apply s (.dereference 7)).callers 7 = 255 := by
    simp only [apply, Function.update_self, hcall]
  have hfreed : ((apply s (.dereference 7)).root.events 7).freed = true := by
    simp only [apply, Root.setEvent_self, he]
    rfl
  refine ⟨apply s (.dereference 7), ?_, hcaller, hfreed, ?_⟩
  · rw [run_append, hr, Option.bind_some, run_cons, hstep]
    rfl
  · intro h
    have := h.caller (by omega)
    rw [hfreed] at this
    exact Bool.noConfusion this

end Libcortex.Lifetime
