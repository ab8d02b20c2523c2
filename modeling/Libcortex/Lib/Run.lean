import Mathlib.Algebra.GroupWithZero.Nat
import Mathlib.Data.List.Basic

/-!
# Runs of a machine

A machine is a partial step function: `step s a` is the state after action `a`, or
`none` if `a` can't happen in `s`. A run is a list of actions, so it can be computed.
-/

namespace Libcortex.Lib

variable {σ α : Type}

/-- The state after the actions, in order. `none` if one of them can't happen. -/
def run (step : σ → α → Option σ) : List α → σ → Option σ
  | [], s => some s
  | a :: as, s => (step s a).bind (run step as)

/-- Every step of the run is taken in a state in which `ok` holds for it. -/
def Meets (step : σ → α → Option σ) (ok : σ → α → Prop) : List α → σ → Prop
  | [], _ => True
  | a :: as, s => ok s a ∧ (step s a).elim True (Meets step ok as)

instance Meets.decidable (step : σ → α → Option σ) (ok : σ → α → Prop) [∀ s a, Decidable (ok s a)] :
    ∀ as s, Decidable (Meets step ok as s)
  | [], _ => .isTrue trivial
  | a :: as, s =>
    have : Decidable ((step s a).elim True (Meets step ok as)) :=
      match step s a with
      | none => .isTrue trivial
      | some s' => Meets.decidable step ok as s'
    inferInstanceAs (Decidable (_ ∧ _))

@[simp] theorem run_nil (step : σ → α → Option σ) (s : σ) : run step [] s = some s := rfl

theorem run_cons (step : σ → α → Option σ) (a : α) (as : List α) (s : σ) :
    run step (a :: as) s = (step s a).bind (run step as) := rfl

theorem run_append (step : σ → α → Option σ) (as bs : List α) (s : σ) :
    run step (as ++ bs) s = (run step as s).bind (run step bs) := by
  induction as generalizing s with
  | nil => rfl
  | cons a as ih =>
    rw [List.cons_append, run_cons, run_cons, Option.bind_assoc]
    exact congrArg _ (funext ih)

theorem meets_cons {step : σ → α → Option σ} {ok : σ → α → Prop} {a : α} {as : List α} {s s' : σ}
    (hs : step s a = some s') : Meets step ok (a :: as) s ↔ ok s a ∧ Meets step ok as s' := by
  simp only [Meets, hs, Option.elim_some]

theorem Meets.mono {step : σ → α → Option σ} {ok ok' : σ → α → Prop} (h : ∀ s a, ok s a → ok' s a) {as : List α}
    {s : σ} (hm : Meets step ok as s) : Meets step ok' as s := by
  induction as generalizing s with
  | nil => trivial
  | cons a as ih =>
    refine ⟨h s a hm.1, ?_⟩
    have hrest := hm.2
    cases hs : step s a with
    | none => trivial
    | some s' =>
      rw [hs] at hrest
      exact ih hrest

theorem Meets.and {step : σ → α → Option σ} {ok ok' : σ → α → Prop} {as : List α} {s : σ} (h : Meets step ok as s)
    (h' : Meets step ok' as s) : Meets step (fun s a => ok s a ∧ ok' s a) as s := by
  induction as generalizing s with
  | nil => trivial
  | cons a as ih =>
    refine ⟨⟨h.1, h'.1⟩, ?_⟩
    have hrest := h.2
    have hrest' := h'.2
    cases hs : step s a with
    | none => trivial
    | some s' =>
      rw [hs] at hrest hrest'
      exact ih hrest hrest'

theorem meets_congr {step : σ → α → Option σ} {ok ok' room : σ → α → Prop} {Inv : σ → Prop}
    (hiff : ∀ s a, Inv s → (ok s a ↔ ok' s a))
    (hstep : ∀ s a s', Inv s → ok' s a → room s a → step s a = some s' → Inv s') :
    ∀ (as : List α) (s : σ), Inv s → Meets step room as s → (Meets step ok as s ↔ Meets step ok' as s) := by
  intro as
  induction as with
  | nil => exact fun _ _ _ => Iff.rfl
  | cons a as ih =>
    intro s hi hroom
    obtain ⟨hroom, hrest⟩ := hroom
    unfold Meets
    rw [hiff s a hi]
    refine and_congr_right fun hok => ?_
    cases hs : step s a with
    | none => exact Iff.rfl
    | some s' =>
      rw [hs] at hrest
      exact ih s' (hstep s a s' hi hok hroom hs) hrest

/-- What each step that meets `ok` keeps, a whole run keeps. -/
theorem run_keeps {step : σ → α → Option σ} {ok : σ → α → Prop} {Inv : σ → Prop}
    (hstep : ∀ s a s', Inv s → ok s a → step s a = some s' → Inv s') :
    ∀ (as : List α) (s s' : σ), Inv s → Meets step ok as s → run step as s = some s' → Inv s' := by
  intro as
  induction as with
  | nil =>
    intro s s' hi _ hr
    cases hr
    exact hi
  | cons a as ih =>
    intro s s' hi hm hr
    rw [run_cons, Option.bind_eq_some_iff] at hr
    obtain ⟨t, ht, hr⟩ := hr
    rw [meets_cons ht] at hm
    exact ih t s' (hstep s a t hi hm.1 ht) hm.2 hr

theorem meets_true (step : σ → α → Option σ) (as : List α) (s : σ) : Meets step (fun _ _ => True) as s := by
  induction as generalizing s with
  | nil => trivial
  | cons a as ih =>
    refine ⟨trivial, ?_⟩
    cases step s a with
    | none => trivial
    | some s' => exact ih s'

theorem meets_of_forall {step : σ → α → Option σ} {p : α → Prop} {as : List α} (h : ∀ a ∈ as, p a) (s : σ) :
    Meets step (fun _ a => p a) as s := by
  induction as generalizing s with
  | nil => trivial
  | cons a as ih =>
    refine ⟨h a List.mem_cons_self, ?_⟩
    cases step s a with
    | none => trivial
    | some s' => exact ih (fun b hb => h b (List.mem_cons_of_mem a hb)) s'

/-- What every step keeps, every run keeps. -/
theorem run_invariant {step : σ → α → Option σ} {Inv : σ → Prop}
    (hstep : ∀ s a s', Inv s → step s a = some s' → Inv s') (as : List α) (s s' : σ) (hi : Inv s)
    (hr : run step as s = some s') : Inv s' :=
  run_keeps (fun s a s' hi _ hs => hstep s a s' hi hs) as s s' hi (meets_true step as s) hr

/-- If every step that meets `ok` can be taken, so can a whole run. -/
theorem run_total {step : σ → α → Option σ} {ok : σ → α → Prop} {Inv : σ → Prop}
    (hstep : ∀ s a, Inv s → ok s a → ∃ s', step s a = some s' ∧ Inv s') :
    ∀ (as : List α) (s : σ), Inv s → Meets step ok as s → ∃ s', run step as s = some s' ∧ Inv s' := by
  intro as
  induction as with
  | nil => exact fun s hi _ => ⟨s, rfl, hi⟩
  | cons a as ih =>
    intro s hi hm
    obtain ⟨t, ht, hit⟩ := hstep s a hi hm.1
    rw [meets_cons ht] at hm
    rw [run_cons, ht]
    exact ih t hit hm.2

theorem run_good_iff {step : σ → α → Option σ} {ok : σ → α → Prop} {Inv Good : σ → Prop}
    (hstep : ∀ s a s', Inv s → Good s → step s a = some s' → Inv s' ∧ (Good s' ↔ ok s a))
    (hbad : ∀ s a s', ¬ Good s → step s a = some s' → ¬ Good s') :
    ∀ (as : List α) (s s' : σ), Inv s → Good s → run step as s = some s' → (Good s' ↔ Meets step ok as s) := by
  intro as
  induction as with
  | nil =>
    intro s s' _ hg hr
    cases hr
    exact iff_of_true hg trivial
  | cons a as ih =>
    intro s s' hi hg hr
    rw [run_cons, Option.bind_eq_some_iff] at hr
    obtain ⟨t, ht, hr⟩ := hr
    obtain ⟨hit, hgt⟩ := hstep s a t hi hg ht
    rw [meets_cons ht]
    by_cases hok : ok s a
    · rw [ih t s' hit (hgt.mpr hok) hr, and_iff_right hok]
    · refine iff_of_false ?_ fun h => hok h.1
      exact run_invariant (fun s a s' h hs => hbad s a s' h hs) as t s' (fun h => hok (hgt.mp h)) hr

theorem run_meets_or {step : σ → α → Option σ} {ok : σ → α → Prop} {Inv Trace : σ → Prop}
    (hstep : ∀ s a s', Inv s → ok s a → step s a = some s' → Inv s')
    (hbad : ∀ s a s', Inv s → ¬ ok s a → step s a = some s' → Trace s')
    (htrace : ∀ s a s', Trace s → step s a = some s' → Trace s') :
    ∀ (as : List α) (s s' : σ), Inv s → run step as s = some s' → Meets step ok as s ∨ Trace s' := by
  intro as
  induction as with
  | nil => exact fun _ _ _ _ => .inl trivial
  | cons a as ih =>
    intro s s' hi hr
    rw [run_cons, Option.bind_eq_some_iff] at hr
    obtain ⟨t, ht, hr⟩ := hr
    by_cases hok : ok s a
    · rcases ih t s' (hstep s a t hi hok ht) hr with hm | htr
      · exact .inl ((meets_cons ht).mpr ⟨hok, hm⟩)
      · exact .inr htr
    · exact .inr (run_invariant htrace as t s' (hbad s a t hi hok ht) hr)

theorem run_iff_meets {step : σ → α → Option σ} {ok : σ → α → Prop} {Inv Good : σ → Prop}
    (hstep : ∀ s a s', Inv s → step s a = some s' → Inv s' ∧ (Good s' ↔ Good s ∧ ok s a)) :
    ∀ (as : List α) (s s' : σ), Inv s → run step as s = some s' → (Good s' ↔ Good s ∧ Meets step ok as s) := by
  intro as
  induction as with
  | nil =>
    intro s s' _ hr
    cases hr
    exact (and_iff_left trivial).symm
  | cons a as ih =>
    intro s s' hi hr
    rw [run_cons, Option.bind_eq_some_iff] at hr
    obtain ⟨t, ht, hr⟩ := hr
    obtain ⟨hit, hgt⟩ := hstep s a t hi ht
    rw [ih t s' hit hr, hgt, meets_cons ht, and_assoc]

theorem run_bounded {step : σ → α → Option σ} {Inv : σ → Prop} {cost : α → Nat} {measure : σ → Nat}
    (hstep : ∀ s a s', Inv s → step s a = some s' → Inv s' ∧ cost a + measure s' ≤ measure s) :
    ∀ (as : List α) (s s' : σ), Inv s → run step as s = some s' → (as.map cost).sum + measure s' ≤ measure s := by
  intro as
  induction as with
  | nil =>
    intro s s' _ hr
    cases hr
    simp
  | cons a as ih =>
    intro s s' hi hr
    rw [run_cons, Option.bind_eq_some_iff] at hr
    obtain ⟨t, ht, hr⟩ := hr
    obtain ⟨hit, hcost⟩ := hstep s a t hi ht
    have := ih t s' hit hr
    simp only [List.map_cons, List.sum_cons]
    omega

theorem run_follows {τ : Type} {step : σ → α → Option σ} {step' : τ → α → Option τ} {R : σ → τ → Prop}
    (hstep : ∀ s t a t', R s t → step' t a = some t' → ∃ s', step s a = some s' ∧ R s' t') :
    ∀ (as : List α) (s : σ) (t t' : τ), R s t → run step' as t = some t' → ∃ s', run step as s = some s' ∧ R s' t' := by
  intro as
  induction as with
  | nil =>
    intro s t t' hR hr
    cases hr
    exact ⟨s, rfl, hR⟩
  | cons a as ih =>
    intro s t t' hR hr
    rw [run_cons, Option.bind_eq_some_iff] at hr
    obtain ⟨u, hu, hr⟩ := hr
    obtain ⟨v, hv, hRv⟩ := hstep s t a u hR hu
    rw [run_cons, hv]
    exact ih v u t' hRv hr

theorem run_refines {τ β : Type} {step : σ → α → Option σ} {step' : τ → β → Option τ} {Inv : σ → Prop} {abs : σ → τ}
    {does : α → List β}
    (hstep : ∀ s a s', Inv s → step s a = some s' → Inv s' ∧ run step' (does a) (abs s) = some (abs s')) :
    ∀ (as : List α) (s s' : σ), Inv s → run step as s = some s' →
      run step' (as.flatMap does) (abs s) = some (abs s') := by
  intro as
  induction as with
  | nil =>
    intro s s' _ hr
    cases hr
    rfl
  | cons a as ih =>
    intro s s' hi hr
    rw [run_cons, Option.bind_eq_some_iff] at hr
    obtain ⟨t, ht, hr⟩ := hr
    obtain ⟨hit, hdoes⟩ := hstep s a t hi ht
    rw [List.flatMap_cons, run_append, hdoes]
    exact ih t s' hit hr

/-! ## Guarded machines -/

/-- An action happens only where it is enabled, and then has one outcome. -/
def guarded (enabled : σ → α → Prop) [∀ s a, Decidable (enabled s a)] (apply : σ → α → σ)
    (s : σ) (a : α) : Option σ :=
  if enabled s a then some (apply s a) else none

theorem guarded_eq_some {enabled : σ → α → Prop} [∀ s a, Decidable (enabled s a)] {apply : σ → α → σ}
    {s s' : σ} {a : α} : guarded enabled apply s a = some s' ↔ enabled s a ∧ apply s a = s' := by
  unfold guarded
  split
  · rename_i h
    simp [h]
  · rename_i h
    simp [h]

/-- `run_keeps`, for a guarded machine. -/
theorem guarded_keeps {enabled : σ → α → Prop} [∀ s a, Decidable (enabled s a)] {apply : σ → α → σ}
    {ok : σ → α → Prop} {Inv : σ → Prop}
    (hstep : ∀ s a, Inv s → ok s a → enabled s a → Inv (apply s a))
    (as : List α) (s s' : σ) (hi : Inv s) (hm : Meets (guarded enabled apply) ok as s)
    (hr : run (guarded enabled apply) as s = some s') : Inv s' := by
  apply run_keeps _ as s s' hi hm hr
  intro s a t hi hok ht
  obtain ⟨he, rfl⟩ := guarded_eq_some.mp ht
  exact hstep s a hi hok he

theorem guarded_invariant {enabled : σ → α → Prop} [∀ s a, Decidable (enabled s a)] {apply : σ → α → σ}
    {Inv : σ → Prop} (hstep : ∀ s a, Inv s → enabled s a → Inv (apply s a)) (as : List α) (s s' : σ) (hi : Inv s)
    (hr : run (guarded enabled apply) as s = some s') : Inv s' :=
  guarded_keeps (fun s a hi _ he => hstep s a hi he) as s s' hi (meets_true _ as s) hr

end Libcortex.Lib
