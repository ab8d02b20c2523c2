import Mathlib.Data.List.Count
import Libcortex.Dicts
import Libcortex.Graph
import Libcortex.Lib.Run

/-!
# Creating, finding and freeing graphs

`core.c`: `crtx_root->graphs` is an array of all graphs. A graph that is freed leaves an empty slot behind, which the
next graph takes. The functions that look for a graph do not expect empty slots, and the one that
creates a graph for a list of descriptions counts them as types.
-/

open Libcortex.Lib

namespace Libcortex.Registry

open Dicts (CString)

/-! ## The machine -/

abbrev EventType := BitVec 32

/-- What a graph accepts. `descriptions` are the strings before the NULL at the end of the array. -/
structure Accepts where
  types : Option (List EventType)
  n_types : Nat
  descriptions : Option (List CString)
  n_descriptions : Nat
deriving DecidableEq

/-- `live` is history: the graphs that were created and not yet freed. `crashed`: the code has followed a NULL
pointer. -/
structure St where
  root : Root
  accepts : GraphId → Accepts
  live : List GraphId
  crashed : Bool

/-- `crtx_root->n_graphs`. Its 32 bits are more than the graphs that fit into the memory. -/
def St.n_graphs (s : St) : Nat := s.root.registry.length

/-! ### Looking for a graph -/

/-- The loop over the array `arr`, from `j` on, where `n` elements are left. `none`: it reads where no element is. -/
def scan {α : Type} (p : α → Bool) (arr : Option (List α)) : Nat → Nat → Option Bool
  | 0, _ => some false
  | n + 1, j => do
    let a ← arr.bind (·[j]?)
    if p a then return true else scan p arr n (j + 1)

/-- The loop over the registry. `none`: it follows a NULL pointer. -/
def findGraph (f : GraphId → Option Bool) : List (Option GraphId) → Option (Option GraphId)
  | [] => some none
  | none :: _ => none
  | some g :: slots => do
    if ← f g then return some g else findGraph f slots

def crtx_find_graph_for_event_description (s : St) (event_description : CString) : Option (Option GraphId) :=
  findGraph (fun g => scan (· = event_description) (s.accepts g).descriptions (s.accepts g).n_descriptions 0)
    s.root.registry

def crtx_find_graph_for_event_type (s : St) (event_type : EventType) : Option (Option GraphId) :=
  findGraph (fun g => scan (· = event_type) (s.accepts g).types (s.accepts g).n_types 0) s.root.registry

/-! ### Creating and freeing -/

/-- What `calloc` leaves. -/
def Accepts.zero : Accepts := ⟨none, 0, none, 0⟩

/-- `g` is the address that `calloc` returns. -/
def crtx_create_graph (s : St) (g : GraphId) : St :=
  { s with
    root := registerGraph (s.root.setGraph g ⟨[], .preferNone, [], [], none⟩) g
    accepts := Function.update s.accepts g .zero
    live := g :: s.live }

/-- The list of names is as long as the loop with `n_types` finds it. -/
def crtx_get_graph_for_event_description (s : St) (event_description : CString) (new_event_types : List CString)
    (g : GraphId) : Option (St × GraphId) :=
  match crtx_find_graph_for_event_description s event_description with
  | none => none
  | some (some g') => some (s, g')
  | some none =>
    let s := crtx_create_graph s g
    let a := s.accepts g
    some ({ s with
      accepts := Function.update s.accepts g
        { a with n_types := a.n_types + new_event_types.length, descriptions := some new_event_types } }, g)

/-- For a graph without pending events. -/
def crtx_free_graph (s : St) (g : GraphId) : St :=
  { s with root := shutdown_graph_intern s.root g, live := s.live.erase g }

/-- `use` stands for all that happens to the tasks and queues of the graphs between two calls. -/
inductive Action where
  | create (g : GraphId)
  | get (event_description : CString) (new_event_types : List CString) (g : GraphId)
  | free (g : GraphId)
  | use (graphs : GraphId → Graph)

/-- `calloc` returns no graph that is still there. -/
def step (s : St) : Action → Option St
  | .create g => if s.crashed = false ∧ g ∉ s.live then some (crtx_create_graph s g) else none
  | .get d names g =>
    if s.crashed = false ∧ g ∉ s.live ∧ d ∈ names then
      some (match crtx_get_graph_for_event_description s d names g with
        | some (s, _) => s
        | none => { s with crashed := true })
    else none
  | .free g =>
    if s.crashed = false ∧ g ∈ s.live ∧ (s.root.graphs g).equeue = [] ∧ (s.root.graphs g).claimed = [] then
      some (crtx_free_graph s g)
    else none
  | .use graphs => if s.crashed = false then some { s with root := { s.root with graphs } } else none

/-- Nothing in `root` matters but the registry, which is empty. -/
def init (root : Root) : St where
  root := { root with registry := [] }
  accepts _ := .zero
  live := []
  crashed := false

/-! ## The registry -/

/-- Every graph that is there has one slot, and no other graph has one. -/
def Registered (s : St) : Prop :=
  s.live.Nodup ∧ ∀ g, s.root.registry.count (some g) = if g ∈ s.live then 1 else 0

theorem count_replace_none (slots : List (Option GraphId)) (g g' : GraphId) (h : none ∈ slots) :
    (slots.replace none (some g)).count (some g') = slots.count (some g') + if g' = g then 1 else 0 := by
  induction slots with
  | nil => simp at h
  | cons slot slots ih =>
    cases slot with
    | none =>
      rw [List.replace_cons_self, List.count_cons, List.count_cons]
      by_cases hg : g' = g
      · simp [hg]
      · simp [hg, Ne.symm hg]
    | some k =>
      have hne : (none == some k) = false := rfl
      rw [List.replace_cons, hne]
      dsimp only
      rw [List.count_cons, List.count_cons, ih (by simpa using h)]
      omega

theorem count_register (r : Root) (g g' : GraphId) :
    (registerGraph r g).registry.count (some g') = r.registry.count (some g') + if g' = g then 1 else 0 := by
  unfold registerGraph
  dsimp only
  split
  · rename_i h
    exact count_replace_none _ g g' h
  · rw [List.count_append, List.count_singleton]
    by_cases hg : g' = g
    · simp [hg]
    · simp [hg, Ne.symm hg]

theorem length_register (r : Root) (g : GraphId) :
    (registerGraph r g).registry.length = r.registry.length + if none ∈ r.registry then 0 else 1 := by
  unfold registerGraph
  dsimp only
  split <;> simp

theorem create_registered {s : St} (h : Registered s) {g : GraphId} (hg : g ∉ s.live) :
    Registered (crtx_create_graph s g) := by
  refine ⟨List.nodup_cons.mpr ⟨hg, h.1⟩, fun g' => ?_⟩
  have hc := count_register (s.root.setGraph g ⟨[], .preferNone, [], [], none⟩) g g'
  rw [Root.setGraph_registry, h.2] at hc
  refine hc.trans ?_
  by_cases hgg : g' = g
  · simp [crtx_create_graph, hgg, hg]
  · simp [crtx_create_graph, hgg]

theorem free_registered {s : St} (h : Registered s) (g : GraphId) : Registered (crtx_free_graph s g) := by
  refine ⟨h.1.erase g, fun g' => ?_⟩
  have hc := count_unregister s.root g g'
  rw [h.2] at hc
  refine hc.trans ?_
  by_cases hgg : g' = g
  · simp only [crtx_free_graph, hgg, h.1.mem_erase_iff]
    split <;> simp
  · simp [crtx_free_graph, hgg, h.1.mem_erase_iff]

/-- All that a step can do to the registry. -/
theorem step_cases {s s' : St} {a : Action} (h : step s a = some s') :
    (∃ g, g ∉ s.live ∧ s'.root = (crtx_create_graph s g).root ∧ s'.live = g :: s.live) ∨
    (∃ g ∈ s.live, s' = crtx_free_graph s g) ∨
    s'.root.registry = s.root.registry ∧ s'.live = s.live := by
  cases a with
  | create g =>
    simp only [step, Option.ite_none_right_eq_some, Option.some.injEq] at h
    obtain ⟨⟨-, hg⟩, rfl⟩ := h
    exact .inl ⟨g, hg, rfl, rfl⟩
  | get d names g =>
    simp only [step, Option.ite_none_right_eq_some, Option.some.injEq] at h
    obtain ⟨⟨-, hg, -⟩, rfl⟩ := h
    unfold crtx_get_graph_for_event_description
    cases crtx_find_graph_for_event_description s d with
    | none => exact .inr (.inr ⟨rfl, rfl⟩)
    | some found =>
      cases found with
      | some g' => exact .inr (.inr ⟨rfl, rfl⟩)
      | none => exact .inl ⟨g, hg, rfl, rfl⟩
  | free g =>
    simp only [step, Option.ite_none_right_eq_some, Option.some.injEq] at h
    obtain ⟨⟨-, hg, -⟩, rfl⟩ := h
    exact .inr (.inl ⟨g, hg, rfl⟩)
  | use graphs =>
    simp only [step, Option.ite_none_right_eq_some, Option.some.injEq] at h
    obtain ⟨-, rfl⟩ := h
    exact .inr (.inr ⟨rfl, rfl⟩)

theorem step_registered {s s' : St} {a : Action} (hi : Registered s) (h : step s a = some s') : Registered s' := by
  obtain ⟨g, hg, hroot, hlive⟩ | ⟨g, -, rfl⟩ | ⟨hreg, hlive⟩ := step_cases h
  · have hc := create_registered hi hg
    unfold Registered at hc ⊢
    rw [hroot, hlive]
    exact hc
  · exact free_registered hi g
  · unfold Registered at hi ⊢
    rw [hreg, hlive]
    exact hi

theorem step_n_graphs {s s' : St} {a : Action} (h : step s a = some s') :
    s'.n_graphs = s.n_graphs ∨ s'.n_graphs = s.n_graphs + 1 ∧ none ∉ s.root.registry := by
  unfold St.n_graphs
  obtain ⟨g, -, hroot, -⟩ | ⟨g, -, rfl⟩ | ⟨hreg, -⟩ := step_cases h
  · have hl := length_register (s.root.setGraph g ⟨[], .preferNone, [], [], none⟩) g
    rw [Root.setGraph_registry] at hl
    rw [hroot]
    by_cases hn : none ∈ s.root.registry
    · rw [if_pos hn] at hl
      exact .inl hl
    · rw [if_neg hn] at hl
      exact .inr ⟨hl, hn⟩
  · left
    simp [crtx_free_graph, shutdown_graph_intern, unregisterGraph, Root.setGraph]
  · exact .inl (by rw [hreg])

theorem run_n_graphs (as : List Action) (s s' : St) (h : run step as s = some s') : s.n_graphs ≤ s'.n_graphs := by
  have hstep : ∀ t a t', s.n_graphs ≤ t.n_graphs → step t a = some t' → s.n_graphs ≤ t'.n_graphs := by
    intro t a t' hi ht
    rcases step_n_graphs ht with hn | ⟨hn, -⟩ <;> omega
  exact run_invariant hstep as s s' (Nat.le_refl _) h

theorem init_registered (root : Root) : Registered (init root) := ⟨List.nodup_nil, fun g => by simp [init]⟩

/-- What holds after `as`, and then while `bs` goes on. -/
theorem graph_registry (root : Root) (as bs : List Action) (s s' : St) (hs : run step as (init root) = some s)
    (hs' : run step bs s = some s') :
    (∀ g, s.root.registry.count (some g) = if g ∈ s.live then 1 else 0) ∧ s.n_graphs ≤ s'.n_graphs ∧
      ∀ a t, step s a = some t → t.n_graphs = s.n_graphs ∨ t.n_graphs = s.n_graphs + 1 ∧ none ∉ s.root.registry := by
  have hi := run_invariant (fun _ _ _ hi ht => step_registered hi ht) as _ s (init_registered root) hs
  exact ⟨hi.2, run_n_graphs bs s s' hs', fun a t ht => step_n_graphs ht⟩

/-- No graphs, no events. -/
def emptyRoot : Root where
  events _ := Event.fresh
  graphs _ := ⟨[], .preferNone, [], [], none⟩
  registry := []
  pipe := []
  pipe_capacity := 65536
  nextEntry := 0
  force_mode := .preferNone
  default_mode := .preferEloop

/-- The slot of the first graph is used again before the array grows. -/
theorem graph_registry_three_graphs :
    ∃ s s', run step [.create 0, .create 1, .free 0, .create 2] (init emptyRoot) = some s ∧
      run step [.create 0, .free 1] s = some s' ∧ s.root.registry = [some 2, some 1] ∧
      s'.root.registry = [some 2, none, some 0] ∧ s.n_graphs ≤ s'.n_graphs :=
  ⟨_, _, rfl, rfl, by decide, by decide,
    (graph_registry emptyRoot [.create 0, .create 1, .free 0, .create 2] [.create 0, .free 1] _ _ rfl rfl).2.1⟩

/-! ## Finding graphs -/

/-- The first graph in the order of the registry for which `p` holds. -/
def firstLive (s : St) (p : GraphId → Bool) : Option GraphId := (s.root.registry.filterMap id).find? p

/-- Both functions find the first graph that accepts what they are asked for. -/
structure LooksUp (s : St) : Prop where
  description : ∀ d, crtx_find_graph_for_event_description s d =
    some (firstLive s fun g => d ∈ (s.accepts g).descriptions.getD [])
  type : ∀ t, crtx_find_graph_for_event_type s t = some (firstLive s fun g => t ∈ (s.accepts g).types.getD [])

/-- No slot is empty, and no graph comes from `crtx_get_graph_for_event_description`. -/
def Plain (s : St) : Prop := none ∉ s.root.registry ∧ ∀ g ∈ s.live, (s.accepts g).descriptions = none

/-- What the graphs accept that the functions here have created. -/
structure Created (a : Accepts) : Prop where
  types : a.types = none
  n_descriptions : a.n_descriptions = 0
  names : a.descriptions = none ∧ a.n_types = 0 ∨ ∃ names, names ≠ [] ∧ a.descriptions = some names ∧ a.n_types ≠ 0

structure Inv (s : St) : Prop where
  registered : Registered s
  created : ∀ g ∈ s.live, Created (s.accepts g)
  crashed : s.crashed = true → none ∈ s.root.registry

theorem Registered.mem_iff {s : St} (h : Registered s) {g : GraphId} : some g ∈ s.root.registry ↔ g ∈ s.live := by
  rw [← List.count_pos_iff, h.2]
  split <;> simp_all

theorem findGraph_ends {f : GraphId → Option Bool} {slots : List (Option GraphId)} (hnone : none ∉ slots)
    (h : ∀ g, some g ∈ slots → f g = some false) : findGraph f slots = some none := by
  induction slots with
  | nil => rfl
  | cons slot slots ih =>
    cases slot with
    | none => simp at hnone
    | some g =>
      have ih := ih (fun hn => hnone (List.mem_cons_of_mem _ hn)) fun k hk => h k (List.mem_cons_of_mem _ hk)
      simp [findGraph, h g (by simp), ih]

theorem findGraph_crashes {f : GraphId → Option Bool} {slots : List (Option GraphId)}
    (h : ∀ g, some g ∈ slots → f g ≠ some true) (hbad : none ∈ slots ∨ ∃ g, some g ∈ slots ∧ f g = none) :
    findGraph f slots = none := by
  induction slots with
  | nil => simp at hbad
  | cons slot slots ih =>
    have ih := ih fun g hg => h g (List.mem_cons_of_mem _ hg)
    cases slot with
    | none => rfl
    | some g =>
      cases hf : f g with
      | none => simp [findGraph, hf]
      | some b =>
        cases b with
        | true => exact absurd hf (h g (by simp))
        | false =>
          simp only [findGraph, hf, Option.bind_eq_bind, Option.bind_some, Bool.false_eq_true, if_false]
          apply ih
          rcases hbad with hn | ⟨k, hk, hfk⟩
          · exact .inl (by simpa using hn)
          · rcases List.mem_cons.mp hk with hk | hk
            · cases hk
              rw [hf] at hfk
              cases hfk
            · exact .inr ⟨k, hk, hfk⟩

theorem find_description_eq {s : St} (hi : Inv s) (d : CString) :
    crtx_find_graph_for_event_description s d = if none ∈ s.root.registry then none else some none := by
  have hscan : ∀ g, some g ∈ s.root.registry →
      scan (· = d) (s.accepts g).descriptions (s.accepts g).n_descriptions 0 = some false := by
    intro g hg
    rw [(hi.created g (hi.registered.mem_iff.mp hg)).n_descriptions]
    rfl
  split
  · rename_i hn
    exact findGraph_crashes (fun g hg => by simp [hscan g hg]) (.inl hn)
  · rename_i hn
    exact findGraph_ends hn hscan

theorem scan_types {a : Accepts} (h : Created a) (t : EventType) :
    scan (· = t) a.types a.n_types 0 = if a.descriptions = none then some false else none := by
  rw [h.types]
  rcases h.names with ⟨hd, hn⟩ | ⟨names, -, hd, hn⟩
  · rw [if_pos hd, hn]
    rfl
  · obtain ⟨n, hn⟩ := Nat.exists_eq_succ_of_ne_zero hn
    rw [if_neg (by simp [hd]), hn]
    rfl

theorem find_type_plain {s : St} (hi : Inv s) (hp : Plain s) (t : EventType) :
    crtx_find_graph_for_event_type s t = some none := by
  refine findGraph_ends hp.1 fun g hg => ?_
  have hg := hi.registered.mem_iff.mp hg
  rw [scan_types (hi.created g hg), if_pos (hp.2 g hg)]

theorem find_type_crashes {s : St} (hi : Inv s) (hp : ¬ Plain s) (t : EventType) :
    crtx_find_graph_for_event_type s t = none := by
  refine findGraph_crashes (fun g hg => ?_) ?_
  · rw [scan_types (hi.created g (hi.registered.mem_iff.mp hg))]
    split <;> simp
  · by_cases hn : none ∈ s.root.registry
    · exact .inl hn
    · obtain ⟨g, hg, hd⟩ : ∃ g ∈ s.live, (s.accepts g).descriptions ≠ none := by
        by_contra h
        exact hp ⟨hn, fun g hg => by_contra fun hd => h ⟨g, hg, hd⟩⟩
      refine .inr ⟨g, hi.registered.mem_iff.mpr hg, ?_⟩
      rw [scan_types (hi.created g hg), if_neg hd]

theorem firstLive_eq_none {s : St} (hi : Inv s) {p : GraphId → Bool} (h : ∀ g ∈ s.live, p g = false) :
    firstLive s p = none := by
  refine List.find?_eq_none.mpr fun g hg => ?_
  obtain ⟨slot, hslot, heq⟩ := List.mem_filterMap.mp hg
  obtain rfl : slot = some g := heq
  simp [h g (hi.registered.mem_iff.mp hslot)]

theorem looksUp_iff {s : St} (hi : Inv s) : s.crashed = false ∧ LooksUp s ↔ Plain s := by
  constructor
  · rintro ⟨-, hl⟩
    by_contra hp
    have := hl.type 0
    rw [find_type_crashes hi hp] at this
    cases this
  · intro hp
    refine ⟨by simpa using fun hc => hp.1 (hi.crashed hc), fun d => ?_, fun t => ?_⟩
    · rw [find_description_eq hi, if_neg hp.1, firstLive_eq_none hi]
      intro g hg
      simp [hp.2 g hg]
    · rw [find_type_plain hi hp, firstLive_eq_none hi]
      intro g hg
      simp [(hi.created g hg).types]

/-! ### Runs -/

theorem init_inv (root : Root) : Inv (init root) := ⟨init_registered root, by simp [init], by simp [init]⟩

theorem created_update {s : St} (hi : Inv s) {g : GraphId} {a : Accepts} (ha : Created a) :
    ∀ k ∈ g :: s.live, Created (Function.update s.accepts g a k) := by
  intro k hk
  by_cases hkg : k = g
  · rw [hkg, Function.update_self]
    exact ha
  · rw [Function.update_of_ne hkg]
    exact hi.created k ((List.mem_cons.mp hk).resolve_left hkg)

theorem create_inv {s : St} (hi : Inv s) (hc : s.crashed = false) {g : GraphId} (hg : g ∉ s.live) :
    Inv (crtx_create_graph s g) :=
  ⟨create_registered hi.registered hg, created_update hi ⟨rfl, rfl, .inl ⟨rfl, rfl⟩⟩, fun h => by
    simp [crtx_create_graph, hc] at h⟩

theorem get_cases {s : St} (hi : Inv s) (d : CString) (names : List CString) (g : GraphId) :
    none ∈ s.root.registry ∧ crtx_get_graph_for_event_description s d names g = none ∨
      crtx_get_graph_for_event_description s d names g =
        some ({ crtx_create_graph s g with
          accepts := Function.update s.accepts g ⟨none, names.length, some names, 0⟩ }, g) := by
  unfold crtx_get_graph_for_event_description
  rw [find_description_eq hi]
  by_cases hn : none ∈ s.root.registry
  · rw [if_pos hn]
    exact .inl ⟨hn, rfl⟩
  · rw [if_neg hn]
    right
    simp [crtx_create_graph, Accepts.zero]

theorem get_inv {s : St} (hi : Inv s) (hc : s.crashed = false) {d : CString} {names : List CString} {g : GraphId}
    (hd : d ∈ names) (hg : g ∉ s.live) :
    Inv { crtx_create_graph s g with
      accepts := Function.update s.accepts g ⟨none, names.length, some names, 0⟩ } := by
  have hne : names ≠ [] := List.ne_nil_of_mem hd
  refine ⟨create_registered hi.registered hg, created_update hi ⟨rfl, rfl, .inr ⟨names, hne, rfl, ?_⟩⟩, fun h => ?_⟩
  · simpa using hne
  · simp [crtx_create_graph, hc] at h

theorem step_inv {s s' : St} {a : Action} (hi : Inv s) (h : step s a = some s') : Inv s' := by
  have hreg := step_registered hi.registered h
  cases a with
  | create g =>
    simp only [step, Option.ite_none_right_eq_some, Option.some.injEq] at h
    obtain ⟨⟨hc, hg⟩, rfl⟩ := h
    exact create_inv hi hc hg
  | get d names g =>
    simp only [step, Option.ite_none_right_eq_some, Option.some.injEq] at h
    obtain ⟨⟨hc, hg, hd⟩, rfl⟩ := h
    obtain ⟨hn, hget⟩ | hget := get_cases hi d names g
    · rw [hget]
      exact ⟨hi.registered, hi.created, fun _ => hn⟩
    · rw [hget]
      exact get_inv hi hc hd hg
  | free g =>
    simp only [step, Option.ite_none_right_eq_some, Option.some.injEq] at h
    obtain ⟨⟨hc, -⟩, rfl⟩ := h
    refine ⟨hreg, fun k hk => hi.created k (List.mem_of_mem_erase hk), fun h => ?_⟩
    simp [crtx_free_graph, hc] at h
  | use graphs =>
    simp only [step, Option.ite_none_right_eq_some, Option.some.injEq] at h
    obtain ⟨hc, rfl⟩ := h
    exact ⟨hreg, hi.created, hi.crashed⟩

/-- The second call with the same description makes a graph of its own. -/
def AnotherGraph (s : St) : Prop :=
  ∀ d names g s' k, d ∈ names → g ∉ s.live → crtx_get_graph_for_event_description s d names g = some (s', k) →
    ∀ names' g' s'' k', g' ∉ s'.live → crtx_get_graph_for_event_description s' d names' g' = some (s'', k') → k' ≠ k

theorem anotherGraph {s : St} (hi : Inv s) (hc : s.crashed = false) : AnotherGraph s := by
  intro d names g s' k hd hg h names' g' s'' k' hg' h'
  obtain ⟨-, hget⟩ | hget := get_cases hi d names g
  · rw [hget] at h
    cases h
  · rw [hget] at h
    cases h
    obtain ⟨-, hget'⟩ | hget' := get_cases (get_inv hi hc hd hg) d names' g'
    · rw [hget'] at h'
      cases h'
    · rw [hget'] at h'
      cases h'
      rintro rfl
      exact hg' (by simp [crtx_create_graph])

/-- In every state that is reached, the lookups are right exactly if the state is plain. -/
theorem graph_lookup_iff (root : Root) (as : List Action) (s : St) (hs : run step as (init root) = some s) :
    (s.crashed = false ∧ LooksUp s ↔ Plain s) ∧ (s.crashed = false → AnotherGraph s) := by
  have hi := run_invariant (fun _ _ _ hi ht => step_inv hi ht) as _ s (init_inv root) hs
  exact ⟨looksUp_iff hi, anotherGraph hi⟩

theorem graph_lookup_iff_reused :
    ∃ s, run step [.create 0, .create 1, .free 0, .create 2] (init emptyRoot) = some s ∧ Plain s ∧ LooksUp s :=
  have hp : Plain _ := ⟨by decide, by decide⟩
  ⟨_, rfl, hp, ((graph_lookup_iff emptyRoot [.create 0, .create 1, .free 0, .create 2] _ rfl).1.mpr hp).2⟩

/-- A slot that is empty stops the first lookup. A graph that was asked for by its description is not found again, and
stops a lookup by type. -/
theorem lookups_fail :
    (∃ s, run step [.create 0, .free 0] (init emptyRoot) = some s ∧
      crtx_find_graph_for_event_description s Dicts.keyA = none) ∧
    (∃ s, run step [.get Dicts.keyA [Dicts.keyA] 0, .get Dicts.keyA [Dicts.keyA] 1] (init emptyRoot) = some s ∧
      crtx_find_graph_for_event_description s Dicts.keyA = some none ∧ s.live = [1, 0] ∧
      (s.accepts 0).descriptions = some [Dicts.keyA] ∧ crtx_find_graph_for_event_type s 0 = none) :=
  ⟨⟨_, rfl, by decide⟩, ⟨_, rfl, by decide, by decide, by decide, by decide⟩⟩

end Libcortex.Registry
