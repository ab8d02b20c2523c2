import Libcortex.Listener
import Libcortex.Registry
import Libcortex.SList

/-!
# Set-ups that fail

`crtx_setup_listener` looks for the `create` function of the type, and calls it after `crtx_init_listener_base`, which
may allocate a graph. Many `create` functions set up further listeners before they fail.
-/

open Libcortex.SList

namespace Libcortex.SetupFailure

structure St where
  env : Env
  listeners : List ListenerId

/-- What one call of a `create` function does: it sets other listeners to zero or sets them up in turn, and returns null
or the listener with new fields. What it starts changes neither the list nor the graphs. `g` is what `calloc` returns
for the graph. -/
inductive Create where
  | null
  | created (fields : Listener)
  | memset (sub : ListenerId) (next : Create)
  | setup (sub : ListenerId) (g : GraphId) (create next : Create)

def Create.result : Create → Bool
  | .null => false
  | .created _ => true
  | .memset _ next => next.result
  | .setup _ _ _ next => next.result

def crtx_init_listener_base (s : St) (l : ListenerId) (g : GraphId) : St :=
  { s with env := Libcortex.crtx_setup_listener s.env l g }

def enlist (s : St) (l : ListenerId) : St := { s with listeners := (append s.listeners l).1 }

def zero (s : St) (l : ListenerId) : St := { s with env := s.env.modify l fun _ => crtx_calloc_listener_base }

/-- `l` is the listener that the call is about. -/
def runCreate : Create → St → ListenerId → St
  | .null, s, _ => s
  | .created fields, s, l =>
    { s with env := s.env.modify l fun b => { fields with state := b.state, graph := b.graph } }
  | .memset sub next, s, l => runCreate next (zero s sub) l
  | .setup sub g create next, s, l =>
    let s := runCreate create (crtx_init_listener_base s sub g) sub
    runCreate next (if create.result then enlist s sub else s) l

/-- The types of `static_listener_repository` or `crtx_root->listener_repository`, with what `create` will do. -/
abbrev Repository := List (String × Create)

/-- The search ends at once if the first of the two is empty. -/
def findType (static added : Repository) (id : String) : Option Create :=
  if static = [] then none else (static ++ added).lookup id

def crtx_setup_listener (static added : Repository) (s : St) (id : Option String) (l : ListenerId) (g : GraphId) :
    St × Int :=
  match id with
  | none => (s, -EINVAL)
  | some id =>
    if id = "" then (enlist (crtx_init_listener_base s l g) l, 0)
    else
      match findType static added id with
      | none => (s, -ENOENT)
      | some create =>
        let s := runCreate create (crtx_init_listener_base s l g) l
        if create.result then (enlist s l, 0) else (s, 1)

/-! ## What has to hold -/

/-- How many slots of `crtx_root->graphs` have the graph. -/
def slots (s : St) (g : GraphId) : Nat := s.env.root.registry.count (some g)

def graphOf (s : St) (l : ListenerId) : Option GraphId := (s.env.lstnr l).graph

structure NoTrace (l : ListenerId) (s s' : St) : Prop where
  listeners : s'.listeners = s.listeners
  registered : slots s' = slots s
  graph : graphOf s' l = graphOf s l

/-- All listeners that are set up, with success or not. -/
def Create.sets : Create → List ListenerId
  | .null | .created _ => []
  | .memset _ next => next.sets
  | .setup sub _ create next => sub :: (create.sets ++ next.sets)

def Create.enlists : Create → List ListenerId
  | .null | .created _ => []
  | .memset _ next => next.enlists
  | .setup sub _ create next => create.enlists ++ ((if create.result then [sub] else []) ++ next.enlists)

def Create.zeroes : Create → List ListenerId
  | .null | .created _ => []
  | .memset sub next => sub :: next.zeroes
  | .setup _ _ create next => create.zeroes ++ next.zeroes

/-- No listener is set up after it was set to zero. -/
def Create.KeepsGraphs : Create → Prop
  | .null | .created _ => True
  | .memset sub next => sub ∉ next.sets ∧ next.KeepsGraphs
  | .setup _ _ create next => create.KeepsGraphs ∧ (∀ a ∈ create.zeroes, a ∉ next.sets) ∧ next.KeepsGraphs

/-- There is nothing to allocate, and whatever is set up with success is in the list already. -/
@[mk_iff prepared_iff]
structure Prepared (s : St) (create : Create) : Prop where
  graphs : ∀ a ∈ create.sets, graphOf s a ≠ none
  kept : create.KeepsGraphs
  listed : ∀ a ∈ create.enlists, a ∈ s.listeners

/-! ## What a set-up adds -/

/-- Nothing leaves the list or the registry. If nothing enters the registry, no listener gets a graph, and those that
are set to zero lose theirs. -/
structure Grows (zeroed : List ListenerId) (s s' : St) : Prop where
  listeners : s.listeners <+: s'.listeners
  registered : slots s ≤ slots s'
  graphs : slots s' = slots s → ∀ a, graphOf s' a = if a ∈ zeroed then none else graphOf s a

structure Same (s s' : St) : Prop where
  listeners : s'.listeners = s.listeners
  registered : slots s' = slots s

theorem Grows.refl (s : St) : Grows [] s s := ⟨List.prefix_rfl, le_rfl, by simp⟩

theorem Grows.trans {z z' : List ListenerId} {s s' s'' : St} (h : Grows z s s') (h' : Grows z' s' s'') :
    Grows (z ++ z') s s'' := by
  refine ⟨h.listeners.trans h'.listeners, h.registered.trans h'.registered, fun heq a => ?_⟩
  have hle : slots s' ≤ slots s := heq ▸ h'.registered
  have hfirst : slots s' = slots s := le_antisymm hle h.registered
  rw [h'.graphs (heq.trans hfirst.symm), h.graphs hfirst]
  by_cases ha : a ∈ z <;> simp [ha]

theorem same_trans {z z' : List ListenerId} {s s' s'' : St} (h : Grows z s s') (h' : Grows z' s' s'') :
    Same s s'' ↔ Same s s' ∧ Same s' s'' := by
  constructor
  · intro hs
    have hl : s'.listeners = s.listeners :=
      (hs.listeners ▸ h'.listeners).eq_of_length_le h.listeners.length_le
    have hr : slots s' = slots s := le_antisymm (hs.registered ▸ h'.registered) h.registered
    exact ⟨⟨hl, hr⟩, hs.listeners.trans hl.symm, hs.registered.trans hr.symm⟩
  · rintro ⟨hs, hs'⟩
    exact ⟨hs'.listeners.trans hs.listeners, hs'.registered.trans hs.registered⟩

theorem same_then {z z' : List ListenerId} {s s' s'' : St} {p : Prop} (h : Grows z s s') (h' : Grows z' s' s'')
    (hp : Same s s' → (Same s' s'' ↔ p)) : Same s s'' ↔ Same s s' ∧ p := by
  rw [same_trans h h']
  exact and_congr_right hp

theorem noTrace_iff {z : List ListenerId} {s s' : St} {l : ListenerId} (h : Grows z s s') (hl : graphOf s l ≠ none) :
    NoTrace l s s' ↔ Same s s' ∧ l ∉ z := by
  constructor
  · intro hn
    refine ⟨⟨hn.listeners, hn.registered⟩, fun hz => hl ?_⟩
    rw [← hn.graph, h.graphs hn.registered, if_pos hz]
  · rintro ⟨hs, hz⟩
    exact ⟨hs.listeners, hs.registered, by rw [h.graphs hs.registered, if_neg hz]⟩

theorem Same.prepared {z : List ListenerId} {s s' : St} (hg : Grows z s s') (hs : Same s s') (create : Create) :
    Prepared s' create ↔ Prepared s create ∧ ∀ a ∈ z, a ∉ create.sets := by
  have hgraph : ∀ a, graphOf s' a ≠ none ↔ graphOf s a ≠ none ∧ a ∉ z := by
    intro a
    rw [hg.graphs hs.registered]
    by_cases ha : a ∈ z <;> simp [ha]
  constructor
  · rintro ⟨hgraphs, hkept, hlisted⟩
    refine ⟨⟨fun a ha => ((hgraph a).mp (hgraphs a ha)).1, hkept, hs.listeners ▸ hlisted⟩, fun a hz ha => ?_⟩
    exact ((hgraph a).mp (hgraphs a ha)).2 hz
  · rintro ⟨⟨hgraphs, hkept, hlisted⟩, hz⟩
    exact ⟨fun a ha => (hgraph a).mpr ⟨hgraphs a ha, fun hm => hz a hm ha⟩, hkept, hs.listeners ▸ hlisted⟩

theorem enlist_grows (s : St) (l : ListenerId) : Grows [] s (enlist s l) := by
  refine ⟨?_, le_rfl, by simp [enlist, graphOf]⟩
  unfold enlist append
  split
  · exact List.prefix_rfl
  · exact List.prefix_append ..

theorem enlist_same {s : St} {l : ListenerId} : Same s (enlist s l) ↔ l ∈ s.listeners := by
  constructor
  · intro h
    have hl := h.listeners
    unfold enlist append at hl
    split at hl
    · assumption
    · simp at hl
  · intro h
    exact ⟨by simp [enlist, append, h], rfl⟩

theorem slots_init (s : St) (l : ListenerId) (g g' : GraphId) :
    slots (crtx_init_listener_base s l g) g' =
      slots s g' + if graphOf s l = none ∧ g' = g then 1 else 0 := by
  unfold crtx_init_listener_base Libcortex.crtx_setup_listener Libcortex.ensureGraph slots graphOf
  dsimp only
  rw [Env.modify_root, Env.setState_self, Env.emit_lstnr]
  by_cases h : (s.env.lstnr l).graph = none
  · rw [if_pos h, Env.modify_root, Env.setRoot_root, Registry.count_register]
    simp [h]
  · simp [h]

theorem graphOf_init {s : St} {l : ListenerId} (g : GraphId) (h : graphOf s l ≠ none) :
    graphOf (crtx_init_listener_base s l g) = graphOf s := by
  funext a
  unfold graphOf at *
  by_cases ha : a = l
  · subst ha
    simp [crtx_init_listener_base, Libcortex.crtx_setup_listener, Libcortex.ensureGraph, h]
  · exact congrArg Listener.graph (setup_other s.env ha g)

theorem init_same {s : St} {l : ListenerId} {g : GraphId} :
    Same s (crtx_init_listener_base s l g) ↔ graphOf s l ≠ none := by
  constructor
  · intro hs hnone
    have h := slots_init s l g g
    rw [hs.registered, if_pos ⟨hnone, rfl⟩] at h
    omega
  · intro h
    refine ⟨rfl, funext fun g' => ?_⟩
    rw [slots_init, if_neg fun hn => h hn.1]
    rfl

theorem init_grows (s : St) (l : ListenerId) (g : GraphId) : Grows [] s (crtx_init_listener_base s l g) := by
  refine ⟨List.prefix_rfl, fun g' => ?_, fun heq a => ?_⟩
  · rw [slots_init]
    exact Nat.le_add_right ..
  · rw [graphOf_init g (init_same.mp ⟨rfl, heq⟩)]
    simp

theorem enlisted_grows (create : Create) (s : St) (l : ListenerId) :
    Grows [] s (if create.result then enlist s l else s) := by
  split
  · exact enlist_grows s l
  · exact Grows.refl s

theorem enlisted_same {create : Create} {s : St} {l : ListenerId} :
    Same s (if create.result then enlist s l else s) ↔ (create.result = true → l ∈ s.listeners) := by
  split
  · rename_i h
    rw [enlist_same, forall_prop_of_true h]
  · rename_i h
    exact iff_of_true ⟨rfl, rfl⟩ fun hr => absurd hr h

theorem zero_grows (s : St) (l : ListenerId) : Grows [l] s (zero s l) := by
  refine ⟨List.prefix_rfl, le_rfl, fun _ a => ?_⟩
  unfold zero graphOf
  by_cases ha : a = l
  · simp [ha, crtx_calloc_listener_base]
  · simp [ha, Env.modify_other]

theorem zero_same (s : St) (l : ListenerId) : Same s (zero s l) := ⟨rfl, rfl⟩

theorem runCreate_grows (create : Create) (s : St) (l : ListenerId) : Grows create.zeroes s (runCreate create s l) := by
  induction create generalizing s l with
  | null => exact Grows.refl s
  | created fields =>
    refine ⟨List.prefix_rfl, le_rfl, fun _ a => ?_⟩
    unfold runCreate graphOf
    by_cases ha : a = l
    · simp [ha, Create.zeroes]
    · simp [ha, Create.zeroes, Env.modify_other]
  | memset sub next ih => exact (zero_grows s sub).trans (ih _ l)
  | setup sub g create next ih ihn =>
    have hrun := ((init_grows s sub g).trans (ih _ sub)).trans (enlisted_grows create _ sub)
    rw [List.nil_append, List.append_nil] at hrun
    exact hrun.trans (ihn _ l)

theorem prepared_memset {s : St} {sub : ListenerId} {next : Create} :
    Prepared s (.memset sub next) ↔ Prepared s next ∧ ∀ a ∈ [sub], a ∉ next.sets := by
  simp only [List.forall_mem_singleton]
  exact ⟨fun h => ⟨⟨h.graphs, h.kept.2, h.listed⟩, h.kept.1⟩, fun h => ⟨h.1.graphs, ⟨h.2, h.1.kept⟩, h.1.listed⟩⟩

theorem prepared_setup {s : St} {sub : ListenerId} {g : GraphId} {create next : Create} :
    Prepared s (.setup sub g create next) ↔
      ((graphOf s sub ≠ none ∧ Prepared s create) ∧ (create.result = true → sub ∈ s.listeners)) ∧
        Prepared s next ∧ ∀ a ∈ create.zeroes, a ∉ next.sets := by
  have hsub : (∀ a ∈ if create.result then [sub] else [], a ∈ s.listeners) ↔
      (create.result = true → sub ∈ s.listeners) := by
    split <;> simp [*]
  simp only [prepared_iff, Create.sets, Create.enlists, Create.KeepsGraphs, List.mem_cons, List.mem_append, or_imp,
    forall_and, forall_eq, hsub]
  tauto

theorem runCreate_same (create : Create) (s : St) (l : ListenerId) :
    Same s (runCreate create s l) ↔ Prepared s create := by
  induction create generalizing s l with
  | null | created _ =>
    exact iff_of_true ⟨rfl, rfl⟩ ⟨by simp [Create.sets], by simp [Create.KeepsGraphs], by simp [Create.enlists]⟩
  | memset sub next ih =>
    unfold runCreate
    rw [same_then (zero_grows s sub) (runCreate_grows next _ l)
        fun hs => (ih _ l).trans (hs.prepared (zero_grows s sub) next),
      and_iff_right (zero_same s sub), prepared_memset]
  | setup sub g create next ih ihn =>
    have hinit := init_grows s sub g
    have hrun := hinit.trans (runCreate_grows create _ sub)
    have henl := hrun.trans (enlisted_grows create _ sub)
    rw [List.nil_append] at hrun
    rw [List.nil_append, List.append_nil] at henl
    unfold runCreate
    dsimp only
    -- Each of the four parts begins in a state to which the parts before it have added nothing.
    rw [same_then henl (runCreate_grows next _ l) fun hs => (ihn _ l).trans (hs.prepared henl next),
      same_then hrun (enlisted_grows create _ sub) fun hs => enlisted_same.trans (by rw [hs.listeners]),
      same_then hinit (runCreate_grows create _ sub) fun hs => (ih _ sub).trans (hs.prepared hinit create),
      init_same, prepared_setup]
    simp

/-- A set-up whose `create` returns null leaves no trace if and only if the listener had a graph and keeps it, and
nothing that `create` sets up before it fails needs a graph or a place in the list. -/
theorem setup_traceless {static added : Repository} {s : St} {id : String} {create : Create} {l : ListenerId}
    {g : GraphId} (hid : id ≠ "") (hfind : findType static added id = some create) (hnull : create.result = false) :
    (crtx_setup_listener static added s (some id) l g).2 ≠ 0 ∧
        NoTrace l s (crtx_setup_listener static added s (some id) l g).1 ↔
      graphOf s l ≠ none ∧ l ∉ create.zeroes ∧ Prepared s create := by
  have hinit := init_grows s l g
  have hrun := hinit.trans (runCreate_grows create (crtx_init_listener_base s l g) l)
  rw [List.nil_append] at hrun
  have hcall : crtx_setup_listener static added s (some id) l g =
      (runCreate create (crtx_init_listener_base s l g) l, 1) := by
    simp [crtx_setup_listener, hid, hfind, hnull]
  have hsame : Same s (runCreate create (crtx_init_listener_base s l g) l) ↔
      graphOf s l ≠ none ∧ Prepared s create := by
    rw [same_then hinit (runCreate_grows create _ l)
      fun hs => (runCreate_same create _ l).trans (hs.prepared hinit create), init_same]
    simp
  rw [hcall, and_iff_right one_ne_zero]
  constructor
  · intro hn
    obtain ⟨hl, hp⟩ := hsame.mp ⟨hn.listeners, hn.registered⟩
    exact ⟨hl, ((noTrace_iff hrun hl).mp hn).2, hp⟩
  · rintro ⟨hl, hz, hp⟩
    exact (noTrace_iff hrun hl).mpr ⟨hsame.mpr ⟨hl, hp⟩, hz⟩

def initial : St := ⟨Env.initial, []⟩

/-- `add_evdev_listener` in `dynamic_evdev.c`: the device cannot be opened, and the listener is freed after the call.
Its graph remains in the registry. -/
theorem setup_traceless_evdev :
    let r := crtx_setup_listener [("evdev", .null)] [] initial (some "evdev") 0 0
    r.2 = 1 ∧ r.1.env.root.registry = [some 0] ∧ graphOf r.1 0 = some 0 ∧ ¬ NoTrace 0 initial r.1 := by
  refine ⟨rfl, rfl, rfl, fun h => ?_⟩
  have hg : some 0 = none := h.graph
  cases hg

/-- The listener has been set up before. -/
theorem setup_traceless_again :
    let s := crtx_init_listener_base initial 0 0
    let r := crtx_setup_listener [("evdev", .null)] [] s (some "evdev") 0 1
    r.2 ≠ 0 ∧ NoTrace 0 s r.1 :=
  (setup_traceless (by decide) rfl rfl).mpr ⟨nofun, by simp [Create.zeroes],
    ⟨by simp [Create.sets], by simp [Create.KeepsGraphs], by simp [Create.enlists]⟩⟩

end Libcortex.SetupFailure
