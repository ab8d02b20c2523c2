import Mathlib.Data.List.Perm.Subperm
import Libcortex.Lib.Run
import Libcortex.Lib.Sll
import Libcortex.Lib.SortedInsert
import Libcortex.Types

/-!
# The tasks of a graph

`crtx_add_task` and `crtx_free_task` of `core.c`, on the links of the tasks. The links are shown to keep a list that is
sorted by position.
-/

open Libcortex.Lib

namespace Libcortex.Tasks

/-! ## The machine -/

/-- A call of `crtx_add_task`, with the position that the task had. -/
structure Added where
  graph : GraphId
  task : TaskId
  position : Fin 256

/-- `tasks` belongs to a graph, and the next four are fields of a task. `adds` counts the calls of `crtx_add_task`, for
the loops over a list to end. `added` is history: the calls for the tasks that were not freed, in their order. -/
structure St where
  tasks : GraphId → Option TaskId
  graph : TaskId → Option GraphId
  position : TaskId → Fin 256
  next : TaskId → Option TaskId
  prev : TaskId → Option TaskId
  adds : Nat
  added : List Added

/-- Where the loop of `crtx_add_task` ends. -/
inductive Place where
  | first
  | behind (previous ti : TaskId)
  | last (previous : TaskId)

/-- The loop comes to `ti`. `none`: it does not come to an end. -/
def place (s : St) (task : TaskId) : Nat → Option TaskId → TaskId → Option Place
  | 0, _, _ => none
  | fuel + 1, previous, ti =>
    if s.position task < s.position ti then some (previous.elim .first (.behind · ti))
    else
      match s.next ti with
      | none => some (.last ti)
      | some t => place s task fuel (some ti) t

def linkBehind (s : St) (previous task : TaskId) : St :=
  { s with
    next := Function.update (Function.update s.next task (s.next previous)) previous (some task)
    prev := Function.update s.prev task (some previous) }

/-- The node that was first keeps its `prev`. -/
def crtx_add_task (s : St) (g : GraphId) (task : TaskId) : Option St :=
  let s := { s with graph := Function.update s.graph task (some g) }
  match s.tasks g with
  | none =>
    some { s with
      tasks := Function.update s.tasks g (some task)
      next := Function.update s.next task none
      prev := Function.update s.prev task none }
  | some ti => do
    match ← place s task (s.adds + 1) none ti with
    | .first =>
      return { s with
        tasks := Function.update s.tasks g (some task)
        next := Function.update s.next task (s.tasks g)
        prev := Function.update s.prev task none }
    | .behind previous ti =>
      let s := linkBehind s previous task
      return { s with prev := Function.update s.prev ti (some task) }
    | .last previous => return linkBehind s previous task

/-- What the loop of `crtx_free_task` does when it has found the task. -/
def unlinkTask (s : St) (g : GraphId) (prev : Option TaskId) (t : TaskId) : St :=
  match prev with
  | some prev => { s with next := Function.update s.next prev (s.next t) }
  | none => { s with tasks := Function.update s.tasks g (s.next t) }

/-- The loop goes on behind the task. -/
def freeLoop (g : GraphId) (task : TaskId) : Nat → Option TaskId → Option TaskId → St → Option St
  | 0, _, _, _ => none
  | _ + 1, _, none, s => some s
  | fuel + 1, prev, some t, s =>
    let s := if t = task then unlinkTask s g prev t else s
    freeLoop g task fuel (some t) (s.next t) s

/-- `none`: the loop does not come to an end, or the task belongs to no graph. -/
def crtx_free_task (s : St) (task : TaskId) : Option St :=
  match s.graph task with
  | none => none
  | some g => freeLoop g task (s.adds + 1) none (s.tasks g) s

inductive Action where
  | add (g : GraphId) (task : TaskId) (position : Fin 256)
  | free (task : TaskId)

/-- A task that is added is in no graph. -/
def enabled (s : St) : Action → Prop
  | .add _ task _ => task ∉ s.added.map Added.task
  | .free task => task ∈ s.added.map Added.task

instance (s : St) : ∀ a, Decidable (enabled s a)
  | .add _ _ _ => inferInstanceAs (Decidable (_ ∉ _))
  | .free _ => inferInstanceAs (Decidable (_ ∈ _))

def step (s : St) : Action → Option St
  | .add g task position => do
    let s ← crtx_add_task { s with position := Function.update s.position task position } g task
    return { s with adds := s.adds + 1, added := s.added ++ [⟨g, task, position⟩] }
  | .free task => do
    let s ← crtx_free_task s task
    return { s with added := s.added.filter (·.task ≠ task) }

def init : St where
  tasks _ := none
  graph _ := none
  position _ := 0
  next _ := none
  prev _ := none
  adds := 0
  added := []

/-! ## What has to hold -/

def St.addedTo (s : St) (g : GraphId) : List TaskId := (s.added.filter (·.graph = g)).map Added.task

/-- The links of a graph lead through the tasks `l`: those that were added to it and not freed, once each, by position,
and those with the same position in the order in which they were added. -/
structure Ordered (s : St) (g : GraphId) (l : List TaskId) : Prop where
  chain : Chain s.next (s.tasks g) l
  mem : ∀ t, t ∈ l ↔ t ∈ s.addedTo g
  nodup : l.Nodup
  sorted : SortedBy s.position l
  stable : ∀ p, l.filter (s.position · = p) = (s.addedTo g).filter (s.position · = p)

theorem Ordered.of_stable {s : St} {g : GraphId} {l : List TaskId} (hc : Chain s.next (s.tasks g) l)
    (hs : SortedBy s.position l)
    (hst : ∀ p, l.filter (s.position · = p) = (s.addedTo g).filter (s.position · = p)) : Ordered s g l where
  chain := hc
  nodup := hc.nodup
  sorted := hs
  stable := hst
  mem t := by
    have hp : t ∈ l.filter (s.position · = s.position t) ↔ t ∈ (s.addedTo g).filter (s.position · = s.position t) := by
      rw [hst]
    simpa using hp

/-- No call has changed the position of a task. -/
def Placed (s : St) : Prop := ∀ a ∈ s.added, s.position a.task = a.position

structure Inv (s : St) : Prop where
  nodup : (s.added.map Added.task).Nodup
  room : s.added.length ≤ s.adds
  graphs : ∀ a ∈ s.added, s.graph a.task = some a.graph
  placed : Placed s
  lists : ∀ g, ∃ l, Ordered s g l

theorem mem_addedTo {s : St} {g : GraphId} {t : TaskId} :
    t ∈ s.addedTo g ↔ ∃ a ∈ s.added, a.graph = g ∧ a.task = t := by
  simp [St.addedTo, and_assoc]

theorem Ordered.mem_added {s : St} {g : GraphId} {l : List TaskId} (h : Ordered s g l) {t : TaskId} (ht : t ∈ l) :
    t ∈ s.added.map Added.task := by
  obtain ⟨a, ha, -, rfl⟩ := mem_addedTo.mp ((h.mem t).mp ht)
  exact List.mem_map_of_mem ha

theorem Ordered.room {s : St} {g : GraphId} {l : List TaskId} (h : Ordered s g l) (hi : Inv s) : l.length ≤ s.adds := by
  have hsub : l.Subperm (s.added.map Added.task) := h.nodup.subperm fun t ht => h.mem_added ht
  exact (hsub.length_le.trans_eq (List.length_map _)).trans hi.room

theorem init_inv : Inv init where
  nodup := List.nodup_nil
  room := le_rfl
  graphs := by simp [init]
  placed := by simp [init, Placed]
  lists _ := ⟨[], .of_stable rfl List.Pairwise.nil fun _ => rfl⟩

/-! ## Adding a task -/

theorem place_skip {s : St} {task t : TaskId} {y : List TaskId} (fuel : Nat) (x : List TaskId)
    (hx : ∀ b ∈ x, ¬ s.position task < s.position b) :
    ∀ (previous : Option TaskId) (ti : TaskId), Chain s.next (some ti) (x ++ t :: y) →
      place s task (fuel + x.length) previous ti = place s task fuel (x.getLast?.or previous) t := by
  induction x with
  | nil =>
    intro previous ti hc
    cases hc.1
    rfl
  | cons b x ih =>
    intro previous ti hc
    cases hc.1
    obtain ⟨n, hn⟩ := hc.tail.head_some
    rw [List.length_cons, ← Nat.add_assoc, place, if_neg (hx b List.mem_cons_self), hn]
    dsimp only
    rw [ih (fun b hb => hx b (List.mem_cons_of_mem _ hb)) (some b) n (hn ▸ hc.tail), List.getLast?_cons]
    cases x.getLast? <;> rfl

theorem place_found (s : St) {task t : TaskId} {x y : List TaskId} {ti : TaskId} {fuel : Nat}
    (hc : Chain s.next (some ti) (x ++ t :: y)) (hx : ∀ b ∈ x, ¬ s.position task < s.position b)
    (hlt : s.position task < s.position t) (hfuel : x.length < fuel) :
    place s task fuel none ti = some (x.getLast?.elim .first (.behind · t)) := by
  obtain ⟨f, rfl⟩ : ∃ f, fuel = (f + 1) + x.length := ⟨fuel - x.length - 1, by omega⟩
  rw [place_skip (f + 1) x hx none ti hc, place, if_pos hlt, Option.or_none]

theorem place_last (s : St) {task p : TaskId} {x : List TaskId} {ti : TaskId} {fuel : Nat}
    (hc : Chain s.next (some ti) (x ++ [p])) (hx : ∀ b ∈ x ++ [p], ¬ s.position task < s.position b)
    (hfuel : x.length < fuel) : place s task fuel none ti = some (.last p) := by
  obtain ⟨f, rfl⟩ : ∃ f, fuel = (f + 1) + x.length := ⟨fuel - x.length - 1, by omega⟩
  have hn : s.next p = none := hc.next_eq
  rw [place_skip (f + 1) x (fun b hb => hx b (List.mem_append_left _ hb)) none ti hc, place,
    if_neg (hx p (by simp)), hn]

/-- What a call leaves alone: the positions, the history, the other graphs and the tasks outside `l`. -/
structure Frame (g : GraphId) (l : List TaskId) (s s' : St) : Prop where
  position : s'.position = s.position
  adds : s'.adds = s.adds
  added : s'.added = s.added
  tasks : ∀ g' ≠ g, s'.tasks g' = s.tasks g'
  next : ∀ t ∉ l, s'.next t = s.next t

theorem linkFirst_spec {s : St} {g : GraphId} {task : TaskId} {l : List TaskId} (hc : Chain s.next (s.tasks g) l)
    (hnew : task ∉ l) (prev : TaskId → Option TaskId) :
    let s' : St := { s with
      graph := Function.update s.graph task (some g)
      tasks := Function.update s.tasks g (some task)
      next := Function.update s.next task (s.tasks g)
      prev }
    Chain s'.next (s'.tasks g) (task :: l) ∧ s'.graph = Function.update s.graph task (some g) ∧
      Frame g (task :: l) s s' := by
  refine ⟨⟨Function.update_self .., ?_⟩, rfl, rfl, rfl, rfl, ?_, ?_⟩
  · dsimp only
    rw [Function.update_self]
    apply hc.frame
    intro a ha
    exact Function.update_of_ne (ne_of_mem_of_not_mem ha hnew) ..
  · intro g' hg
    exact Function.update_of_ne hg ..
  · intro a ha
    exact Function.update_of_ne (List.ne_of_not_mem_cons ha) ..

theorem linkBehind_spec {s : St} {g : GraphId} {p task : TaskId} {x y : List TaskId}
    (hc : Chain s.next (s.tasks g) (x ++ p :: y)) (hnew : task ∉ x ++ p :: y) :
    let s' := linkBehind { s with graph := Function.update s.graph task (some g) } p task
    Chain s'.next (s'.tasks g) (x ++ p :: task :: y) ∧ s'.graph = Function.update s.graph task (some g) ∧
      Frame g (task :: (x ++ p :: y)) s s' := by
  refine ⟨hc.insert hnew, rfl, rfl, rfl, rfl, fun _ _ => rfl, ?_⟩
  intro t ht
  rw [List.mem_cons, not_or] at ht
  have hp : t ≠ p := fun h => ht.2 (h ▸ by simp)
  unfold linkBehind
  dsimp only
  rw [Function.update_of_ne hp, Function.update_of_ne ht.1]

theorem crtx_add_task_spec {s : St} {g : GraphId} {task : TaskId} {l : List TaskId}
    (hc : Chain s.next (s.tasks g) l) (hnew : task ∉ l) (hlen : l.length ≤ s.adds) :
    ∃ s', crtx_add_task s g task = some s' ∧ Chain s'.next (s'.tasks g) (sortedInsert s.position task l) ∧
      s'.graph = Function.update s.graph task (some g) ∧ Frame g (task :: l) s s' := by
  obtain ⟨x, y, rfl, hins, hx, hy⟩ := sortedInsert_split s.position task l
  rw [hins]
  let s₁ : St := { s with graph := Function.update s.graph task (some g) }
  unfold crtx_add_task
  rcases List.eq_nil_or_concat' x with rfl | ⟨x, p, rfl⟩
  · have hfirst := linkFirst_spec hc hnew (Function.update s.prev task none)
    cases y with
    | nil =>
      have hn : s.tasks g = none := hc
      rw [hn] at hfirst
      simp only [hn]
      exact ⟨_, rfl, hfirst⟩
    | cons t y =>
      have ht : s.tasks g = some t := hc.1
      have hplace : place s₁ task (s.adds + 1) none t = some .first :=
        place_found s₁ (ht ▸ hc) hx (hy t rfl) (Nat.succ_pos s.adds)
      simp only [s₁] at hplace
      rw [ht] at hfirst
      simp only [ht, hplace]
      exact ⟨_, rfl, hfirst⟩
  · have happ (z : List TaskId) : x ++ [p] ++ z = x ++ p :: z := by simp
    simp only [happ] at hc hnew hlen ⊢
    have hbehind := linkBehind_spec hc hnew
    obtain ⟨ti, hti⟩ := hc.head_some
    have hfuel : (x ++ [p]).length < s.adds + 1 := by
      simp only [List.length_append, List.length_cons, List.length_nil] at hlen ⊢
      omega
    simp only [hti]
    cases y with
    | nil =>
      have hplace : place s₁ task (s.adds + 1) none ti = some (.last p) :=
        place_last s₁ (hti ▸ hc) hx (by simp at hfuel; omega)
      simp only [s₁] at hplace
      simp only [hplace]
      exact ⟨_, rfl, hbehind⟩
    | cons t y =>
      have hplace : place s₁ task (s.adds + 1) none ti = some ((x ++ [p]).getLast?.elim .first (.behind · t)) :=
        place_found s₁ (by rw [happ, ← hti]; exact hc) hx (hy t rfl) hfuel
      simp only [s₁] at hplace
      simp only [hplace, List.getLast?_append, List.getLast?_singleton, Option.some_or, Option.elim_some]
      obtain ⟨hchain, hgraph, hframe⟩ := hbehind
      exact ⟨_, rfl, hchain, hgraph, hframe.position, hframe.adds, hframe.added, hframe.tasks, hframe.next⟩

/-! ## Freeing a task -/

theorem freeLoop_absent {s : St} {g : GraphId} {task : TaskId} (l : List TaskId) (hl : task ∉ l) :
    ∀ (prev h : Option TaskId) (fuel : Nat), Chain s.next h l → l.length < fuel →
      freeLoop g task fuel prev h s = some s := by
  induction l with
  | nil =>
    intro prev h fuel hc hfuel
    obtain ⟨f, rfl⟩ : ∃ f, fuel = f + 1 := ⟨fuel - 1, by simp at hfuel; omega⟩
    cases hc
    rfl
  | cons t l ih =>
    intro prev h fuel hc hfuel
    obtain ⟨f, rfl⟩ : ∃ f, fuel = f + 1 := ⟨fuel - 1, by simp at hfuel; omega⟩
    cases hc.1
    rw [List.mem_cons, not_or] at hl
    unfold freeLoop
    rw [if_neg (Ne.symm hl.1)]
    exact ih hl.2 (some t) (s.next t) f hc.tail (by simpa using hfuel)

theorem freeLoop_skip {s : St} {g : GraphId} {task : TaskId} {y : List TaskId} (fuel : Nat) (x : List TaskId)
    (hx : task ∉ x) :
    ∀ (prev h : Option TaskId), Chain s.next h (x ++ task :: y) →
      freeLoop g task (fuel + x.length) prev h s = freeLoop g task fuel (x.getLast?.or prev) (some task) s := by
  induction x with
  | nil =>
    intro prev h hc
    cases hc.1
    rfl
  | cons t x ih =>
    intro prev h hc
    cases hc.1
    rw [List.mem_cons, not_or] at hx
    rw [List.length_cons, ← Nat.add_assoc, freeLoop, if_neg (Ne.symm hx.1),
      ih hx.2 (some t) (s.next t) hc.tail, List.getLast?_cons]
    cases x.getLast? <;> rfl

theorem unlinkTask_spec {s : St} {g : GraphId} {task : TaskId} {x y : List TaskId}
    (hc : Chain s.next (s.tasks g) (x ++ task :: y)) :
    Chain (unlinkTask s g x.getLast? task).next ((unlinkTask s g x.getLast? task).tasks g) (x ++ y) ∧
    Chain (unlinkTask s g x.getLast? task).next ((unlinkTask s g x.getLast? task).next task) y ∧
    (unlinkTask s g x.getLast? task).graph = s.graph ∧
    Frame g (x ++ task :: y) s (unlinkTask s g x.getLast? task) := by
  have hback : Chain s.next (s.next task) y := (Chain.suffix hc).tail
  have hnd := hc.nodup
  rcases List.eq_nil_or_concat' x with rfl | ⟨x, p, rfl⟩
  · refine ⟨?_, hback, rfl, rfl, rfl, rfl, ?_, fun _ _ => rfl⟩
    · have hself : (unlinkTask s g none task).tasks g = s.next task := Function.update_self ..
      rw [List.getLast?_nil, List.nil_append, hself]
      exact hback
    · intro g' hg
      exact Function.update_of_ne hg ..
  · have happ (z : List TaskId) : x ++ [p] ++ z = x ++ p :: z := by simp
    simp only [happ] at hc hnd ⊢
    simp only [List.nodup_append, List.nodup_cons, List.mem_cons, not_or] at hnd
    obtain ⟨-, ⟨⟨hne, hpy⟩, -⟩, -⟩ := hnd
    have hnext : (unlinkTask s g (some p) task).next task = s.next task := Function.update_of_ne (Ne.symm hne) ..
    rw [List.getLast?_append, List.getLast?_singleton, Option.some_or, hnext]
    refine ⟨hc.skip, hback.frame ?_, rfl, rfl, rfl, rfl, fun _ _ => rfl, ?_⟩
    · intro a ha
      exact Function.update_of_ne (ne_of_mem_of_not_mem ha hpy) ..
    · intro a ha
      exact Function.update_of_ne (by rintro rfl; simp at ha) ..

theorem crtx_free_task_spec {s : St} {g : GraphId} {task : TaskId} {l : List TaskId} (hg : s.graph task = some g)
    (hc : Chain s.next (s.tasks g) l) (hmem : task ∈ l) (hlen : l.length ≤ s.adds) :
    ∃ s', crtx_free_task s task = some s' ∧ Chain s'.next (s'.tasks g) (l.erase task) ∧
      s'.graph = s.graph ∧ Frame g l s s' := by
  obtain ⟨x, y, rfl⟩ := List.append_of_mem hmem
  have hnd := hc.nodup
  simp only [List.nodup_append, List.nodup_cons, List.mem_cons] at hnd
  obtain ⟨-, ⟨hy, -⟩, hdisj⟩ := hnd
  have hx : task ∉ x := fun h => hdisj task h task (.inl rfl) rfl
  rw [List.length_append, List.length_cons] at hlen
  obtain ⟨f, hf⟩ : ∃ f, s.adds + 1 = (f + 1) + x.length := ⟨s.adds - x.length, by omega⟩
  obtain ⟨hchain, hback, hgraph, hframe⟩ := unlinkTask_spec hc
  refine ⟨unlinkTask s g x.getLast? task, ?_, ?_, hgraph, hframe⟩
  · unfold crtx_free_task
    rw [hg]
    dsimp only
    rw [hf, freeLoop_skip (f + 1) x hx none _ hc, Option.or_none, freeLoop, if_pos rfl]
    exact freeLoop_absent y hy _ _ f hback (by omega)
  · rw [List.erase_append_right _ hx, List.erase_cons_head]
    exact hchain

/-! ## Every sequence of calls -/

theorem Ordered.same {s s' : St} {g : GraphId} {l : List TaskId} (h : Ordered s g l)
    (htasks : s'.tasks g = s.tasks g) (hadded : s'.addedTo g = s.addedTo g)
    (hl : ∀ t ∈ l, s'.next t = s.next t ∧ s'.position t = s.position t) : Ordered s' g l := by
  have hfilter (m : List TaskId) (hm : ∀ t ∈ m, t ∈ l) (p : Fin 256) :
      m.filter (s'.position · = p) = m.filter (s.position · = p) := by
    apply List.filter_congr
    intro t ht
    rw [(hl t (hm t ht)).2]
  refine .of_stable ?_ ?_ fun p => ?_
  · rw [htasks]
    exact h.chain.frame fun t ht => (hl t ht).1
  · apply List.Pairwise.imp_of_mem _ h.sorted
    intro a b ha hb hab
    rw [(hl a ha).2, (hl b hb).2]
    exact hab
  · rw [hadded, hfilter l (fun _ ht => ht), hfilter (s.addedTo g) (fun t ht => (h.mem t).mpr ht), h.stable]

theorem addedTo_add {s s' : St} {g : GraphId} {task : TaskId} {position : Fin 256}
    (hadded : s'.added = s.added ++ [⟨g, task, position⟩]) (g' : GraphId) :
    s'.addedTo g' = s.addedTo g' ++ if g = g' then [task] else [] := by
  unfold St.addedTo
  rw [hadded, List.filter_append, List.map_append]
  by_cases hg : g = g' <;> simp [hg]

theorem addedTo_nodup {s : St} (hi : Inv s) (g : GraphId) : (s.addedTo g).Nodup :=
  hi.nodup.sublist (List.filter_sublist.map _)

theorem addedTo_free {s s' : St} (hi : Inv s) {task : TaskId} (hadded : s'.added = s.added.filter (·.task ≠ task))
    (g : GraphId) : s'.addedTo g = (s.addedTo g).erase task := by
  rw [(addedTo_nodup hi g).erase_eq_filter]
  unfold St.addedTo
  rw [hadded, List.filter_comm, List.filter_map]
  refine congrArg _ (List.filter_congr fun a _ => ?_)
  by_cases ha : a.task = task <;> simp [ha]

theorem Inv.unique {s : St} (hi : Inv s) {a b : Added} (ha : a ∈ s.added) (hb : b ∈ s.added) (h : a.task = b.task) :
    a = b := List.inj_on_of_nodup_map hi.nodup ha hb h

theorem Ordered.disjoint {s : St} (hi : Inv s) {g g' : GraphId} {l l' : List TaskId} (h : Ordered s g l)
    (h' : Ordered s g' l') (hg : g' ≠ g) {t : TaskId} (ht : t ∈ l') : t ∉ l := by
  intro htl
  obtain ⟨a, ha, rfl, hat⟩ := mem_addedTo.mp ((h.mem t).mp htl)
  obtain ⟨b, hb, rfl, hbt⟩ := mem_addedTo.mp ((h'.mem t).mp ht)
  exact hg (congrArg Added.graph (hi.unique hb ha (hbt.trans hat.symm)))

theorem step_add {s : St} (hi : Inv s) (g : GraphId) {task : TaskId} (position : Fin 256)
    (hnew : task ∉ s.added.map Added.task) : ∃ s', step s (.add g task position) = some s' ∧ Inv s' := by
  let s₁ : St := { s with position := Function.update s.position task position }
  have hother : ∀ a ∈ s.added, a.task ≠ task := fun a ha h => hnew (h ▸ List.mem_map_of_mem ha)
  have hbefore {g' : GraphId} {l : List TaskId} (h : Ordered s g' l) : Ordered s₁ g' l := by
    refine h.same rfl rfl fun t ht => ⟨rfl, Function.update_of_ne (ne_of_mem_of_not_mem (h.mem_added ht) hnew) ..⟩
  obtain ⟨l, hl⟩ := hi.lists g
  have hl₁ := hbefore hl
  have hfresh : task ∉ l := fun ht => hnew (hl.mem_added ht)
  obtain ⟨s₂, hrun, hchain, hgraph, hframe⟩ := crtx_add_task_spec hl₁.chain hfresh (hl.room hi)
  let s' : St := { s₂ with adds := s₂.adds + 1, added := s₂.added ++ [⟨g, task, position⟩] }
  have hadded : s'.added = s.added ++ [⟨g, task, position⟩] := congrArg (· ++ [_]) hframe.added
  have hpos : s'.position = s₁.position := hframe.position
  have haddedTo := addedTo_add hadded
  refine ⟨s', ?_, ?_, ?_, ?_, ?_, fun g' => ?_⟩
  · change (crtx_add_task s₁ g task).bind _ = _
    rw [hrun]
    rfl
  · rw [hadded, List.map_append, List.nodup_append]
    refine ⟨hi.nodup, List.nodup_singleton task, ?_⟩
    rintro a ha b hb rfl
    obtain rfl : a = task := by simpa using hb
    exact hnew ha
  · have hadds : s'.adds = s.adds + 1 := congrArg (· + 1) hframe.adds
    rw [hadded, hadds, List.length_append]
    exact Nat.succ_le_succ hi.room
  · intro a ha
    rw [hadded, List.mem_append, List.mem_singleton] at ha
    change s₂.graph a.task = some a.graph
    rw [hgraph]
    rcases ha with ha | rfl
    · rw [Function.update_of_ne (hother a ha)]
      exact hi.graphs a ha
    · exact Function.update_self ..
  · intro a ha
    rw [hadded, List.mem_append, List.mem_singleton] at ha
    rw [hpos]
    rcases ha with ha | rfl
    · exact (Function.update_of_ne (hother a ha) ..).trans (hi.placed a ha)
    · exact Function.update_self ..
  · by_cases hg : g' = g
    · subst hg
      refine ⟨_, .of_stable hchain (hframe.position ▸ hl₁.sorted.insert) fun p => ?_⟩
      rw [haddedTo, if_pos rfl, hpos, hl₁.sorted.filter_insert, List.filter_append, List.filter_append]
      exact congrArg (· ++ _) (hl₁.stable p)
    · obtain ⟨l', hl'⟩ := hi.lists g'
      refine ⟨l', (hbefore hl').same (hframe.tasks g' hg) ?_ fun t ht => ⟨?_, ?_⟩⟩
      · rw [haddedTo, if_neg (Ne.symm hg), List.append_nil]
        rfl
      · apply hframe.next
        rw [List.mem_cons, not_or]
        exact ⟨ne_of_mem_of_not_mem (hl'.mem_added ht) hnew, hl.disjoint hi hl' hg ht⟩
      · exact congrFun hframe.position t

theorem step_free {s : St} (hi : Inv s) {task : TaskId} (hmem : task ∈ s.added.map Added.task) :
    ∃ s', step s (.free task) = some s' ∧ Inv s' := by
  obtain ⟨a, ha, rfl⟩ := List.mem_map.mp hmem
  obtain ⟨l, hl⟩ := hi.lists a.graph
  have htask : a.task ∈ l := (hl.mem a.task).mpr (mem_addedTo.mpr ⟨a, ha, rfl, rfl⟩)
  obtain ⟨s₂, hrun, hchain, hgraph, hframe⟩ := crtx_free_task_spec (hi.graphs a ha) hl.chain htask (hl.room hi)
  let s' : St := { s₂ with added := s₂.added.filter (·.task ≠ a.task) }
  have hadded : s'.added = s.added.filter (·.task ≠ a.task) := congrArg (·.filter (·.task ≠ a.task)) hframe.added
  have haddedTo := addedTo_free hi hadded
  have hpos : s'.position = s.position := hframe.position
  have hsub : s'.added.Sublist s.added := hadded ▸ List.filter_sublist
  refine ⟨s', ?_, ?_, ?_, ?_, ?_, fun g' => ?_⟩
  · change (crtx_free_task s a.task).bind _ = _
    rw [hrun]
    rfl
  · exact hi.nodup.sublist (hsub.map _)
  · have hadds : s'.adds = s.adds := hframe.adds
    rw [hadds]
    exact hsub.length_le.trans hi.room
  · intro b hb
    change s₂.graph b.task = some b.graph
    rw [hgraph]
    exact hi.graphs b (hsub.subset hb)
  · intro b hb
    rw [hpos]
    exact hi.placed b (hsub.subset hb)
  · by_cases hgg : g' = a.graph
    · subst hgg
      refine ⟨_, .of_stable hchain ?_ fun p => ?_⟩
      · rw [hpos]
        exact hl.sorted.sublist List.erase_sublist
      · have hnd := addedTo_nodup hi a.graph
        rw [haddedTo, hpos, hl.nodup.erase_eq_filter, hnd.erase_eq_filter, List.filter_comm, hl.stable,
          List.filter_comm]
    · obtain ⟨l', hl'⟩ := hi.lists g'
      refine ⟨l', hl'.same (hframe.tasks g' hgg) ?_ fun t ht => ⟨?_, ?_⟩⟩
      · rw [haddedTo, List.erase_of_not_mem]
        intro h
        exact hl.disjoint hi hl' hgg ((hl'.mem a.task).mpr h) htask
      · exact hframe.next t (hl.disjoint hi hl' hgg ht)
      · exact congrFun hframe.position t

theorem step_ok {s : St} (hi : Inv s) (a : Action) (ha : enabled s a) : ∃ s', step s a = some s' ∧ Inv s' := by
  cases a with
  | add g task position => exact step_add hi g position ha
  | free task => exact step_free hi ha

/-- No call runs on without end. After every sequence of calls the tasks have the positions that they were added with,
and those of every graph are in order. -/
theorem tasks_ordered (as : List Action) (ha : Meets step enabled as init) :
    ∃ s, run step as init = some s ∧ Placed s ∧ ∀ g, ∃ l, Ordered s g l := by
  obtain ⟨s, hrun, hi⟩ := run_total (fun s a hi ha => step_ok hi a ha) as init init_inv ha
  exact ⟨s, hrun, hi.placed, hi.lists⟩

def threeTasks : List Action := [.add 0 10 2, .add 0 11 1, .add 0 12 2, .add 1 13 0, .free 10]

theorem tasks_ordered_three : ∃ s, run step threeTasks init = some s ∧ Placed s ∧ ∀ g, ∃ l, Ordered s g l :=
  tasks_ordered threeTasks (by decide)

example : (run step threeTasks init).map (fun s => (s.tasks 0, s.next 11, s.next 12)) =
    some (some 11, some 12, none) := by
  decide

end Libcortex.Tasks
