import Mathlib.Data.List.Find
import Libcortex.LList

/-!
# Handlers for children that ended

`signals.c` keeps a list of the callbacks that want to know about every child that ended. `sigchild_event_handler` walks
the list once for each child, while the callbacks add handlers and remove their own.
-/

open Libcortex.Lib
open Libcortex.LList (dataAt crtx_dll_append_new crtx_dll_unlink_data crtx_dll_append_new_spec crtx_dll_unlink_spec
  findData_spec Appended SameBut)

namespace Libcortex.ChildHandlers

/-- `struct sigchld_cb_data`, a function named by a number and its argument -/
structure CbData where
  cb : Nat
  userdata : Nat
deriving DecidableEq, Repr

/-- The address of the data is the name of the handler for its owner. -/
abbrev Handler := Nat × CbData

/-- What `waitpid` returns. -/
structure Child where
  pid : Int
  status : Int
deriving DecidableEq, Repr

inductive Ev where
  | added (h : Handler)
  | removed (data : Nat)
  | reaped (c : Child)
  | called (h : Handler) (c : Child)
  | ended
deriving DecidableEq, Repr

/-- The list changes. All other entries of the log are made by `sigchild_event_handler` itself. -/
def Ev.isEdit : Ev → Bool
  | .added _ | .removed _ => true
  | _ => false

/-- A node of `sigchld_cbs` points to a block of `blocks`. The newest entry of `log` comes last. -/
structure State where
  sigchld_cbs : Option Nat
  nodes : Heap (Node Nat)
  blocks : Heap CbData
  log : List Ev

def State.emit (s : State) (ev : Ev) : State := { s with log := s.log ++ [ev] }

/-- No list is longer. -/
def State.fuel (s : State) : Nat := s.nodes.next + 1

/-! ## Adding and removing -/

/-- `ready`: setting up and starting the listener for the first handler succeeds. It does not touch the list. -/
def crtx_signals_add_child_handler (s : State) (ready : Bool) (d : CbData) : Option (State × Option Nat) :=
  if s.sigchld_cbs = none ∧ ready = false then some (s, none)
  else do
    let (blocks, data) := s.blocks.alloc d
    let (nodes, sigchld_cbs, _) ← crtx_dll_append_new s.fuel s.nodes s.sigchld_cbs data
    return ({ sigchld_cbs, nodes, blocks, log := s.log ++ [.added (data, d)] }, some data)

/-- The shutdown of the listener after the last handler does not touch the list either. -/
def crtx_signals_rem_child_handler (s : State) (sigchld_cb : Nat) : Option (State × Int) := do
  let (nodes, sigchld_cbs, item) ← crtx_dll_unlink_data s.fuel s.nodes s.sigchld_cbs sigchld_cb
  match item with
  | none => return ({ s with nodes, sigchld_cbs }, 1)
  | some item =>
    let blocks ← s.blocks.free sigchld_cb
    let nodes ← nodes.free item
    return ({ sigchld_cbs, nodes, blocks, log := s.log ++ [.removed sigchld_cb] }, 0)

/-! ## The event handler -/

/-- What a callback does to the list. -/
inductive Act where
  | add (ready : Bool) (d : CbData)
  | removeOwn
deriving DecidableEq, Repr

def perform (own : Nat) : List Act → State → Option State
  | [], s => some s
  | .add ready d :: acts, s => (crtx_signals_add_child_handler s ready d).bind fun r => perform own acts r.1
  | .removeOwn :: acts, s => (crtx_signals_rem_child_handler s own).bind fun r => perform own acts r.1

inductive Pc where
  | wait
  | walk (c : Child) (it : Option Nat)
  | done
deriving DecidableEq, Repr

/-- `children` is what `waitpid` is going to return. -/
structure Run where
  st : State
  children : List Child
  pc : Pc

/-- One turn of the inner loop. `react` is what the callback does, after everything that happened before. An access to
a block that was freed is a fault (`none`). -/
def visit (react : List Ev → List Act) (s : State) (c : Child) (it : Nat) : Option (State × Option Nat) := do
  let n ← s.nodes.load it
  let d ← s.blocks.load n.data
  let s := s.emit (.called (n.data, d) c)
  let s ← perform n.data (react s.log) s
  return (s, n.next)

/-- One turn of a loop of `sigchild_event_handler`. -/
def step (react : List Ev → List Act) (r : Run) : Option Run :=
  match r.pc with
  | .wait =>
    match r.children with
    | [] => some { r with pc := .done }
    | c :: children =>
      if c.pid ≤ 0 then some { r with children, pc := .done }
      else some { st := r.st.emit (.reaped c), children, pc := .walk c r.st.sigchld_cbs }
  | .walk _ none => some { r with st := r.st.emit .ended, pc := .wait }
  | .walk c (some it) => (visit react r.st c it).map fun p => { r with st := p.1, pc := .walk c p.2 }
  | .done => some r

/-- The first `n` turns. -/
def sigchild_event_handler (react : List Ev → List Act) : Nat → Run → Option Run
  | 0, r => some r
  | n + 1, r => (step react r).bind (sigchild_event_handler react n)

def begin (s : State) (children : List Child) : Run := ⟨{ s with log := [] }, children, .wait⟩

/-! ## What has to happen -/

/-- What happened for one child. `registered` are the handlers at the moment when it was reaped. -/
structure Round where
  child : Child
  registered : List Handler
  calls : List (Handler × Child)
  complete : Bool
deriving DecidableEq, Repr

/-- The newest round comes first. -/
structure Book where
  registered : List Handler
  rounds : List Round
deriving DecidableEq, Repr

def Book.note (b : Book) : Ev → Book
  | .added h => { b with registered := b.registered ++ [h] }
  | .removed data => { b with registered := b.registered.filter (·.1 ≠ data) }
  | .reaped c => { b with rounds := ⟨c, b.registered, [], false⟩ :: b.rounds }
  | .called h c => { b with rounds := b.rounds.modifyHead fun r => { r with calls := r.calls ++ [(h, c)] } }
  | .ended => { b with rounds := b.rounds.modifyHead fun r => { r with complete := true } }

/-- The log as it reads for somebody who knows the handlers at its beginning. -/
def book (hs : List Handler) (log : List Ev) : Book := log.foldl Book.note ⟨hs, []⟩

def Round.called (r : Round) : List Handler := r.calls.map Prod.fst

/-- The handlers that were registered are called one after another, before all others. -/
structure Round.Notified (r : Round) : Prop where
  child : ∀ p ∈ r.calls, p.2 = r.child
  once : (r.called.map Prod.fst).Nodup
  order : r.called <+: r.registered ∨ r.registered <+: r.called
  all : r.complete = true → r.registered <+: r.called

def turns (log : List Ev) : Nat := (log.filter fun ev => !ev.isEdit).length

/-! ## The list -/

/-- A node of the list, and the handler that it carries. -/
structure Item where
  node : Nat
  handler : Handler

def handlers (items : List Item) : List Handler := items.map Item.handler

structure Registered (s : State) (items : List Item) : Prop where
  isDll : IsDll s.nodes s.sigchld_cbs (items.map Item.node)
  data : ∀ i ∈ items, dataAt s.nodes i.node = some i.handler.1
  block : ∀ i ∈ items, s.blocks.cell i.handler.1 = some i.handler.2
  nodup : ((handlers items).map Prod.fst).Nodup
  nodes_fresh : s.nodes.Fresh
  blocks_fresh : s.blocks.Fresh

/-- What holds after `n` turns. Only the newest round may be going on, and a turn that is not the last one always has an
entry of its own in the log. -/
structure Notifies (hs : List Handler) (children : List Child) (n : Nat) (r : Run) : Prop where
  listed : ∃ items, Registered r.st items ∧ (book hs r.st.log).registered = handlers items
  rounds : ∀ round ∈ (book hs r.st.log).rounds, round.Notified
  past : ∀ round ∈ (book hs r.st.log).rounds.tail, round.complete = true
  live : ∀ pre h c post, r.st.log = pre ++ .called h c :: post → h ∈ (book hs pre).registered
  order : ((book hs r.st.log).rounds.map Round.child).reverse <+: children.takeWhile (0 < ·.pid)
  all : r.pc = .done → ((book hs r.st.log).rounds.map Round.child).reverse = children.takeWhile (0 < ·.pid) ∧
    ∀ round ∈ (book hs r.st.log).rounds, round.complete = true
  turns : r.pc = .done ∨ turns r.st.log = n

namespace Registered

variable {s : State} {items : List Item}

theorem data_lt (hr : Registered s items) {i : Item} (hi : i ∈ items) : i.handler.1 < s.blocks.next :=
  Heap.lt_next hr.blocks_fresh (hr.block i hi)

theorem node_lt (hr : Registered s items) {i : Item} (hi : i ∈ items) : i.node < s.nodes.next := by
  obtain ⟨n, hn⟩ := hr.isDll.linked.cell (List.mem_map_of_mem hi)
  exact Heap.lt_next hr.nodes_fresh hn

theorem length_lt (hr : Registered s items) : (items.map Item.node).length < s.fuel :=
  Nat.lt_succ_of_le (hr.isDll.length_le hr.nodes_fresh)

theorem emit (hr : Registered s items) (ev : Ev) : Registered (s.emit ev) items :=
  ⟨hr.isDll, hr.data, hr.block, hr.nodup, hr.nodes_fresh, hr.blocks_fresh⟩

theorem add (hr : Registered s items) (ready : Bool) (d : CbData) :
    ready = false ∧ crtx_signals_add_child_handler s ready d = some (s, none) ∨
    ∃ s', crtx_signals_add_child_handler s ready d = some (s', some s.blocks.next) ∧
      Registered s' (items ++ [⟨s.nodes.next, (s.blocks.next, d)⟩]) ∧
      s'.log = s.log ++ [.added (s.blocks.next, d)] ∧ s'.blocks.next = s.blocks.next + 1 := by
  unfold crtx_signals_add_child_handler
  split
  · rename_i h
    exact .inl ⟨h.2, rfl⟩
  right
  obtain ⟨nodes, hrun, ha⟩ := crtx_dll_append_new_spec hr.nodes_fresh hr.isDll hr.length_lt s.blocks.next
  have hblock : ∀ a < s.blocks.next, (s.blocks.alloc d).1.cell a = s.blocks.cell a := by
    intro a ha
    exact Function.update_of_ne (by omega) ..
  refine ⟨⟨(items.map Item.node ++ [s.nodes.next]).head?, nodes, (s.blocks.alloc d).1,
    s.log ++ [.added (s.blocks.next, d)]⟩, ?_, ?_, rfl, rfl⟩
  · simp only [Heap.alloc, hrun, Option.bind_eq_bind, Option.bind_some, Option.pure_def]
  refine ⟨?_, ?_, ?_, ?_, ha.fresh, Heap.fresh_alloc hr.blocks_fresh d⟩
  · rw [List.map_append]
    exact ha.isDll
  · intro i hi
    rcases List.mem_append.mp hi with hi | hi
    · rw [ha.old _ (by have := hr.node_lt hi; omega), hr.data i hi]
    · obtain rfl := List.mem_singleton.mp hi
      exact ha.new
  · intro i hi
    rcases List.mem_append.mp hi with hi | hi
    · rw [hblock _ (hr.data_lt hi), hr.block i hi]
    · obtain rfl := List.mem_singleton.mp hi
      exact Function.update_self ..
  · unfold handlers
    simp only [List.map_append, List.map_cons, List.map_nil]
    rw [List.nodup_append]
    refine ⟨hr.nodup, by simp, ?_⟩
    intro a ha b hb
    obtain rfl := List.mem_singleton.mp hb
    obtain ⟨h, hh, rfl⟩ := List.mem_map.mp ha
    obtain ⟨i, hi, rfl⟩ := List.mem_map.mp hh
    have := hr.data_lt hi
    omega

theorem find (hr : Registered s items) (data : Nat) :
    LList.findData s.nodes data s.fuel s.sigchld_cbs =
      some ((items.find? (·.handler.1 = data)).map Item.node) := by
  have hdata : ∀ i ∈ items, decide (dataAt s.nodes i.node = some data) = decide (i.handler.1 = data) := by
    intro i hi
    simp [hr.data i hi]
  rw [hr.isDll.head_eq, findData_spec hr.isDll.linked data _ [] _ rfl hr.length_lt, List.find?_map]
  exact congrArg (fun o => some (o.map Item.node)) (List.find?_congr hdata)

theorem remove_unknown (hr : Registered s items) {data : Nat} (hd : data ∉ (handlers items).map Prod.fst) :
    crtx_signals_rem_child_handler s data = some (s, 1) := by
  have hnone : items.find? (·.handler.1 = data) = none := by
    rw [List.find?_eq_none]
    intro i hi
    have : i.handler.1 ≠ data := fun h => hd (h ▸ List.mem_map_of_mem (List.mem_map_of_mem hi))
    simpa using this
  simp [crtx_signals_rem_child_handler, crtx_dll_unlink_data, hr.find data, hnone]

theorem data_nodup {xs ys : List Item} {i : Item} (hr : Registered s (xs ++ i :: ys)) :
    (i.handler.1 :: (handlers (xs ++ ys)).map Prod.fst).Nodup := by
  have := hr.nodup
  simp only [handlers, List.map_append, List.map_cons] at this ⊢
  exact List.nodup_middle.mp this

theorem filter_handlers {xs ys : List Item} {i : Item} (hr : Registered s (xs ++ i :: ys)) :
    (handlers (xs ++ i :: ys)).filter (·.1 ≠ i.handler.1) = handlers (xs ++ ys) := by
  have hkeep : (handlers (xs ++ ys)).filter (·.1 ≠ i.handler.1) = handlers (xs ++ ys) := by
    rw [List.filter_eq_self]
    intro h hh
    have : h.1 ≠ i.handler.1 := fun he => (List.nodup_cons.mp hr.data_nodup).1 (he ▸ List.mem_map_of_mem hh)
    simpa using this
  unfold handlers at hkeep ⊢
  rw [← hkeep, List.map_append, List.map_append, List.filter_append, List.filter_append, List.map_cons,
    List.filter_cons_of_neg (by simp)]

theorem others {xs ys : List Item} {i : Item} (hr : Registered s (xs ++ i :: ys)) :
    ∀ j ∈ xs ++ ys, j.handler.1 ≠ i.handler.1 ∧ j.node ≠ i.node := by
  have hnode : (i.node :: (xs ++ ys).map Item.node).Nodup := by
    have := hr.isDll.nodup
    simp only [List.map_append, List.map_cons] at this ⊢
    exact List.nodup_middle.mp this
  intro j hj
  constructor
  · intro h
    exact (List.nodup_cons.mp hr.data_nodup).1 (h ▸ List.mem_map_of_mem (List.mem_map_of_mem hj))
  · intro h
    exact (List.nodup_cons.mp hnode).1 (h ▸ List.mem_map_of_mem hj)

theorem find_own {xs ys : List Item} {i : Item} (hr : Registered s (xs ++ i :: ys)) :
    (xs ++ i :: ys).find? (·.handler.1 = i.handler.1) = some i := by
  rw [List.find?_append, List.find?_eq_none.mpr, Option.none_or, List.find?_cons_of_pos (by simp)]
  intro j hj
  simpa using (hr.others j (List.mem_append_left _ hj)).1

theorem erase_node {xs ys : List Item} {i : Item} (hr : Registered s (xs ++ i :: ys)) :
    ((xs ++ i :: ys).map Item.node).erase i.node = (xs ++ ys).map Item.node := by
  have hx : i.node ∉ xs.map Item.node := by
    intro h
    obtain ⟨j, hj, he⟩ := List.mem_map.mp h
    exact (hr.others j (List.mem_append_left _ hj)).2 he
  rw [List.map_append, List.map_cons, List.erase_append_right _ hx, List.erase_cons_head, List.map_append]

theorem remove {xs ys : List Item} {i : Item} (hr : Registered s (xs ++ i :: ys)) :
    ∃ s', crtx_signals_rem_child_handler s i.handler.1 = some (s', 0) ∧ Registered s' (xs ++ ys) ∧
      s'.log = s.log ++ [.removed i.handler.1] ∧ s'.blocks.next = s.blocks.next := by
  have hsub : (xs ++ ys).Sublist (xs ++ i :: ys) := by simp
  have hi : i ∈ xs ++ i :: ys := by simp
  obtain ⟨nodes, hunlink, hdll, hsame, -⟩ := crtx_dll_unlink_spec hr.isDll (List.mem_map_of_mem (f := Item.node) hi)
  rw [hr.erase_node] at hunlink hdll
  have hdata : ∀ a, dataAt nodes a = dataAt s.nodes a := hsame.data
  obtain ⟨n, hn⟩ : ∃ n, nodes.cell i.node = some n := by
    have hd := (hdata i.node).trans (hr.data i hi)
    obtain ⟨n, hn, -⟩ := Option.map_eq_some_iff.mp hd
    exact ⟨n, hn⟩
  refine ⟨⟨((xs ++ ys).map Item.node).head?, nodes.put i.node none, s.blocks.put i.handler.1 none,
    s.log ++ [.removed i.handler.1]⟩, ?_, ?_, rfl, rfl⟩
  · unfold crtx_signals_rem_child_handler crtx_dll_unlink_data
    simp only [hr.find, hr.find_own, Option.map_some, Option.bind_eq_bind, Option.bind_some, hunlink, Option.pure_def,
      Heap.free_some (hr.block i hi), Heap.free_some hn]
  refine ⟨hdll.frame ?_, ?_, ?_, (List.nodup_cons.mp hr.data_nodup).2, ?_, ?_⟩
  · intro a ha
    obtain ⟨j, hj, rfl⟩ := List.mem_map.mp ha
    exact Function.update_of_ne (hr.others j hj).2 ..
  · intro j hj
    have hd := (hdata j.node).trans (hr.data j (hsub.subset hj))
    unfold dataAt at hd ⊢
    rw [Heap.put_cell, Function.update_of_ne (hr.others j hj).2, hd]
  · intro j hj
    rw [Heap.put_cell, Function.update_of_ne (hr.others j hj).1, hr.block j (hsub.subset hj)]
  · exact (hsame.fresh hr.nodes_fresh).put_none _
  · exact hr.blocks_fresh.put_none _

theorem node_at {front ys : List Item} {t : Item} (hr : Registered s (front ++ t :: ys)) :
    s.nodes.cell t.node = some ⟨(front.map Item.node).getLast?, (ys.map Item.node).head?, t.handler.1⟩ := by
  obtain ⟨d, hd⟩ := hr.isDll.linked (front.map Item.node) t.node (ys.map Item.node) (by simp)
  have := hr.data t (by simp)
  rw [dataAt, hd] at this
  obtain rfl : d = t.handler.1 := by simpa using this
  exact hd

theorem notMem_behind {front ys : List Item} {t : Item} (hr : Registered s (front ++ t :: ys)) :
    t.handler.1 ∉ (handlers ys).map Prod.fst := by
  have := hr.nodup
  simp only [handlers, List.map_append, List.map_cons] at this ⊢
  exact (List.nodup_cons.mp (List.nodup_append.mp this).2.1).1

end Registered

/-! ## What a callback leaves behind -/

/-- `todo` are the items from the cursor on, and `todo'` what they became. -/
structure Edited (s : State) (items todo : List Item) (s' : State) (items' todo' : List Item) : Prop where
  registered : Registered s' items'
  suffix : todo' <:+ items'
  grown : ∃ more, todo' = todo ++ more ∧ (todo = [] → more = []) ∧ ∀ i ∈ more, s.blocks.next ≤ i.handler.1
  next : s.blocks.next ≤ s'.blocks.next
  log : ∃ evs, s'.log = s.log ++ evs ∧ (∀ ev ∈ evs, ev.isEdit = true) ∧
    ∀ rounds, evs.foldl Book.note ⟨handlers items, rounds⟩ = ⟨handlers items', rounds⟩

namespace Edited

variable {s s' s'' : State} {items items' items'' todo todo' todo'' : List Item}

theorem refl (hr : Registered s items) (ht : todo <:+ items) : Edited s items todo s items todo := by
  refine ⟨hr, ht, ⟨[], by simp, fun _ => rfl, by simp⟩, Nat.le_refl _, ⟨[], by simp, by simp, fun _ => rfl⟩⟩

theorem trans (h : Edited s items todo s' items' todo') (h' : Edited s' items' todo' s'' items'' todo'') :
    Edited s items todo s'' items'' todo'' := by
  refine ⟨h'.registered, h'.suffix, ?_, h.next.trans h'.next, ?_⟩
  · obtain ⟨more, rfl, hnil, hmore⟩ := h.grown
    obtain ⟨more', rfl, hnil', hmore'⟩ := h'.grown
    refine ⟨more ++ more', by simp, ?_, ?_⟩
    · rintro rfl
      obtain rfl := hnil rfl
      simpa using hnil' rfl
    · intro i hi
      rcases List.mem_append.mp hi with hi | hi
      · exact hmore i hi
      · exact h.next.trans (hmore' i hi)
  · obtain ⟨evs, hlog, hedit, hbook⟩ := h.log
    obtain ⟨evs', hlog', hedit', hbook'⟩ := h'.log
    refine ⟨evs ++ evs', by rw [hlog', hlog, List.append_assoc], ?_, ?_⟩
    · intro ev hev
      exact (List.mem_append.mp hev).elim (hedit ev) (hedit' ev)
    · intro rounds
      rw [List.foldl_append, hbook, hbook']

theorem add (hr : Registered s items) (ht : todo <:+ items) (ready : Bool) (d : CbData) :
    ∃ s' r items' todo', crtx_signals_add_child_handler s ready d = some (s', r) ∧
      Edited s items todo s' items' todo' := by
  rcases hr.add ready d with ⟨-, hrun⟩ | ⟨s', hrun, hr', hlog, hnext⟩
  · exact ⟨s, none, items, todo, hrun, refl hr ht⟩
  obtain ⟨xs, rfl⟩ := ht
  refine ⟨s', _, _, if todo = [] then [] else todo ++ [⟨s.nodes.next, (s.blocks.next, d)⟩], hrun, hr', ?_, ?_, by omega,
    [.added (s.blocks.next, d)], hlog, by simp [Ev.isEdit], ?_⟩
  · split
    · exact List.nil_suffix
    · exact ⟨xs, by simp⟩
  · split
    · rename_i h
      exact ⟨[], by simp [h], fun _ => rfl, by simp⟩
    · rename_i h
      exact ⟨_, rfl, fun h' => absurd h' h, by simp⟩
  · intro rounds
    simp [Book.note, handlers]

theorem remove (hr : Registered s items) (ht : todo <:+ items) {own : Nat}
    (hown : own ∉ (handlers todo).map Prod.fst) :
    ∃ s' r items', crtx_signals_rem_child_handler s own = some (s', r) ∧ Edited s items todo s' items' todo := by
  obtain ⟨front, rfl⟩ := ht
  by_cases hin : own ∈ (handlers front).map Prod.fst
  · obtain ⟨h, hh, rfl⟩ := List.mem_map.mp hin
    obtain ⟨i, hi, rfl⟩ := List.mem_map.mp hh
    obtain ⟨xs, ys, rfl⟩ := List.append_of_mem hi
    rw [List.append_assoc, List.cons_append] at hr
    obtain ⟨s', hrun, hr', hlog, hnext⟩ := hr.remove
    refine ⟨s', 0, _, hrun, hr', ⟨xs ++ ys, by simp⟩, ⟨[], by simp, fun _ => rfl, by simp⟩, by omega,
      [.removed i.handler.1], hlog, by simp [Ev.isEdit], ?_⟩
    intro rounds
    rw [List.append_assoc, List.cons_append]
    exact congrArg (Book.mk · rounds) (hr.filter_handlers)
  · have hunknown : own ∉ (handlers (front ++ todo)).map Prod.fst := by
      simp only [handlers, List.map_append, List.mem_append, not_or] at hin hown ⊢
      exact ⟨hin, hown⟩
    exact ⟨s, 1, _, hr.remove_unknown hunknown, refl hr ⟨front, rfl⟩⟩

theorem perform {own : Nat} (acts : List Act) : ∀ {s : State} {items todo : List Item}, Registered s items →
    todo <:+ items → own ∉ (handlers todo).map Prod.fst → own < s.blocks.next →
      ∃ s' items' todo', ChildHandlers.perform own acts s = some s' ∧ Edited s items todo s' items' todo' := by
  induction acts with
  | nil => exact fun hr ht _ _ => ⟨_, _, _, rfl, refl hr ht⟩
  | cons act acts ih =>
    intro s items todo hr ht hown hlt
    cases act with
    | add ready d =>
      obtain ⟨s₁, r, items₁, todo₁, hrun, he⟩ := add hr ht ready d
      have hown₁ : own ∉ (handlers todo₁).map Prod.fst := by
        obtain ⟨more, rfl, -, hmore⟩ := he.grown
        simp only [handlers, List.map_append, List.mem_append, not_or] at hown ⊢
        refine ⟨hown, ?_⟩
        intro h
        simp only [List.mem_map] at h
        obtain ⟨_, ⟨i, hi, rfl⟩, rfl⟩ := h
        have := hmore i hi
        omega
      obtain ⟨s', items', todo', hrest, he'⟩ := ih he.registered he.suffix hown₁ (Nat.lt_of_lt_of_le hlt he.next)
      refine ⟨s', items', todo', ?_, he.trans he'⟩
      unfold ChildHandlers.perform
      rw [hrun, Option.bind_some, hrest]
    | removeOwn =>
      obtain ⟨s₁, r, items₁, hrun, he⟩ := remove hr ht hown
      obtain ⟨s', items', todo', hrest, he'⟩ := ih he.registered he.suffix hown (Nat.lt_of_lt_of_le hlt he.next)
      refine ⟨s', items', todo', ?_, he.trans he'⟩
      unfold ChildHandlers.perform
      rw [hrun, Option.bind_some, hrest]

end Edited

/-! ## The loops -/

theorem book_append (hs : List Handler) (log evs : List Ev) :
    book hs (log ++ evs) = evs.foldl Book.note (book hs log) := List.foldl_append ..

def Live (hs : List Handler) (log : List Ev) : Prop :=
  ∀ pre h c post, log = pre ++ .called h c :: post → h ∈ (book hs pre).registered

theorem live_snoc {hs : List Handler} {log : List Ev} {ev : Ev} (hl : Live hs log)
    (hev : ∀ h c, ev = .called h c → h ∈ (book hs log).registered) : Live hs (log ++ [ev]) := by
  intro pre h c post heq
  rcases List.eq_nil_or_concat post with rfl | ⟨post, e, rfl⟩
  · obtain ⟨rfl, he⟩ := List.append_inj' heq rfl
    exact hev h c (List.singleton_inj.mp he)
  · rw [List.concat_eq_append, ← List.cons_append, ← List.append_assoc] at heq
    exact hl pre h c post (List.append_inj' heq rfl).1

theorem live_edits {hs : List Handler} {log evs : List Ev} (hl : Live hs log) (he : ∀ ev ∈ evs, ev.isEdit = true) :
    Live hs (log ++ evs) := by
  induction evs generalizing log with
  | nil => simpa using hl
  | cons ev evs ih =>
    rw [List.append_cons]
    refine ih (live_snoc hl ?_) fun ev' h => he ev' (List.mem_cons_of_mem _ h)
    rintro h c rfl
    cases he _ List.mem_cons_self

theorem turns_edits {evs : List Ev} (he : ∀ ev ∈ evs, ev.isEdit = true) : evs.filter (fun ev => !ev.isEdit) = [] := by
  rw [List.filter_eq_nil_iff]
  intro ev hev
  simp [he ev hev]

def Round.Past (r : Round) : Prop := r.Notified ∧ r.complete = true

/-- `calls` were made for `c`, and the cursor is at the first item of `todo`. -/
structure Walking (s : State) (items todo : List Item) (c : Child) (it : Option Nat) (registered : List Handler)
    (calls : List (Handler × Child)) : Prop where
  suffix : todo <:+ items
  cursor : it = todo.head?.map Item.node
  child : ∀ p ∈ calls, p.2 = c
  covers : registered <+: calls.map Prod.fst ++ handlers todo
  once : ((calls.map Prod.fst ++ handlers todo).map Prod.fst).Nodup
  lt : ∀ p ∈ calls, p.1.1 < s.blocks.next

theorem Walking.notified {s : State} {items todo : List Item} {c : Child} {it : Option Nat}
    {registered : List Handler} {calls : List (Handler × Child)} (hw : Walking s items todo c it registered calls)
    {complete : Bool} (ho : complete = true → todo = []) : Round.Notified ⟨c, registered, calls, complete⟩ := by
  refine ⟨hw.child, ?_, ?_, ?_⟩
  · have := hw.once
    rw [List.map_append, List.nodup_append] at this
    exact this.1
  · exact List.prefix_or_prefix_of_prefix (List.prefix_append _ _) hw.covers
  · intro h
    have := hw.covers
    rw [ho h] at this
    simpa [handlers, Round.called] using this

/-- Where the two loops are. -/
inductive Place (s : State) (items : List Item) (rounds : List Round) : Pc → Prop where
  | wait : (∀ r ∈ rounds, r.Past) → Place s items rounds .wait
  | done : (∀ r ∈ rounds, r.Past) → Place s items rounds .done
  | walk {c : Child} {it : Option Nat} {registered : List Handler} {calls : List (Handler × Child)} {rest : List Round}
      {todo : List Item} : rounds = ⟨c, registered, calls, false⟩ :: rest → (∀ r ∈ rest, r.Past) →
      Walking s items todo c it registered calls → Place s items rounds (.walk c it)

def waiting (r : Run) : List Child := if r.pc = .done then [] else r.children.takeWhile (0 < ·.pid)

structure Inv (hs : List Handler) (children : List Child) (r : Run) (items : List Item) : Prop where
  registered : Registered r.st items
  listed : (book hs r.st.log).registered = handlers items
  live : Live hs r.st.log
  place : Place r.st items (book hs r.st.log).rounds r.pc
  order : ((book hs r.st.log).rounds.map Round.child).reverse ++ waiting r =
    children.takeWhile (0 < ·.pid)

theorem turns_snoc (log : List Ev) {ev : Ev} (he : ev.isEdit = false) : turns (log ++ [ev]) = turns log + 1 := by
  simp [turns, he]

theorem Walking.lt_next {s : State} {items todo : List Item} {c : Child} {it : Option Nat} {registered : List Handler}
    {calls : List (Handler × Child)} (hw : Walking s items todo c it registered calls) (hr : Registered s items) :
    ∀ data ∈ (calls.map Prod.fst ++ handlers todo).map Prod.fst, data < s.blocks.next := by
  intro data hdata
  rw [List.map_append, List.mem_append] at hdata
  rcases hdata with hdata | hdata
  · obtain ⟨h, hh, rfl⟩ := List.mem_map.mp hdata
    obtain ⟨p, hp, rfl⟩ := List.mem_map.mp hh
    exact hw.lt p hp
  · obtain ⟨h, hh, rfl⟩ := List.mem_map.mp hdata
    obtain ⟨j, hj, rfl⟩ := List.mem_map.mp hh
    exact hr.data_lt (hw.suffix.subset hj)

theorem Walking.advance {s s₁ s' : State} {items items' ys todo' : List Item} {t : Item} {c : Child}
    {registered : List Handler} {calls : List (Handler × Child)} (hr : Registered s items)
    (hw : Walking s items (t :: ys) c (some t.node) registered calls) (he : Edited s₁ items ys s' items' todo')
    (hnext : s₁.blocks.next = s.blocks.next) :
    Walking s' items' todo' c (ys.map Item.node).head? registered (calls ++ [(t.handler, c)]) := by
  have hlt := hw.lt_next hr
  have hle := he.next
  obtain ⟨more, rfl, hnil, hmore⟩ := he.grown
  rw [hnext] at hle hmore
  have hcalls : (calls ++ [(t.handler, c)]).map Prod.fst ++ handlers (ys ++ more) =
      calls.map Prod.fst ++ handlers (t :: ys) ++ handlers more := by simp [handlers]
  refine ⟨he.suffix, ?_, ?_, ?_, ?_, ?_⟩
  · cases ys with
    | nil => rw [hnil rfl]; rfl
    | cons y ys => rfl
  · intro p hp
    rcases List.mem_append.mp hp with hp | hp
    · exact hw.child p hp
    · rw [List.mem_singleton.mp hp]
  · rw [hcalls]
    exact hw.covers.trans (List.prefix_append _ _)
  · -- what was added meanwhile has a new address
    rw [hcalls, List.map_append, List.nodup_append]
    refine ⟨hw.once, ?_, ?_⟩
    · have hsub := (List.sublist_append_right ys more).trans he.suffix.sublist
      exact (((hsub.map Item.handler).map Prod.fst).nodup) he.registered.nodup
    · rintro a ha b hb rfl
      obtain ⟨h, hh, rfl⟩ := List.mem_map.mp hb
      obtain ⟨i, hi, rfl⟩ := List.mem_map.mp hh
      have := hmore i hi
      have := hlt _ ha
      omega
  · intro p hp
    refine Nat.lt_of_lt_of_le ?_ hle
    rcases List.mem_append.mp hp with hp | hp
    · exact hw.lt p hp
    · rw [List.mem_singleton.mp hp]
      exact hr.data_lt (hw.suffix.subset List.mem_cons_self)

theorem visit_walking (react : List Ev → List Act) {hs : List Handler} {s : State} {items todo : List Item}
    {c : Child} {it : Nat} {registered : List Handler} {calls : List (Handler × Child)} (hr : Registered s items)
    (hlisted : (book hs s.log).registered = handlers items) (hlive : Live hs s.log)
    (hw : Walking s items todo c (some it) registered calls) :
    ∃ s' itn items' todo' h, visit react s c it = some (s', itn) ∧ Registered s' items' ∧
      (book hs s'.log).registered = handlers items' ∧
      (book hs s'.log).rounds = ((book hs s.log).note (.called h c)).rounds ∧ Live hs s'.log ∧
      Walking s' items' todo' c itn registered (calls ++ [(h, c)]) ∧ turns s'.log = turns s.log + 1 := by
  obtain ⟨t, ys, rfl⟩ : ∃ t ys, todo = t :: ys := by
    cases todo with
    | nil => cases hw.cursor
    | cons t ys => exact ⟨t, ys, rfl⟩
  obtain rfl : it = t.node := by simpa using hw.cursor
  have ht : t ∈ items := hw.suffix.subset List.mem_cons_self
  obtain ⟨front, rfl⟩ := hw.suffix
  obtain ⟨s', items', todo', hperform, he⟩ := Edited.perform (react (s.emit (.called t.handler c)).log)
    (hr.emit (.called t.handler c)) (⟨front ++ [t], by simp⟩ : ys <:+ front ++ t :: ys) hr.notMem_behind (hr.data_lt ht)
  obtain ⟨evs, hlog, hedit, hbook⟩ := he.log
  have hnote : book hs s'.log = ⟨handlers items', ((book hs s.log).note (.called t.handler c)).rounds⟩ := by
    rw [hlog, book_append, ← hbook, ← hlisted]
    unfold State.emit
    rw [book_append]
    rfl
  refine ⟨s', (ys.map Item.node).head?, items', todo', t.handler, ?_, he.registered, by rw [hnote], by rw [hnote],
    ?_, hw.advance hr he rfl, ?_⟩
  · unfold visit
    simp only [Heap.load, hr.node_at, hr.block t ht, Option.bind_eq_bind, Option.bind_some, hperform, Option.pure_def]
  · rw [hlog]
    refine live_edits (live_snoc hlive ?_) hedit
    rintro h c' heq
    cases heq
    rw [hlisted]
    exact List.mem_map_of_mem ht
  · rw [hlog]
    unfold turns
    rw [List.filter_append, turns_edits hedit, List.append_nil]
    exact turns_snoc s.log rfl

theorem begin_inv {s : State} {items : List Item} (hr : Registered s items) (children : List Child) :
    Inv (handlers items) children (begin s children) items := by
  refine ⟨⟨hr.isDll, hr.data, hr.block, hr.nodup, hr.nodes_fresh, hr.blocks_fresh⟩, rfl, ?_, .wait (by simp [book, begin]),
    rfl⟩
  intro pre h c post heq
  simp [begin] at heq

theorem Inv.stop {hs : List Handler} {children cs : List Child} {s : State} {items : List Item}
    (hi : Inv hs children ⟨s, cs, .wait⟩ items) (hcs : cs.takeWhile (0 < ·.pid) = []) (cs' : List Child) :
    Inv hs children ⟨s, cs', .done⟩ items := by
  obtain ⟨hr, hlisted, hlive, hplace, horder⟩ := hi
  refine ⟨hr, hlisted, hlive, ?_, by simpa [waiting, hcs] using horder⟩
  cases hplace with
  | wait hpast => exact .done hpast

theorem Inv.reaped {hs : List Handler} {children cs : List Child} {c : Child} {s : State} {items : List Item}
    (hi : Inv hs children ⟨s, c :: cs, .wait⟩ items) (hpid : 0 < c.pid) :
    Inv hs children ⟨s.emit (.reaped c), cs, .walk c s.sigchld_cbs⟩ items := by
  obtain ⟨hr, hlisted, hlive, hplace, horder⟩ := hi
  have hbook : book hs (s.log ++ [.reaped c]) =
      ⟨handlers items, ⟨c, handlers items, [], false⟩ :: (book hs s.log).rounds⟩ := by
    rw [book_append, ← hlisted]
    rfl
  have hw : Walking (s.emit (.reaped c)) items items c s.sigchld_cbs (handlers items) [] := by
    refine ⟨List.suffix_rfl, ?_, by simp, by simp, by simpa using hr.nodup, by simp⟩
    rw [hr.isDll.head_eq, List.head?_map]
  cases hplace with
  | wait hpast =>
    refine ⟨hr.emit _, congrArg Book.registered hbook, live_snoc hlive (by simp),
      .walk (congrArg Book.rounds hbook) hpast hw, ?_⟩
    dsimp only [State.emit]
    rw [hbook, ← horder]
    simp [waiting, hpid]

theorem Inv.ended {hs : List Handler} {children cs : List Child} {c : Child} {s : State} {items : List Item}
    (hi : Inv hs children ⟨s, cs, .walk c none⟩ items) : Inv hs children ⟨s.emit .ended, cs, .wait⟩ items := by
  obtain ⟨hr, hlisted, hlive, hplace, horder⟩ := hi
  cases hplace with
  | @walk _ _ registered calls rest todo hrounds hpast hw =>
    have htodo : todo = [] := by
      have := hw.cursor
      cases todo with
      | nil => rfl
      | cons t ys => cases this
    have hbook : book hs (s.log ++ [.ended]) = ⟨handlers items, ⟨c, registered, calls, true⟩ :: rest⟩ := by
      rw [book_append, ← hlisted]
      change Book.mk _ ((book hs s.log).rounds.modifyHead _) = _
      rw [hrounds]
      rfl
    refine ⟨hr.emit _, congrArg Book.registered hbook, live_snoc hlive (by simp), .wait ?_, ?_⟩
    · dsimp only [State.emit]
      rw [hbook, List.forall_mem_cons]
      exact ⟨⟨hw.notified fun _ => htodo, rfl⟩, hpast⟩
    · dsimp only [State.emit]
      rw [hbook, ← horder, hrounds]
      simp [waiting]

theorem Inv.visited (react : List Ev → List Act) {hs : List Handler} {children cs : List Child} {c : Child} {it : Nat}
    {s : State} {items : List Item} (hi : Inv hs children ⟨s, cs, .walk c (some it)⟩ items) :
    ∃ s' itn items', visit react s c it = some (s', itn) ∧ Inv hs children ⟨s', cs, .walk c itn⟩ items' ∧
      turns s'.log = turns s.log + 1 := by
  obtain ⟨hr, hlisted, hlive, hplace, horder⟩ := hi
  cases hplace with
  | @walk _ _ registered calls rest todo hrounds hpast hw =>
    obtain ⟨s', itn, items', todo', h, hvisit, hr', hlisted', hrounds', hlive', hw', hturns⟩ :=
      visit_walking react hr hlisted hlive hw
    have hnew : (book hs s'.log).rounds = ⟨c, registered, calls ++ [(h, c)], false⟩ :: rest := by
      rw [hrounds']
      change (book hs s.log).rounds.modifyHead _ = _
      rw [hrounds]
      rfl
    refine ⟨s', itn, items', hvisit, ⟨hr', hlisted', hlive', .walk hnew hpast hw', ?_⟩, hturns⟩
    rw [hnew, ← horder, hrounds]
    simp [waiting]

theorem step_inv (react : List Ev → List Act) {hs : List Handler} {children : List Child} {r : Run} {items : List Item}
    (hi : Inv hs children r items) : ∃ r' items', step react r = some r' ∧ Inv hs children r' items' ∧
      (r'.pc = .done ∨ turns r'.st.log = turns r.st.log + 1) := by
  obtain ⟨s, cs, pc⟩ := r
  cases pc with
  | done => exact ⟨_, items, rfl, hi, .inl rfl⟩
  | wait =>
    cases cs with
    | nil => exact ⟨_, items, rfl, hi.stop rfl [], .inl rfl⟩
    | cons c cs =>
      by_cases hpid : c.pid ≤ 0
      · exact ⟨_, items, if_pos hpid, hi.stop (by simp [hpid]) cs, .inl rfl⟩
      · exact ⟨_, items, if_neg hpid, hi.reaped (by omega), .inr (turns_snoc s.log rfl)⟩
  | walk c it =>
    cases it with
    | none => exact ⟨_, items, rfl, hi.ended, .inr (turns_snoc s.log rfl)⟩
    | some it =>
      obtain ⟨s', itn, items', hvisit, hi', hturns⟩ := hi.visited react
      exact ⟨_, items', congrArg (Option.map _) hvisit, hi', .inr hturns⟩

theorem Inv.notifies {hs : List Handler} {children : List Child} {r : Run} {items : List Item}
    (hi : Inv hs children r items) {n : Nat} (hn : r.pc = .done ∨ turns r.st.log = n) : Notifies hs children n r := by
  obtain ⟨hr, hlisted, hlive, hplace, horder⟩ := hi
  have hnow : ∃ items, Registered r.st items ∧ (book hs r.st.log).registered = handlers items := ⟨items, hr, hlisted⟩
  have hprefix : ((book hs r.st.log).rounds.map Round.child).reverse <+: children.takeWhile (0 < ·.pid) := ⟨_, horder⟩
  generalize hpc : r.pc = pc at hplace
  cases hplace with
  | wait hpast =>
    refine ⟨hnow, fun q hq => (hpast q hq).1, fun q hq => (hpast q (List.mem_of_mem_tail hq)).2, hlive, hprefix, ?_, hn⟩
    intro h
    rw [hpc] at h
    cases h
  | done hpast =>
    refine ⟨hnow, fun q hq => (hpast q hq).1, fun q hq => (hpast q (List.mem_of_mem_tail hq)).2, hlive, hprefix, ?_, hn⟩
    intro _
    refine ⟨?_, fun q hq => (hpast q hq).2⟩
    simpa [waiting, hpc] using horder
  | walk hrounds hpast hw =>
    refine ⟨hnow, ?_, ?_, hlive, hprefix, ?_, hn⟩
    · rw [hrounds, List.forall_mem_cons]
      exact ⟨hw.notified (by simp), fun q hq => (hpast q hq).1⟩
    · rw [hrounds]
      exact fun q hq => (hpast q hq).2
    · intro h
      rw [hpc] at h
      cases h

theorem done_stays (react : List Ev → List Act) {r : Run} (h : r.pc = .done) (n : Nat) :
    sigchild_event_handler react n r = some r := by
  induction n with
  | zero => rfl
  | succ n ih =>
    unfold sigchild_event_handler step
    rw [h]
    exact ih

theorem run_inv (react : List Ev → List Act) (n : Nat) : ∀ {hs : List Handler} {children : List Child} {r : Run}
    {items : List Item}, Inv hs children r items → ∃ r' items', sigchild_event_handler react n r = some r' ∧
      Inv hs children r' items' ∧ (r'.pc = .done ∨ turns r'.st.log = turns r.st.log + n) := by
  induction n with
  | zero => exact fun {hs children r items} hi => ⟨r, items, rfl, hi, .inr rfl⟩
  | succ n ih =>
    intro hs children r items hi
    obtain ⟨r₁, items₁, hstep, hi₁, hturn⟩ := step_inv react hi
    obtain ⟨r', items', hrun, hi', hturns⟩ := ih hi₁
    refine ⟨r', items', ?_, hi', ?_⟩
    · unfold sigchild_event_handler
      rw [hstep, Option.bind_some, hrun]
    · rcases hturn with h | h
      · rw [done_stays react h] at hrun
        cases hrun
        exact .inl h
      · rcases hturns with h' | h'
        · exact .inl h'
        · right; omega

/-- Whatever the callbacks do, as long as each removes at most its own handler, every turn of the two loops is taken.
The handlers that are registered when a child is reaped are called with it one after another, and each of them once. -/
theorem sigchild_event_handler_notifies (react : List Ev → List Act) {s : State} {items : List Item}
    (hr : Registered s items) (children : List Child) (n : Nat) :
    ∃ r, sigchild_event_handler react n (begin s children) = some r ∧ Notifies (handlers items) children n r := by
  obtain ⟨r, items', hrun, hi, hturns⟩ := run_inv react n (begin_inv hr children)
  refine ⟨r, hrun, hi.notifies ?_⟩
  simpa [turns, begin] using hturns

def noHandlers : State := ⟨none, Heap.empty, Heap.empty, []⟩

theorem noHandlers_registered : Registered noHandlers [] := by
  refine ⟨isDll_nil _, ?_, ?_, List.nodup_nil, Heap.fresh_empty, Heap.fresh_empty⟩
  · intro i hi
    cases hi
  · intro i hi
    cases hi

theorem Registered.added {s s' : State} {items : List Item} (hr : Registered s items) {d : CbData} {data : Nat}
    (h : crtx_signals_add_child_handler s true d = some (s', some data)) :
    Registered s' (items ++ [⟨s.nodes.next, (s.blocks.next, d)⟩]) := by
  rcases hr.add true d with ⟨h, -⟩ | ⟨s₁, hrun, hr₁, -⟩
  · cases h
  · rw [hrun] at h
    cases h
    exact hr₁

def oneHandler : State := ((crtx_signals_add_child_handler noHandlers true ⟨1, 0⟩).get rfl).1

def twoHandlers : State := ((crtx_signals_add_child_handler oneHandler true ⟨2, 0⟩).get rfl).1

theorem twoHandlers_registered : Registered twoHandlers [⟨0, (0, ⟨1, 0⟩)⟩, ⟨1, (1, ⟨2, 0⟩)⟩] := by
  have h₁ : crtx_signals_add_child_handler noHandlers true ⟨1, 0⟩ = some (oneHandler, some 0) := rfl
  have h₂ : crtx_signals_add_child_handler oneHandler true ⟨2, 0⟩ = some (twoHandlers, some 1) := rfl
  exact (noHandlers_registered.added h₁).added h₂

/-- The first of two handlers removes itself when it is called, and adds another one. The children 7 and 8 ended. -/
theorem sigchild_event_handler_notifies_two :
    ∃ r, sigchild_event_handler (fun log => if log.length = 2 then [.removeOwn, .add true ⟨3, 0⟩] else []) 10
        (begin twoHandlers [⟨7, 0⟩, ⟨8, 1⟩]) = some r ∧
      Notifies [(0, ⟨1, 0⟩), (1, ⟨2, 0⟩)] [⟨7, 0⟩, ⟨8, 1⟩] 10 r ∧ r.pc = .done := by
  obtain ⟨r, hrun, hn⟩ := sigchild_event_handler_notifies
    (fun log => if log.length = 2 then [.removeOwn, .add true ⟨3, 0⟩] else []) twoHandlers_registered
    [⟨7, 0⟩, ⟨8, 1⟩] 10
  refine ⟨r, hrun, hn, ?_⟩
  have hpc : (sigchild_event_handler (fun log => if log.length = 2 then [.removeOwn, .add true ⟨3, 0⟩] else []) 10
      (begin twoHandlers [⟨7, 0⟩, ⟨8, 1⟩])).map Run.pc = some .done := by rfl
  rw [hrun] at hpc
  exact Option.some_inj.mp hpc

end Libcortex.ChildHandlers
