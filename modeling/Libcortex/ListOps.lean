import Libcortex.LList
import Libcortex.SListNodes
import Libcortex.Lib.Run

/-!
# Lists under any sequence of calls

A `Seq` is what a list is for: items in an order. Whatever is called, both kinds of lists in `llist.c` do to their links
what a `Seq` does to its items.
-/

open Libcortex.Lib Libcortex.LList Libcortex.SListNodes

namespace Libcortex.ListOps

variable {δ : Type}

/-- What a call returns. -/
inductive Ret where
  | code (r : Int)
  | node (a : Option Nat)
deriving DecidableEq, Repr

/-- The calls. `new` is none: the program has made a node, and its links may be anything. -/
inductive Op (δ : Type) where
  | new (prev next : Option Nat) (data : δ)
  | append (item : Nat)
  | append_new (data : δ)
  | unlink (item : Nat)
  | unlink_data (data : δ)
  | unlink_data2 (data : δ)
  | insert (item before : Nat)
  | insert_new (data : δ) (before : Nat)
deriving DecidableEq, Repr

/-! ## Sequences -/

/-- The items, what each node carries that there is, and the name of the next one. `removed` are those that were taken
out and not put in again. `returned` is history, the newest first. -/
structure Seq (δ : Type) where
  items : List Nat
  data : Nat → Option δ
  next : Nat
  removed : List Nat
  returned : List Ret

namespace Seq

def empty : Seq δ := ⟨[], fun _ => none, 0, [], []⟩

def create (q : Seq δ) (data : δ) : Seq δ := { q with data := Function.update q.data q.next (some data), next := q.next + 1 }

/-- `item` is put in, which makes `items`. -/
def place (q : Seq δ) (items : List Nat) (item : Nat) (ret : Ret) : Seq δ :=
  { q with items, removed := q.removed.filter (· ≠ item), returned := ret :: q.returned }

def remove (q : Seq δ) (item : Nat) (ret : Ret) : Seq δ :=
  { q with items := q.items.erase item, removed := item :: q.removed, returned := ret :: q.returned }

def same (q : Seq δ) (ret : Ret) : Seq δ := { q with returned := ret :: q.returned }

/-- The items with `item` before another one. -/
def before (q : Seq δ) (item before : Nat) : List Nat := q.items.insertIdx (q.items.idxOf before) item

variable [DecidableEq δ]

/-- The first item that carries the data. -/
def find (q : Seq δ) (data : δ) : Option Nat := q.items.find? fun a => q.data a = some data

/-- The first item that carries the data is taken out, if there is one. -/
def removeFirst (q : Seq δ) (data : δ) (ret : Option Nat → Ret) : Seq δ :=
  match q.find data with
  | none => q.same (ret none)
  | some item => q.remove item (ret (some item))

/-- `none`: what is put in is no node or already in the list, or another item is not. Only doubly linked lists have
`insert` and `insert_new`. -/
def step (inserts : Bool) (q : Seq δ) : Op δ → Option (Seq δ)
  | .new _ _ data => some (q.create data)
  | .append item =>
    if (q.data item).isSome ∧ item ∉ q.items then some (q.place (q.items ++ [item]) item (.code 0)) else none
  | .append_new data => some ((q.create data).place (q.items ++ [q.next]) q.next (.node (some q.next)))
  | .unlink item => if item ∈ q.items then some (q.remove item (.code 0)) else none
  | .unlink_data data => some (q.removeFirst data .node)
  | .unlink_data2 data => some (q.removeFirst data fun item => .code (if item.isSome then 0 else -ENOENT))
  | .insert item before =>
    if inserts ∧ (q.data item).isSome ∧ item ∉ q.items ∧ before ∈ q.items then
      some (q.place (q.before item before) item (.code 0))
    else none
  | .insert_new data before =>
    if inserts ∧ before ∈ q.items then
      some ((q.create data).place (q.before q.next before) q.next (.node (some q.next)))
    else none

end Seq

/-! ## Lists -/

/-- A list, with the heap of its nodes. -/
structure Lst (ν : Type) where
  heap : Heap ν
  head : Option Nat
  returned : List Ret

def Lst.empty {ν : Type} : Lst ν := ⟨Heap.empty, none, []⟩

/-- More steps than any loop takes. -/
def Lst.fuel {ν : Type} (s : Lst ν) : Nat := s.heap.next + 1

/-- The list after a call. -/
def Lst.after {ν ρ : Type} (s : Lst ν) (ret : ρ → Ret) (result : Option (Heap ν × Option Nat × ρ)) : Option (Lst ν) :=
  result.map fun (heap, head, r) => ⟨heap, head, ret r :: s.returned⟩

section

variable [DecidableEq δ]

def dllStep (s : Lst (Node δ)) : Op δ → Option (Lst (Node δ))
  | .new prev next data => some { s with heap := (s.heap.alloc ⟨prev, next, data⟩).1 }
  | .append item => s.after .code (crtx_dll_append s.fuel s.heap s.head item)
  | .append_new data => s.after .node (crtx_dll_append_new s.fuel s.heap s.head data)
  | .unlink item => s.after .code (crtx_dll_unlink s.heap s.head item)
  | .unlink_data data => s.after .node (crtx_dll_unlink_data s.fuel s.heap s.head data)
  | .unlink_data2 data => s.after .code (crtx_dll_unlink_data2 s.fuel s.heap s.head data)
  | .insert item before => s.after .code (crtx_dll_insert s.heap s.head item before)
  | .insert_new data before => s.after .node (crtx_dll_insert_new s.heap s.head data before)

def llStep (s : Lst (LlNode δ)) : Op δ → Option (Lst (LlNode δ))
  | .new _ next data => some { s with heap := (s.heap.alloc ⟨next, data⟩).1 }
  | .append item => s.after .code (crtx_ll_append s.fuel s.heap s.head item)
  | .append_new data => s.after .node (crtx_ll_append_new s.fuel s.heap s.head data)
  | .unlink item => s.after .code (crtx_ll_unlink s.fuel s.heap s.head item)
  | .unlink_data data => s.after .node (crtx_ll_unlink_data s.fuel s.heap s.head data)
  | .unlink_data2 data => s.after .code (crtx_ll_unlink_data2 s.fuel s.heap s.head data)
  | .insert _ _ => none
  | .insert_new _ _ => none

end

/-! ## Kinds of lists -/

/-- A kind of list is a kind of node and a predicate that says which items the links lead through. -/
structure Kind (ν δ : Type) where
  data : ν → δ
  /-- It has no links. -/
  Null : ν → Prop
  IsList : Heap ν → Option Nat → List Nat → Prop
  nil : ∀ h, IsList h none []
  cell : ∀ {h head l}, IsList h head l → ∀ a ∈ l, ∃ n, h.cell a = some n
  nodup : ∀ {h head l}, IsList h head l → l.Nodup
  frame : ∀ {h h' head l}, IsList h head l → (∀ a ∈ l, h'.cell a = h.cell a) → IsList h' head l

def dll : Kind (Node δ) δ where
  data := Node.data
  Null n := n.prev = none ∧ n.next = none
  IsList := IsDll
  nil := isDll_nil
  cell hl _ ha := hl.linked.cell ha
  nodup hl := hl.nodup
  frame hl hsame := hl.frame hsame

def ll : Kind (LlNode δ) δ where
  data := LlNode.data
  Null n := n.next = none
  IsList := IsLl
  nil := isLl_nil
  cell hl := hl.cell
  nodup hl := hl.chain.nodup
  frame hl hsame :=
    ⟨hl.chain.frame fun a ha => by rw [nextOf, nextOf, hsame a ha], fun a ha => by rw [hsame a ha]; exact hl.cell a ha⟩

/-- The list is what the sequence says. -/
structure Rep {ν : Type} (k : Kind ν δ) (s : Lst ν) (q : Seq δ) : Prop where
  fresh : s.heap.Fresh
  list : k.IsList s.heap s.head q.items
  data : ∀ a, (s.heap.cell a).map k.data = q.data a
  next : s.heap.next = q.next
  removed : ∀ a ∈ q.removed, a ∉ q.items ∧ ∃ n, s.heap.cell a = some n ∧ k.Null n
  returned : s.returned = q.returned

namespace Rep

variable {ν : Type} {k : Kind ν δ} {s : Lst ν} {q : Seq δ}

theorem empty : Rep k Lst.empty Seq.empty where
  fresh := Heap.fresh_empty
  list := k.nil _
  data _ := rfl
  next := rfl
  removed _ ha := absurd ha List.not_mem_nil
  returned := rfl

theorem length_lt (hr : Rep k s q) : q.items.length < s.fuel := by
  have hsub : q.items ⊆ List.range s.heap.next := by
    intro a ha
    obtain ⟨n, hn⟩ := k.cell hr.list a ha
    exact List.mem_range.mpr (Heap.lt_next hr.fresh hn)
  have := ((k.nodup hr.list).subperm hsub).length_le
  rw [List.length_range] at this
  exact Nat.lt_succ_of_le this

theorem cell_of_data (hr : Rep k s q) {a : Nat} (ha : (q.data a).isSome) : ∃ n, s.heap.cell a = some n := by
  rw [← hr.data, Option.isSome_map] at ha
  exact Option.isSome_iff_exists.mp ha

theorem lt_next (hr : Rep k s q) {a : Nat} (ha : ∃ n, s.heap.cell a = some n) : a < q.next := by
  obtain ⟨n, hn⟩ := ha
  exact hr.next ▸ Heap.lt_next hr.fresh hn

theorem create (hr : Rep k s q) (n : ν) :
    Rep k { s with heap := (s.heap.alloc n).1 } (q.create (k.data n)) := by
  have hold : ∀ a, (∃ m, s.heap.cell a = some m) → (s.heap.alloc n).1.cell a = s.heap.cell a := by
    rintro a ⟨m, hm⟩
    exact Function.update_of_ne (Nat.ne_of_lt (Heap.lt_next hr.fresh hm)) _ _
  refine ⟨Heap.fresh_alloc hr.fresh n, k.frame hr.list fun a ha => hold a (k.cell hr.list a ha), fun a => ?_, ?_, ?_,
    hr.returned⟩
  · rw [Seq.create, ← hr.next]
    by_cases ha : a = s.heap.next
    · simp [Heap.alloc, ha]
    · simp [Heap.alloc, ha, hr.data]
  · rw [Seq.create, ← hr.next]
    rfl
  · intro a ha
    obtain ⟨hnot, m, hm, hnull⟩ := hr.removed a ha
    exact ⟨hnot, m, by rw [hold a ⟨m, hm⟩, hm], hnull⟩

theorem place (hr : Rep k s q) {h' : Heap ν} {head' : Option Nat} {items touched : List Nat} {item : Nat}
    (hlist : k.IsList h' head' items) (hedit : Heap.Edited k.data touched s.heap h')
    (hsub : ∀ a ∈ touched, a ∈ items) (hitems : ∀ a ∈ items, a = item ∨ a ∈ q.items) (ret : Ret) :
    Rep k ⟨h', head', ret :: s.returned⟩ (q.place items item ret) := by
  refine ⟨hedit.fresh hr.fresh, hlist, fun a => (hedit.data a).trans (hr.data a), hedit.next.trans hr.next, ?_,
    congrArg _ hr.returned⟩
  intro a ha
  obtain ⟨ha, hne⟩ := List.mem_filter.mp ha
  obtain ⟨hnot, n, hn, hnull⟩ := hr.removed a ha
  have hout : a ∉ items := fun hm => (hitems a hm).elim (by simpa using hne) hnot
  exact ⟨hout, n, by rw [hedit.cell a fun ht => hout (hsub a ht), hn], hnull⟩

theorem remove (hr : Rep k s q) {h' : Heap ν} {head' : Option Nat} {item : Nat}
    (hlist : k.IsList h' head' (q.items.erase item)) (hedit : Heap.Edited k.data q.items s.heap h')
    (hnull : ∃ n, h'.cell item = some n ∧ k.Null n) (ret : Ret) :
    Rep k ⟨h', head', ret :: s.returned⟩ (q.remove item ret) := by
  refine ⟨hedit.fresh hr.fresh, hlist, fun a => (hedit.data a).trans (hr.data a), hedit.next.trans hr.next, ?_,
    congrArg _ hr.returned⟩
  intro a ha
  rcases List.mem_cons.mp ha with rfl | ha
  · exact ⟨(k.nodup hr.list).not_mem_erase, hnull⟩
  · obtain ⟨hnot, n, hn, hnull⟩ := hr.removed a ha
    exact ⟨fun hm => hnot (List.mem_of_mem_erase hm), n, by rw [hedit.cell a hnot, hn], hnull⟩

theorem same (hr : Rep k s q) (ret : Ret) : Rep k ⟨s.heap, s.head, ret :: s.returned⟩ (q.same ret) :=
  ⟨hr.fresh, hr.list, hr.data, hr.next, hr.removed, congrArg _ hr.returned⟩

end Rep

/-! ## What each call does -/

theorem sameBut_edited {l : List Nat} {h h' : Heap (Node δ)} (hs : LList.SameBut l h h') :
    Heap.Edited Node.data l h h' := ⟨hs.next, hs.cell, hs.data⟩

theorem idxOf_insert {x y : List Nat} {before : Nat} (hx : before ∉ x) (item : Nat) :
    (x ++ before :: y).insertIdx ((x ++ before :: y).idxOf before) item = x ++ item :: before :: y := by
  rw [List.idxOf_append_of_notMem hx, List.idxOf_cons_self, Nat.add_zero]
  induction x with
  | nil => rfl
  | cons a x ih =>
    rw [List.mem_cons, not_or] at hx
    rw [List.cons_append, List.length_cons, List.insertIdx_succ_cons, ih hx.2, List.cons_append]

section

variable {s : Lst (Node δ)} {q : Seq δ} {fuel item : Nat}

theorem crtx_dll_append_rep (hr : Rep dll s q) (hfuel : q.items.length < fuel)
    (hn : ∃ n, s.heap.cell item = some n) (hi : item ∉ q.items) (ret : Ret) :
    ∃ h' head', crtx_dll_append fuel s.heap s.head item = some (h', head', 0) ∧
      Rep dll ⟨h', head', ret :: s.returned⟩ (q.place (q.items ++ [item]) item ret) := by
  obtain ⟨n, hn⟩ := hn
  obtain ⟨h', hrun, hdll, hsame⟩ := crtx_dll_append_spec hr.list hi hn hfuel
  refine ⟨h', _, hrun, hr.place hdll (sameBut_edited hsame) (fun a ha => ha) ?_ ret⟩
  intro a ha
  rcases List.mem_append.mp ha with ha | ha
  · exact .inr ha
  · exact .inl (List.mem_singleton.mp ha)

theorem crtx_dll_insert_rep (hr : Rep dll s q) (hn : ∃ n, s.heap.cell item = some n) (hi : item ∉ q.items)
    {before : Nat} (hb : before ∈ q.items) (ret : Ret) :
    ∃ h' head', crtx_dll_insert s.heap s.head item before = some (h', head', 0) ∧
      Rep dll ⟨h', head', ret :: s.returned⟩ (q.place (q.before item before) item ret) := by
  obtain ⟨n, hn⟩ := hn
  obtain ⟨x, y, hxy⟩ := List.append_of_mem hb
  have hlist : IsDll s.heap s.head (x ++ before :: y) := hxy ▸ hr.list
  have hx : before ∉ x := fun h => (List.nodup_append.mp hlist.nodup).2.2 before h before (by simp) rfl
  have hitems : q.before item before = x ++ item :: before :: y := by rw [Seq.before, hxy, idxOf_insert hx]
  obtain ⟨h', head', hrun, hdll, hsame⟩ := crtx_dll_insert_spec hlist (hxy ▸ hi) hn
  rw [hitems]
  refine ⟨h', head', hrun, hr.place hdll (sameBut_edited hsame) (fun a ha => ha) ?_ ret⟩
  intro a ha
  rw [hxy]
  simpa [or_left_comm] using ha

theorem crtx_dll_unlink_rep (hr : Rep dll s q) (hi : item ∈ q.items) (ret : Ret) :
    ∃ h' head', crtx_dll_unlink s.heap s.head item = some (h', head', 0) ∧
      Rep dll ⟨h', head', ret :: s.returned⟩ (q.remove item ret) := by
  obtain ⟨h', hrun, hdll, hsame, hlinks⟩ := crtx_dll_unlink_spec hr.list hi
  refine ⟨h', _, hrun, hr.remove hdll (sameBut_edited hsame) ?_ ret⟩
  obtain ⟨n, hn, hnull⟩ := Option.map_eq_some_iff.mp hlinks
  exact ⟨n, hn, Prod.mk.inj hnull⟩

end

section

variable {s : Lst (LlNode δ)} {q : Seq δ} {fuel item : Nat}

theorem crtx_ll_append_rep (hr : Rep ll s q) (hfuel : q.items.length < fuel) (hn : ∃ n, s.heap.cell item = some n)
    (hi : item ∉ q.items) (ret : Ret) :
    ∃ h' head', crtx_ll_append fuel s.heap s.head item = some (h', head', 0) ∧
      Rep ll ⟨h', head', ret :: s.returned⟩ (q.place (q.items ++ [item]) item ret) := by
  obtain ⟨h', head', hrun, hll, hedit⟩ := crtx_ll_append_spec hr.list hi hn hfuel
  refine ⟨h', head', hrun, hr.place hll hedit ?_ ?_ ret⟩
  · intro a ha
    simpa [or_comm] using ha
  · intro a ha
    simpa [or_comm] using ha

theorem crtx_ll_unlink_rep (hr : Rep ll s q) (hfuel : q.items.length < fuel) (hi : item ∈ q.items) (ret : Ret) :
    ∃ h' head', crtx_ll_unlink fuel s.heap s.head item = some (h', head', 0) ∧
      Rep ll ⟨h', head', ret :: s.returned⟩ (q.remove item ret) := by
  obtain ⟨h', head', hrun, hll, hnone, hedit⟩ := crtx_ll_unlink_spec hr.list hi hfuel
  refine ⟨h', head', hrun, hr.remove hll hedit ?_ ret⟩
  obtain ⟨n, hn⟩ := hedit.isSome (hr.list.cell item hi)
  refine ⟨n, hn, ?_⟩
  rw [nextOf, hn] at hnone
  exact hnone

end

/-! ## One call -/

theorem Lst.after_some {ν ρ : Type} {s : Lst ν} {ret : ρ → Ret} {result : Option (Heap ν × Option Nat × ρ)}
    {h' : Heap ν} {head' : Option Nat} {r : ρ} (hrun : result = some (h', head', r)) :
    s.after ret result = some ⟨h', head', ret r :: s.returned⟩ := by
  rw [hrun]
  rfl

theorem Rep.new_notMem {ν : Type} {k : Kind ν δ} {s : Lst ν} {q : Seq δ} (hr : Rep k s q) : q.next ∉ q.items :=
  fun h => Nat.lt_irrefl _ (hr.lt_next (k.cell hr.list _ h))

theorem Lst.new_cell {ν : Type} (s : Lst ν) (n : ν) : ∃ m, (s.heap.alloc n).1.cell s.heap.next = some m :=
  ⟨n, Function.update_self ..⟩

variable [DecidableEq δ]

theorem Rep.find_eq {ν : Type} {k : Kind ν δ} {s : Lst ν} {q : Seq δ} (hr : Rep k s q) (data : δ) :
    (q.items.find? fun a => (s.heap.cell a).map k.data = some data) = q.find data := by
  unfold Seq.find
  simp only [hr.data]

theorem Rep.removeFirst {ν : Type} {k : Kind ν δ} {s : Lst ν} {q : Seq δ} (hr : Rep k s q) {data : δ}
    {ret : Option Nat → Ret} {after : Option (Lst ν)}
    (hnone : q.find data = none → after = some ⟨s.heap, s.head, ret none :: s.returned⟩)
    (hsome : ∀ item, q.find data = some item → ∃ s', after = some s' ∧ Rep k s' (q.remove item (ret (some item)))) :
    ∃ s', after = some s' ∧ Rep k s' (q.removeFirst data ret) := by
  unfold Seq.removeFirst
  cases hq : q.find data with
  | none => exact ⟨_, hnone hq, hr.same _⟩
  | some item => exact hsome item hq

theorem Seq.find_mem {q : Seq δ} {data : δ} {item : Nat} (h : q.find data = some item) : item ∈ q.items :=
  List.mem_of_find?_eq_some h

section

variable {s : Lst (Node δ)} {q : Seq δ}

theorem Rep.dll_findData (hr : Rep dll s q) (data : δ) :
    LList.findData s.heap data s.fuel s.head = some (q.find data) := by
  rw [hr.list.head_eq, LList.findData_spec hr.list.linked data q.items [] s.fuel rfl hr.length_lt]
  exact congrArg some (hr.find_eq data)

theorem Rep.crtx_dll_unlink_data (hr : Rep dll s q) (data : δ) :
    ∃ s', s.after .node (LList.crtx_dll_unlink_data s.fuel s.heap s.head data) = some s' ∧
      Rep dll s' (q.removeFirst data .node) := by
  unfold LList.crtx_dll_unlink_data
  rw [hr.dll_findData data]
  refine hr.removeFirst (fun hq => ?_) fun item hq => ?_
  · rw [hq]
    rfl
  · obtain ⟨h', head', hrun, hrep⟩ := crtx_dll_unlink_rep hr (Seq.find_mem hq) (.node (some item))
    rw [hq]
    exact ⟨_, Lst.after_some (r := some item) (by simp [hrun]), hrep⟩

theorem Rep.crtx_dll_unlink_data2 (hr : Rep dll s q) (data : δ) :
    ∃ s', s.after .code (LList.crtx_dll_unlink_data2 s.fuel s.heap s.head data) = some s' ∧
      Rep dll s' (q.removeFirst data fun item => .code (if item.isSome then 0 else -ENOENT)) := by
  unfold LList.crtx_dll_unlink_data2
  rw [hr.dll_findData data]
  refine hr.removeFirst (fun hq => ?_) fun item hq => ?_
  · rw [hq]
    rfl
  · obtain ⟨h', head', hrun, hrep⟩ := crtx_dll_unlink_rep hr (Seq.find_mem hq) (.code 0)
    rw [hq]
    exact ⟨_, Lst.after_some hrun, hrep⟩

end

section

variable {s : Lst (LlNode δ)} {q : Seq δ}

theorem Rep.crtx_ll_unlink_data (hr : Rep ll s q) (data : δ) :
    ∃ s', s.after .node (SListNodes.crtx_ll_unlink_data s.fuel s.heap s.head data) = some s' ∧
      Rep ll s' (q.removeFirst data .node) := by
  unfold SListNodes.crtx_ll_unlink_data
  refine hr.removeFirst (fun hq => ?_) fun item hq => ?_
  · rw [SListNodes.findData_none hr.list hr.length_lt ((hr.find_eq data).trans hq)]
    rfl
  · obtain ⟨prev, hfind, -⟩ := unlink_first hr.list hr.length_lt ((hr.find_eq data).trans hq)
    obtain ⟨h', head', hrun, hrep⟩ := crtx_ll_unlink_rep hr hr.length_lt (Seq.find_mem hq) (.node (some item))
    rw [hfind]
    exact ⟨_, Lst.after_some (r := some item) (by simp [hrun]), hrep⟩

theorem Rep.crtx_ll_unlink_data2 (hr : Rep ll s q) (data : δ) :
    ∃ s', s.after .code (SListNodes.crtx_ll_unlink_data2 s.fuel s.heap s.head data) = some s' ∧
      Rep ll s' (q.removeFirst data fun item => .code (if item.isSome then 0 else -ENOENT)) := by
  unfold SListNodes.crtx_ll_unlink_data2
  refine hr.removeFirst (fun hq => ?_) fun item hq => ?_
  · rw [SListNodes.findData_none hr.list hr.length_lt ((hr.find_eq data).trans hq)]
    rfl
  · obtain ⟨prev, hfind, heq⟩ := unlink_first hr.list hr.length_lt ((hr.find_eq data).trans hq)
    obtain ⟨h', head', hrun, hrep⟩ := crtx_ll_unlink_rep hr hr.length_lt (Seq.find_mem hq) (.code 0)
    rw [hfind]
    exact ⟨_, Lst.after_some (heq.trans hrun), hrep⟩

end

theorem dllStep_rep {s : Lst (Node δ)} {q q' : Seq δ} {op : Op δ} (hr : Rep dll s q) (h : q.step true op = some q') :
    ∃ s', dllStep s op = some s' ∧ Rep dll s' q' := by
  have hfuel := hr.length_lt
  have hnew := hr.next ▸ hr.new_notMem
  cases op with
  | new prev next data =>
    cases h
    exact ⟨_, rfl, hr.create ⟨prev, next, data⟩⟩
  | append item =>
    obtain ⟨⟨hd, hi⟩, h⟩ := Option.ite_none_right_eq_some.mp h
    cases h
    obtain ⟨h', head', hrun, hrep⟩ := crtx_dll_append_rep hr hfuel (hr.cell_of_data hd) hi (.code 0)
    exact ⟨_, Lst.after_some hrun, hrep⟩
  | append_new data =>
    cases h
    obtain ⟨h', head', hrun, hrep⟩ := crtx_dll_append_rep (hr.create ⟨none, none, data⟩) hfuel (Lst.new_cell s _) hnew
      (.node (some s.heap.next))
    rw [hr.next] at hrep
    exact ⟨_, Lst.after_some (crtx_dll_append_new_eq hrun), by rw [hr.next]; exact hrep⟩
  | unlink item =>
    obtain ⟨hi, h⟩ := Option.ite_none_right_eq_some.mp h
    cases h
    obtain ⟨h', head', hrun, hrep⟩ := crtx_dll_unlink_rep hr hi (.code 0)
    exact ⟨_, Lst.after_some hrun, hrep⟩
  | unlink_data data =>
    cases h
    exact hr.crtx_dll_unlink_data data
  | unlink_data2 data =>
    cases h
    exact hr.crtx_dll_unlink_data2 data
  | insert item before =>
    obtain ⟨⟨-, hd, hi, hb⟩, h⟩ := Option.ite_none_right_eq_some.mp h
    cases h
    obtain ⟨h', head', hrun, hrep⟩ := crtx_dll_insert_rep hr (hr.cell_of_data hd) hi hb (.code 0)
    exact ⟨_, Lst.after_some hrun, hrep⟩
  | insert_new data before =>
    obtain ⟨⟨-, hb⟩, h⟩ := Option.ite_none_right_eq_some.mp h
    cases h
    obtain ⟨h', head', hrun, hrep⟩ := crtx_dll_insert_rep (hr.create ⟨none, none, data⟩) (Lst.new_cell s _) hnew hb
      (.node (some s.heap.next))
    rw [hr.next] at hrep
    exact ⟨_, Lst.after_some (crtx_dll_insert_new_eq hrun), by rw [hr.next]; exact hrep⟩

theorem llStep_rep {s : Lst (LlNode δ)} {q q' : Seq δ} {op : Op δ} (hr : Rep ll s q)
    (h : q.step false op = some q') : ∃ s', llStep s op = some s' ∧ Rep ll s' q' := by
  have hfuel := hr.length_lt
  have hnew := hr.next ▸ hr.new_notMem
  cases op with
  | new prev next data =>
    cases h
    exact ⟨_, rfl, hr.create ⟨next, data⟩⟩
  | append item =>
    obtain ⟨⟨hd, hi⟩, h⟩ := Option.ite_none_right_eq_some.mp h
    cases h
    obtain ⟨h', head', hrun, hrep⟩ := crtx_ll_append_rep hr hfuel (hr.cell_of_data hd) hi (.code 0)
    exact ⟨_, Lst.after_some hrun, hrep⟩
  | append_new data =>
    cases h
    obtain ⟨h', head', hrun, hrep⟩ := crtx_ll_append_rep (hr.create ⟨none, data⟩) hfuel (Lst.new_cell s _) hnew
      (.node (some s.heap.next))
    rw [hr.next] at hrep
    exact ⟨_, Lst.after_some (crtx_ll_append_new_eq hrun), by rw [hr.next]; exact hrep⟩
  | unlink item =>
    obtain ⟨hi, h⟩ := Option.ite_none_right_eq_some.mp h
    cases h
    obtain ⟨h', head', hrun, hrep⟩ := crtx_ll_unlink_rep hr hfuel hi (.code 0)
    exact ⟨_, Lst.after_some hrun, hrep⟩
  | unlink_data data =>
    cases h
    exact hr.crtx_ll_unlink_data data
  | unlink_data2 data =>
    cases h
    exact hr.crtx_ll_unlink_data2 data
  | insert item before => cases h
  | insert_new data before => cases h

/-! ## What the links spell out -/

def dllNext (h : Heap (Node δ)) (a : Nat) : Option Nat := (h.cell a).bind Node.next

def dllPrev (h : Heap (Node δ)) (a : Nat) : Option Nat := (h.cell a).bind Node.prev

/-- Following `next` from the head yields the items, and `prev` is the inverse of it. What was removed has no links. -/
structure DllSpells (s : Lst (Node δ)) (q : Seq δ) : Prop where
  next : Chain (dllNext s.heap) s.head q.items
  prev : ∀ b ∈ q.items, ∀ a, dllPrev s.heap b = some a ↔ a ∈ q.items ∧ dllNext s.heap a = some b
  first : ∀ a ∈ s.head, dllPrev s.heap a = none
  data : ∀ a, LList.dataAt s.heap a = q.data a
  removed : ∀ a ∈ q.removed, a ∉ q.items ∧ ∃ d, s.heap.cell a = some ⟨none, none, d⟩
  returned : s.returned = q.returned

/-- Following `next` from the head yields the items. What was removed has no link. -/
structure LlSpells (s : Lst (LlNode δ)) (q : Seq δ) : Prop where
  next : Chain (nextOf s.heap) s.head q.items
  data : ∀ a, SListNodes.dataAt s.heap a = q.data a
  removed : ∀ a ∈ q.removed, a ∉ q.items ∧ ∃ d, s.heap.cell a = some ⟨none, d⟩
  returned : s.returned = q.returned

section

omit [DecidableEq δ]

theorem links_at {h : Heap (Node δ)} {x y : List Nat} {a : Nat} (hl : Linked h (x ++ a :: y)) :
    dllPrev h a = x.getLast? ∧ dllNext h a = y.head? := by
  obtain ⟨d, hd⟩ := hl x a y rfl
  rw [dllPrev, dllNext, hd]
  exact ⟨rfl, rfl⟩

theorem chain_of_linked {h : Heap (Node δ)} (y : List Nat) :
    ∀ x, Linked h (x ++ y) → Chain (dllNext h) y.head? y := by
  induction y with
  | nil => exact fun _ _ => rfl
  | cons a y ih =>
    intro x hl
    refine ⟨rfl, ?_⟩
    rw [(links_at hl).2]
    exact ih (x ++ [a]) (by rwa [← List.append_cons])

theorem prev_iff {h : Heap (Node δ)} {head : Option Nat} {l : List Nat} (hl : IsDll h head l) {b : Nat} (hb : b ∈ l)
    (a : Nat) : dllPrev h b = some a ↔ a ∈ l ∧ dllNext h a = some b := by
  constructor
  · intro hprev
    obtain ⟨x, y, rfl⟩ := List.append_of_mem hb
    rw [(links_at hl.linked).1] at hprev
    obtain ⟨x, rfl⟩ := List.getLast?_eq_some_iff.mp hprev
    have hlinked := hl.linked
    rw [← List.append_cons] at hlinked
    exact ⟨by simp, (links_at hlinked).2⟩
  · rintro ⟨ha, hnext⟩
    obtain ⟨x, y, rfl⟩ := List.append_of_mem ha
    rw [(links_at hl.linked).2] at hnext
    obtain ⟨y, rfl⟩ := List.head?_eq_some_iff.mp hnext
    have hlinked := hl.linked
    rw [List.append_cons] at hlinked
    rw [(links_at hlinked).1, List.getLast?_append, List.getLast?_singleton, Option.some_or]

theorem Rep.dllSpells {s : Lst (Node δ)} {q : Seq δ} (hr : Rep dll s q) : DllSpells s q where
  next := by
    rw [hr.list.head_eq]
    exact chain_of_linked q.items [] hr.list.linked
  prev b hb a := prev_iff hr.list hb a
  first a ha := by
    rw [Option.mem_def, hr.list.head_eq] at ha
    obtain ⟨y, hy⟩ := List.head?_eq_some_iff.mp ha
    have hlinked := hr.list.linked
    rw [hy] at hlinked
    exact (links_at (x := []) hlinked).1
  data := hr.data
  removed a ha := by
    obtain ⟨hnot, ⟨prev, next, d⟩, hn, hprev, hnext⟩ := hr.removed a ha
    cases hprev
    cases hnext
    exact ⟨hnot, d, hn⟩
  returned := hr.returned

theorem Rep.llSpells {s : Lst (LlNode δ)} {q : Seq δ} (hr : Rep ll s q) : LlSpells s q where
  next := hr.list.chain
  data := hr.data
  removed a ha := by
    obtain ⟨hnot, ⟨next, d⟩, hn, hnext⟩ := hr.removed a ha
    cases hnext
    exact ⟨hnot, d, hn⟩
  returned := hr.returned

end

/-! ## Any sequence of calls -/

/-- Whatever is called, both kinds of lists return what a sequence returns, and spell out its items. -/
theorem llist_refines (ops : List (Op δ)) (q : Seq δ) :
    (run (Seq.step true) ops Seq.empty = some q → ∃ s, run dllStep ops Lst.empty = some s ∧ DllSpells s q) ∧
      (run (Seq.step false) ops Seq.empty = some q → ∃ s, run llStep ops Lst.empty = some s ∧ LlSpells s q) := by
  constructor
  · intro h
    obtain ⟨s, hrun, hr⟩ := run_follows (fun _ _ _ _ => dllStep_rep) ops _ _ q Rep.empty h
    exact ⟨s, hrun, hr.dllSpells⟩
  · intro h
    obtain ⟨s, hrun, hr⟩ := run_follows (fun _ _ _ _ => llStep_rep) ops _ _ q Rep.empty h
    exact ⟨s, hrun, hr.llSpells⟩

/-- Three nodes, of which the first is removed by its data and inserted before the last. -/
theorem llist_refines_three :
    ∃ s q, run dllStep [.append_new 5, .append_new 6, .unlink_data 5, .append_new 7, .insert 0 2] Lst.empty = some s ∧
      DllSpells s q ∧ q.items = [1, 0, 2] := by
  have h : run (Seq.step true) [.append_new 5, .append_new 6, .unlink_data 5, .append_new 7, .insert 0 2] Seq.empty =
    some _ := rfl
  obtain ⟨s, hrun, hs⟩ := (llist_refines _ _).1 h
  exact ⟨s, _, hrun, hs, by decide⟩

/-! ## Appending an item twice -/

section

omit [DecidableEq δ]

theorem mem_dropLast_iff {l : List Nat} (hnd : l.Nodup) {item : Nat} (hi : item ∈ l) :
    item ∈ l.dropLast ↔ l.getLast? ≠ some item := by
  rcases List.eq_nil_or_concat' l with rfl | ⟨x, a, rfl⟩
  · cases hi
  · rw [List.dropLast_concat, List.getLast?_append, List.getLast?_singleton, Option.some_or]
    have hax : a ∉ x := fun h => (List.nodup_append.mp hnd).2.2 a h a (by simp) rfl
    rcases List.mem_append.mp hi with hx | ha
    · refine iff_of_true hx ?_
      rintro ⟨⟩
      exact hax hx
    · rw [List.mem_singleton.mp ha]
      exact iff_of_false hax (not_not.mpr rfl)

/-- To append a member is refused, and changes nothing, if and only if it is not the last one. -/
theorem double_append_rejected_iff {l : List Nat} {item fuel : Nat} (hi : item ∈ l) (hfuel : l.length < fuel) :
    (∀ (h : Heap (Node δ)) (head : Option Nat), IsDll h head l →
      (crtx_dll_append fuel h head item = some (h, head, -EALREADY) ↔ l.getLast? ≠ some item)) ∧
    ∀ (h : Heap (LlNode δ)) (head : Option Nat), IsLl h head l →
      (crtx_ll_append fuel h head item = some (h, head, -EALREADY) ↔ l.getLast? ≠ some item) := by
  have hcode : (0 : Int) ≠ -EALREADY := by decide
  constructor
  · intro h head hl
    rw [← mem_dropLast_iff hl.nodup hi]
    by_cases hmem : item ∈ l.dropLast
    · exact iff_of_true (crtx_dll_append_member hl hmem hfuel) hmem
    · refine iff_of_false (fun heq => ?_) hmem
      obtain ⟨x, rfl⟩ := List.getLast?_eq_some_iff.mp (not_not.mp (mt (mem_dropLast_iff hl.nodup hi).mpr hmem))
      obtain ⟨d, hrun⟩ := crtx_dll_append_last hl hfuel
      rw [hrun, Option.some.injEq, Prod.mk.injEq, Prod.mk.injEq] at heq
      exact hcode heq.2.2
  · intro h head hl
    rw [← mem_dropLast_iff hl.chain.nodup hi]
    obtain ⟨h', hrun, hr⟩ := crtx_ll_append_member hl hi hfuel
    rw [hrun, hr.eq_self, Option.some.injEq, Prod.mk.injEq, Prod.mk.injEq]
    by_cases hmem : item ∈ l.dropLast
    · exact iff_of_true ⟨rfl, rfl, if_pos hmem⟩ hmem
    · rw [if_neg hmem]
      exact iff_of_false (fun heq => hcode heq.2.2) hmem

/-- The nodes 0 and 1, with 5 and 6. -/
def twoDll : Heap (Node Nat) := ⟨2, fun a => [⟨none, some 1, 5⟩, ⟨some 0, none, 6⟩][a]?⟩

def twoLl : Heap (LlNode Nat) := ⟨2, fun a => [⟨some 1, 5⟩, ⟨none, 6⟩][a]?⟩

theorem twoDll_isDll : IsDll twoDll (some 0) [0, 1] := by
  refine ⟨rfl, by decide, ?_⟩
  intro x a y heq
  rcases x with _ | ⟨b, _ | ⟨c, x⟩⟩
  · obtain ⟨rfl, rfl⟩ : 0 = a ∧ [1] = y := by simpa using heq
    exact ⟨5, rfl⟩
  · obtain ⟨rfl, rfl, rfl⟩ : 0 = b ∧ 1 = a ∧ y = [] := by simpa using heq
    exact ⟨6, rfl⟩
  · simp at heq

theorem twoLl_isLl : IsLl twoLl (some 0) [0, 1] := ⟨⟨rfl, rfl, rfl⟩, by simp [twoLl]⟩

theorem double_append_rejected_first :
    crtx_dll_append 3 twoDll (some 0) 0 = some (twoDll, some 0, -EALREADY) ∧
      crtx_ll_append 3 twoLl (some 0) 0 = some (twoLl, some 0, -EALREADY) :=
  ⟨((double_append_rejected_iff (by decide) (by decide)).1 twoDll (some 0) twoDll_isDll).mpr (by decide),
    ((double_append_rejected_iff (by decide) (by decide)).2 twoLl (some 0) twoLl_isLl).mpr (by decide)⟩

/-- The last node of both lists is appended again. In the doubly linked one, its `prev` leads to itself then. -/
theorem last_append_not_rejected :
    (IsDll twoDll (some 0) [0, 1] ∧
      ∃ h', crtx_dll_append 3 twoDll (some 0) 1 = some (h', some 0, 0) ∧ dllPrev h' 1 = some 1) ∧
      IsLl twoLl (some 0) [0, 1] ∧ ∃ h', crtx_ll_append 3 twoLl (some 0) 1 = some (h', some 0, 0) :=
  ⟨⟨twoDll_isDll, _, rfl, rfl⟩, twoLl_isLl, _, rfl⟩

end

end Libcortex.ListOps
