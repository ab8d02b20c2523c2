import Libcortex.Lib.Heap
import Libcortex.SList

/-!
# Singly linked lists on a heap

`llist.c` compiled without `CRTX_DLL`, with the data of the nodes and with `malloc`. What the functions do to the links is
what those of `SList` do.
-/

open Libcortex.Lib

namespace Libcortex.SListNodes

variable {δ : Type}

/-! ## The code -/

/-- `struct crtx_ll` -/
structure LlNode (δ : Type) where
  next : Option Nat
  data : δ
deriving DecidableEq, Repr

def setNext (h : Heap (LlNode δ)) (a : Nat) (v : Option Nat) : Option (Heap (LlNode δ)) := do
  let n ← h.load a
  h.store a { n with next := v }

def appendLoop (h : Heap (LlNode δ)) (item : Nat) : Nat → Option Nat → Option (SList.AppendAt Nat)
  | 0, _ => none
  | _ + 1, none => some (.after none)
  | fuel + 1, some it => do
    let n ← h.load it
    match n.next with
    | none => some (.after (some it))
    | some next => if it = item then some .already else appendLoop h item fuel (some next)

def crtx_ll_append (fuel : Nat) (h : Heap (LlNode δ)) (head : Option Nat) (item : Nat) :
    Option (Heap (LlNode δ) × Option Nat × Int) := do
  match ← appendLoop h item fuel head with
  | .already => return (h, head, -EALREADY)
  | .after none =>
    let h ← setNext h item none
    return (h, some item, 0)
  | .after (some it) =>
    let h ← setNext h it (some item)
    let h ← setNext h item none
    return (h, head, 0)

/-- The loop of `unlink_intern`, which looks for the node before `item`. -/
def findPrev (h : Heap (LlNode δ)) (item : Nat) : Nat → Option Nat → Option (Option Nat)
  | 0, _ => none
  | _ + 1, none => some none
  | fuel + 1, some i => do
    let n ← h.load i
    if n.next = some item then some (some i) else findPrev h item fuel n.next

def crtx_ll_unlink_intern (fuel : Nat) (h : Heap (LlNode δ)) (head : Option Nat) (item : Nat) (prev : Option Nat) :
    Option (Heap (LlNode δ) × Option Nat × Int) :=
  if head = some item then do
    let n ← h.load item
    let h ← setNext h item none
    return (h, n.next, 0)
  else do
    match ← (if prev = none then findPrev h item fuel head else some prev) with
    | none => return (h, head, -ENOENT)
    | some prev =>
      let n ← h.load item
      let h ← setNext h prev n.next
      let h ← setNext h item none
      return (h, head, 0)

def crtx_ll_unlink (fuel : Nat) (h : Heap (LlNode δ)) (head : Option Nat) (item : Nat) :
    Option (Heap (LlNode δ) × Option Nat × Int) :=
  crtx_ll_unlink_intern fuel h head item none

/-- The loop of `unlink_data2`, with the node before the one that is found. `unlink_data` does not use it. -/
def findData [DecidableEq δ] (h : Heap (LlNode δ)) (data : δ) :
    Nat → Option Nat → Option Nat → Option (Option (Nat × Option Nat))
  | 0, _, _ => none
  | _ + 1, _, none => some none
  | fuel + 1, prev, some i => do
    let n ← h.load i
    if n.data = data then some (some (i, prev)) else findData h data fuel (some i) n.next

def crtx_ll_unlink_data [DecidableEq δ] (fuel : Nat) (h : Heap (LlNode δ)) (head : Option Nat) (data : δ) :
    Option (Heap (LlNode δ) × Option Nat × Option Nat) := do
  match ← findData h data fuel none head with
  | none => return (h, head, none)
  | some (i, _) =>
    let (h, head, _) ← crtx_ll_unlink fuel h head i
    return (h, head, some i)

def crtx_ll_unlink_data2 [DecidableEq δ] (fuel : Nat) (h : Heap (LlNode δ)) (head : Option Nat) (data : δ) :
    Option (Heap (LlNode δ) × Option Nat × Int) := do
  match ← findData h data fuel none head with
  | none => return (h, head, -ENOENT)
  | some (i, prev) => crtx_ll_unlink_intern fuel h head i prev

def crtx_ll_append_new (fuel : Nat) (h : Heap (LlNode δ)) (head : Option Nat) (data : δ) :
    Option (Heap (LlNode δ) × Option Nat × Option Nat) := do
  let (h, it) := h.alloc ⟨none, data⟩
  let (h, head, r) ← crtx_ll_append fuel h head it
  if r ≠ 0 then
    let h ← h.free it
    return (h, head, none)
  return (h, head, some it)

/-! ## Links -/

def nextOf (h : Heap (LlNode δ)) (a : Nat) : Option Nat := (h.cell a).bind LlNode.next

def dataAt (h : Heap (LlNode δ)) (a : Nat) : Option δ := (h.cell a).map LlNode.data

/-- The nodes that follow `head` are `l`. -/
structure IsLl (h : Heap (LlNode δ)) (head : Option Nat) (l : List Nat) : Prop where
  chain : Chain (nextOf h) head l
  cell : ∀ a ∈ l, ∃ n, h.cell a = some n

/-- Only links have changed, and they are `next` now. -/
structure Relinked (h h' : Heap (LlNode δ)) (next : Nat → Option Nat) : Prop where
  heap : h'.next = h.next
  links : nextOf h' = next
  data : dataAt h' = dataAt h

theorem isLl_nil (h : Heap (LlNode δ)) : IsLl h none [] := ⟨rfl, fun _ ha => absurd ha List.not_mem_nil⟩

theorem Relinked.cell {h h' : Heap (LlNode δ)} {next : Nat → Option Nat} (hr : Relinked h h' next) {a : Nat}
    (ha : ∃ n, h.cell a = some n) : ∃ n, h'.cell a = some n := by
  obtain ⟨n, hn⟩ := ha
  have hd : dataAt h' a = some n.data := by rw [hr.data, dataAt, hn]; rfl
  obtain ⟨n', hn', -⟩ := Option.map_eq_some_iff.mp hd
  exact ⟨n', hn'⟩

theorem Relinked.trans {h h' h'' : Heap (LlNode δ)} {next next' : Nat → Option Nat} (hr : Relinked h h' next)
    (hr' : Relinked h' h'' next') : Relinked h h'' next' :=
  ⟨hr'.heap.trans hr.heap, hr'.links, hr'.data.trans hr.data⟩

theorem cell_eq {h h' : Heap (LlNode δ)} {a : Nat} (hnext : nextOf h' a = nextOf h a) (hdata : dataAt h' a = dataAt h a) :
    h'.cell a = h.cell a := by
  unfold nextOf at hnext
  unfold dataAt at hdata
  cases hc : h.cell a with
  | none =>
    rw [hc] at hdata
    exact Option.map_eq_none_iff.mp hdata
  | some n =>
    rw [hc] at hnext hdata
    obtain ⟨n', hn', hd⟩ := Option.map_eq_some_iff.mp hdata
    rw [hn'] at hnext ⊢
    obtain ⟨next, data⟩ := n
    obtain ⟨next', data'⟩ := n'
    cases hd
    cases (show next' = next from hnext)
    rfl

theorem Relinked.eq_self {h h' : Heap (LlNode δ)} (hr : Relinked h h' (nextOf h)) : h' = h := by
  have hcell : h'.cell = h.cell := funext fun a => cell_eq (congrFun hr.links a) (congrFun hr.data a)
  have hnext := hr.heap
  cases h
  cases h'
  cases hcell
  cases hnext
  rfl

theorem setNext_spec {h : Heap (LlNode δ)} {a : Nat} (ha : ∃ n, h.cell a = some n) (v : Option Nat) :
    ∃ h', setNext h a v = some h' ∧ Relinked h h' (Function.update (nextOf h) a v) := by
  obtain ⟨n, hn⟩ := ha
  refine ⟨h.put a (some { n with next := v }), ?_, rfl, ?_, ?_⟩
  · simp [setNext, Heap.load, hn, Heap.store_some hn]
  · funext b
    by_cases hb : b = a
    · simp [nextOf, hb]
    · simp [nextOf, hb]
  · funext b
    by_cases hb : b = a
    · simp [dataAt, hb, hn]
    · simp [dataAt, hb]

/-! ## Loops -/

theorem IsLl.first {h : Heap (LlNode δ)} {head : Option Nat} {a : Nat} {l : List Nat} (hl : IsLl h head (a :: l)) :
    head = some a ∧ ∃ n, h.cell a = some n ∧ nextOf h a = n.next ∧ IsLl h n.next l := by
  obtain ⟨n, hn⟩ := hl.cell a List.mem_cons_self
  have hnext : nextOf h a = n.next := by rw [nextOf, hn]; rfl
  exact ⟨hl.chain.1, n, hn, hnext, hnext ▸ hl.chain.tail, fun b hb => hl.cell b (List.mem_cons_of_mem _ hb)⟩

theorem appendLoop_links {h : Heap (LlNode δ)} (item : Nat) (l : List Nat) :
    ∀ (head : Option Nat) (fuel : Nat), IsLl h head l → l.length < fuel →
      appendLoop h item fuel head = SList.appendLoop (nextOf h) item fuel head := by
  induction l with
  | nil =>
    intro head fuel hl hfuel
    obtain ⟨f, rfl⟩ : ∃ f, fuel = f + 1 := ⟨fuel - 1, by simp at hfuel; omega⟩
    have hn : head = none := hl.chain
    rw [hn]
    rfl
  | cons a l ih =>
    intro head fuel hl hfuel
    obtain ⟨f, rfl⟩ : ∃ f, fuel = f + 1 := ⟨fuel - 1, by omega⟩
    obtain ⟨rfl, n, hn, hnext, hrest⟩ := hl.first
    have hloop := ih n.next f hrest (by simpa using hfuel)
    unfold appendLoop SList.appendLoop
    rw [hnext, Heap.load, hn, Option.bind_eq_bind, Option.bind_some]
    cases hnn : n.next with
    | none => rfl
    | some next =>
      rw [hnn] at hloop
      simp [hloop]

theorem findPrev_links {h : Heap (LlNode δ)} (item : Nat) (l : List Nat) :
    ∀ (head : Option Nat) (fuel : Nat), IsLl h head l → l.length < fuel →
      findPrev h item fuel head = SList.unlinkLoop (nextOf h) item fuel head := by
  induction l with
  | nil =>
    intro head fuel hl hfuel
    obtain ⟨f, rfl⟩ : ∃ f, fuel = f + 1 := ⟨fuel - 1, by simp at hfuel; omega⟩
    have hn : head = none := hl.chain
    rw [hn]
    rfl
  | cons a l ih =>
    intro head fuel hl hfuel
    obtain ⟨f, rfl⟩ : ∃ f, fuel = f + 1 := ⟨fuel - 1, by omega⟩
    obtain ⟨rfl, n, hn, hnext, hrest⟩ := hl.first
    have hloop := ih n.next f hrest (by simpa using hfuel)
    unfold findPrev SList.unlinkLoop
    rw [hnext, Heap.load, hn, Option.bind_eq_bind, Option.bind_some, hloop]

theorem findData_spec [DecidableEq δ] {h : Heap (LlNode δ)} (data : δ) (l : List Nat) :
    ∀ (prev head : Option Nat) (fuel : Nat), IsLl h head l → l.length < fuel →
      (l.find? fun a => dataAt h a = some data) = none ∧ findData h data fuel prev head = some none ∨
      ∃ x i y, l = x ++ i :: y ∧ (l.find? fun a => dataAt h a = some data) = some i ∧
        findData h data fuel prev head = some (some (i, x.getLast?.or prev)) := by
  induction l with
  | nil =>
    intro prev head fuel hl hfuel
    obtain ⟨f, rfl⟩ : ∃ f, fuel = f + 1 := ⟨fuel - 1, by simp at hfuel; omega⟩
    have hn : head = none := hl.chain
    rw [hn]
    exact .inl ⟨rfl, rfl⟩
  | cons a l ih =>
    intro prev head fuel hl hfuel
    obtain ⟨f, rfl⟩ : ∃ f, fuel = f + 1 := ⟨fuel - 1, by omega⟩
    obtain ⟨rfl, n, hn, -, hrest⟩ := hl.first
    have hdata : dataAt h a = some n.data := by rw [dataAt, hn]; rfl
    rw [findData, Heap.load, hn, Option.bind_eq_bind, Option.bind_some, List.find?_cons, hdata]
    by_cases hd : n.data = data
    · exact .inr ⟨[], a, l, rfl, by simp [hd], by simp [hd]⟩
    · have hno : decide (some n.data = some data) = false := by simp [hd]
      rw [if_neg hd, hno]
      rcases ih (some a) n.next f hrest (by simpa using hfuel) with ⟨hnone, hfind⟩ | ⟨x, i, y, rfl, hsome, hfind⟩
      · exact .inl ⟨hnone, hfind⟩
      · refine .inr ⟨a :: x, i, y, rfl, hsome, ?_⟩
        rw [hfind, List.getLast?_cons]
        cases x.getLast? <;> rfl

/-! ## The links do what those of `SList` do -/

/-- What a function of `SList` does to the links is what happens on the heap. -/
def Follows (h : Heap (LlNode δ)) (result : Option (Heap (LlNode δ) × Option Nat × Int)) (s : SList.Ll Nat) (r : Int) :
    Prop :=
  ∃ h', result = some (h', s.head, r) ∧ Relinked h h' s.next

theorem crtx_ll_append_follows {h : Heap (LlNode δ)} {head : Option Nat} {l : List Nat} {item fuel : Nat}
    (hl : IsLl h head l) (hitem : ∃ n, h.cell item = some n) (hfuel : l.length < fuel) {s : SList.Ll Nat} {r : Int}
    (hrun : SList.crtx_ll_append fuel ⟨head, nextOf h⟩ item = some (s, r)) :
    Follows h (crtx_ll_append fuel h head item) s r := by
  have hloop := SList.appendLoop_spec item l head fuel hl.chain hfuel
  unfold Follows crtx_ll_append
  rw [appendLoop_links item l head fuel hl hfuel]
  unfold SList.crtx_ll_append at hrun
  dsimp only at hrun
  rw [hloop, Option.bind_eq_bind, Option.bind_some] at hrun ⊢
  by_cases hmem : item ∈ l.dropLast
  · rw [if_pos hmem] at hrun ⊢
    cases hrun
    exact ⟨h, rfl, rfl, rfl, rfl⟩
  · rw [if_neg hmem] at hrun ⊢
    cases hlast : l.getLast? with
    | none =>
      rw [hlast] at hrun
      cases hrun
      obtain ⟨h', hset, hr⟩ := setNext_spec hitem none
      exact ⟨h', by simp [hset], hr⟩
    | some it =>
      rw [hlast] at hrun
      cases hrun
      obtain ⟨h₁, hset, hr⟩ := setNext_spec (hl.cell it (List.mem_of_getLast? hlast)) (some item)
      obtain ⟨h₂, hset', hr'⟩ := setNext_spec (hr.cell hitem) none
      rw [hr.links] at hr'
      exact ⟨h₂, by simp [hset, hset'], hr.trans hr'⟩

theorem findPrev_spec {h : Heap (LlNode δ)} {head : Option Nat} {x y : List Nat} {prev item fuel : Nat}
    (hl : IsLl h head (x ++ prev :: item :: y)) (hfuel : (x ++ prev :: item :: y).length < fuel) :
    findPrev h item fuel head = some (some prev) := by
  rw [findPrev_links item _ head fuel hl hfuel]
  exact SList.unlinkLoop_found x head fuel hl.chain hfuel

theorem crtx_ll_unlink_intern_eq {h : Heap (LlNode δ)} {head : Option Nat} {x y : List Nat} {item fuel : Nat}
    (hl : IsLl h head (x ++ item :: y)) (hfuel : (x ++ item :: y).length < fuel) :
    crtx_ll_unlink_intern fuel h head item x.getLast? = crtx_ll_unlink fuel h head item := by
  rcases List.eq_nil_or_concat' x with rfl | ⟨x, prev, rfl⟩
  · rfl
  · have hsplit : x ++ [prev] ++ item :: y = x ++ prev :: item :: y := by simp
    rw [hsplit] at hl hfuel
    unfold crtx_ll_unlink crtx_ll_unlink_intern
    rw [if_neg hl.chain.head_ne, if_neg hl.chain.head_ne, if_pos rfl, findPrev_spec hl hfuel]
    simp

theorem crtx_ll_unlink_follows {h : Heap (LlNode δ)} {head : Option Nat} {l : List Nat} {item fuel : Nat}
    (hl : IsLl h head l) (hitem : item ∈ l) (hfuel : l.length < fuel) {s : SList.Ll Nat} {r : Int}
    (hrun : SList.crtx_ll_unlink fuel ⟨head, nextOf h⟩ item = some (s, r)) :
    Follows h (crtx_ll_unlink fuel h head item) s r := by
  obtain ⟨n, hn⟩ := hl.cell item hitem
  have hnext : nextOf h item = n.next := by rw [nextOf, hn]; rfl
  unfold Follows crtx_ll_unlink crtx_ll_unlink_intern
  unfold SList.crtx_ll_unlink at hrun
  dsimp only at hrun
  rw [Heap.load, hn]
  by_cases hhead : head = some item
  · rw [if_pos hhead] at hrun ⊢
    cases hrun
    obtain ⟨h', hset, hr⟩ := setNext_spec ⟨n, hn⟩ none
    exact ⟨h', by simp [hset, hnext], hr⟩
  · obtain ⟨x, y, rfl⟩ := List.append_of_mem hitem
    rcases List.eq_nil_or_concat' x with rfl | ⟨x, prev, rfl⟩
    · exact absurd hl.chain.1 hhead
    · have hsplit : x ++ [prev] ++ item :: y = x ++ prev :: item :: y := by simp
      rw [hsplit] at hl hfuel
      rw [if_neg hhead, SList.unlinkLoop_found x head fuel hl.chain hfuel] at hrun
      cases hrun
      obtain ⟨h₁, hset, hr⟩ := setNext_spec (hl.cell prev (by simp)) n.next
      obtain ⟨h₂, hset', hr'⟩ := setNext_spec (hr.cell ⟨n, hn⟩) none
      rw [hr.links] at hr'
      rw [if_neg hhead, if_pos rfl, findPrev_spec hl hfuel]
      exact ⟨h₂, by simp [hset, hset'], hnext ▸ hr.trans hr'⟩

/-! ## What the functions do -/

theorem Relinked.edited {h h' : Heap (LlNode δ)} {next : Nat → Option Nat} {l : List Nat} (hr : Relinked h h' next)
    (hsame : SList.SameBut (nextOf h) next l) : Heap.Edited LlNode.data l h h' := by
  refine ⟨hr.heap, fun a ha => cell_eq ?_ (congrFun hr.data a), congrFun hr.data⟩
  rw [hr.links]
  exact hsame a ha

theorem Relinked.isLl {h h' : Heap (LlNode δ)} {s : SList.Ll Nat} {l : List Nat} (hr : Relinked h h' s.next)
    (hc : Chain s.next s.head l) (hcell : ∀ a ∈ l, ∃ n, h.cell a = some n) : IsLl h' s.head l :=
  ⟨hr.links ▸ hc, fun a ha => hr.cell (hcell a ha)⟩

theorem crtx_ll_append_spec {h : Heap (LlNode δ)} {head : Option Nat} {l : List Nat} (hl : IsLl h head l) {item : Nat}
    (hi : item ∉ l) (hn : ∃ n, h.cell item = some n) {fuel : Nat} (hfuel : l.length < fuel) :
    ∃ h' head', crtx_ll_append fuel h head item = some (h', head', 0) ∧ IsLl h' head' (l ++ [item]) ∧
      Heap.Edited LlNode.data (item :: l) h h' := by
  obtain ⟨s, hrun, hc, hsame⟩ := SList.crtx_ll_append_new (s := ⟨head, nextOf h⟩) hl.chain hi hfuel
  obtain ⟨h', hrun', hr⟩ := crtx_ll_append_follows hl hn hfuel hrun
  refine ⟨h', s.head, hrun', hr.isLl hc ?_, hr.edited hsame⟩
  intro a ha
  rcases List.mem_append.mp ha with ha | ha
  · exact hl.cell a ha
  · rw [List.mem_singleton.mp ha]
    exact hn

theorem crtx_ll_append_member {h : Heap (LlNode δ)} {head : Option Nat} {l : List Nat} (hl : IsLl h head l) {item : Nat}
    (hi : item ∈ l) {fuel : Nat} (hfuel : l.length < fuel) :
    ∃ h', crtx_ll_append fuel h head item = some (h', head, if item ∈ l.dropLast then -EALREADY else 0) ∧
      Relinked h h' (nextOf h) :=
  crtx_ll_append_follows hl (hl.cell item hi) hfuel (SList.crtx_ll_append_old (s := ⟨head, nextOf h⟩) hl.chain hi hfuel)

theorem crtx_ll_unlink_spec {h : Heap (LlNode δ)} {head : Option Nat} {l : List Nat} (hl : IsLl h head l) {item : Nat}
    (hi : item ∈ l) {fuel : Nat} (hfuel : l.length < fuel) :
    ∃ h' head', crtx_ll_unlink fuel h head item = some (h', head', 0) ∧ IsLl h' head' (l.erase item) ∧
      nextOf h' item = none ∧ Heap.Edited LlNode.data l h h' := by
  obtain ⟨s, hrun, hc, hnone, hsame⟩ := SList.crtx_ll_unlink_present (s := ⟨head, nextOf h⟩) hl.chain hi hfuel
  obtain ⟨h', hrun', hr⟩ := crtx_ll_unlink_follows hl hi hfuel hrun
  exact ⟨h', s.head, hrun', hr.isLl hc fun a ha => hl.cell a (List.mem_of_mem_erase ha), hr.links ▸ hnone,
    hr.edited hsame⟩

theorem crtx_ll_append_new_eq {h h' : Heap (LlNode δ)} {head head' : Option Nat} {fuel : Nat} {data : δ}
    (hrun : crtx_ll_append fuel (h.alloc ⟨none, data⟩).1 head h.next = some (h', head', 0)) :
    crtx_ll_append_new fuel h head data = some (h', head', some h.next) := by
  have hit : (h.alloc (⟨none, data⟩ : LlNode δ)).2 = h.next := rfl
  simp only [crtx_ll_append_new, hit, hrun]
  rfl

section

variable [DecidableEq δ] {h : Heap (LlNode δ)} {head : Option Nat} {l : List Nat} {data : δ} {fuel : Nat}

theorem unlink_first {i : Nat} (hl : IsLl h head l) (hfuel : l.length < fuel)
    (hi : (l.find? fun a => dataAt h a = some data) = some i) :
    ∃ prev, findData h data fuel none head = some (some (i, prev)) ∧
      crtx_ll_unlink_intern fuel h head i prev = crtx_ll_unlink fuel h head i := by
  rcases findData_spec data l none head fuel hl hfuel with ⟨hnone, -⟩ | ⟨x, j, y, rfl, hsome, hfind⟩
  · rw [hi] at hnone
    cases hnone
  · rw [hi] at hsome
    cases hsome
    rw [Option.or_none] at hfind
    exact ⟨x.getLast?, hfind, crtx_ll_unlink_intern_eq hl hfuel⟩

theorem findData_none (hl : IsLl h head l) (hfuel : l.length < fuel)
    (hi : (l.find? fun a => dataAt h a = some data) = none) : findData h data fuel none head = some none := by
  rcases findData_spec data l none head fuel hl hfuel with ⟨-, hfind⟩ | ⟨x, j, y, rfl, hsome, -⟩
  · exact hfind
  · rw [hi] at hsome
    cases hsome

end

end Libcortex.SListNodes
