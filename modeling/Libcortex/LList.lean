import Libcortex.Lib.Heap
import Libcortex.Types

/-!
# The doubly linked lists of `llist.c`

`crtx_dll` is `llist.c` compiled with `CRTX_DLL`. The functions work on a heap of nodes, and
`IsDll` says which list the links spell out.
-/

open Libcortex.Lib

namespace Libcortex.LList

variable {δ : Type}

/-! ## The code -/

def setNext (h : Heap (Node δ)) (a : Nat) (v : Option Nat) : Option (Heap (Node δ)) := do
  let n ← h.load a
  h.store a { n with next := v }

def setPrev (h : Heap (Node δ)) (a : Nat) (v : Option Nat) : Option (Heap (Node δ)) := do
  let n ← h.load a
  h.store a { n with prev := v }

/-- The loop of `append`. It ends on `it`, or with `none` if it met `item` on the way. -/
def appendLoop (h : Heap (Node δ)) (item : Nat) : Nat → Option Nat → Option (Option (Option Nat))
  | 0, _ => none
  | _ + 1, none => some (some none)
  | fuel + 1, some it => do
    let n ← h.load it
    match n.next with
    | none => some (some (some it))
    | some next => if it = item then some none else appendLoop h item fuel (some next)

def crtx_dll_append (fuel : Nat) (h : Heap (Node δ)) (head : Option Nat) (item : Nat) :
    Option (Heap (Node δ) × Option Nat × Int) := do
  match ← appendLoop h item fuel head with
  | none => return (h, head, -EALREADY)
  | some none =>
    let h ← setPrev h item none
    let h ← setNext h item none
    return (h, some item, 0)
  | some (some it) =>
    let h ← setNext h it (some item)
    let h ← setPrev h item (some it)
    let h ← setNext h item none
    return (h, head, 0)

def crtx_dll_unlink (h : Heap (Node δ)) (head : Option Nat) (item : Nat) :
    Option (Heap (Node δ) × Option Nat × Int) := do
  let n ← h.load item
  let (h, head) ←
    if head = some item then do
      let h ← match n.next with
        | some b => setPrev h b n.prev
        | none => pure h
      pure (h, n.next)
    else do
      let h ← match n.prev with
        | some p => setNext h p n.next
        | none => pure h
      let n ← h.load item
      let h ← match n.next with
        | some b => setPrev h b n.prev
        | none => pure h
      pure (h, head)
  let h ← setPrev h item none
  let h ← setNext h item none
  return (h, head, 0)

/-- `malloc` leaves the links of the new node undefined, and `append` sets both. -/
def crtx_dll_append_new (fuel : Nat) (h : Heap (Node δ)) (head : Option Nat) (data : δ) :
    Option (Heap (Node δ) × Option Nat × Option Nat) := do
  let (h, it) := h.alloc ⟨none, none, data⟩
  let (h, head, r) ← crtx_dll_append fuel h head it
  if r ≠ 0 then
    let h ← h.free it
    return (h, head, none)
  return (h, head, some it)

/-- The loop of `unlink_data`. -/
def findData [DecidableEq δ] (h : Heap (Node δ)) (data : δ) : Nat → Option Nat → Option (Option Nat)
  | 0, _ => none
  | _ + 1, none => some none
  | fuel + 1, some i => do
    let n ← h.load i
    if n.data = data then some (some i) else findData h data fuel n.next

/-- The caller frees the node that it gets. -/
def crtx_dll_unlink_data [DecidableEq δ] (fuel : Nat) (h : Heap (Node δ)) (head : Option Nat) (data : δ) :
    Option (Heap (Node δ) × Option Nat × Option Nat) := do
  match ← findData h data fuel head with
  | none => return (h, head, none)
  | some i =>
    let (h, head, _) ← crtx_dll_unlink h head i
    return (h, head, some i)

def crtx_dll_unlink_data2 [DecidableEq δ] (fuel : Nat) (h : Heap (Node δ)) (head : Option Nat) (data : δ) :
    Option (Heap (Node δ) × Option Nat × Int) := do
  match ← findData h data fuel head with
  | none => return (h, head, -ENOENT)
  | some i => crtx_dll_unlink h head i

def crtx_dll_insert (h : Heap (Node δ)) (head : Option Nat) (item before : Nat) :
    Option (Heap (Node δ) × Option Nat × Int) := do
  let b ← h.load before
  match b.prev with
  | none =>
    let h ← setPrev h item none
    let h ← setNext h item (some before)
    let h ← setPrev h before (some item)
    return (h, some item, 0)
  | some p =>
    let h ← setNext h p (some item)
    let b ← h.load before
    let h ← setPrev h item b.prev
    let h ← setPrev h before (some item)
    let h ← setNext h item (some before)
    return (h, head, 0)

def crtx_dll_insert_new (h : Heap (Node δ)) (head : Option Nat) (data : δ) (before : Nat) :
    Option (Heap (Node δ) × Option Nat × Option Nat) := do
  let (h, it) := h.alloc ⟨none, none, data⟩
  let (h, head, r) ← crtx_dll_insert h head it before
  if r ≠ 0 then
    let h ← h.free it
    return (h, head, none)
  return (h, head, some it)

/-! ## What a store does -/

theorem setPrev_some {h : Heap (Node δ)} {a : Nat} {n : Node δ} (ha : h.cell a = some n) (v : Option Nat) :
    setPrev h a v = some (h.put a (some { n with prev := v })) := by
  simp [setPrev, Heap.load, ha, Heap.store_some ha]

/-- The event or graph that a node carries. -/
def dataAt (h : Heap (Node δ)) (a : Nat) : Option δ := (h.cell a).map Node.data

/-- `h'` differs from `h` only in the links of the nodes in `l`. -/
structure SameBut (l : List Nat) (h h' : Heap (Node δ)) : Prop where
  next : h'.next = h.next
  cell : ∀ a, a ∉ l → h'.cell a = h.cell a
  data : ∀ a, dataAt h' a = dataAt h a

theorem SameBut.fresh {l : List Nat} {h h' : Heap (Node δ)} (hs : SameBut l h h') (hf : h.Fresh) :
    h'.Fresh := by
  intro a ha
  rw [hs.next] at ha
  have := hs.data a
  simpa [dataAt, hf a ha] using this

/-! ## append -/

theorem appendLoop_spec {h : Heap (Node δ)} {l : List Nat} (hl : Linked h l) (item : Nat) :
    ∀ (rest xs : List Nat) (fuel : Nat), l = xs ++ rest → rest ≠ [] → rest.length ≤ fuel →
      appendLoop h item fuel rest.head? = some (if item ∈ rest.dropLast then none else some rest.getLast?) := by
  intro rest
  induction rest with
  | nil => intro _ _ _ hne; exact absurd rfl hne
  | cons a rest ih =>
    intro xs fuel heq _ hfuel
    obtain ⟨f, rfl⟩ : ∃ f, fuel = f + 1 := ⟨fuel - 1, by simp at hfuel; omega⟩
    obtain ⟨d, hd⟩ := hl xs a rest heq
    cases rest with
    | nil => simp [appendLoop, Heap.load, hd]
    | cons b rest =>
      have hrest := ih (xs ++ [a]) f (by simp [heq]) (by simp) (by simpa using hfuel)
      by_cases hne : a = item
      · subst hne
        simp [appendLoop, Heap.load, hd]
      · have hne' : item ≠ a := fun h => hne h.symm
        simpa [appendLoop, Heap.load, hd, hne, hne'] using hrest

theorem crtx_dll_append_spec {h : Heap (Node δ)} {head : Option Nat} {l : List Nat} (hl : IsDll h head l)
    {item : Nat} (hi : item ∉ l) {n : Node δ} (hn : h.cell item = some n) {fuel : Nat}
    (hfuel : l.length < fuel) :
    ∃ h', crtx_dll_append fuel h head item = some (h', (l ++ [item]).head?, 0) ∧
      IsDll h' (l ++ [item]).head? (l ++ [item]) ∧ SameBut (l ++ [item]) h h' := by
  have hnd : (l ++ [item]).Nodup := by
    rw [List.nodup_append]
    refine ⟨hl.nodup, by simp, ?_⟩
    intro a ha b hb
    rw [List.mem_singleton] at hb
    rintro rfl
    exact hi (hb ▸ ha)
  rcases List.eq_nil_or_concat l with rfl | ⟨xs, a, rfl⟩
  · -- The list was empty: `item` becomes the head.
    obtain ⟨f, rfl⟩ : ∃ f, fuel = f + 1 := ⟨fuel - 1, by omega⟩
    refine ⟨h.put item (some ⟨none, none, n.data⟩), ?_, ?_, ?_⟩
    · rw [crtx_dll_append, hl.head_eq]
      simp [appendLoop, setPrev_some hn, setNext, Heap.load, Heap.store]
    · refine ⟨rfl, hnd, ?_⟩
      intro us b vs heq
      rw [List.nil_append, List.singleton_eq_append_iff] at heq
      rcases heq with ⟨rfl, h2⟩ | ⟨_, h2⟩
      · obtain ⟨rfl, rfl⟩ : item = b ∧ vs = [] := by simpa using h2.symm
        exact ⟨n.data, by simp⟩
      · simp at h2
    · refine ⟨rfl, ?_, ?_⟩
      · intro b hb
        exact Function.update_of_ne (by simpa using hb) _ _
      · intro b
        by_cases hb : b = item
        · subst hb; simp [dataAt, hn]
        · simp [dataAt, hb]
  · simp only [List.concat_eq_append] at *
    obtain ⟨d, hd⟩ := hl.linked xs a [] rfl
    have hloop : appendLoop h item fuel head = some (some (some a)) := by
      have hnot : item ∉ xs := fun hx => hi (List.mem_append_left _ hx)
      rw [hl.head_eq, appendLoop_spec hl.linked item (xs ++ [a]) [] fuel rfl (by simp) (by omega)]
      simp [hnot]
    have hne : item ≠ a := by rintro rfl; exact hi (by simp)
    refine ⟨(h.put a (some ⟨xs.getLast?, some item, d⟩)).put item (some ⟨some a, none, n.data⟩), ?_, ?_, ?_⟩
    · rw [crtx_dll_append, hloop]
      simp [setNext, setPrev, Heap.load, Heap.store, hd, hn, hne, hl.head_eq]
    · refine ⟨rfl, hnd, hl.linked.snoc (d := n.data) hl.nodup ?_ ?_ ?_⟩
      · simp
      · intro us b heq
        obtain ⟨rfl, rfl⟩ : xs = us ∧ a = b := by simpa using heq
        simp [hne.symm, hd]
      · intro b hb hlast
        have hba : b ≠ a := by rintro rfl; simp at hlast
        have hbi : b ≠ item := by rintro rfl; exact hi hb
        simp [hba, hbi]
    · refine ⟨rfl, ?_, ?_⟩
      · intro b hb
        simp only [List.mem_append, List.mem_singleton, not_or] at hb
        simp [hb.1.2, hb.2]
      · intro b
        by_cases hbi : b = item
        · subst hbi; simp [dataAt, hn]
        · by_cases hba : b = a
          · subst hba; simp [dataAt, hbi, hd]
          · simp [dataAt, hba, hbi]

theorem crtx_dll_append_member {h : Heap (Node δ)} {head : Option Nat} {l : List Nat} (hl : IsDll h head l)
    {item : Nat} (hi : item ∈ l.dropLast) {fuel : Nat} (hfuel : l.length < fuel) :
    crtx_dll_append fuel h head item = some (h, head, -EALREADY) := by
  have hne : l ≠ [] := by rintro rfl; simp at hi
  have hloop := appendLoop_spec hl.linked item l [] fuel rfl hne (by omega)
  rw [if_pos hi, ← hl.head_eq] at hloop
  rw [crtx_dll_append, hloop]
  rfl

theorem crtx_dll_append_last {h : Heap (Node δ)} {head : Option Nat} {xs : List Nat} {item : Nat}
    (hl : IsDll h head (xs ++ [item])) {fuel : Nat} (hfuel : (xs ++ [item]).length < fuel) :
    ∃ d, crtx_dll_append fuel h head item = some (h.put item (some ⟨some item, none, d⟩), head, 0) := by
  obtain ⟨d, hd⟩ := hl.linked xs item [] rfl
  have hnot : item ∉ xs := by
    intro hx
    exact (List.nodup_append.mp hl.nodup).2.2 item hx item (by simp) rfl
  have hloop := appendLoop_spec hl.linked item (xs ++ [item]) [] fuel rfl (by simp) (by omega)
  rw [List.dropLast_concat, if_neg hnot, ← hl.head_eq, List.getLast?_append, List.getLast?_singleton,
    Option.some_or] at hloop
  refine ⟨d, ?_⟩
  rw [crtx_dll_append, hloop]
  simp [setNext, setPrev, Heap.load, Heap.store, hd]

theorem crtx_dll_append_new_eq {h h' : Heap (Node δ)} {head head' : Option Nat} {fuel : Nat} {data : δ}
    (hrun : crtx_dll_append fuel (h.alloc ⟨none, none, data⟩).1 head h.next = some (h', head', 0)) :
    crtx_dll_append_new fuel h head data = some (h', head', some h.next) := by
  have hit : (h.alloc (⟨none, none, data⟩ : Node δ)).2 = h.next := rfl
  simp only [crtx_dll_append_new, hit, hrun]
  rfl

/-- A new node with `data` is at the end of the list, everything else is as it was. -/
structure Appended (h h' : Heap (Node δ)) (l : List Nat) (data : δ) : Prop where
  isDll : IsDll h' (l ++ [h.next]).head? (l ++ [h.next])
  next : h'.next = h.next + 1
  fresh : h'.Fresh
  new : dataAt h' h.next = some data
  old : ∀ a ≠ h.next, dataAt h' a = dataAt h a
  cell : ∀ a ∉ l ++ [h.next], h'.cell a = h.cell a

theorem crtx_dll_append_new_spec {h : Heap (Node δ)} (hf : h.Fresh) {head : Option Nat} {l : List Nat}
    (hl : IsDll h head l) {fuel : Nat} (hfuel : l.length < fuel) (data : δ) :
    ∃ h', crtx_dll_append_new fuel h head data = some (h', (l ++ [h.next]).head?, some h.next) ∧
      Appended h h' l data := by
  let h1 := (h.alloc ⟨none, none, data⟩).1
  have hold : ∀ a ≠ h.next, h1.cell a = h.cell a := fun a ha => Function.update_of_ne ha _ _
  have hnew : h.next ∉ l := by
    intro hm
    obtain ⟨n, hn⟩ := hl.linked.cell hm
    exact Nat.lt_irrefl _ (Heap.lt_next hf hn)
  obtain ⟨h', hrun, hdll, hsame⟩ := crtx_dll_append_spec
    (hl.frame fun a ha => hold a (ne_of_mem_of_not_mem ha hnew)) hnew (n := ⟨none, none, data⟩)
    (by simp [Heap.alloc, h1]) hfuel
  refine ⟨h', ?_, hdll, hsame.next, hsame.fresh (Heap.fresh_alloc hf _), ?_, ?_, ?_⟩
  · exact crtx_dll_append_new_eq hrun
  · rw [hsame.data]
    simp [dataAt, h1, Heap.alloc]
  · intro a ha
    rw [hsame.data, dataAt, dataAt, hold a ha]
  · intro a ha
    rw [hsame.cell a ha, hold a (fun he => ha (by simp [he]))]

/-! ## unlink -/

/-- The links after `unlink`, whatever the order in which they were written. -/
structure Unlinked (h h' : Heap (Node δ)) (xs : List Nat) (a : Nat) (ys : List Nat) (d : δ) : Prop where
  next : h'.next = h.next
  item : h'.cell a = some ⟨none, none, d⟩
  before : ∀ b, xs.getLast? = some b → h'.cell b = (h.cell b).map ({ · with next := ys.head? })
  after : ∀ b, ys.head? = some b → h'.cell b = (h.cell b).map ({ · with prev := xs.getLast? })
  other : ∀ b, b ≠ a → xs.getLast? ≠ some b → ys.head? ≠ some b → h'.cell b = h.cell b

theorem Unlinked.sameBut {h h' : Heap (Node δ)} {xs ys : List Nat} {a : Nat} {d : δ}
    (hu : Unlinked h h' xs a ys d) (ha : dataAt h a = some d) : SameBut (xs ++ a :: ys) h h' := by
  refine ⟨hu.next, ?_, ?_⟩
  · intro b hb
    simp only [List.mem_append, List.mem_cons, not_or] at hb
    exact hu.other b hb.2.1 (fun h => hb.1 (List.mem_of_getLast? h)) (fun h => hb.2.2 (List.mem_of_head? h))
  · intro b
    by_cases hba : b = a
    · subst hba
      rw [ha]
      simp [dataAt, hu.item]
    · by_cases hp : xs.getLast? = some b
      · rw [dataAt, hu.before b hp, Option.map_map]; rfl
      · by_cases hn : ys.head? = some b
        · rw [dataAt, hu.after b hn, Option.map_map]; rfl
        · rw [dataAt, hu.other b hba hp hn]; rfl

theorem Unlinked.isDll {h h' : Heap (Node δ)} {xs ys : List Nat} {a : Nat} {d : δ}
    (hu : Unlinked h h' xs a ys d) (hl : Linked h (xs ++ a :: ys)) (hnd : (xs ++ a :: ys).Nodup) :
    IsDll h' (xs ++ ys).head? (xs ++ ys) := by
  refine ⟨rfl, hnd.sublist (by simp), hl.remove hnd hu.before hu.after ?_⟩
  intro b hb
  refine hu.other b ?_
  rintro rfl
  rw [List.nodup_middle] at hnd
  exact (List.nodup_cons.mp hnd).1 hb

theorem crtx_dll_unlink_links {h : Heap (Node δ)} {xs ys : List Nat} {a : Nat} {d : δ}
    (hl : Linked h (xs ++ a :: ys)) (hnd : (xs ++ a :: ys).Nodup)
    (ha : h.cell a = some ⟨xs.getLast?, ys.head?, d⟩) :
    ∃ h', crtx_dll_unlink h (xs ++ a :: ys).head? a = some (h', (xs ++ ys).head?, 0) ∧
      Unlinked h h' xs a ys d := by
  rcases List.eq_nil_or_concat xs with rfl | ⟨us, p, rfl⟩
  · cases ys with
    | nil =>
      refine ⟨h.put a (some ⟨none, none, d⟩), ?_, rfl, by simp, by simp, by simp, ?_⟩
      · simp [crtx_dll_unlink, Heap.load, ha, setPrev, setNext, Heap.store]
      · intro b hb _ _
        simp [hb]
    | cons b ys =>
      obtain ⟨e, hb⟩ := hl [a] b ys rfl
      have hab : a ≠ b := by rintro rfl; simp at hnd
      refine ⟨(h.put b (some ⟨none, ys.head?, e⟩)).put a (some ⟨none, none, d⟩), ?_, rfl, by simp, by simp,
        ?_, ?_⟩
      · simp [crtx_dll_unlink, Heap.load, ha, setPrev, setNext, Heap.store, hb, hab]
      · intro c hc
        obtain rfl : b = c := by simpa using hc
        simp [hab.symm, hb]
      · intro c hc _ hcb
        have : c ≠ b := by rintro rfl; simp at hcb
        simp [hc, this]
  · simp only [List.concat_eq_append, List.append_assoc, List.singleton_append] at *
    obtain ⟨e, hp⟩ := hl us p (a :: ys) rfl
    have hpa : p ≠ a := by
      rintro rfl
      have := (List.nodup_append.mp hnd).2.1
      simp at this
    -- `item` is not the head, so the second branch of the code runs.
    have hhead : us.head?.getD p ≠ a := by
      cases us with
      | nil => exact hpa
      | cons u us =>
        rintro rfl
        simp at hnd
    cases ys with
    | nil =>
      refine ⟨(h.put p (some ⟨us.getLast?, none, e⟩)).put a (some ⟨none, none, d⟩), ?_, rfl, by simp, ?_,
        by simp, ?_⟩
      · simp [crtx_dll_unlink, Heap.load, ha, setPrev, setNext, Heap.store, hp, hpa.symm, hhead]
      · intro c hc
        obtain rfl : p = c := by simpa using hc
        simp [hpa, hp]
      · intro c hc hcp _
        have : c ≠ p := by rintro rfl; simp at hcp
        simp [hc, this]
    | cons b ys =>
      obtain ⟨f, hb⟩ := hl (us ++ [p, a]) b ys (by simp)
      have hnd' := (List.nodup_append.mp hnd).2.1
      have hab : a ≠ b := by rintro rfl; simp at hnd'
      have hpb : p ≠ b := by rintro rfl; simp at hnd'
      refine ⟨((h.put p (some ⟨us.getLast?, some b, e⟩)).put b (some ⟨some p, ys.head?, f⟩)).put a
        (some ⟨none, none, d⟩), ?_, rfl, by simp, ?_, ?_, ?_⟩
      · simp [crtx_dll_unlink, Heap.load, ha, setPrev, setNext, Heap.store, hp, hb, hpa.symm, hab,
          hpb.symm, hhead]
      · intro c hc
        obtain rfl : p = c := by simpa using hc
        simp [hpa, hpb, hp]
      · intro c hc
        obtain rfl : b = c := by simpa using hc
        simp [hab.symm, hb]
      · intro c hc hcp hcb
        have h1 : c ≠ p := by rintro rfl; simp at hcp
        have h2 : c ≠ b := by rintro rfl; simp at hcb
        simp [hc, h1, h2]

theorem crtx_dll_unlink_spec {h : Heap (Node δ)} {head : Option Nat} {l : List Nat} (hl : IsDll h head l)
    {item : Nat} (hi : item ∈ l) :
    ∃ h', crtx_dll_unlink h head item = some (h', (l.erase item).head?, 0) ∧
      IsDll h' (l.erase item).head? (l.erase item) ∧ SameBut l h h' ∧
      (h'.cell item).map (fun n => (n.prev, n.next)) = some (none, none) := by
  obtain ⟨xs, ys, rfl⟩ := List.append_of_mem hi
  have hnx : item ∉ xs := by
    intro hx
    exact (List.nodup_append.mp hl.nodup).2.2 item hx item (by simp) rfl
  have herase : (xs ++ item :: ys).erase item = xs ++ ys := by
    rw [List.erase_append_right _ hnx, List.erase_cons_head]
  obtain ⟨d, hd⟩ := hl.linked xs item ys rfl
  obtain ⟨h', hrun, hu⟩ := crtx_dll_unlink_links hl.linked hl.nodup hd
  rw [herase, hl.head_eq]
  exact ⟨h', hrun, hu.isDll hl.linked hl.nodup, hu.sameBut (by simp [dataAt, hd]), by simp [hu.item]⟩

/-! ## insert -/

/-- The links after `insert`. -/
structure Inserted (h h' : Heap (Node δ)) (xs : List Nat) (item before : Nat) (d : δ) : Prop where
  next : h'.next = h.next
  placed : h'.cell item = some ⟨xs.getLast?, some before, d⟩
  prev : ∀ us b, xs = us ++ [b] → h'.cell b = (h.cell b).map ({ · with next := some item })
  behind : h'.cell before = (h.cell before).map ({ · with prev := some item })
  other : ∀ b, b ≠ item → b ≠ before → xs.getLast? ≠ some b → h'.cell b = h.cell b

theorem crtx_dll_insert_links {h : Heap (Node δ)} {xs ys : List Nat} {item before : Nat} {n : Node δ}
    (hl : Linked h (xs ++ before :: ys)) (hnd : (xs ++ before :: ys).Nodup) (hi : item ∉ xs ++ before :: ys)
    (hn : h.cell item = some n) :
    ∃ h', crtx_dll_insert h (xs ++ before :: ys).head? item before =
        some (h', (xs ++ item :: before :: ys).head?, 0) ∧ Inserted h h' xs item before n.data := by
  obtain ⟨e, hb⟩ := hl xs before ys rfl
  have hib : item ≠ before := by rintro rfl; simp at hi
  rcases List.eq_nil_or_concat xs with rfl | ⟨us, p, rfl⟩
  · -- `before` was the head.
    refine ⟨(h.put item (some ⟨none, some before, n.data⟩)).put before (some ⟨some item, ys.head?, e⟩), ?_, rfl, ?_,
      by simp, ?_, ?_⟩
    · rw [List.getLast?_nil] at hb
      simp [crtx_dll_insert, Heap.load, hb, setPrev, setNext, Heap.store, hn, hib.symm]
    · simp [hib]
    · simp [hb]
    · intro b hbi hbb _
      simp [hbi, hbb]
  · simp only [List.concat_eq_append, List.append_assoc, List.singleton_append] at *
    obtain ⟨f, hp⟩ := hl us p (before :: ys) rfl
    have hip : item ≠ p := by rintro rfl; simp at hi
    have hpb : p ≠ before := by
      rintro rfl
      have := (List.nodup_append.mp hnd).2.1
      simp at this
    rw [List.getLast?_append, List.getLast?_singleton, Option.some_or] at hb
    refine ⟨((h.put p (some ⟨us.getLast?, some item, f⟩)).put before (some ⟨some item, ys.head?, e⟩)).put item
      (some ⟨some p, some before, n.data⟩), ?_, rfl, ?_, ?_, ?_, ?_⟩
    · simp [crtx_dll_insert, Heap.load, hb, hp, setPrev, setNext, Heap.store, hn, hip, hib, hib.symm, hpb.symm]
      rw [Heap.put_comm _ hib, Heap.put_put]
    · simp
    · intro vs b heq
      obtain ⟨rfl, rfl⟩ : us = vs ∧ p = b := by simpa using heq
      simp [hpb, hip.symm, hp]
    · simp [hib.symm, hb]
    · intro b hbi hbb hlast
      have hbp : b ≠ p := by rintro rfl; simp at hlast
      simp [hbi, hbb, hbp]

theorem Inserted.isDll {h h' : Heap (Node δ)} {xs ys : List Nat} {item before : Nat} {d : δ}
    (hi : Inserted h h' xs item before d) (hl : Linked h (xs ++ before :: ys)) (hnd : (xs ++ before :: ys).Nodup)
    (hnew : item ∉ xs ++ before :: ys) :
    IsDll h' (xs ++ item :: before :: ys).head? (xs ++ item :: before :: ys) := by
  have hdisj := (List.nodup_append.mp hnd).2.2
  have hne : ∀ b ∈ xs ++ before :: ys, b ≠ item := fun b hb => ne_of_mem_of_not_mem hb hnew
  refine ⟨rfl, ?_, hl.insert hi.placed hi.prev hi.behind ?_ ?_⟩
  · rw [List.nodup_middle, List.nodup_cons]
    exact ⟨hnew, hnd⟩
  · rintro us b vs rfl hvs
    refine hi.other b (hne b (by simp)) (hdisj b (by simp) before (by simp)) fun hlast => ?_
    -- `b` is not the last node before `before`, because the last one is in `vs`.
    obtain ⟨v, vs, rfl⟩ := List.exists_cons_of_ne_nil hvs
    rw [List.getLast?_append_of_ne_nil _ (by simp), List.getLast?_cons_cons] at hlast
    have hus := (List.nodup_append.mp (List.nodup_append.mp hnd).1).2.1
    exact (List.nodup_cons.mp hus).1 (List.mem_of_getLast? hlast)
  · intro b hb
    have hys := (List.nodup_cons.mp (List.nodup_append.mp hnd).2.1).1
    refine hi.other b (hne b (by simp [hb])) (ne_of_mem_of_not_mem hb hys) fun hlast => ?_
    exact hdisj b (List.mem_of_getLast? hlast) b (by simp [hb]) rfl

theorem Inserted.sameBut {h h' : Heap (Node δ)} {xs ys : List Nat} {item before : Nat} {d : δ}
    (hi : Inserted h h' xs item before d) (hd : dataAt h item = some d) :
    SameBut (xs ++ item :: before :: ys) h h' := by
  refine ⟨hi.next, ?_, ?_⟩
  · intro b hb
    simp only [List.mem_append, List.mem_cons, not_or] at hb
    exact hi.other b hb.2.1 hb.2.2.1 fun hlast => hb.1 (List.mem_of_getLast? hlast)
  · intro b
    by_cases hbi : b = item
    · rw [hbi, hd, dataAt, hi.placed]
      rfl
    · by_cases hbb : b = before
      · rw [hbb, dataAt, hi.behind, Option.map_map]
        rfl
      · by_cases hlast : xs.getLast? = some b
        · obtain ⟨us, rfl⟩ := List.getLast?_eq_some_iff.mp hlast
          rw [dataAt, hi.prev us b rfl, Option.map_map]
          rfl
        · rw [dataAt, hi.other b hbi hbb hlast]
          rfl

theorem crtx_dll_insert_spec {h : Heap (Node δ)} {head : Option Nat} {xs ys : List Nat} {item before : Nat}
    (hl : IsDll h head (xs ++ before :: ys)) (hi : item ∉ xs ++ before :: ys) {n : Node δ}
    (hn : h.cell item = some n) :
    ∃ h' head', crtx_dll_insert h head item before = some (h', head', 0) ∧
      IsDll h' head' (xs ++ item :: before :: ys) ∧ SameBut (xs ++ item :: before :: ys) h h' := by
  obtain ⟨h', hrun, hins⟩ := crtx_dll_insert_links hl.linked hl.nodup hi hn
  rw [hl.head_eq]
  exact ⟨h', _, hrun, hins.isDll hl.linked hl.nodup hi, hins.sameBut (by rw [dataAt, hn]; rfl)⟩

theorem crtx_dll_insert_new_eq {h h' : Heap (Node δ)} {head head' : Option Nat} {data : δ} {before : Nat}
    (hrun : crtx_dll_insert (h.alloc ⟨none, none, data⟩).1 head h.next before = some (h', head', 0)) :
    crtx_dll_insert_new h head data before = some (h', head', some h.next) := by
  have hit : (h.alloc (⟨none, none, data⟩ : Node δ)).2 = h.next := rfl
  simp only [crtx_dll_insert_new, hit, hrun]
  rfl

/-! ## Looking for data -/

section

variable [DecidableEq δ]

theorem findData_spec {h : Heap (Node δ)} {l : List Nat} (hl : Linked h l) (data : δ) :
    ∀ (rest xs : List Nat) (fuel : Nat), l = xs ++ rest → rest.length < fuel →
      findData h data fuel rest.head? = some (rest.find? fun a => dataAt h a = some data) := by
  intro rest
  induction rest with
  | nil =>
    intro _ fuel _ hfuel
    obtain ⟨f, rfl⟩ : ∃ f, fuel = f + 1 := ⟨fuel - 1, by omega⟩
    rfl
  | cons a rest ih =>
    intro xs fuel heq hfuel
    obtain ⟨f, rfl⟩ : ∃ f, fuel = f + 1 := ⟨fuel - 1, by omega⟩
    obtain ⟨d, hd⟩ := hl xs a rest heq
    have hrest := ih (xs ++ [a]) f (by simp [heq]) (by simpa using hfuel)
    by_cases he : d = data
    · simp [findData, Heap.load, hd, he, dataAt]
    · simp [findData, Heap.load, hd, he, dataAt, hrest]

end

end Libcortex.LList
