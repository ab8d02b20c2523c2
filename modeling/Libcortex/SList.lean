import Libcortex.Types
import Libcortex.Lib.Sll

/-!
# Singly linked lists of the library

`llist.c` compiled for `struct crtx_ll`, whose nodes have no `prev`. Each function comes twice, on the
links as in the code and on lists, and the links are shown to do what the lists do.
-/

open Libcortex.Lib

namespace Libcortex.SList

variable {α : Type} [DecidableEq α]

/-! ## On lists -/

/-- The loop looks at every node but the last one. To append the last node again changes nothing. -/
def append (l : List α) (item : α) : List α × Int :=
  if item ∈ l then (l, if item ∈ l.dropLast then -EALREADY else 0) else (l ++ [item], 0)

def unlink (l : List α) (item : α) : List α × Int :=
  if item ∈ l then (l.erase item, 0) else (l, -ENOENT)

/-! ## On links -/

/-- A list by its first node. The links belong to the nodes, so those of all lists are in `next`. -/
structure Ll (α : Type) where
  head : Option α
  next : α → Option α

/-- How the loop of `crtx_ll_append` ends. -/
inductive AppendAt (α : Type) where
  | already
  | after (last : Option α)

def appendLoop (next : α → Option α) (item : α) : Nat → Option α → Option (AppendAt α)
  | 0, _ => none
  | _ + 1, none => some (.after none)
  | fuel + 1, some it =>
    if next it = none then some (.after (some it))
    else if it = item then some .already
    else appendLoop next item fuel (next it)

/-- `none`: the loop did not come to an end. -/
def crtx_ll_append (fuel : Nat) (s : Ll α) (item : α) : Option (Ll α × Int) := do
  match ← appendLoop s.next item fuel s.head with
  | .already => return (s, -EALREADY)
  | .after none => return ({ head := some item, next := Function.update s.next item none }, 0)
  | .after (some it) =>
    return ({ s with next := Function.update (Function.update s.next it (some item)) item none }, 0)

def unlinkLoop (next : α → Option α) (item : α) : Nat → Option α → Option (Option α)
  | 0, _ => none
  | _ + 1, none => some none
  | fuel + 1, some i => if next i = some item then some (some i) else unlinkLoop next item fuel (next i)

def crtx_ll_unlink (fuel : Nat) (s : Ll α) (item : α) : Option (Ll α × Int) :=
  if s.head = some item then some ({ head := s.next item, next := Function.update s.next item none }, 0)
  else do
    match ← unlinkLoop s.next item fuel s.head with
    | none => return (s, -ENOENT)
    | some prev =>
      return ({ s with next := Function.update (Function.update s.next prev (s.next item)) item none }, 0)

/-! ## Appending -/

theorem appendLoop_spec {next : α → Option α} (item : α) (l : List α) :
    ∀ (h : Option α) (fuel : Nat), Chain next h l → l.length < fuel →
      appendLoop next item fuel h = some (if item ∈ l.dropLast then .already else .after l.getLast?) := by
  induction l with
  | nil =>
    intro h fuel hc hfuel
    obtain ⟨f, rfl⟩ : ∃ f, fuel = f + 1 := ⟨fuel - 1, by simp at hfuel; omega⟩
    have hn : h = none := hc
    subst hn
    rfl
  | cons a l ih =>
    intro h fuel hc hfuel
    obtain ⟨f, rfl⟩ : ∃ f, fuel = f + 1 := ⟨fuel - 1, by omega⟩
    have hhead : h = some a := hc.1
    subst hhead
    have htail := hc.tail
    unfold appendLoop
    cases l with
    | nil =>
      have hn : next a = none := htail
      simp [hn]
    | cons b l =>
      have hn : next a = some b := htail.1
      have hrec := ih (next a) f htail (by simpa using hfuel)
      rw [hn] at hrec ⊢
      simp only [reduceCtorEq, if_false, hrec]
      by_cases hia : a = item
      · simp [hia]
      · have hia' : item ≠ a := fun h => hia h.symm
        simp [hia, hia']

/-- The nodes of no other list are touched. -/
def SameBut (next next' : α → Option α) (l : List α) : Prop := ∀ a ∉ l, next' a = next a

theorem crtx_ll_append_new {s : Ll α} {l : List α} {item : α} {fuel : Nat} (hc : Chain s.next s.head l)
    (hnew : item ∉ l) (hfuel : l.length < fuel) :
    ∃ s', crtx_ll_append fuel s item = some (s', 0) ∧ Chain s'.next s'.head (l ++ [item]) ∧
      SameBut s.next s'.next (item :: l) := by
  have hloop := appendLoop_spec item l s.head fuel hc hfuel
  have hnot : item ∉ l.dropLast := fun h => hnew (List.dropLast_subset l h)
  rw [if_neg hnot] at hloop
  rcases List.eq_nil_or_concat' l with rfl | ⟨l', a, rfl⟩
  · refine ⟨⟨some item, Function.update s.next item none⟩, by simp [crtx_ll_append, hloop], ?_, ?_⟩
    · exact ⟨rfl, Function.update_self ..⟩
    · intro b hb
      exact Function.update_of_ne (by simpa using hb) ..
  · have hnd := hc.nodup
    rw [List.nodup_append] at hnd
    have ha : a ∉ l' := fun h => hnd.2.2 a h a (by simp) rfl
    rw [List.getLast?_append, List.getLast?_singleton, Option.some_or] at hloop
    refine ⟨⟨s.head, Function.update (Function.update s.next a (some item)) item none⟩,
      by simp [crtx_ll_append, hloop], ?_, ?_⟩
    · have hseg : Seg (Function.update s.next a (some item)) s.head (l' ++ [a]) (some item) := hc.redirect ha _
      apply Seg.append_iff.mpr
      refine ⟨some item, hseg.frame ?_, rfl, Function.update_self ..⟩
      intro b hb
      exact Function.update_of_ne (ne_of_mem_of_not_mem hb hnew) ..
    · intro b hb
      simp only [List.mem_cons, List.mem_append, List.not_mem_nil, or_false, not_or] at hb
      dsimp only
      rw [Function.update_of_ne hb.1, Function.update_of_ne hb.2.2]

theorem crtx_ll_append_old {s : Ll α} {l : List α} {item : α} {fuel : Nat} (hc : Chain s.next s.head l)
    (hold : item ∈ l) (hfuel : l.length < fuel) :
    crtx_ll_append fuel s item = some (s, if item ∈ l.dropLast then -EALREADY else 0) := by
  have hloop := appendLoop_spec item l s.head fuel hc hfuel
  split
  · rename_i h
    rw [if_pos h] at hloop
    simp [crtx_ll_append, hloop]
  · rename_i h
    rw [if_neg h] at hloop
    -- It is the last node, which is made to lead to itself and then to nothing.
    obtain ⟨l', rfl⟩ : ∃ l', l = l' ++ [item] := by
      rcases List.eq_nil_or_concat' l with rfl | ⟨l', a, rfl⟩
      · simp at hold
      · refine ⟨l', ?_⟩
        rw [List.dropLast_concat] at h
        rw [List.mem_append, List.mem_singleton] at hold
        rcases hold with hold | rfl
        · exact absurd hold h
        · rfl
    rw [List.getLast?_append, List.getLast?_singleton, Option.some_or] at hloop
    have hnone : s.next item = none := Chain.next_eq (y := []) hc
    have hsame : Function.update (Function.update s.next item (some item)) item none = s.next := by
      rw [Function.update_idem, ← hnone, Function.update_eq_self]
    simp [crtx_ll_append, hloop, hsame]

/-! ## Unlinking -/

theorem unlinkLoop_absent {next : α → Option α} {item : α} (l : List α) :
    ∀ (h : Option α) (fuel : Nat), Chain next h l → item ∉ l.tail → l.length < fuel →
      unlinkLoop next item fuel h = some none := by
  induction l with
  | nil =>
    intro h fuel hc _ hfuel
    obtain ⟨f, rfl⟩ : ∃ f, fuel = f + 1 := ⟨fuel - 1, by simp at hfuel; omega⟩
    have hn : h = none := hc
    subst hn
    rfl
  | cons a l ih =>
    intro h fuel hc hnot hfuel
    obtain ⟨f, rfl⟩ : ∃ f, fuel = f + 1 := ⟨fuel - 1, by omega⟩
    have hhead : h = some a := hc.1
    subst hhead
    rw [List.tail_cons] at hnot
    have hne : next a ≠ some item := by
      rw [hc.tail.head_eq]
      intro h
      exact hnot (List.mem_of_mem_head? h)
    unfold unlinkLoop
    rw [if_neg hne]
    exact ih (next a) f hc.tail (fun h => hnot (List.mem_of_mem_tail h)) (by simpa using hfuel)

theorem unlinkLoop_found {next : α → Option α} {item prev : α} {y : List α} (x : List α) :
    ∀ (h : Option α) (fuel : Nat), Chain next h (x ++ prev :: item :: y) → (x ++ prev :: item :: y).length < fuel →
      unlinkLoop next item fuel h = some (some prev) := by
  induction x with
  | nil =>
    intro h fuel hc hfuel
    obtain ⟨f, rfl⟩ : ∃ f, fuel = f + 1 := ⟨fuel - 1, by simp at hfuel; omega⟩
    have hhead : h = some prev := hc.1
    subst hhead
    unfold unlinkLoop
    rw [if_pos hc.tail.1]
  | cons a x ih =>
    intro h fuel hc hfuel
    obtain ⟨f, rfl⟩ : ∃ f, fuel = f + 1 := ⟨fuel - 1, by simp at hfuel; omega⟩
    have hhead : h = some a := hc.1
    subst hhead
    -- The node behind `a` is one of `x` or `prev`, and comes before `item`.
    unfold unlinkLoop
    rw [if_neg hc.tail.head_ne]
    exact ih (next a) f hc.tail (by simpa using hfuel)

theorem crtx_ll_unlink_absent {s : Ll α} {l : List α} {item : α} {fuel : Nat} (hc : Chain s.next s.head l)
    (hnot : item ∉ l) (hfuel : l.length < fuel) : crtx_ll_unlink fuel s item = some (s, -ENOENT) := by
  have hhead : s.head ≠ some item := by
    rw [hc.head_eq]
    intro h
    exact hnot (List.mem_of_mem_head? h)
  have hloop := unlinkLoop_absent l s.head fuel hc (fun h => hnot (List.mem_of_mem_tail h)) hfuel
  unfold crtx_ll_unlink
  rw [if_neg hhead, hloop]
  rfl

theorem crtx_ll_unlink_present {s : Ll α} {l : List α} {item : α} {fuel : Nat} (hc : Chain s.next s.head l)
    (hmem : item ∈ l) (hfuel : l.length < fuel) :
    ∃ s', crtx_ll_unlink fuel s item = some (s', 0) ∧ Chain s'.next s'.head (l.erase item) ∧
      s'.next item = none ∧ SameBut s.next s'.next l := by
  obtain ⟨x, y, rfl⟩ := List.append_of_mem hmem
  have hnd := hc.nodup
  have hx : item ∉ x := by
    rw [List.nodup_append] at hnd
    exact fun h => hnd.2.2 item h item (by simp) rfl
  have hy : item ∉ y := by
    rw [List.nodup_append] at hnd
    exact (List.nodup_cons.mp hnd.2.1).1
  have herase : (x ++ item :: y).erase item = x ++ y := by
    rw [List.erase_append_right _ hx, List.erase_cons_head]
  rw [herase]
  rcases List.eq_nil_or_concat' x with rfl | ⟨x', prev, rfl⟩
  · have hhead : s.head = some item := hc.1
    refine ⟨⟨s.next item, Function.update s.next item none⟩, by simp [crtx_ll_unlink, hhead], ?_,
      Function.update_self .., ?_⟩
    · apply hc.tail.frame
      intro a ha
      exact Function.update_of_ne (ne_of_mem_of_not_mem ha hy) ..
    · intro a ha
      exact Function.update_of_ne (ne_of_mem_of_not_mem hmem ha).symm ..
  · have hsplit : x' ++ [prev] ++ item :: y = x' ++ prev :: item :: y := by simp
    have hhead : s.head ≠ some item := Chain.head_ne (hsplit ▸ hc)
    have hloop := unlinkLoop_found x' s.head fuel (hsplit ▸ hc) (hsplit ▸ hfuel)
    refine ⟨⟨s.head, Function.update (Function.update s.next prev (s.next item)) item none⟩, ?_, ?_,
      Function.update_self .., ?_⟩
    · unfold crtx_ll_unlink
      rw [if_neg hhead, hloop]
      rfl
    · rw [← List.append_cons]
      exact Chain.remove (hsplit ▸ hc)
    · intro a ha
      have hprev : prev ∈ x' ++ [prev] ++ item :: y := by simp
      dsimp only
      rw [Function.update_of_ne (ne_of_mem_of_not_mem hmem ha).symm,
        Function.update_of_ne (ne_of_mem_of_not_mem hprev ha).symm]

/-! ## The links do what the lists do -/

theorem crtx_ll_append_refines {s : Ll α} {l : List α} (item : α) {fuel : Nat} (hc : Chain s.next s.head l)
    (hfuel : l.length < fuel) :
    ∃ s', crtx_ll_append fuel s item = some (s', (append l item).2) ∧ Chain s'.next s'.head (append l item).1 := by
  unfold append
  split
  · rename_i h
    exact ⟨s, crtx_ll_append_old hc h hfuel, hc⟩
  · rename_i h
    obtain ⟨s', hrun, hc', -⟩ := crtx_ll_append_new hc h hfuel
    exact ⟨s', hrun, hc'⟩

theorem crtx_ll_unlink_refines {s : Ll α} {l : List α} (item : α) {fuel : Nat} (hc : Chain s.next s.head l)
    (hfuel : l.length < fuel) :
    ∃ s', crtx_ll_unlink fuel s item = some (s', (unlink l item).2) ∧ Chain s'.next s'.head (unlink l item).1 := by
  unfold unlink
  split
  · rename_i h
    obtain ⟨s', hrun, hc', -⟩ := crtx_ll_unlink_present hc h hfuel
    exact ⟨s', hrun, hc'⟩
  · rename_i h
    exact ⟨s, crtx_ll_unlink_absent hc h hfuel, hc⟩

end Libcortex.SList
