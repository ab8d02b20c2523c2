import Mathlib.Data.List.Basic
import Mathlib.Logic.Function.Basic

/-!
# Singly linked lists

The links of all nodes are one function. A segment is a list of nodes that the links lead through.
-/

namespace Libcortex.Lib

variable {α : Type}

/-- From `h` the links lead through the nodes `l` and on to `t`. -/
def Seg (next : α → Option α) : Option α → List α → Option α → Prop
  | h, [], t => h = t
  | h, a :: l, t => h = some a ∧ Seg next (next a) l t

/-- From `h` the links lead through the nodes `l` and end there. -/
def Chain (next : α → Option α) (h : Option α) (l : List α) : Prop := Seg next h l none

variable {next next' : α → Option α} {h t : Option α} {l m : List α}

theorem Seg.append_iff : Seg next h (l ++ m) t ↔ ∃ c, Seg next h l c ∧ Seg next c m t := by
  induction l generalizing h with
  | nil => simp [Seg]
  | cons a l ih => simp [Seg, ih, and_assoc]

theorem Seg.frame (hs : Seg next h l t) (hsame : ∀ a ∈ l, next' a = next a) : Seg next' h l t := by
  induction l generalizing h with
  | nil => exact hs
  | cons a l ih =>
    refine ⟨hs.1, ?_⟩
    rw [hsame a (List.mem_cons_self ..)]
    exact ih hs.2 fun b hb => hsame b (List.mem_cons_of_mem _ hb)

theorem Seg.redirect [DecidableEq α] {a : α} (hs : Seg next h (l ++ [a]) t) (ha : a ∉ l) (t' : Option α) :
    Seg (Function.update next a t') h (l ++ [a]) t' := by
  rw [Seg.append_iff] at hs ⊢
  obtain ⟨c, hl, hc⟩ := hs
  refine ⟨c, hl.frame ?_, hc.1, ?_⟩
  · intro b hb
    exact Function.update_of_ne (ne_of_mem_of_not_mem hb ha) ..
  · exact Function.update_self ..

namespace Chain

theorem head_eq (hc : Chain next h l) : h = l.head? := by
  cases l with
  | nil => exact hc
  | cons a l => exact hc.1

theorem head_some {x y : List α} {a : α} (hc : Chain next h (x ++ a :: y)) : ∃ b, h = some b := by
  rw [hc.head_eq]
  cases x with
  | nil => exact ⟨a, rfl⟩
  | cons b x => exact ⟨b, rfl⟩

theorem tail {a : α} (hc : Chain next h (a :: l)) : Chain next (next a) l := hc.2

theorem frame (hc : Chain next h l) (hsame : ∀ a ∈ l, next' a = next a) : Chain next' h l := Seg.frame hc hsame

theorem unique (hc : Chain next h l) (hm : Chain next h m) : l = m := by
  induction l generalizing h m with
  | nil =>
    cases m with
    | nil => rfl
    | cons b m =>
      have hn : h = none := hc
      rw [hn] at hm
      cases hm.1
  | cons a l ih =>
    cases m with
    | nil =>
      have hn : h = none := hm
      rw [hn] at hc
      cases hc.1
    | cons b m =>
      have hab := hc.1.symm.trans hm.1
      cases hab
      rw [ih hc.2 hm.2]

theorem suffix (hc : Chain next h (l ++ m)) : Chain next m.head? m := by
  obtain ⟨c, -, hm⟩ := Seg.append_iff.mp hc
  have hm : Chain next c m := hm
  rw [← hm.head_eq]
  exact hm

theorem nodup (hc : Chain next h l) : l.Nodup := by
  induction l generalizing h with
  | nil => exact List.nodup_nil
  | cons a l ih =>
    rw [List.nodup_cons]
    refine ⟨?_, ih hc.2⟩
    intro ha
    obtain ⟨x, y, rfl⟩ := List.append_of_mem ha
    have hlong : Chain next (some a) (a :: (x ++ a :: y)) := hc.1 ▸ hc
    have hshort : Chain next (some a) (a :: y) := suffix hc.2
    have := congrArg List.length (unique hlong hshort)
    simp at this
    omega

theorem head_ne {x y : List α} {prev item : α} (hc : Chain next h (x ++ prev :: item :: y)) : h ≠ some item := by
  have hnd := hc.nodup
  rw [hc.head_eq]
  cases x with
  | nil =>
    rintro ⟨⟩
    simp at hnd
  | cons b x =>
    rintro ⟨⟩
    simp at hnd

theorem next_eq {x y : List α} {a : α} (hc : Chain next h (x ++ a :: y)) : next a = y.head? :=
  (suffix hc).tail.head_eq

theorem skip [DecidableEq α] {x y : List α} {prev item : α} (hc : Chain next h (x ++ prev :: item :: y)) :
    Chain (Function.update next prev (next item)) h (x ++ prev :: y) := by
  have hnd := hc.nodup
  simp only [List.nodup_append, List.nodup_cons, List.mem_cons, not_or] at hnd
  obtain ⟨-, ⟨⟨-, hpy⟩, -⟩, hx⟩ := hnd
  have hpx : prev ∉ x := fun hp => hx prev hp prev (.inl rfl) rfl
  rw [List.append_cons] at hc ⊢
  obtain ⟨c, hseg, hrest⟩ := Seg.append_iff.mp hc
  have hback : Seg next (next item) y none := hrest.2
  refine Seg.append_iff.mpr ⟨next item, hseg.redirect hpx (next item), hback.frame ?_⟩
  intro a ha
  exact Function.update_of_ne (ne_of_mem_of_not_mem ha hpy) ..

theorem remove [DecidableEq α] {x y : List α} {prev item : α} (hc : Chain next h (x ++ prev :: item :: y)) :
    Chain (Function.update (Function.update next prev (next item)) item none) h (x ++ prev :: y) := by
  have hnd := hc.nodup
  simp only [List.nodup_append, List.nodup_cons, List.mem_cons, not_or] at hnd
  obtain ⟨-, ⟨⟨hne, -⟩, hiy, -⟩, hx⟩ := hnd
  apply hc.skip.frame
  intro a ha
  apply Function.update_of_ne
  rintro rfl
  simp only [List.mem_append, List.mem_cons] at ha
  rcases ha with ha | rfl | ha
  · exact hx a ha a (.inr (.inl rfl)) rfl
  · exact hne rfl
  · exact hiy ha

theorem insert [DecidableEq α] {x y : List α} {prev item : α} (hc : Chain next h (x ++ prev :: y))
    (hnew : item ∉ x ++ prev :: y) :
    Chain (Function.update (Function.update next item (next prev)) prev (some item)) h (x ++ prev :: item :: y) := by
  have hnd := hc.nodup
  simp only [List.nodup_append, List.nodup_cons, List.mem_cons] at hnd
  obtain ⟨-, ⟨hpy, -⟩, hx⟩ := hnd
  have hpx : prev ∉ x := fun hp => hx prev hp prev (.inl rfl) rfl
  have hback : Seg next (next prev) y none := (suffix hc).tail
  simp only [List.mem_append, List.mem_cons, not_or] at hnew
  obtain ⟨hix, hip, hiy⟩ := hnew
  rw [List.append_cons] at hc ⊢
  obtain ⟨c, hseg, -⟩ := Seg.append_iff.mp hc
  have hfront : Seg (Function.update next item (next prev)) h (x ++ [prev]) c := by
    apply hseg.frame
    intro a ha
    apply Function.update_of_ne
    rintro rfl
    simp only [List.mem_append, List.mem_singleton] at ha
    exact ha.elim hix hip
  refine Seg.append_iff.mpr ⟨some item, hfront.redirect hpx (some item), rfl, ?_⟩
  rw [Function.update_of_ne hip, Function.update_self]
  apply hback.frame
  intro a ha
  rw [Function.update_of_ne (ne_of_mem_of_not_mem ha hpy), Function.update_of_ne (ne_of_mem_of_not_mem ha hiy)]

end Chain

end Libcortex.Lib
