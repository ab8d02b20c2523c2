import Mathlib.Data.List.Nodup
import Mathlib.Logic.Function.Basic

/-!
# Descriptor tables

A descriptor refers to an open file, and several may refer to the same one. To move a descriptor is to duplicate it onto
another and to close it. Moves that are made one after the other are meant as one assignment of all the targets.
-/

namespace Libcortex.Lib

/-- What each descriptor refers to. -/
abbrev FdTable (κ ω : Type) := κ → Option ω

variable {κ ω : Type} [DecidableEq κ]

/-- `none`: the old descriptor is not open. -/
def dup2 (t : FdTable κ ω) (old new : κ) : Option (FdTable κ ω) :=
  (t old).map fun file => Function.update t new (some file)

def close (t : FdTable κ ω) (fd : κ) : FdTable κ ω := Function.update t fd none

/-- The descriptor becomes `target`, unless it already is. -/
def move (t : FdTable κ ω) (fd target : κ) : Option (FdTable κ ω) :=
  if fd = target then some t else (dup2 t fd target).map fun t => close t fd

/-- The moves, in order. -/
def moveAll : List (κ × κ) → FdTable κ ω → Option (FdTable κ ω)
  | [], t => some t
  | m :: ms, t => (move t m.1 m.2).bind (moveAll ms)

/-- No descriptor is moved that an earlier move has closed or replaced. -/
def InOrder (ms : List (κ × κ)) : Prop := ms.Pairwise fun m n => n.1 ≠ m.1 ∧ n.1 ≠ m.2

/-! ## One move -/

variable {t t' : FdTable κ ω} {fd target x : κ}

theorem move_some (h : (t fd).isSome) (target : κ) : ∃ t', move t fd target = some t' := by
  obtain ⟨file, hfile⟩ := Option.isSome_iff_exists.mp h
  unfold move
  split
  · exact ⟨t, rfl⟩
  · exact ⟨_, by rw [dup2, hfile]; rfl⟩

theorem move_eq_some (hne : fd ≠ target) :
    move t fd target = some t' ↔
      ∃ file, t fd = some file ∧ t' = Function.update (Function.update t target (some file)) fd none := by
  rw [move, if_neg hne, dup2, Option.map_map, Option.map_eq_some_iff]
  refine exists_congr fun file => and_congr_right fun _ => ?_
  exact eq_comm

theorem move_other (h : move t fd target = some t') (hfd : x ≠ fd) (htarget : x ≠ target) : t' x = t x := by
  by_cases hne : fd = target
  · rw [move, if_pos hne] at h
    rw [← Option.some.inj h]
  · obtain ⟨file, -, rfl⟩ := (move_eq_some hne).mp h
    rw [Function.update_of_ne hfd, Function.update_of_ne htarget]

theorem move_target (h : move t fd target = some t') : t' target = t fd := by
  by_cases hne : fd = target
  · rw [move, if_pos hne] at h
    rw [← Option.some.inj h, hne]
  · obtain ⟨file, hfile, rfl⟩ := (move_eq_some hne).mp h
    rw [Function.update_of_ne (Ne.symm hne), Function.update_self, hfile]

theorem move_closes (h : move t fd target = some t') (hne : fd ≠ target) : t' fd = none := by
  obtain ⟨file, -, rfl⟩ := (move_eq_some hne).mp h
  exact Function.update_self ..

/-! ## All moves -/

variable {ms : List (κ × κ)}

theorem moveAll_other (h : moveAll ms t = some t') (hfd : x ∉ ms.map Prod.fst) (htarget : x ∉ ms.map Prod.snd) :
    t' x = t x := by
  induction ms generalizing t with
  | nil => rw [← Option.some.inj h]
  | cons m ms ih =>
    obtain ⟨t₁, hmove, hrest⟩ := Option.bind_eq_some_iff.mp h
    rw [List.map_cons, List.mem_cons, not_or] at hfd htarget
    rw [ih hrest hfd.2 htarget.2, move_other hmove hfd.1 htarget.1]

theorem moveAll_closed (h : moveAll ms t = some t') (hx : t x = none) (htarget : x ∉ ms.map Prod.snd) : t' x = none := by
  induction ms generalizing t with
  | nil => rw [← Option.some.inj h, hx]
  | cons m ms ih =>
    obtain ⟨t₁, hmove, hrest⟩ := Option.bind_eq_some_iff.mp h
    rw [List.map_cons, List.mem_cons, not_or] at htarget
    refine ih hrest ?_ htarget.2
    by_cases hfd : x = m.1
    · have hne : m.1 ≠ m.2 := fun he => htarget.1 (hfd.trans he)
      rw [hfd]
      exact move_closes hmove hne
    · rw [move_other hmove hfd htarget.1, hx]

theorem moveAll_source (h : moveAll ms t = some t') (hfd : x ∈ ms.map Prod.fst) (htarget : x ∉ ms.map Prod.snd) :
    t' x = none := by
  induction ms generalizing t with
  | nil => cases hfd
  | cons m ms ih =>
    obtain ⟨t₁, hmove, hrest⟩ := Option.bind_eq_some_iff.mp h
    rw [List.map_cons, List.mem_cons, not_or] at htarget
    rw [List.map_cons, List.mem_cons] at hfd
    rcases hfd with rfl | hfd
    · exact moveAll_closed hrest (move_closes hmove htarget.1) htarget.2
    · exact ih hrest hfd htarget.2

theorem moveAll_lost (h : moveAll ms t = some t') (hnd : (ms.map Prod.snd).Nodup) (hfd : x ∈ ms.map Prod.fst)
    (hx : t x = none) : ∃ target ∈ ms.map Prod.snd, t' target = none := by
  induction ms generalizing t with
  | nil => cases hfd
  | cons m ms ih =>
    obtain ⟨t₁, hmove, hrest⟩ := Option.bind_eq_some_iff.mp h
    rw [List.map_cons, List.nodup_cons] at hnd
    rw [List.map_cons, List.mem_cons] at hfd
    by_cases htarget : x = m.2
    · refine ⟨x, htarget ▸ List.mem_cons_self, ?_⟩
      rw [← htarget] at hnd
      rcases hfd with rfl | hfd
      · refine moveAll_closed hrest ?_ hnd.1
        rw [htarget, move_target hmove, hx]
      · exact moveAll_source hrest hfd hnd.1
    · have hne : x ≠ m.1 := by
        rintro rfl
        obtain ⟨file, hfile, -⟩ := (move_eq_some htarget).mp hmove
        rw [hx] at hfile
        cases hfile
      obtain ⟨target, hmem, hclosed⟩ := ih hrest hnd.2 (hfd.resolve_left hne)
        (by rw [move_other hmove hne htarget, hx])
      exact ⟨target, List.mem_cons_of_mem _ hmem, hclosed⟩

/-! ## The moves as one assignment -/

/-- All targets refer to what the descriptors referred to before the first move. -/
def Assigned (ms : List (κ × κ)) (t t' : FdTable κ ω) : Prop := ∀ m ∈ ms, t' m.2 = t m.1

theorem moveAll_assigned (ho : InOrder ms) (hnd : (ms.map Prod.snd).Nodup) (hopen : ∀ m ∈ ms, (t m.1).isSome) :
    ∃ t', moveAll ms t = some t' ∧ Assigned ms t t' := by
  induction ms generalizing t with
  | nil => exact ⟨t, rfl, fun m hm => absurd hm List.not_mem_nil⟩
  | cons m ms ih =>
    obtain ⟨hfirst, ho⟩ := List.pairwise_cons.mp ho
    rw [List.map_cons, List.nodup_cons] at hnd
    obtain ⟨t₁, hmove⟩ := move_some (hopen m List.mem_cons_self) m.2
    have hsame : ∀ n ∈ ms, t₁ n.1 = t n.1 := fun n hn => move_other hmove (hfirst n hn).1 (hfirst n hn).2
    have hopen₁ : ∀ n ∈ ms, (t₁ n.1).isSome := by
      intro n hn
      rw [hsame n hn]
      exact hopen n (List.mem_cons_of_mem _ hn)
    obtain ⟨t', hrest, hassigned⟩ := ih ho hnd.2 hopen₁
    refine ⟨t', ?_, ?_⟩
    · rw [moveAll, hmove]
      exact hrest
    · intro n hn
      rcases List.mem_cons.mp hn with rfl | hn
      · have hsource : n.2 ∉ ms.map Prod.fst := by
          intro hmem
          obtain ⟨k, hk, hkn⟩ := List.mem_map.mp hmem
          exact (hfirst k hk).2 hkn
        rw [moveAll_other hrest hsource hnd.1, move_target hmove]
      · rw [hassigned n hn, hsame n hn]

theorem inOrder_of_open (h : moveAll ms t = some t') (hnd : (ms.map Prod.snd).Nodup)
    (hopen : ∀ m ∈ ms, t' m.2 ≠ none) : InOrder ms := by
  induction ms generalizing t with
  | nil => exact List.Pairwise.nil
  | cons m ms ih =>
    obtain ⟨t₁, hmove, hrest⟩ := Option.bind_eq_some_iff.mp h
    rw [List.map_cons, List.nodup_cons] at hnd
    refine List.pairwise_cons.mpr ⟨fun n hn => ?_, ih hrest hnd.2 fun n hn => hopen n (List.mem_cons_of_mem _ hn)⟩
    have hfd : n.1 ∈ ms.map Prod.fst := List.mem_map_of_mem hn
    have htarget : n.1 ≠ m.2 := by
      intro he
      exact hopen m List.mem_cons_self (moveAll_source hrest (he ▸ hfd) hnd.1)
    refine ⟨fun he => ?_, htarget⟩
    have hclosed : t₁ n.1 = none := by
      rw [he]
      exact move_closes hmove (he ▸ htarget)
    obtain ⟨target, hmem, hnone⟩ := moveAll_lost hrest hnd.2 hfd hclosed
    obtain ⟨k, hk, rfl⟩ := List.mem_map.mp hmem
    exact hopen k (List.mem_cons_of_mem _ hk) hnone

theorem moveAll_assigned_iff (hnd : (ms.map Prod.snd).Nodup) (hopen : ∀ m ∈ ms, (t m.1).isSome) :
    (∃ t', moveAll ms t = some t' ∧ Assigned ms t t') ↔ InOrder ms := by
  refine ⟨?_, fun ho => moveAll_assigned ho hnd hopen⟩
  rintro ⟨t', h, hassigned⟩
  refine inOrder_of_open h hnd fun m hm => ?_
  rw [hassigned m hm]
  exact Option.isSome_iff_ne_none.mp (hopen m hm)

end Libcortex.Lib
