import Mathlib.Data.List.Nodup
import Mathlib.Data.List.Range
import Libcortex.Lib.Run

/-!
# Handles for libvirt

`libvirt.c` hands its event loop to libvirt, which asks it to watch descriptors and to run timers. What it is asked for
gets a number, the first one that the scan over the list finds free. The list is in the order in which things
were added, and the scan takes it to be in the order of the numbers.
-/

open Libcortex.Lib

namespace Libcortex.Libvirt

/-! ## The code -/

/-- `struct libvirt_eventloop_wrapper`. `address` tells two of them apart, and `setting` is what libvirt asked for,
its events or its timeout. -/
structure Wrapper where
  address : Nat
  id : Nat
  setting : Int
  delete : Bool
deriving DecidableEq, Repr

/-- `event_list` and `timeout_list`. `allocated` counts the wrappers that were ever allocated. -/
structure Sys where
  event_list : List Wrapper
  timeout_list : List Wrapper
  allocated : Nat
deriving DecidableEq, Repr

/-- The loop that looks for a number, with the comparison behind it, which is with the last element if the loop was
not left before. -/
def scanFrom (id : Nat) : List Nat → Nat
  | [] => id
  | [a] => if id = a then id + 1 else id
  | a :: b :: rest => if id < a then id else scanFrom (if id = a then id + 1 else id) (b :: rest)

/-- The wrapper with this number. -/
def lookup (list : List Wrapper) (id : Nat) : Option Wrapper := list.find? fun w => w.id = id

/-- A new wrapper at the end of the list. -/
def enlist (list : List Wrapper) (address : Nat) (setting : Int) : List Wrapper :=
  list ++ [{ address, id := scanFrom 0 (list.map Wrapper.id), setting, delete := false }]

/-- The first wrapper with this number is changed. -/
def change (list : List Wrapper) (id : Nat) (f : Wrapper → Wrapper) : List Wrapper :=
  match list with
  | [] => []
  | w :: rest => if w.id = id then f w :: rest else w :: change rest id f

/-- The wrapper leaves the list and is freed. -/
def cleanup (list : List Wrapper) (address : Nat) : List Wrapper := list.eraseP fun w => w.address = address

def elw_virEventAddHandleFunc (s : Sys) (event : Int) : Sys :=
  { s with event_list := enlist s.event_list s.allocated event, allocated := s.allocated + 1 }

def elw_virEventUpdateHandleFunc (s : Sys) (watch : Nat) (event : Int) : Sys :=
  { s with event_list := change s.event_list watch fun w => { w with setting := event } }

/-- The handle is removed after its next event. -/
def elw_virEventRemoveHandleFunc (s : Sys) (watch : Nat) : Sys × Int :=
  ({ s with event_list := change s.event_list watch fun w => { w with delete := true } },
    if (lookup s.event_list watch).isSome then 0 else -1)

def elw_fd_cleanup (s : Sys) (address : Nat) : Sys := { s with event_list := cleanup s.event_list address }

/-- `ret` is what `crtx_setup_listener` returns. If it fails, libvirt is told so, and the wrapper stays in the
list. -/
def elw_virEventAddTimeoutFunc (s : Sys) (timeout ret : Int) : Sys × Int :=
  ({ s with timeout_list := enlist s.timeout_list s.allocated timeout, allocated := s.allocated + 1 },
    if ret ≠ 0 then -1 else scanFrom 0 (s.timeout_list.map Wrapper.id))

def elw_virEventUpdateTimeoutFunc (s : Sys) (timer : Nat) (timeout : Int) : Sys :=
  { s with timeout_list := change s.timeout_list timer fun w => { w with setting := timeout } }

def elw_virEventRemoveTimeoutFunc (s : Sys) (timer : Nat) : Sys × Int :=
  ({ s with timeout_list := change s.timeout_list timer fun w => { w with delete := true } },
    if (lookup s.timeout_list timer).isSome then 0 else -1)

def elw_timer_cleanup (s : Sys) (address : Nat) : Sys := { s with timeout_list := cleanup s.timeout_list address }

inductive Action where
  | addHandle (event : Int)
  | updateHandle (watch : Nat) (event : Int)
  | removeHandle (watch : Nat)
  | cleanupHandle (address : Nat)
  | addTimeout (timeout ret : Int)
  | updateTimeout (timer : Nat) (timeout : Int)
  | removeTimeout (timer : Nat)
  | cleanupTimeout (address : Nat)
deriving DecidableEq

/-- A wrapper is cleaned up that was marked. -/
def step (s : Sys) : Action → Option Sys
  | .addHandle event => some (elw_virEventAddHandleFunc s event)
  | .updateHandle watch event => some (elw_virEventUpdateHandleFunc s watch event)
  | .removeHandle watch => some (elw_virEventRemoveHandleFunc s watch).1
  | .cleanupHandle address =>
    if ∃ w ∈ s.event_list, w.address = address ∧ w.delete = true then some (elw_fd_cleanup s address) else none
  | .addTimeout timeout ret => some (elw_virEventAddTimeoutFunc s timeout ret).1
  | .updateTimeout timer timeout => some (elw_virEventUpdateTimeoutFunc s timer timeout)
  | .removeTimeout timer => some (elw_virEventRemoveTimeoutFunc s timer).1
  | .cleanupTimeout address =>
    if ∃ w ∈ s.timeout_list, w.address = address ∧ w.delete = true then some (elw_timer_cleanup s address) else none

def init : Sys where
  event_list := []
  timeout_list := []
  allocated := 0

/-! ## What has to hold -/

/-- No two wrappers have the same number, so that a number leads to the wrapper that it was issued for. -/
structure Identified (list : List Wrapper) : Prop where
  distinct : (list.map Wrapper.id).Nodup
  found : ∀ w ∈ list, lookup list w.id = some w

/-- After the step, handles and timers can be told apart by their numbers. -/
def KeepsIds (s : Sys) (a : Action) : Prop :=
  ∀ s' ∈ step s a, Identified s'.event_list ∧ Identified s'.timeout_list

/-- If the list begins with the numbers from 0 to `k - 1` in this order, and another number than `k` is next, then `k`
is not behind that. -/
def GapFree (list : List Wrapper) : Prop :=
  ∀ k < list.length, List.range k <+: list.map Wrapper.id → (list.map Wrapper.id)[k]? ≠ some k →
    k ∉ list.map Wrapper.id

instance (list : List Wrapper) : Decidable (GapFree list) := inferInstanceAs (Decidable (∀ k < _, _ → _ → _))

/-- Something is added only to a list in which the number that it gets is free. -/
def AddsToGap (s : Sys) : Action → Prop
  | .addHandle _ => GapFree s.event_list
  | .addTimeout _ _ => GapFree s.timeout_list
  | _ => True

instance (s : Sys) : ∀ a, Decidable (AddsToGap s a)
  | .addHandle _ | .addTimeout _ _ => inferInstanceAs (Decidable (GapFree _))
  | .updateHandle _ _ | .removeHandle _ | .cleanupHandle _ | .updateTimeout _ _ | .removeTimeout _
  | .cleanupTimeout _ => inferInstanceAs (Decidable True)

/-! ## The scan -/

theorem scanFrom_spec {ids : List Nat} {id : Nat} (hnodup : ids.Nodup) (hle : ∀ a ∈ ids, id ≤ a) :
    ∃ n, scanFrom id ids = id + n ∧ List.range' id n <+: ids ∧ ids[n]? ≠ some (id + n) := by
  induction ids generalizing id with
  | nil => exact ⟨0, rfl, List.nil_prefix, by simp⟩
  | cons a rest ih =>
    by_cases heq : id = a
    · subst heq
      have hrest : ∀ b ∈ rest, id + 1 ≤ b := by
        intro b hb
        have hne : b ≠ id := ne_of_mem_of_not_mem hb (List.nodup_cons.mp hnodup).1
        have := hle b (List.mem_cons_of_mem _ hb)
        omega
      obtain ⟨n, hscan, hpre, hnext⟩ := ih (List.nodup_cons.mp hnodup).2 hrest
      refine ⟨n + 1, ?_, ?_, ?_⟩
      · cases rest with
        | nil =>
          have hn : id + 1 = id + 1 + n := hscan
          rw [scanFrom, if_pos rfl]
          omega
        | cons b rest =>
          rw [scanFrom, if_neg (Nat.lt_irrefl id), if_pos rfl, hscan]
          omega
      · rw [List.range'_succ]
        exact (List.cons_prefix_cons).mpr ⟨rfl, hpre⟩
      · rw [List.getElem?_cons_succ]
        intro h
        exact hnext (h.trans (congrArg some (by omega)))
    · have hlt : id < a := Nat.lt_of_le_of_ne (hle a List.mem_cons_self) heq
      refine ⟨0, ?_, List.nil_prefix, ?_⟩
      · cases rest with
        | nil => rw [scanFrom, if_neg heq, Nat.add_zero]
        | cons b rest => rw [scanFrom, if_pos hlt, Nat.add_zero]
      · intro h
        exact heq (Option.some_inj.mp h).symm

theorem getElem?_of_initial_range {ids : List Nat} {n k : Nat} (h : List.range n <+: ids) (hk : k < n) :
    ids[k]? = some k := by
  obtain ⟨t, rfl⟩ := h
  rw [List.getElem?_append_left (by simpa using hk), List.getElem?_range hk]

theorem scan_free_iff {list : List Wrapper} (h : (list.map Wrapper.id).Nodup) :
    scanFrom 0 (list.map Wrapper.id) ∉ list.map Wrapper.id ↔ GapFree list := by
  obtain ⟨n, hscan, hpre, hnext⟩ := scanFrom_spec h fun a _ => Nat.zero_le a
  rw [Nat.zero_add] at hscan hnext
  rw [← List.range_eq_range'] at hpre
  rw [hscan]
  constructor
  · intro hfree k _ hk hne
    rcases Nat.lt_trichotomy k n with hlt | rfl | hgt
    · exact absurd (getElem?_of_initial_range hpre hlt) hne
    · exact hfree
    · exact absurd (getElem?_of_initial_range hk hgt) hnext
  · intro hgap
    by_cases hn : n < list.length
    · exact hgap n hn hpre hnext
    · have hlen := hpre.length_le
      rw [List.length_range, List.length_map] at hlen
      rw [← hpre.eq_of_length (by rw [List.length_range, List.length_map]; omega)]
      exact List.not_mem_range_self

/-! ## One step -/

theorem identified_iff {list : List Wrapper} : Identified list ↔ (list.map Wrapper.id).Nodup := by
  refine ⟨Identified.distinct, fun h => ⟨h, fun w hw => ?_⟩⟩
  unfold lookup
  induction list with
  | nil => cases hw
  | cons v rest ih =>
    rw [List.map_cons, List.nodup_cons] at h
    rcases List.mem_cons.mp hw with rfl | hw
    · rw [List.find?_cons_of_pos (by simp)]
    · have hne : v.id ≠ w.id := fun heq => h.1 (heq ▸ List.mem_map_of_mem hw)
      rw [List.find?_cons_of_neg (by simpa using hne)]
      exact ih h.2 hw

theorem enlist_identified {list : List Wrapper} (h : Identified list) (address : Nat) (setting : Int) :
    Identified (enlist list address setting) ↔ GapFree list := by
  rw [identified_iff, ← scan_free_iff h.distinct, enlist, List.map_append, List.map_singleton, List.nodup_append]
  simp only [h.distinct, List.nodup_singleton, true_and, List.mem_singleton, forall_eq]
  exact ⟨fun hne hmem => hne _ hmem rfl, fun hfree a ha heq => hfree (heq ▸ ha)⟩

theorem change_ids (list : List Wrapper) (id : Nat) {f : Wrapper → Wrapper} (hf : ∀ w, (f w).id = w.id) :
    (change list id f).map Wrapper.id = list.map Wrapper.id := by
  induction list with
  | nil => rfl
  | cons w rest ih =>
    unfold change
    split
    · rw [List.map_cons, hf, List.map_cons]
    · rw [List.map_cons, ih, List.map_cons]

theorem change_identified {list : List Wrapper} (h : Identified list) (id : Nat) {f : Wrapper → Wrapper}
    (hf : ∀ w, (f w).id = w.id) : Identified (change list id f) := by
  rw [identified_iff, change_ids list id hf]
  exact h.distinct

theorem cleanup_identified {list : List Wrapper} (h : Identified list) (address : Nat) :
    Identified (cleanup list address) := by
  rw [identified_iff]
  exact h.distinct.sublist ((List.eraseP_sublist).map _)

/-- Both lists can be told apart by their numbers. -/
def Inv (s : Sys) : Prop := Identified s.event_list ∧ Identified s.timeout_list

theorem keepsIds_iff (s : Sys) (a : Action) (hi : Inv s) : KeepsIds s a ↔ AddsToGap s a := by
  obtain ⟨hevents, htimeouts⟩ := hi
  cases a with
  | addHandle event =>
    simp only [KeepsIds, step, Option.mem_some_iff, forall_eq']
    exact (and_iff_left htimeouts).trans (enlist_identified hevents ..)
  | addTimeout timeout ret =>
    simp only [KeepsIds, step, Option.mem_some_iff, forall_eq']
    exact (and_iff_right hevents).trans (enlist_identified htimeouts ..)
  | updateHandle watch event =>
    refine iff_of_true ?_ trivial
    rintro s' ⟨⟩
    exact ⟨change_identified hevents watch fun _ => rfl, htimeouts⟩
  | removeHandle watch =>
    refine iff_of_true ?_ trivial
    rintro s' ⟨⟩
    exact ⟨change_identified hevents watch fun _ => rfl, htimeouts⟩
  | cleanupHandle address =>
    refine iff_of_true ?_ trivial
    intro s' h
    simp only [step, Option.mem_def, Option.ite_none_right_eq_some, Option.some.injEq] at h
    obtain ⟨-, rfl⟩ := h
    exact ⟨cleanup_identified hevents address, htimeouts⟩
  | updateTimeout timer timeout =>
    refine iff_of_true ?_ trivial
    rintro s' ⟨⟩
    exact ⟨hevents, change_identified htimeouts timer fun _ => rfl⟩
  | removeTimeout timer =>
    refine iff_of_true ?_ trivial
    rintro s' ⟨⟩
    exact ⟨hevents, change_identified htimeouts timer fun _ => rfl⟩
  | cleanupTimeout address =>
    refine iff_of_true ?_ trivial
    intro s' h
    simp only [step, Option.mem_def, Option.ite_none_right_eq_some, Option.some.injEq] at h
    obtain ⟨-, rfl⟩ := h
    exact ⟨hevents, cleanup_identified htimeouts address⟩

/-! ## The result -/

/-- The numbers stay different for as long as things are added where there is no gap in front, and no longer. -/
theorem ids_distinct_iff (as : List Action) : Meets step KeepsIds as init ↔ Meets step AddsToGap as init := by
  have hinit : Inv init := ⟨identified_iff.mpr List.nodup_nil, identified_iff.mpr List.nodup_nil⟩
  refine meets_congr (fun s a hi => keepsIds_iff s a hi) (fun s a s' hi hok _ h => ?_) as init hinit
    (meets_true step as init)
  exact (keepsIds_iff s a hi).mpr hok s' h

/-- The first of two handles is removed, and two more are added. Both get the number 0. -/
theorem two_handles_one_id :
    ∃ s, run step [.addHandle 1, .addHandle 1, .removeHandle 0, .cleanupHandle 0, .addHandle 1, .addHandle 1] init =
        some s ∧ s.event_list.map Wrapper.id = [1, 0, 0] ∧ ¬ Identified s.event_list := by
  refine ⟨_, rfl, rfl, fun h => ?_⟩
  exact absurd h.distinct (by decide)

end Libcortex.Libvirt
