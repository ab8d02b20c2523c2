import Mathlib.Data.BitVec
import Libcortex.Types

/-!
# Events and their two reference counters

`struct crtx_event` of `core.h`, with the functions of `core.c` that count references. Each of
them changes the counters under `event->mutex`, so it is one step for the other threads. The call of
`crtx_free_event` comes after the unlock, when there is no other holder left to interfere.
-/

namespace Libcortex

/-- Both counters are `unsigned char`. `free_calls` and `freed` are no fields of the C structure:
they count the calls of `crtx_free_event` and say whether `free` has run. -/
structure Event where
  error : Bool
  release_in_progress : Bool
  refs_before_response : BitVec 8
  refs_before_release : BitVec 8
  origin : Option ListenerId
  free_calls : Nat
  freed : Bool
deriving DecidableEq, Repr

/-- What `crtx_create_event` returns: `calloc` clears every field. -/
def Event.fresh : Event where
  error := false
  release_in_progress := false
  refs_before_response := 0
  refs_before_release := 0
  origin := none
  free_calls := 0
  freed := false

def crtx_reference_event_release (ev : Event) : Event :=
  { ev with refs_before_release := ev.refs_before_release + 1 }

def crtx_reference_event_response (ev : Event) : Event :=
  if ev.error then ev else { ev with refs_before_response := ev.refs_before_response + 1 }

def crtx_dereference_event_response (ev : Event) : Event :=
  if 0 < ev.refs_before_response then { ev with refs_before_response := ev.refs_before_response - 1 } else ev

def crtx_invalidate_event (ev : Event) : Event :=
  { ev with error := true, refs_before_response := 0 }

/-- How a call of `crtx_free_event` ends. `waits`: it sleeps on `release_cond`. -/
inductive FreeOutcome where
  | alreadyReleasing
  | waits
  | released
deriving DecidableEq, Repr

def crtx_free_event (ev : Event) : Event × FreeOutcome :=
  let ev := { ev with free_calls := ev.free_calls + 1 }
  if ev.release_in_progress then (ev, .alreadyReleasing)
  else
    let ev := crtx_invalidate_event { ev with release_in_progress := true }
    if 0 < ev.refs_before_release then (ev, .waits) else ({ ev with freed := true }, .released)

def crtx_dereference_event_release (ev : Event) : Event :=
  let ev := if 0 < ev.refs_before_release then { ev with refs_before_release := ev.refs_before_release - 1 } else ev
  if ev.refs_before_release = 0 then (crtx_free_event ev).1 else ev

theorem reference_response_eq (ev : Event) :
    ∃ r, crtx_reference_event_response ev = { ev with refs_before_response := r } := by
  unfold crtx_reference_event_response
  split
  · exact ⟨ev.refs_before_response, rfl⟩
  · exact ⟨_, rfl⟩

theorem dereference_response_eq (ev : Event) :
    ∃ r, crtx_dereference_event_response ev = { ev with refs_before_response := r } := by
  unfold crtx_dereference_event_response
  split
  · exact ⟨_, rfl⟩
  · exact ⟨ev.refs_before_response, rfl⟩

/-! ## The release counter -/

/-- The event agrees with a count of `n` references, of which at least one was taken if `used`. -/
structure Event.Counts (ev : Event) (used : Prop) (n : Nat) : Prop where
  refs : ev.refs_before_release.toNat = n
  freed : ev.freed = true ↔ used ∧ n = 0
  releasing : ev.release_in_progress = ev.freed
  calls : ev.free_calls = if ev.freed then 1 else 0

theorem Event.fresh_counts : Event.fresh.Counts False 0 :=
  ⟨rfl, by simp [Event.fresh], rfl, rfl⟩

theorem reference_response_counts {ev : Event} {used : Prop} {n : Nat} (hc : ev.Counts used n) :
    (crtx_reference_event_response ev).Counts used n := by
  obtain ⟨r, hr⟩ := reference_response_eq ev
  rw [hr]
  exact ⟨hc.refs, hc.freed, hc.releasing, hc.calls⟩

theorem dereference_response_counts {ev : Event} {used : Prop} {n : Nat} (hc : ev.Counts used n) :
    (crtx_dereference_event_response ev).Counts used n := by
  obtain ⟨r, hr⟩ := dereference_response_eq ev
  rw [hr]
  exact ⟨hc.refs, hc.freed, hc.releasing, hc.calls⟩

theorem reference_counts {ev : Event} {used : Prop} {n : Nat} (hc : ev.Counts used n) (hlive : ev.freed = false)
    (hn : n < 255) : (crtx_reference_event_release ev).Counts True (n + 1) := by
  refine ⟨?_, ?_, hc.releasing, hc.calls⟩
  · have := hc.refs
    simp only [crtx_reference_event_release, BitVec.toNat_add, BitVec.ofNat_eq_ofNat, BitVec.toNat_ofNat]
    omega
  · simp [crtx_reference_event_release, hlive]

theorem dereference_counts {ev : Event} {n : Nat} (hc : ev.Counts True (n + 1)) :
    (crtx_dereference_event_release ev).Counts True n := by
  have hrefs := hc.refs
  have hlt := ev.refs_before_release.isLt
  have hlive : ev.freed = false := by
    have := hc.freed
    cases hf : ev.freed <;> simp_all
  have hpos : (0 : BitVec 8) < ev.refs_before_release := by
    rw [BitVec.lt_def]; simp; omega
  have hsub : (ev.refs_before_release - 1).toNat = n := by
    rw [BitVec.toNat_sub]; simp; omega
  have hrel : ev.release_in_progress = false := by rw [hc.releasing, hlive]
  have hcalls : ev.free_calls = 0 := by rw [hc.calls, hlive]; rfl
  unfold crtx_dereference_event_release
  simp only [hpos, if_true]
  split
  · -- The counter has reached zero.
    rename_i hz
    have hn : n = 0 := by rw [← hsub, hz]; rfl
    subst hn
    simp only [crtx_free_event, crtx_invalidate_event, hrel, hz]
    exact ⟨rfl, by simp, rfl, by simp [hcalls]⟩
  · rename_i hz
    have hn : n ≠ 0 := by
      rintro rfl
      exact hz (BitVec.eq_of_toNat_eq (by rw [hsub]; rfl))
    refine ⟨hsub, ?_, hc.releasing, hc.calls⟩
    simp [hlive, hn]

end Libcortex
