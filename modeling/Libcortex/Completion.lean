import Mathlib.Data.BitVec
import Mathlib.Logic.Function.Basic
import Libcortex.Lib.Run

/-!
# Waiting for a job

`threads.c`: whoever gave a job to a thread waits on its signal `finished`. The worker resets the signal
before it gives the thread back, and only after the reference of the owner is gone. `Threads` takes
whole functions as steps. Here every line that touches what both sides see is a step of its own, since the worker
and the owner do not use the same mutex.
-/

open Libcortex.Lib

namespace Libcortex.Completion

/-! ## The machine -/

/-- Where `crtx_thread_tmain` is, before the line that the name says. -/
inductive WorkerPc where
  | loopTest
  | waitStart
  | afterWait
  | sendStopped
  | running
  | sendFinished
  | onFinish
  | awaitRefs
  | clearFinished
  | lockPool
  | clearStart
  | clearInUse
  | clearJob
  | unlockPool
  | exited
deriving DecidableEq, Repr

/-- Where an owner is. `setJob` is inside `crtx_thread_assign_job`, `stopStart` inside `crtx_threads_stop`, and
`asleep` inside `pthread_cond_wait`. -/
inductive OwnerPc where
  | idle
  | setJob
  | reference
  | startJob
  | stopOrWait
  | stopStart
  | waitTest
  | asleep
  | dereference
  | done
deriving DecidableEq, Repr

/-- `struct crtx_thread`. `start` and `finished` are the conditions of the signals, `n_refs` belongs to `finished`.
Nobody references `start`. A job has the name of its owner. -/
structure Thread where
  stop : Bool
  in_use : Bool
  start : Bool
  finished : Bool
  n_refs : BitVec 8
  job : Option Nat
  pc : WorkerPc
deriving DecidableEq, Repr

/-- One thread and all who ever use it. The last two fields are history: who has the thread, from `in_use = 1` to
`in_use = 0`, and for which jobs the worker has sent `finished`. -/
structure Sys where
  thread : Thread
  owner : Nat → OwnerPc
  holder : Option Nat
  sent : List Nat

inductive Action where
  | worker
  | owner (i : Nat)
  | stop (i : Nat)
  | wakeup (i : Nat)
deriving DecidableEq

/-- `SIGNAL_BCAST` -/
def wake (owner : Nat → OwnerPc) (i : Nat) : OwnerPc := if owner i = .asleep then .waitTest else owner i

/-- `crtx_send_signal(&thread->finished, 1)` -/
def sendFinished (s : Sys) (pc : WorkerPc) : Sys :=
  { s with
    thread := { s.thread with finished := true, pc }
    owner := wake s.owner
    sent := s.thread.job.toList ++ s.sent }

/-- The lines between `LOCK(pool_mutex)` and `UNLOCK(pool_mutex)`. -/
def WorkerPc.holdsPool : WorkerPc → Bool
  | .clearStart | .clearInUse | .clearJob | .unlockPool => true
  | _ => false

def Sys.goto (s : Sys) (pc : WorkerPc) : Sys := { s with thread := { s.thread with pc } }

/-- The next line of `crtx_thread_tmain`. `awaitRefs` and `clearFinished` are `crtx_reset_signal(&thread->finished)`. -/
def crtx_thread_tmain (s : Sys) : Option Sys :=
  let t := s.thread
  match t.pc with
  | .loopTest => some (s.goto (if t.stop then .exited else .waitStart))
  | .waitStart => if t.start then some (s.goto .afterWait) else none
  | .afterWait => some (s.goto (if t.stop then .sendStopped else .running))
  | .sendStopped => some (sendFinished s .exited)
  | .running => some (s.goto .sendFinished)
  | .sendFinished => some (sendFinished s .onFinish)
  | .onFinish => some (s.goto .awaitRefs)
  | .awaitRefs => if t.n_refs = 0 then some (s.goto .clearFinished) else none
  | .clearFinished => some { s with thread := { t with finished := false, pc := .lockPool } }
  | .lockPool => some (s.goto .clearStart)
  | .clearStart => some { s with thread := { t with start := false, pc := .clearInUse } }
  | .clearInUse => some { s with thread := { t with in_use := false, pc := .clearJob }, holder := none }
  | .clearJob => some { s with thread := { t with job := none, pc := .unlockPool } }
  | .unlockPool => some (s.goto .loopTest)
  | .exited => none

def Sys.ownerTo (s : Sys) (i : Nat) (pc : OwnerPc) : Sys := { s with owner := Function.update s.owner i pc }

/-- The next line of the owner `i`. `get_thread_intern` holds `pool_mutex`, and a thread that was stopped before is
not given to anyone here. -/
def ownerStep (s : Sys) (i : Nat) : Option Sys :=
  let t := s.thread
  match s.owner i with
  | .idle =>
    if t.pc.holdsPool = false ∧ t.in_use = false ∧ t.stop = false then
      some { s.ownerTo i .setJob with thread := { t with in_use := true }, holder := some i }
    else none
  | .setJob => some { s.ownerTo i .reference with thread := { t with job := some i } }
  | .reference => some { s.ownerTo i .startJob with thread := { t with n_refs := t.n_refs + 1 } }
  | .startJob => some { s.ownerTo i .stopOrWait with thread := { t with start := true } }
  | .stopOrWait => some (s.ownerTo i .waitTest)
  | .stopStart => some { s.ownerTo i .waitTest with thread := { t with start := true } }
  | .waitTest => some (s.ownerTo i (if t.finished then .dereference else .asleep))
  | .dereference =>
    some { s.ownerTo i .done with thread := { t with n_refs := if t.n_refs = 0 then 0 else t.n_refs - 1 } }
  | .asleep | .done => none

/-- `stop` is the first line of `crtx_threads_stop`, `wakeup` a return from `pthread_cond_wait` without a signal. -/
def step (s : Sys) : Action → Option Sys
  | .worker => crtx_thread_tmain s
  | .owner i => ownerStep s i
  | .stop i =>
    if s.owner i = .stopOrWait then some { s.ownerTo i .stopStart with thread := { s.thread with stop := true } }
    else none
  | .wakeup i => if s.owner i = .asleep then some (s.ownerTo i .waitTest) else none

/-- What `spawn_thread` leaves. -/
def init : Sys where
  thread := ⟨false, false, false, false, 0, none, .loopTest⟩
  owner _ := .idle
  holder := none
  sent := []

/-! ## The invariant -/

/-- From `crtx_thread_assign_job` to the end of `crtx_dereference_signal`. -/
def OwnerPc.Active (pc : OwnerPc) : Prop := pc ≠ .idle ∧ pc ≠ .done

instance (pc : OwnerPc) : Decidable pc.Active := inferInstanceAs (Decidable (_ ∧ _))

/-- The owner has not yet started its job. -/
def OwnerPc.Early (pc : OwnerPc) : Prop := pc = .setJob ∨ pc = .reference ∨ pc = .startJob

def OwnerPc.referenced : OwnerPc → Bool
  | .idle | .setJob | .reference | .done => false
  | _ => true

/-- Before the job of the current owner is finished. -/
def WorkerPc.BeforeSend : WorkerPc → Prop
  | .loopTest | .waitStart | .afterWait | .sendStopped | .running | .sendFinished => True
  | _ => False

def WorkerPc.AfterSend (pc : WorkerPc) : Prop := pc = .onFinish ∨ pc = .awaitRefs ∨ pc = .clearFinished

/-- The signal is reset, but the thread not yet given back. -/
def WorkerPc.Cleared (pc : WorkerPc) : Prop := pc = .lockPool ∨ pc = .clearStart ∨ pc = .clearInUse

/-- The thread is given back. -/
def WorkerPc.Released (pc : WorkerPc) : Prop := pc = .clearJob ∨ pc = .unlockPool

/-- Nobody has the thread. -/
structure Free (t : Thread) : Prop where
  pc : t.pc.Released ∨ t.pc = .loopTest ∨ t.pc = .waitStart ∨ t.pc = .exited
  start : t.start = false
  finished : t.finished = false
  n_refs : t.n_refs = 0

/-- The owner `i` at `o` has the thread. `sent`: was `finished` sent for its job? -/
structure Held (t : Thread) (i : Nat) (o : OwnerPc) (sent : Prop) : Prop where
  begun : o ≠ .idle
  kept : ¬ t.pc.Released
  n_refs : t.n_refs = if o.referenced then 1 else 0
  early : o.Early → (t.pc = .loopTest ∨ t.pc = .waitStart) ∧ t.start = false ∧ t.stop = false
  job : o ≠ .setJob → t.job = some i
  before : t.pc.BeforeSend → ¬ sent
  after : t.pc.AfterSend → sent
  flag : ¬ t.pc.Cleared → (t.finished = true ↔ sent)
  gone : t.pc = .clearFinished ∨ t.pc.Cleared → o = .done
  cleared : t.pc.Cleared → t.finished = false
  reset : t.pc = .clearInUse → t.start = false
  waited : o = .dereference ∨ o = .done → sent
  awake : sent → o ≠ .asleep

structure Inv (s : Sys) : Prop where
  others : ∀ i, s.holder ≠ some i → ¬ (s.owner i).Active
  in_use : s.thread.in_use = s.holder.isSome
  stopped : s.thread.pc = .exited ∨ s.thread.pc = .sendStopped → s.thread.stop = true
  free : s.holder = none → Free s.thread
  held : ∀ i, s.holder = some i → Held s.thread i (s.owner i) (i ∈ s.sent)
  sent_begun : ∀ i ∈ s.sent, s.owner i ≠ .idle

theorem init_inv : Inv init := by
  constructor <;> simp [init, OwnerPc.Active]
  constructor <;> simp

theorem Inv.move {s : Sys} {t : Thread} (hi : Inv s) (hu : t.in_use = s.thread.in_use)
    (hx : t.pc = .exited ∨ t.pc = .sendStopped → t.stop = true) (hf : s.holder = none → Free t)
    (hh : ∀ i, s.holder = some i → Held t i (s.owner i) (i ∈ s.sent)) : Inv { s with thread := t } where
  others := hi.others
  in_use := hu.trans hi.in_use
  stopped := hx
  free := hf
  held := hh
  sent_begun := hi.sent_begun

theorem Inv.holder {s : Sys} (hi : Inv s) {i : Nat} (ha : (s.owner i).Active) : s.holder = some i := by
  by_contra h
  exact hi.others i h ha

theorem Inv.ownerMove {s : Sys} (hi : Inv s) {i : Nat} (hhold : s.holder = some i) {t : Thread} {o : OwnerPc}
    (hu : t.in_use = s.thread.in_use) (hx : t.pc = .exited ∨ t.pc = .sendStopped → t.stop = true)
    (hh : Held t i o (i ∈ s.sent)) :
    Inv { s.ownerTo i o with thread := t } := by
  have hother : ∀ j, j ≠ i → (s.ownerTo i o).owner j = s.owner j := fun j hj => Function.update_of_ne hj ..
  have hself : (s.ownerTo i o).owner i = o := Function.update_self ..
  constructor
  · intro j hj
    have hji : j ≠ i := by
      rintro rfl
      exact hj hhold
    rw [hother j hji]
    exact hi.others j hj
  · exact hu.trans hi.in_use
  · exact hx
  · intro hnone
    exact absurd (hhold.symm.trans hnone) (by simp)
  · intro j hj
    obtain rfl : i = j := Option.some.inj (hhold.symm.trans hj)
    dsimp only
    rw [hself]
    exact hh
  · intro j hj
    by_cases hji : j = i
    · subst hji
      dsimp only
      rw [hself]
      exact hh.begun
    · dsimp only
      rw [hother j hji]
      exact hi.sent_begun j hj

/-! ## The steps of the worker -/

theorem Held.goto {t : Thread} {i : Nat} {o : OwnerPc} {sent : Prop} (h : Held t i o sent) {pc : WorkerPc}
    (hkept : ¬ pc.Released) (hearly : o.Early → pc = .loopTest ∨ pc = .waitStart) (hbefore : pc.BeforeSend → ¬ sent)
    (hafter : pc.AfterSend → sent) (hcleared : ¬ pc.Cleared ∧ ¬ t.pc.Cleared)
    (hgone : pc = .clearFinished → o = .done) :
    Held { t with pc } i o sent where
  begun := h.begun
  kept := hkept
  n_refs := h.n_refs
  early ho := ⟨hearly ho, (h.early ho).2⟩
  job := h.job
  before := hbefore
  after := hafter
  flag _ := h.flag hcleared.2
  gone hc := hc.elim hgone fun hc => absurd hc hcleared.1
  cleared hc := absurd hc hcleared.1
  reset hc := absurd (.inr (.inr hc)) hcleared.1
  waited := h.waited
  awake := h.awake

theorem Inv.busy {s : Sys} (hi : Inv s) (h₁ : ¬ s.thread.pc.Released) (h₂ : s.thread.pc ≠ .loopTest)
    (h₃ : s.thread.pc ≠ .waitStart) (h₄ : s.thread.pc ≠ .exited) : ∃ i, s.holder = some i := by
  cases hh : s.holder with
  | some i => exact ⟨i, rfl⟩
  | none => exact absurd (hi.free hh).pc (by simp [h₁, h₂, h₃, h₄])

theorem wake_active {owner : Nat → OwnerPc} {i : Nat} : (wake owner i).Active ↔ (owner i).Active := by
  unfold wake OwnerPc.Active
  split <;> simp_all

theorem sendFinished_inv {s : Sys} {pc : WorkerPc} (hi : Inv s) {i : Nat} (hhold : s.holder = some i)
    (hwait : s.thread.pc ≠ .loopTest ∧ s.thread.pc ≠ .waitStart)
    (hpc : pc = .onFinish ∨ pc = .exited ∧ s.thread.stop = true) : Inv (sendFinished s pc) := by
  have h := hi.held i hhold
  have hlate : ¬ (s.owner i).Early := fun he => by
    have := (h.early he).1
    simp_all
  have hnset : s.owner i ≠ .setJob := fun he => hlate (.inl he)
  have hjob := h.job hnset
  constructor
  · intro j hj
    show ¬ (wake s.owner j).Active
    rw [wake_active]
    exact hi.others j hj
  · exact hi.in_use
  · intro hx
    rcases hpc with rfl | ⟨-, hstop⟩
    · simp [sendFinished] at hx
    · exact hstop
  · intro hnone
    exact absurd (hhold.symm.trans hnone) (by simp)
  · intro j hj
    obtain rfl : i = j := Option.some.inj (hhold.symm.trans hj)
    have hsent : i ∈ (sendFinished s pc).sent := by simp [sendFinished, hjob]
    have hwake : wake s.owner i = if s.owner i = .asleep then .waitTest else s.owner i := rfl
    refine ⟨?_, ?_, ?_, ?_, fun _ => hjob, ?_, fun _ => hsent, fun _ => ⟨fun _ => hsent, fun _ => rfl⟩, ?_, ?_, ?_,
      fun _ => hsent, fun _ => ?_⟩
    · have := h.begun
      simp only [sendFinished, hwake]
      split <;> simp_all
    · rcases hpc with rfl | ⟨rfl, -⟩ <;> simp [sendFinished, WorkerPc.Released]
    · have := h.n_refs
      simp only [sendFinished, hwake]
      split <;> simp_all [OwnerPc.referenced]
    · intro he
      refine absurd ?_ hlate
      simp only [sendFinished, hwake, OwnerPc.Early] at he ⊢
      split at he <;> simp_all
    · rcases hpc with rfl | ⟨rfl, -⟩ <;> simp [sendFinished, WorkerPc.BeforeSend]
    · rcases hpc with rfl | ⟨rfl, -⟩ <;> simp [sendFinished, WorkerPc.Cleared]
    · rcases hpc with rfl | ⟨rfl, -⟩ <;> simp [sendFinished, WorkerPc.Cleared]
    · rcases hpc with rfl | ⟨rfl, -⟩ <;> simp [sendFinished]
    · simp only [sendFinished, hwake]
      split <;> simp_all
  · intro j hj
    show wake s.owner j ≠ .idle
    have hj' : s.owner j ≠ .idle := by
      rcases List.mem_append.mp hj with hj | hj
      · rw [hjob] at hj
        obtain rfl : j = i := by simpa using hj
        exact h.begun
      · exact hi.sent_begun j hj
    unfold wake
    split <;> simp_all

theorem Held.late {t t' : Thread} {i : Nat} {o : OwnerPc} {sent : Prop} (h : Held t i o sent) (ho : o = .done)
    (hrefs : t'.n_refs = t.n_refs) (hjob : t'.job = t.job) (hpc : t'.pc.Cleared) (hfin : t'.finished = false)
    (hstart : t'.pc = .clearInUse → t'.start = false) : Held t' i o sent where
  begun := h.begun
  kept hr := by
    rcases hpc with hpc | hpc | hpc <;> simp [hpc, WorkerPc.Released] at hr
  n_refs := hrefs.trans h.n_refs
  early he := by simp [ho, OwnerPc.Early] at he
  job hs := hjob.trans (h.job hs)
  before hb := by
    rcases hpc with hpc | hpc | hpc <;> simp [hpc, WorkerPc.BeforeSend] at hb
  after _ := h.waited (.inr ho)
  flag hc := absurd hpc hc
  gone _ := ho
  cleared _ := hfin
  reset := hstart
  waited := h.waited
  awake := h.awake

theorem Inv.goto {s : Sys} (hi : Inv s) {pc : WorkerPc}
    (hx : pc = .exited ∨ pc = .sendStopped → s.thread.stop = true)
    (hf : s.holder = none → pc.Released ∨ pc = .loopTest ∨ pc = .waitStart ∨ pc = .exited)
    (hh : ∀ i, s.holder = some i → Held { s.thread with pc } i (s.owner i) (i ∈ s.sent)) : Inv (s.goto pc) :=
  hi.move (t := { s.thread with pc }) rfl hx (fun h => { hi.free h with pc := hf h }) hh

theorem Inv.moveHeld {s : Sys} (hi : Inv s) {i : Nat} (hh : s.holder = some i) {t : Thread}
    (hu : t.in_use = s.thread.in_use) (hx : t.pc = .exited ∨ t.pc = .sendStopped → t.stop = true)
    (hd : Held t i (s.owner i) (i ∈ s.sent)) : Inv { s with thread := t } := by
  apply hi.move hu hx
  · intro hf
    exact absurd (hh.symm.trans hf) (by simp)
  · intro j hj
    obtain rfl : i = j := Option.some.inj (hh.symm.trans hj)
    exact hd

theorem Inv.started {s : Sys} (hi : Inv s) {i : Nat} (hh : s.holder = some i) (h₁ : s.thread.pc ≠ .loopTest)
    (h₂ : s.thread.pc ≠ .waitStart) : ¬ (s.owner i).Early := by
  intro he
  have := ((hi.held i hh).early he).1
  simp_all

theorem execute_inv {s s' : Sys} (hi : Inv s) {i : Nat} (hh : s.holder = some i)
    (hpc : s.thread.pc = .afterWait ∨ s.thread.pc = .sendStopped ∨ s.thread.pc = .running ∨
      s.thread.pc = .sendFinished ∨ s.thread.pc = .onFinish)
    (h : crtx_thread_tmain s = some s') : Inv s' := by
  unfold crtx_thread_tmain at h
  have hd := hi.held i hh
  have hlate := hi.started hh (by rcases hpc with h | h | h | h | h <;> simp [h])
    (by rcases hpc with h | h | h | h | h <;> simp [h])
  rcases hpc with hpc | hpc | hpc | hpc | hpc
  · simp only [hpc, Option.some.injEq] at h
    subst h
    have hbefore := hd.before (by simp [hpc, WorkerPc.BeforeSend])
    refine hi.moveHeld hh rfl ?_ ?_
    · dsimp only
      split <;> simp_all
    · dsimp only
      split
      · exact hd.goto (by simp [WorkerPc.Released]) (fun he => absurd he hlate) (fun _ => hbefore)
          (by simp [WorkerPc.AfterSend]) (by simp [hpc, WorkerPc.Cleared]) (by simp)
      · exact hd.goto (by simp [WorkerPc.Released]) (fun he => absurd he hlate) (fun _ => hbefore)
          (by simp [WorkerPc.AfterSend]) (by simp [hpc, WorkerPc.Cleared]) (by simp)
  · simp only [hpc, Option.some.injEq] at h
    subst h
    exact sendFinished_inv hi hh (by simp [hpc]) (.inr ⟨rfl, hi.stopped (.inr hpc)⟩)
  · simp only [hpc, Option.some.injEq] at h
    subst h
    refine hi.moveHeld hh rfl (by simp) ?_
    exact hd.goto (by simp [WorkerPc.Released]) (fun he => absurd he hlate)
      (fun _ => hd.before (by simp [hpc, WorkerPc.BeforeSend])) (by simp [WorkerPc.AfterSend])
      (by simp [hpc, WorkerPc.Cleared]) (by simp)
  · simp only [hpc, Option.some.injEq] at h
    subst h
    exact sendFinished_inv hi hh (by simp [hpc]) (.inl rfl)
  · simp only [hpc, Option.some.injEq] at h
    subst h
    refine hi.moveHeld hh rfl (by simp) ?_
    exact hd.goto (by simp [WorkerPc.Released]) (fun he => absurd he hlate) (by simp [WorkerPc.BeforeSend])
      (fun _ => hd.after (by simp [hpc, WorkerPc.AfterSend])) (by simp [hpc, WorkerPc.Cleared]) (by simp)

theorem OwnerPc.eq_done {o : OwnerPc} (hb : o ≠ .idle) (hlate : ¬ o.Early)
    (hr : (0 : BitVec 8) = if o.referenced then 1 else 0) : o = .done := by
  cases o with
  | done => rfl
  | idle => exact absurd rfl hb
  | setJob => exact absurd (.inl rfl) hlate
  | reference => exact absurd (.inr (.inl rfl)) hlate
  | _ => exact absurd hr (by decide)

theorem release_inv {s s' : Sys} (hi : Inv s) {i : Nat} (hh : s.holder = some i)
    (hpc : s.thread.pc = .awaitRefs ∨ s.thread.pc = .clearFinished ∨ s.thread.pc.Cleared)
    (h : crtx_thread_tmain s = some s') : Inv s' := by
  unfold crtx_thread_tmain at h
  have hd := hi.held i hh
  rcases hpc with hpc | hpc | hpc | hpc | hpc
  · simp only [hpc, Option.ite_none_right_eq_some, Option.some.injEq] at h
    obtain ⟨hrefs, rfl⟩ := h
    have hlate := hi.started hh (by simp [hpc]) (by simp [hpc])
    -- An owner without a reference that has started its job is done.
    have hdone := OwnerPc.eq_done hd.begun hlate (hrefs.symm.trans hd.n_refs)
    refine hi.moveHeld hh rfl (by simp) ?_
    exact hd.goto (by simp [WorkerPc.Released]) (fun he => absurd he hlate) (by simp [WorkerPc.BeforeSend])
      (fun _ => hd.after (by simp [hpc, WorkerPc.AfterSend])) (by simp [hpc, WorkerPc.Cleared]) (fun _ => hdone)
  · simp only [hpc, Option.some.injEq] at h
    subst h
    exact hi.moveHeld hh rfl (by simp) (hd.late (hd.gone (.inl hpc)) rfl rfl (.inl rfl) rfl (by simp))
  · simp only [hpc, Option.some.injEq] at h
    subst h
    have hc : s.thread.pc.Cleared := .inl hpc
    exact hi.moveHeld hh rfl (by simp) (hd.late (hd.gone (.inr hc)) rfl rfl (.inr (.inl rfl)) (hd.cleared hc)
      (by simp))
  · simp only [hpc, Option.some.injEq] at h
    subst h
    have hc : s.thread.pc.Cleared := .inr (.inl hpc)
    exact hi.moveHeld hh rfl (by simp) (hd.late (hd.gone (.inr hc)) rfl rfl (.inr (.inr rfl)) (hd.cleared hc)
      (fun _ => rfl))
  · simp only [hpc, Option.some.injEq] at h
    subst h
    have hc : s.thread.pc.Cleared := .inr (.inr hpc)
    have hdone := hd.gone (.inr hc)
    constructor
    · intro j _
      by_cases hj : j = i
      · subst hj
        exact fun ha => ha.2 hdone
      · exact hi.others j fun h => hj (Option.some.inj (hh.symm.trans h)).symm
    · rfl
    · simp
    · intro _
      refine ⟨.inl (.inl rfl), hd.reset hpc, hd.cleared hc, hd.n_refs.trans ?_⟩
      rw [hdone]
      rfl
    · simp
    · exact hi.sent_begun

theorem worker_inv {s s' : Sys} (hi : Inv s) (h : crtx_thread_tmain s = some s') : Inv s' := by
  have hrun := h
  unfold crtx_thread_tmain at h
  cases hpc : s.thread.pc with
  | loopTest =>
    simp only [hpc, Option.some.injEq] at h
    subst h
    by_cases hstop : s.thread.stop = true
    · rw [if_pos hstop]
      refine hi.goto (fun _ => hstop) (by simp) fun i hh => ?_
      have hd := hi.held i hh
      refine hd.goto (by simp [WorkerPc.Released]) ?_ (by simp [WorkerPc.BeforeSend]) (by simp [WorkerPc.AfterSend])
        (by simp [hpc, WorkerPc.Cleared]) (by simp)
      intro he
      exact absurd (hstop.symm.trans (hd.early he).2.2) (by simp)
    · rw [if_neg hstop]
      refine hi.goto (by simp) (by simp) fun i hh => ?_
      have hd := hi.held i hh
      exact hd.goto (by simp [WorkerPc.Released]) (by simp) (fun _ => hd.before (by simp [hpc, WorkerPc.BeforeSend]))
        (by simp [WorkerPc.AfterSend]) (by simp [hpc, WorkerPc.Cleared]) (by simp)
  | waitStart =>
    simp only [hpc, Option.ite_none_right_eq_some, Option.some.injEq] at h
    obtain ⟨hstart, rfl⟩ := h
    refine hi.goto (by simp) ?_ fun i hh => ?_
    · intro hf
      exact absurd (hstart.symm.trans (hi.free hf).start) (by simp)
    · have hd := hi.held i hh
      refine hd.goto (by simp [WorkerPc.Released]) ?_ (fun _ => hd.before (by simp [hpc, WorkerPc.BeforeSend]))
        (by simp [WorkerPc.AfterSend]) (by simp [hpc, WorkerPc.Cleared]) (by simp)
      intro he
      exact absurd (hstart.symm.trans (hd.early he).2.1) (by simp)
  | exited => simp [hpc] at h
  | unlockPool =>
    simp only [hpc, Option.some.injEq] at h
    subst h
    refine hi.goto (by simp) (by simp) fun i hh => ?_
    exact absurd (by simp [hpc, WorkerPc.Released]) (hi.held i hh).kept
  | clearJob =>
    simp only [hpc, Option.some.injEq] at h
    subst h
    refine hi.move rfl (by simp) (fun hf => { hi.free hf with pc := by simp [WorkerPc.Released] }) fun i hh => ?_
    exact absurd (by simp [hpc, WorkerPc.Released]) (hi.held i hh).kept
  | afterWait | sendStopped | running | sendFinished | onFinish =>
    obtain ⟨i, hh⟩ := hi.busy (by simp [hpc, WorkerPc.Released]) (by simp [hpc]) (by simp [hpc]) (by simp [hpc])
    exact execute_inv hi hh (by simp [hpc]) hrun
  | awaitRefs | clearFinished | lockPool | clearStart | clearInUse =>
    obtain ⟨i, hh⟩ := hi.busy (by simp [hpc, WorkerPc.Released]) (by simp [hpc]) (by simp [hpc]) (by simp [hpc])
    exact release_inv hi hh (by simp [hpc, WorkerPc.Cleared]) hrun

/-! ## The steps of an owner -/

theorem take_inv {s : Sys} (hi : Inv s) {i : Nat} (hidle : s.owner i = .idle) (hpool : s.thread.pc.holdsPool = false)
    (hfree : s.thread.in_use = false) (hstop : s.thread.stop = false) :
    Inv { s.ownerTo i .setJob with thread := { s.thread with in_use := true }, holder := some i } := by
  have hnone : s.holder = none := by
    have := hi.in_use
    rw [hfree] at this
    exact Option.isSome_eq_false_iff.mp this.symm |> Option.isNone_iff_eq_none.mp
  have hf := hi.free hnone
  have hpc : s.thread.pc = .loopTest ∨ s.thread.pc = .waitStart := by
    obtain (hr | hr) | h | h | h := hf.pc
    · simp [hr, WorkerPc.holdsPool] at hpool
    · simp [hr, WorkerPc.holdsPool] at hpool
    · exact .inl h
    · exact .inr h
    · exact absurd (hi.stopped (.inl h)) (by simp [hstop])
  have hns : i ∉ s.sent := fun h => hi.sent_begun i h hidle
  constructor
  · intro j hj
    have hji : j ≠ i := fun h => hj (by rw [h])
    show ¬ (Function.update s.owner i .setJob j).Active
    rw [Function.update_of_ne hji]
    exact hi.others j (by simp [hnone])
  · rfl
  · exact hi.stopped
  · simp
  · intro j hj
    obtain rfl : i = j := Option.some.inj hj
    have ho : (s.ownerTo i .setJob).owner i = .setJob := Function.update_self ..
    dsimp only
    rw [ho]
    refine ⟨by simp, ?_, hf.n_refs, fun _ => ⟨hpc, hf.start, hstop⟩, by simp, fun _ => hns, ?_, ?_, ?_, ?_, ?_, by simp,
      by simp⟩
    · rcases hpc with h | h <;> simp [h, WorkerPc.Released]
    · rcases hpc with h | h <;> simp [h, WorkerPc.AfterSend]
    · intro _
      exact iff_of_false (by simp [hf.finished]) hns
    · rcases hpc with h | h <;> simp [h, WorkerPc.Cleared]
    · rcases hpc with h | h <;> simp [h, WorkerPc.Cleared]
    · rcases hpc with h | h <;> simp [h]
  · intro j hj
    show Function.update s.owner i .setJob j ≠ .idle
    by_cases hji : j = i
    · simp [hji]
    · rw [Function.update_of_ne hji]
      exact hi.sent_begun j hj

theorem Held.advance {t t' : Thread} {i : Nat} {o o' : OwnerPc} {sent : Prop} (h : Held t i o sent) (hlive : o ≠ .done)
    (hpc : t'.pc = t.pc) (hfin : t'.finished = t.finished) (hb : o' ≠ .idle)
    (hrefs : t'.n_refs = if o'.referenced then 1 else 0)
    (hearly : o'.Early → o.Early ∧ t'.start = t.start ∧ t'.stop = t.stop) (hjob : t'.job = some i)
    (hw : o' = .dereference ∨ o' = .done → sent) (ha : sent → o' ≠ .asleep) : Held t' i o' sent where
  begun := hb
  kept := hpc ▸ h.kept
  n_refs := hrefs
  early he := by
    obtain ⟨ho, hst, hsp⟩ := hearly he
    rw [hpc, hst, hsp]
    exact h.early ho
  job _ := hjob
  before := hpc ▸ h.before
  after := hpc ▸ h.after
  flag hc := by
    rw [hfin]
    exact h.flag (hpc ▸ hc)
  gone hc := absurd (h.gone (hpc ▸ hc)) hlive
  cleared hc := absurd (h.gone (.inr (hpc ▸ hc))) hlive
  reset hc := absurd (h.gone (.inr (.inr (.inr (hpc ▸ hc))))) hlive
  waited := hw
  awake := ha

theorem Inv.active {s : Sys} (hi : Inv s) {i : Nat} {o : OwnerPc} (ho : s.owner i = o) (ha : o.Active) :
    s.holder = some i ∧ Held s.thread i o (i ∈ s.sent) := by
  have hh := hi.holder (i := i) (ho ▸ ha)
  exact ⟨hh, ho ▸ hi.held i hh⟩

theorem Inv.ownerLater {s : Sys} (hi : Inv s) {i : Nat} {o : OwnerPc} (ho : s.owner i = o) (o' : OwnerPc)
    (ha : o.Active) (hjob : o ≠ .setJob) (hrefs : o'.referenced = o.referenced) (hb : o' ≠ .idle)
    (hlate : ¬ o'.Early) (hw : o' = .dereference ∨ o' = .done → i ∈ s.sent) (haw : i ∈ s.sent → o' ≠ .asleep)
    {start stop : Bool} (hstop : s.thread.stop = true → stop = true) :
    Inv { s.ownerTo i o' with thread := { s.thread with start, stop } } := by
  obtain ⟨hh, hd⟩ := hi.active ho ha
  refine hi.ownerMove hh rfl (fun h => hstop (hi.stopped h)) ?_
  exact hd.advance ha.2 rfl rfl hb (hrefs ▸ hd.n_refs) (fun h => absurd h hlate) (hd.job hjob) hw haw

theorem owner_inv {s s' : Sys} {i : Nat} (hi : Inv s) (h : ownerStep s i = some s') : Inv s' := by
  unfold ownerStep at h
  cases ho : s.owner i with
  | idle =>
    simp only [ho, Option.ite_none_right_eq_some, Option.some.injEq] at h
    obtain ⟨⟨hpool, hfree, hstop⟩, rfl⟩ := h
    exact take_inv hi ho hpool hfree hstop
  | asleep | done => simp [ho] at h
  | setJob =>
    simp only [ho, Option.some.injEq] at h
    subst h
    obtain ⟨hh, hd⟩ := hi.active ho (by simp [OwnerPc.Active])
    exact hi.ownerMove hh rfl hi.stopped (hd.advance (by simp) rfl rfl (by simp) hd.n_refs
      (fun _ => ⟨.inl rfl, rfl, rfl⟩) rfl (by simp) (by simp))
  | reference =>
    simp only [ho, Option.some.injEq] at h
    subst h
    obtain ⟨hh, hd⟩ := hi.active ho (by simp [OwnerPc.Active])
    refine hi.ownerMove hh rfl hi.stopped (hd.advance (by simp) rfl rfl (by simp) ?_
      (fun _ => ⟨.inr (.inl rfl), rfl, rfl⟩) (hd.job (by simp)) (by simp) (by simp))
    simp [hd.n_refs, OwnerPc.referenced]
  | startJob =>
    simp only [ho, Option.some.injEq] at h
    subst h
    exact hi.ownerLater ho .stopOrWait (by simp [OwnerPc.Active]) (by simp) rfl (by simp) (by simp [OwnerPc.Early])
      (by simp) (by simp) id
  | stopOrWait | stopStart =>
    simp only [ho, Option.some.injEq] at h
    subst h
    exact hi.ownerLater ho .waitTest (by simp [OwnerPc.Active]) (by simp) rfl (by simp) (by simp [OwnerPc.Early])
      (by simp) (by simp) id
  | waitTest =>
    simp only [ho, Option.some.injEq] at h
    subst h
    obtain ⟨-, hd⟩ := hi.active ho (by simp [OwnerPc.Active])
    -- The worker cannot have reset the signal yet, because the owner still has its reference.
    have hflag := hd.flag fun hc => by simpa using hd.gone (.inr hc)
    cases hf : s.thread.finished with
    | true =>
      exact hi.ownerLater ho .dereference (by simp [OwnerPc.Active]) (by simp) rfl (by simp) (by simp [OwnerPc.Early])
        (fun _ => hflag.mp hf) (by simp) id
    | false =>
      exact hi.ownerLater ho .asleep (by simp [OwnerPc.Active]) (by simp) rfl (by simp) (by simp [OwnerPc.Early])
        (by simp) (fun hs => by simp [hflag.mpr hs] at hf) id
  | dereference =>
    simp only [ho, Option.some.injEq] at h
    subst h
    obtain ⟨hh, hd⟩ := hi.active ho (by simp [OwnerPc.Active])
    refine hi.ownerMove hh rfl hi.stopped (hd.advance (by simp) rfl rfl (by simp) ?_
      (by simp [OwnerPc.Early]) (hd.job (by simp)) (fun _ => hd.waited (.inl rfl)) (by simp))
    simp [hd.n_refs, OwnerPc.referenced]

theorem step_inv {s s' : Sys} {a : Action} (hi : Inv s) (h : step s a = some s') : Inv s' := by
  cases a with
  | worker => exact worker_inv hi h
  | owner i => exact owner_inv hi h
  | stop i =>
    simp only [step, Option.ite_none_right_eq_some, Option.some.injEq] at h
    obtain ⟨ho, rfl⟩ := h
    exact hi.ownerLater ho .stopStart (by simp [OwnerPc.Active]) (by simp) rfl (by simp) (by simp [OwnerPc.Early])
      (by simp) (by simp) fun _ => rfl
  | wakeup i =>
    simp only [step, Option.ite_none_right_eq_some, Option.some.injEq] at h
    obtain ⟨ho, rfl⟩ := h
    exact hi.ownerLater ho .waitTest (by simp [OwnerPc.Active]) (by simp) rfl (by simp) (by simp [OwnerPc.Early])
      (by simp) (by simp) id

/-! ## No completion is missed -/

/-- Once `finished` was sent for the job of an owner, the condition is set and the owner awake until it gives its
reference back. Before, the condition is not set, so that no earlier job can end its wait. -/
structure NoMissedCompletion (s : Sys) (i : Nat) : Prop where
  stays : i ∈ s.sent → s.thread.finished = true ∧ s.owner i ≠ .asleep
  own : s.thread.finished = true → i ∈ s.sent
  waited : s.owner i = .dereference → i ∈ s.sent

theorem no_missed_completion {as : List Action} {s : Sys} (hr : run step as init = some s) {i : Nat}
    (ha : (s.owner i).Active) : NoMissedCompletion s i := by
  have hi : Inv s := run_invariant (fun _ _ _ hi hs => step_inv hi hs) as init s init_inv hr
  have hd := hi.held i (hi.holder ha)
  have hflag := hd.flag fun hc => ha.2 (hd.gone (.inr hc))
  exact ⟨fun hs => ⟨hflag.mpr hs, hd.awake hs⟩, hflag.mp, fun ho => hd.waited (.inl ho)⟩

/-- The first owner sleeps until its job is done. The second one stops the thread, which then only says that it has
finished. -/
def twoJobs : List Action :=
  List.replicate 6 (Action.owner 0) ++ List.replicate 6 Action.worker ++ [Action.owner 0, Action.owner 0] ++
    List.replicate 7 Action.worker ++
    [Action.owner 1, Action.owner 1, Action.worker, Action.owner 1, Action.owner 1, Action.worker, Action.stop 1,
      Action.worker, Action.worker, Action.owner 1]

theorem no_missed_completion_two_jobs :
    ∃ s, run step twoJobs init = some s ∧ (s.owner 1).Active ∧ 1 ∈ s.sent ∧ NoMissedCompletion s 1 :=
  ⟨_, rfl, by decide, by decide, @no_missed_completion twoJobs _ rfl 1 (by decide)⟩

end Libcortex.Completion
