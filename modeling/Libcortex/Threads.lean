import Mathlib.Data.List.Basic
import Mathlib.Logic.Function.Basic
import Libcortex.Lib.Run

/-!
# The thread pool

`threads.c`: `crtx_thread_assign_job` takes the first thread of the pool that is not in use, or
spawns one. `crtx_threads_stop` ends a thread for good, but leaves it in the pool with `in_use`
cleared once its job is done, so the next job may go to a thread that no longer runs. It reads
`t->job` several times without `pool_mutex`, and the job may end between two of these reads.
-/

open Libcortex.Lib

namespace Libcortex.Threads

/-! ## The machine -/

/-- Where `crtx_thread_tmain` is, before the line that the name says. -/
inductive Pc where
  | loopTest
  | waitStart
  | afterWait
  | callJob
  | running
  | sendFinished
  | onFinish
  | resetFinished
  | release
  | exited
deriving DecidableEq, Repr

/-- Where a call of `crtx_threads_stop` is, before the line or the test that the name says. -/
inductive StopLine where
  | setStop
  | startJob
  | testJob
  | testDoStop
  | callDoStop
deriving DecidableEq, Repr

/-- `struct crtx_thread`. `start` and `finished` are the conditions of the two signals, and `n_refs` belongs to
`finished`. A job is named by the number of its assignment. -/
structure Thread where
  stop : Bool
  in_use : Bool
  start : Bool
  finished : Bool
  n_refs : Nat
  job : Option Nat
  pc : Pc
deriving DecidableEq, Repr

/-- The pool while `crtx_threads_stop_all` has not been called. `do_stop` says which jobs have a function of that
name, `stops` are the calls of `crtx_threads_stop` under way, each with its thread, and `crashed` is set where a null
pointer is followed. `assigned` counts the assignments. The other fields are history: which jobs were started and
executed, which thread was handed out and where its main loop was, and which jobs have a thread that was not yet
released. -/
structure Pool where
  n_threads : Nat
  threads : Nat → Thread
  do_stop : Nat → Bool
  stops : List (Nat × StopLine)
  crashed : Bool
  assigned : Nat
  started : List Nat
  executed : List Nat
  handouts : List (Nat × Pc)
  owners : List (Nat × Nat)

/-- `stop` calls `crtx_threads_stop`, and `stopLine k` is the next line of the `k`-th call under way. -/
inductive Action where
  | assign
  | start (i : Nat)
  | stop (i : Nat)
  | stopLine (k : Nat)
  | reference (i : Nat)
  | dereference (i : Nat)
  | worker (i : Nat)
deriving DecidableEq

/-- What `spawn_thread` creates. -/
def spawned : Thread where
  stop := false
  in_use := false
  start := false
  finished := false
  n_refs := 0
  job := none
  pc := .loopTest

def Pool.set (s : Pool) (i : Nat) (t : Thread) : Pool := { s with threads := Function.update s.threads i t }

def firstFree (s : Pool) : Option Nat := (List.range s.n_threads).find? fun i => !(s.threads i).in_use

/-- `get_thread_intern(0)`, which holds `pool_mutex` throughout. -/
def get_thread_intern (s : Pool) : Pool × Nat :=
  match firstFree s with
  | some i => (s.set i { s.threads i with in_use := true }, i)
  | none => ({ s.set s.n_threads { spawned with in_use := true } with n_threads := s.n_threads + 1 }, s.n_threads)

/-- The job is set right after `pool_mutex` was released. Nobody but the caller knows that the thread is its own, so
both are one step. -/
def crtx_thread_assign_job (s : Pool) : Pool :=
  let (s', i) := get_thread_intern s
  let t := s'.threads i
  { s'.set i { t with job := some s.assigned } with
    assigned := s.assigned + 1
    handouts := (i, t.pc) :: s.handouts
    owners := (i, s.assigned) :: s.owners }

def crtx_thread_start_job (t : Thread) : Thread := { t with start := true }

def setStop (t : Thread) : Thread := { t with stop := true }

/-- The next line of `crtx_threads_stop`, and the one after it, if any. Each of the last three reads `t->job` again.
`none`: it was set at the first of them, and is no more. -/
def crtx_threads_stop (do_stop : Nat → Bool) (t : Thread) : StopLine → Option (Thread × Option StopLine)
  | .setStop => some (setStop t, some .startJob)
  | .startJob => some (crtx_thread_start_job t, some .testJob)
  | .testJob => some (t, t.job.map fun _ => .testDoStop)
  | .testDoStop => t.job.map fun j => (t, if do_stop j then some .callDoStop else none)
  | .callDoStop => t.job.map fun _ => (t, none)

/-- The next line of `crtx_thread_tmain`, or `none` if it has to wait. The last lines, under `pool_mutex`, are one step:
only `crtx_threads_stop` may come between them, and a thread that it has stopped does not wait for `start` again. -/
def crtx_thread_tmain (t : Thread) : Option Thread :=
  match t.pc with
  | .loopTest => some { t with pc := if t.stop then .exited else .waitStart }
  | .waitStart => if t.start then some { t with pc := .afterWait } else none
  | .afterWait => some (if t.stop then { t with pc := .exited, finished := true } else { t with pc := .callJob })
  | .callJob => some { t with pc := .running }
  | .running => some { t with pc := .sendFinished }
  | .sendFinished => some { t with pc := .onFinish, finished := true }
  | .onFinish => some { t with pc := .resetFinished }
  | .resetFinished => if t.n_refs = 0 then some { t with pc := .release, finished := false } else none
  | .release => some { t with pc := .loopTest, start := false, in_use := false, job := none }
  | .exited => none

/-- The line of `crtx_thread_tmain` follows `thread->job`, and there is none. -/
def Jobless (t : Thread) : Prop := (t.pc = .callJob ∨ t.pc = .onFinish) ∧ t.job = none

instance (t : Thread) : Decidable (Jobless t) := inferInstanceAs (Decidable (_ ∧ _))

/-- The job that the line begins to execute. -/
def begins (t : Thread) : List Nat := if t.pc = .callJob then t.job.toList else []

/-- The thread is given back to the pool, so its job no longer owns it. -/
def releaseOwner (owners : List (Nat × Nat)) (i : Nat) (t : Thread) : List (Nat × Nat) :=
  match t.pc, t.job with
  | .release, some j => owners.erase (i, j)
  | _, _ => owners

def workerStep (s : Pool) (i : Nat) : Option Pool :=
  if Jobless (s.threads i) then some { s with crashed := true }
  else
    (crtx_thread_tmain (s.threads i)).map fun t =>
      { s.set i t with
        executed := begins (s.threads i) ++ s.executed
        owners := releaseOwner s.owners i (s.threads i) }

/-- The `k`-th call of `crtx_threads_stop` goes on at `line`, or has returned. -/
def resume (stops : List (Nat × StopLine)) (k i : Nat) : Option StopLine → List (Nat × StopLine)
  | some line => stops.set k (i, line)
  | none => stops.eraseIdx k

def stopStep (s : Pool) (k i : Nat) (line : StopLine) : Pool :=
  match crtx_threads_stop s.do_stop (s.threads i) line with
  | some (t, next) => { s.set i t with stops := resume s.stops k i next }
  | none => { s with crashed := true }

/-- The caller that was given a thread starts its job once. Nothing happens after a crash. -/
def step (s : Pool) (a : Action) : Option Pool :=
  if s.crashed then none
  else
    match a with
    | .assign => some (crtx_thread_assign_job s)
    | .start i =>
      match (s.threads i).job with
      | some j =>
        if i < s.n_threads ∧ j ∉ s.started then
          some { s.set i (crtx_thread_start_job (s.threads i)) with started := j :: s.started }
        else none
      | none => none
    | .stop i => if i < s.n_threads then some { s with stops := s.stops ++ [(i, .setStop)] } else none
    | .stopLine k => (s.stops[k]?).map fun c => stopStep s k c.1 c.2
    | .reference i =>
      if i < s.n_threads then some (s.set i { s.threads i with n_refs := (s.threads i).n_refs + 1 }) else none
    | .dereference i =>
      if i < s.n_threads ∧ 0 < (s.threads i).n_refs then
        some (s.set i { s.threads i with n_refs := (s.threads i).n_refs - 1 })
      else none
    | .worker i => if i < s.n_threads then workerStep s i else none

/-- `crtx_threads_init` -/
def init (n : Nat) (do_stop : Nat → Bool) : Pool where
  n_threads := n
  threads _ := spawned
  do_stop := do_stop
  stops := []
  crashed := false
  assigned := 0
  started := []
  executed := []
  handouts := []
  owners := []

/-- Before the test of `thread->stop` that decides about the job. -/
def Pc.Waiting (pc : Pc) : Prop := pc = .loopTest ∨ pc = .waitStart ∨ pc = .afterWait

instance (pc : Pc) : Decidable pc.Waiting := inferInstanceAs (Decidable (_ ∨ _))

/-- The call has found a job, and will read `t->job` again. -/
def StopLine.Looks (line : StopLine) : Prop := line = .testDoStop ∨ line = .callDoStop

instance (line : StopLine) : Decidable line.Looks := inferInstanceAs (Decidable (_ ∨ _))

/-- The thread that a job gets was not stopped, nor is it when the job is started, and `stop` is not set between
this start and the test that decides about the job. The job is not taken off the thread while a call of
`crtx_threads_stop` looks at it. -/
def StopsLate (s : Pool) : Action → Prop
  | .assign => ∀ i ∈ firstFree s, (s.threads i).stop = false
  | .start i => (s.threads i).stop = false
  | .stopLine k => ∀ c ∈ s.stops[k]?, c.2 = .setStop → (s.threads c.1).pc.Waiting →
      ∀ j ∈ (s.threads c.1).job, j ∉ s.started
  | .worker i => (s.threads i).pc = .release → ∀ c ∈ s.stops, c.1 = i → ¬ c.2.Looks
  | _ => True

instance (s : Pool) : ∀ a, Decidable (StopsLate s a)
  | .assign => inferInstanceAs (Decidable (∀ i ∈ firstFree s, (s.threads i).stop = false))
  | .start _ => inferInstanceAs (Decidable (_ = _))
  | .stopLine k => inferInstanceAs (Decidable (∀ c ∈ s.stops[k]?, c.2 = .setStop → (s.threads c.1).pc.Waiting →
      ∀ j ∈ (s.threads c.1).job, j ∉ s.started))
  | .worker i => inferInstanceAs (Decidable ((s.threads i).pc = .release → ∀ c ∈ s.stops, c.1 = i → ¬ c.2.Looks))
  | .stop _ | .reference _ | .dereference _ => inferInstanceAs (Decidable True)

/-! ## The invariant -/

/-- The job has begun, and its thread was not given back since. -/
def Pc.Begun (pc : Pc) : Prop :=
  pc = .running ∨ pc = .sendFinished ∨ pc = .onFinish ∨ pc = .resetFinished ∨ pc = .release

instance (pc : Pc) : Decidable pc.Begun := inferInstanceAs (Decidable (_ ∨ _))

theorem Pc.cases (pc : Pc) : pc.Waiting ∨ pc = .callJob ∨ pc.Begun ∨ pc = .exited := by
  cases pc <;> decide

theorem Pc.Waiting.not_begun {pc : Pc} (h : pc.Waiting) : ¬ pc.Begun := by
  rcases h with rfl | rfl | rfl <;> decide

/-- What holds of one thread, given the number of assignments and the jobs that were started and executed. -/
structure ThreadOk (assigned : Nat) (started executed : List Nat) (t : Thread) : Prop where
  exited : t.pc = .exited → t.stop = true
  used : t.in_use = true ↔ t.job ≠ none
  woken : t.pc = .afterWait → t.start = true
  called : t.pc.Waiting → t.start = true → t.stop = false → ∃ j, t.job = some j ∧ j ∈ started
  ready : ∀ j, t.job = some j → t.pc.Waiting → j ∈ started → t.start = true ∧ t.stop = false
  decided : t.pc = .callJob → ∃ j, t.job = some j ∧ j ∈ started
  todo : ∀ j, t.job = some j → ¬ t.pc.Begun → j ∉ executed
  lost : ∀ j, t.job = some j → t.pc = .exited → j ∉ started
  busy : t.pc.Begun → ∃ j, t.job = some j ∧ j ∈ executed
  old : ∀ j, t.job = some j → j < assigned

/-- What a call of `crtx_threads_stop` at this line knows about its thread. -/
structure StopOk (t : Thread) (line : StopLine) : Prop where
  stop : line ≠ .setStop → t.stop = true
  job : line.Looks → t.job ≠ none

structure Inv (s : Pool) : Prop where
  alive : s.crashed = false
  stops : ∀ c ∈ s.stops, c.1 < s.n_threads ∧ StopOk (s.threads c.1) c.2
  threads : ∀ i < s.n_threads, ThreadOk s.assigned s.started s.executed (s.threads i)
  inj : ∀ i i' j, i < s.n_threads → i' < s.n_threads → (s.threads i).job = some j → (s.threads i').job = some j → i = i'
  executed_nodup : s.executed.Nodup
  executed_started : ∀ j ∈ s.executed, j ∈ s.started
  started_old : ∀ j ∈ s.started, j < s.assigned
  done : ∀ j ∈ s.started, (∀ i < s.n_threads, (s.threads i).job ≠ some j) → j ∈ s.executed
  owners_nodup : s.owners.Nodup
  owners : ∀ i j, (i, j) ∈ s.owners ↔ i < s.n_threads ∧ (s.threads i).job = some j
  handouts : ∀ h ∈ s.handouts, h.2 ≠ .exited

theorem spawned_ok (assigned : Nat) (started executed : List Nat) : ThreadOk assigned started executed spawned := by
  constructor <;> simp [spawned, Pc.Waiting, Pc.Begun]

theorem init_inv (n : Nat) (do_stop : Nat → Bool) : Inv (init n do_stop) := by
  have hthreads : ∀ i < (init n do_stop).n_threads, ThreadOk 0 [] [] spawned := fun _ _ => spawned_ok 0 [] []
  constructor
  case threads => exact hthreads
  all_goals simp [init, spawned]

namespace ThreadOk

variable {assigned : Nat} {started executed : List Nat} {t : Thread}

theorem assign_other (h : ThreadOk assigned started executed t) : ThreadOk (assigned + 1) started executed t :=
  { h with old := fun j hj => Nat.lt_succ_of_lt (h.old j hj) }

theorem assign (h : ThreadOk assigned started executed t) (hjob : t.job = none) (hns : assigned ∉ started)
    (hne : assigned ∉ executed) :
    ThreadOk (assigned + 1) started executed { t with in_use := true, job := some assigned } := by
  constructor
  · exact h.exited
  · simp
  · exact h.woken
  · intro hw h1 h2
    obtain ⟨j, hj, _⟩ := h.called hw h1 h2
    rw [hjob] at hj
    cases hj
  · intro j hj _ hs
    cases hj
    exact absurd hs hns
  · intro hw
    obtain ⟨j, hj, _⟩ := h.decided hw
    rw [hjob] at hj
    cases hj
  · intro j hj _
    cases hj
    exact hne
  · intro j hj _
    cases hj
    exact hns
  · intro hw
    obtain ⟨j, hj, _⟩ := h.busy hw
    rw [hjob] at hj
    cases hj
  · intro j hj
    cases hj
    exact Nat.lt_succ_self _

theorem start_other (h : ThreadOk assigned started executed t) {j : Nat} (hj : t.job ≠ some j) :
    ThreadOk assigned (j :: started) executed t := by
  have hne : ∀ k, t.job = some k → k ≠ j := by
    rintro k hk rfl
    exact hj hk
  refine { h with called := ?_, ready := ?_, decided := ?_, lost := ?_ }
  · intro hw h1 h2
    obtain ⟨k, hk, hs⟩ := h.called hw h1 h2
    exact ⟨k, hk, List.mem_cons_of_mem _ hs⟩
  · intro k hk hw hs
    exact h.ready k hk hw ((List.mem_cons.mp hs).resolve_left (hne k hk))
  · intro hw
    obtain ⟨k, hk, hs⟩ := h.decided hw
    exact ⟨k, hk, List.mem_cons_of_mem _ hs⟩
  · intro k hk hw hs
    exact h.lost k hk hw ((List.mem_cons.mp hs).resolve_left (hne k hk))

theorem execute_other (h : ThreadOk assigned started executed t) {l : List Nat} (hl : ∀ j ∈ l, t.job ≠ some j) :
    ThreadOk assigned started (l ++ executed) t := by
  refine { h with todo := ?_, busy := ?_ }
  · intro k hk hw hs
    rcases List.mem_append.mp hs with hs | hs
    · exact hl k hs hk
    · exact h.todo k hk hw hs
  · intro hw
    obtain ⟨k, hk, hs⟩ := h.busy hw
    exact ⟨k, hk, List.mem_append_right _ hs⟩

end ThreadOk

@[simp] theorem set_threads_self (s : Pool) (i : Nat) (t : Thread) : (s.set i t).threads i = t :=
  Function.update_self ..

@[simp] theorem set_n_threads (s : Pool) (i : Nat) (t : Thread) : (s.set i t).n_threads = s.n_threads := rfl

theorem set_threads_other (s : Pool) {i k : Nat} (h : k ≠ i) (t : Thread) : (s.set i t).threads k = s.threads k :=
  Function.update_of_ne h ..

theorem firstFree_some {s : Pool} {i : Nat} (h : firstFree s = some i) :
    i < s.n_threads ∧ (s.threads i).in_use = false := by
  unfold firstFree at h
  have hmem := List.mem_of_find?_eq_some h
  have hp := List.find?_some h
  exact ⟨List.mem_range.mp hmem, by simpa using hp⟩

theorem jobs_set {s : Pool} {i : Nat} {t : Thread} (hjob : t.job = (s.threads i).job) (k : Nat) :
    ((s.set i t).threads k).job = (s.threads k).job := by
  by_cases hk : k = i
  · subst hk
    rw [set_threads_self, hjob]
  · rw [set_threads_other _ hk]

theorem Inv.stops_set {s : Pool} {i : Nat} {t : Thread} (hi : Inv s) (hstop : (s.threads i).stop = true → t.stop = true)
    (hjob : ∀ c ∈ s.stops, c.1 = i → c.2.Looks → t.job ≠ none) :
    ∀ c ∈ s.stops, c.1 < s.n_threads ∧ StopOk ((s.set i t).threads c.1) c.2 := by
  intro c hc
  obtain ⟨hlt, hok⟩ := hi.stops c hc
  refine ⟨hlt, ?_⟩
  by_cases hci : c.1 = i
  · rw [hci] at hok ⊢
    rw [set_threads_self]
    exact ⟨fun hl => hstop (hok.stop hl), hjob c hc hci⟩
  · rw [set_threads_other _ hci]
    exact hok

theorem Inv.stops_move {s : Pool} {i : Nat} {t : Thread} (hi : Inv s)
    (hstop : (s.threads i).stop = true → t.stop = true)
    (hjob : t.job = (s.threads i).job) : ∀ c ∈ s.stops, c.1 < s.n_threads ∧ StopOk ((s.set i t).threads c.1) c.2 := by
  apply hi.stops_set hstop
  rintro c hc rfl hl
  rw [hjob]
  exact (hi.stops c hc).2.job hl

theorem Inv.move {s : Pool} {i : Nat} {t : Thread} (hi : Inv s) (hjob : t.job = (s.threads i).job)
    (hstop : (s.threads i).stop = true → t.stop = true) (hok : ThreadOk s.assigned s.started s.executed t) :
    Inv (s.set i t) := by
  have hjobs := jobs_set hjob
  refine { hi with stops := hi.stops_move hstop hjob, threads := ?_, inj := ?_, done := ?_, owners := ?_ }
  · intro k hk
    by_cases hki : k = i
    · subst hki
      rw [set_threads_self]
      exact hok
    · rw [set_threads_other _ hki]
      exact hi.threads k hk
  · intro k k' j hk hk' h h'
    rw [hjobs] at h h'
    exact hi.inj k k' j hk hk' h h'
  · intro j hj hnone
    apply hi.done j hj
    intro k hk
    rw [← hjobs]
    exact hnone k hk
  · intro k j
    rw [hjobs]
    exact hi.owners k j

theorem start_inv {s : Pool} {i j : Nat} (hi : Inv s) (hlt : i < s.n_threads) (hj : (s.threads i).job = some j)
    (hns : j ∉ s.started) (hstop : (s.threads i).stop = false) :
    Inv { s.set i (crtx_thread_start_job (s.threads i)) with started := j :: s.started } := by
  have hjobs := jobs_set (s := s) (i := i) (t := crtx_thread_start_job (s.threads i)) rfl
  have hok := hi.threads i hlt
  refine { hi with stops := hi.stops_move id rfl, threads := ?_, inj := ?_, executed_started := ?_, started_old := ?_,
                   done := ?_, owners := ?_ }
  · intro k hk
    by_cases hki : k = i
    · subst hki
      simp only [set_threads_self]
      refine { hok with woken := ?_, called := ?_, ready := ?_, decided := ?_, lost := ?_ }
      · intro _
        rfl
      · intro _ _ _
        exact ⟨j, hj, List.mem_cons_self ..⟩
      · intro j' hj' _ _
        exact ⟨rfl, hstop⟩
      · intro _
        exact ⟨j, hj, List.mem_cons_self ..⟩
      · intro j' hj' hex
        have := hok.exited hex
        rw [hstop] at this
        exact absurd this (by decide)
    · simp only [set_threads_other _ hki]
      apply (hi.threads k hk).start_other
      intro h
      exact hki (hi.inj k i j hk hlt h hj)
  · intro k k' j' hk hk' h h'
    simp only [hjobs] at h h'
    exact hi.inj k k' j' hk hk' h h'
  · intro j' h
    exact List.mem_cons_of_mem _ (hi.executed_started j' h)
  · intro j' h
    rcases List.mem_cons.mp h with rfl | h
    · exact hok.old j' hj
    · exact hi.started_old j' h
  · intro j' h hnone
    simp only [hjobs] at hnone
    rcases List.mem_cons.mp h with rfl | h
    · exact absurd hj (hnone i hlt)
    · exact hi.done j' h hnone
  · intro k j'
    simp only [hjobs]
    exact hi.owners k j'

/-! ## The calls of `crtx_threads_stop` -/

theorem setStop_inv {s : Pool} {i : Nat} (hi : Inv s) (hlt : i < s.n_threads)
    (hlate : (s.threads i).pc.Waiting → ∀ j ∈ (s.threads i).job, j ∉ s.started) :
    Inv (s.set i (setStop (s.threads i))) := by
  have hok := hi.threads i hlt
  refine hi.move rfl (fun _ => rfl) { hok with exited := ?_, called := ?_, ready := ?_ }
  · intro _
    rfl
  · intro _ _ h
    exact Bool.noConfusion h
  · intro j hj hw hs
    exact absurd hs (hlate hw j hj)

theorem wake_inv {s : Pool} {i : Nat} (hi : Inv s) (hlt : i < s.n_threads) (hstop : (s.threads i).stop = true) :
    Inv (s.set i (crtx_thread_start_job (s.threads i))) := by
  have hok := hi.threads i hlt
  refine hi.move rfl id { hok with woken := ?_, called := ?_, ready := ?_ }
  · intro _
    rfl
  · intro _ _ h
    exact absurd hstop (by simpa [crtx_thread_start_job] using h)
  · intro j hj hw hs
    exact ⟨rfl, (hok.ready j hj hw hs).2⟩

theorem mem_resume {stops : List (Nat × StopLine)} {k i : Nat} {next : Option StopLine} {c : Nat × StopLine}
    (h : c ∈ resume stops k i next) : c ∈ stops ∨ ∃ line, next = some line ∧ c = (i, line) := by
  cases next with
  | some line => exact (List.mem_or_eq_of_mem_set h).imp_right fun heq => ⟨line, rfl, heq⟩
  | none => exact .inl (List.mem_of_mem_eraseIdx h)

theorem Inv.resume {s : Pool} (hi : Inv s) (k : Nat) {i : Nat} {next : Option StopLine} (hlt : i < s.n_threads)
    (hnext : ∀ line, next = some line → StopOk (s.threads i) line) :
    Inv { s with stops := resume s.stops k i next } := by
  refine { hi with stops := ?_ }
  intro c hc
  rcases mem_resume hc with hc | ⟨line, hline, rfl⟩
  · exact hi.stops c hc
  · exact ⟨hlt, hnext line hline⟩

/-- What a line of `crtx_threads_stop` does. It finds the job that an earlier one has found. -/
theorem StopOk.stop_line {t : Thread} {line : StopLine} (h : StopOk t line) (do_stop : Nat → Bool) :
    ∃ t' next, crtx_threads_stop do_stop t line = some (t', next) ∧
      (line = .setStop ∧ t' = setStop t ∨ t.stop = true ∧ t' = crtx_thread_start_job t ∨ t' = t) ∧
      ∀ l, next = some l → StopOk t' l := by
  unfold crtx_threads_stop
  cases line with
  | setStop =>
    refine ⟨_, _, rfl, .inl ⟨rfl, rfl⟩, ?_⟩
    rintro l ⟨⟩
    exact ⟨fun _ => rfl, by simp [StopLine.Looks]⟩
  | startJob =>
    have hstop : t.stop = true := h.stop (by simp)
    refine ⟨_, _, rfl, .inr (.inl ⟨hstop, rfl⟩), ?_⟩
    rintro l ⟨⟩
    exact ⟨fun _ => hstop, by simp [StopLine.Looks]⟩
  | testJob =>
    refine ⟨_, _, rfl, .inr (.inr rfl), ?_⟩
    intro l hl
    obtain ⟨j, hj, rfl⟩ := Option.map_eq_some_iff.mp hl
    exact ⟨fun _ => h.stop (by simp), by simp [hj]⟩
  | testDoStop =>
    have hjob := h.job (.inl rfl)
    obtain ⟨j, hj⟩ := Option.ne_none_iff_exists'.mp hjob
    refine ⟨_, _, by rw [hj]; rfl, .inr (.inr rfl), ?_⟩
    intro l hl
    simp only [Option.ite_none_right_eq_some, Option.some.injEq] at hl
    obtain ⟨_, rfl⟩ := hl
    exact ⟨fun _ => h.stop (by simp), fun _ => hjob⟩
  | callDoStop =>
    obtain ⟨j, hj⟩ := Option.ne_none_iff_exists'.mp (h.job (.inr rfl))
    exact ⟨_, _, by rw [hj]; rfl, .inr (.inr rfl), by simp⟩

theorem set_same (s : Pool) (i : Nat) : s.set i (s.threads i) = s := by simp [Pool.set]

theorem stopStep_inv {s : Pool} {k i : Nat} {line : StopLine} (hi : Inv s) (hk : s.stops[k]? = some (i, line))
    (hlate : line = .setStop → (s.threads i).pc.Waiting → ∀ j ∈ (s.threads i).job, j ∉ s.started) :
    Inv (stopStep s k i line) := by
  obtain ⟨hlt, hok⟩ := hi.stops (i, line) (List.mem_of_getElem? hk)
  obtain ⟨t, next, heq, hdoes, hnext⟩ := hok.stop_line s.do_stop
  have hset : Inv (s.set i t) := by
    rcases hdoes with ⟨hline, rfl⟩ | ⟨hstop, rfl⟩ | rfl
    · exact setStop_inv hi hlt (hlate hline)
    · exact wake_inv hi hlt hstop
    · rwa [set_same]
  unfold stopStep
  rw [heq]
  apply hset.resume k hlt
  rwa [set_threads_self]

/-! ## The assignment of jobs -/

theorem get_thread_intern_spec {s : Pool} (hi : Inv s) (hok : ∀ i ∈ firstFree s, (s.threads i).stop = false) :
    ∃ t n, ThreadOk s.assigned s.started s.executed t ∧ t.job = none ∧ t.stop = false ∧ t.pc ≠ .exited ∧
      s.n_threads ≤ n ∧ (get_thread_intern s).2 < n ∧ (∀ k < n, k ≠ (get_thread_intern s).2 → k < s.n_threads) ∧
      (∀ k < s.n_threads, k = (get_thread_intern s).2 → s.threads k = t) ∧
      (get_thread_intern s).1 = { s.set (get_thread_intern s).2 { t with in_use := true } with n_threads := n } := by
  unfold get_thread_intern
  cases hfree : firstFree s with
  | some i =>
    obtain ⟨hlt, huse⟩ := firstFree_some hfree
    have ht := hi.threads i hlt
    have hjob : (s.threads i).job = none := by
      by_contra h
      rw [ht.used.mpr h] at huse
      exact absurd huse (by decide)
    have hstop := hok i hfree
    refine ⟨s.threads i, s.n_threads, ht, hjob, hstop, ?_, Nat.le_refl _, hlt, ?_, ?_, rfl⟩
    · intro h
      rw [ht.exited h] at hstop
      exact absurd hstop (by decide)
    · intro k hk _
      exact hk
    · rintro k _ rfl
      rfl
  | none =>
    refine ⟨spawned, s.n_threads + 1, spawned_ok _ _ _, rfl, rfl, by decide, by omega, by simp, ?_, ?_, rfl⟩
    · intro k hk hne
      simp only at hne
      omega
    · intro k hk h
      simp only at h
      omega

theorem Inv.fresh {s : Pool} (hi : Inv s) {k : Nat} (hk : k < s.n_threads) : (s.threads k).job ≠ some s.assigned :=
  fun h => Nat.lt_irrefl _ ((hi.threads k hk).old _ h)

theorem Inv.inj_assign {s : Pool} (hi : Inv s) {i n : Nat} {jobs : Nat → Option Nat} (hself : jobs i = some s.assigned)
    (hjobs : ∀ k, k ≠ i → jobs k = (s.threads k).job) (hothers : ∀ k < n, k ≠ i → k < s.n_threads) :
    ∀ k k' j, k < n → k' < n → jobs k = some j → jobs k' = some j → k = k' := by
  have hnot : ∀ k < n, k ≠ i → jobs k ≠ some s.assigned := by
    intro k hk hki
    rw [hjobs k hki]
    exact hi.fresh (hothers k hk hki)
  intro k k' j hk hk' h h'
  by_cases hki : k = i
  · rw [hki, hself] at h
    cases h
    by_cases hki' : k' = i
    · rw [hki, hki']
    · exact absurd h' (hnot k' hk' hki')
  · by_cases hki' : k' = i
    · rw [hki', hself] at h'
      cases h'
      exact absurd h (hnot k hk hki)
    · rw [hjobs k hki] at h
      rw [hjobs k' hki'] at h'
      exact hi.inj k k' j (hothers k hk hki) (hothers k' hk' hki') h h'

theorem Inv.owners_assign {s : Pool} (hi : Inv s) {i n : Nat} {jobs : Nat → Option Nat}
    (hself : jobs i = some s.assigned) (hjobs : ∀ k, k ≠ i → jobs k = (s.threads k).job) (hlt : i < n)
    (hn : s.n_threads ≤ n) (hothers : ∀ k < n, k ≠ i → k < s.n_threads)
    (hnone : ∀ k < s.n_threads, k = i → (s.threads k).job = none) (k j : Nat) :
    (k, j) ∈ (i, s.assigned) :: s.owners ↔ k < n ∧ jobs k = some j := by
  rw [List.mem_cons, hi.owners]
  by_cases hki : k = i
  · subst hki
    simp only [hself, Prod.mk.injEq, Option.some.injEq, true_and]
    constructor
    · rintro (rfl | ⟨hk, hj⟩)
      · exact ⟨hlt, rfl⟩
      · rw [hnone k hk rfl] at hj
        cases hj
    · rintro ⟨_, rfl⟩
      exact Or.inl rfl
  · simp only [hjobs k hki, Prod.mk.injEq, hki, false_and, false_or]
    constructor
    · rintro ⟨hk, hj⟩
      exact ⟨Nat.lt_of_lt_of_le hk hn, hj⟩
    · rintro ⟨hk, hj⟩
      exact ⟨hothers k hk hki, hj⟩

theorem assign_inv {s : Pool} (hi : Inv s) (hok : ∀ i ∈ firstFree s, (s.threads i).stop = false) :
    Inv (crtx_thread_assign_job s) := by
  obtain ⟨t, n, ht, hjob, hstop, hpc, hn, hlt, hothers, hself, heq⟩ := get_thread_intern_spec hi hok
  generalize hi' : (get_thread_intern s).2 = i at *
  let t' : Thread := { t with in_use := true, job := some s.assigned }
  have hassign : crtx_thread_assign_job s =
      { s.set i t' with
        n_threads := n
        assigned := s.assigned + 1
        handouts := (i, t.pc) :: s.handouts
        owners := (i, s.assigned) :: s.owners } := by
    unfold crtx_thread_assign_job
    rw [show get_thread_intern s = ((get_thread_intern s).1, i) by rw [← hi'], heq]
    simp [Pool.set, t']
  have hjob_self : ∀ k < s.n_threads, k = i → (s.threads k).job = none := by
    intro k hk hki
    rw [hself k hk hki, hjob]
  have hnew : ((s.set i t').threads i).job = some s.assigned := by rw [set_threads_self]
  have hjobs : ∀ k, k ≠ i → ((s.set i t').threads k).job = (s.threads k).job := by
    intro k hk
    rw [set_threads_other _ hk]
  rw [hassign]
  constructor
  · exact hi.alive
  · -- A call of `crtx_threads_stop` is about a thread that was there before, and that had no job if it is this one.
    intro c hc
    obtain ⟨hcn, hcok⟩ := hi.stops c hc
    refine ⟨Nat.lt_of_lt_of_le hcn hn, ?_⟩
    by_cases hci : c.1 = i
    · rw [hself c.1 hcn hci] at hcok
      simp only [hci, set_threads_self]
      exact ⟨hcok.stop, by simp [t']⟩
    · simp only [set_threads_other _ hci]
      exact hcok
  · intro k hk
    by_cases hki : k = i
    · subst hki
      simp only [set_threads_self]
      -- The job is new, so it was neither started nor executed.
      have hns : s.assigned ∉ s.started := fun h => Nat.lt_irrefl _ (hi.started_old _ h)
      exact ht.assign hjob hns fun h => hns (hi.executed_started _ h)
    · simp only [set_threads_other _ hki]
      exact (hi.threads k (hothers k hk hki)).assign_other
  · exact hi.inj_assign hnew hjobs hothers
  · exact hi.executed_nodup
  · exact hi.executed_started
  · intro j hj
    exact Nat.lt_succ_of_lt (hi.started_old j hj)
  · intro j hj hnone
    apply hi.done j hj
    intro k hk h
    by_cases hki : k = i
    · rw [hjob_self k hk hki] at h
      cases h
    · apply hnone k (Nat.lt_of_lt_of_le hk hn)
      rw [hjobs k hki]
      exact h
  · refine List.nodup_cons.mpr ⟨?_, hi.owners_nodup⟩
    intro h
    obtain ⟨hk, hj⟩ := (hi.owners _ _).mp h
    exact hi.fresh hk hj
  · exact hi.owners_assign hnew hjobs hlt hn hothers hjob_self
  · intro h hh
    rcases List.mem_cons.mp hh with rfl | hh
    · exact hpc
    · exact hi.handouts h hh

/-! ## The worker -/

namespace ThreadOk

variable {assigned : Nat} {started executed : List Nat} {t : Thread}

theorem goOnWaiting (hok : ThreadOk assigned started executed t) (hw : t.pc.Waiting) {pc : Pc} (hw' : pc.Waiting)
    (hst : pc = .afterWait → t.start = true) : ThreadOk assigned started executed { t with pc } := by
  refine { hok with exited := ?_, woken := hst, called := ?_, ready := ?_, decided := ?_, todo := ?_, lost := ?_,
                    busy := ?_ }
  · rintro rfl
    simp [Pc.Waiting] at hw'
  · intro _
    exact hok.called hw
  · intro j hj _
    exact hok.ready j hj hw
  · rintro rfl
    simp [Pc.Waiting] at hw'
  · intro j hj _
    exact hok.todo j hj hw.not_begun
  · rintro j _ rfl
    simp [Pc.Waiting] at hw'
  · intro h
    exact absurd h hw'.not_begun

theorem leave (hok : ThreadOk assigned started executed t) (hw : t.pc.Waiting) (hstop : t.stop = true)
    (finished : Bool) : ThreadOk assigned started executed { t with pc := .exited, finished } := by
  have hnw : ¬ Pc.exited.Waiting := by decide
  refine { hok with exited := ?_, woken := nofun, called := ?_, ready := ?_, decided := nofun, todo := ?_, lost := ?_,
                    busy := ?_ }
  · intro _
    exact hstop
  · intro h
    exact absurd h hnw
  · intro j _ h
    exact absurd h hnw
  · intro j hj _
    exact hok.todo j hj hw.not_begun
  · intro j hj _ hs
    have := (hok.ready j hj hw hs).2
    rw [hstop] at this
    cases this
  · intro h
    exact absurd h (show ¬ Pc.exited.Begun by decide)

theorem goOnCalling (hok : ThreadOk assigned started executed t) (hpc : t.pc = .afterWait) (hstop : t.stop = false) :
    ThreadOk assigned started executed { t with pc := .callJob } := by
  have hw : t.pc.Waiting := .inr (.inr hpc)
  have hnw : ¬ Pc.callJob.Waiting := by decide
  refine { hok with exited := nofun, woken := nofun, called := ?_, ready := ?_, decided := ?_, todo := ?_,
                    lost := nofun, busy := ?_ }
  · intro h
    exact absurd h hnw
  · intro j _ h
    exact absurd h hnw
  · intro _
    exact hok.called hw (hok.woken hpc) hstop
  · intro j hj _
    exact hok.todo j hj hw.not_begun
  · intro h
    exact absurd h (show ¬ Pc.callJob.Begun by decide)

theorem execute (hok : ThreadOk assigned started executed t) {j : Nat} (hj : t.job = some j) :
    ThreadOk assigned started (j :: executed) { t with pc := .running } := by
  have hnw : ¬ Pc.running.Waiting := by decide
  have hb : Pc.running.Begun := .inl rfl
  refine { hok with exited := nofun, woken := nofun, called := ?_, ready := ?_, decided := nofun, todo := ?_,
                    lost := nofun, busy := ?_ }
  · intro h
    exact absurd h hnw
  · intro _ _ h
    exact absurd h hnw
  · intro _ _ h
    exact absurd hb h
  · intro _
    exact ⟨j, hj, List.mem_cons_self ..⟩

theorem goOnBusy (hok : ThreadOk assigned started executed t) (hb : t.pc.Begun) {pc : Pc} (hb' : pc.Begun)
    (finished : Bool) : ThreadOk assigned started executed { t with pc, finished } := by
  have hnw : ¬ pc.Waiting := fun h => h.not_begun hb'
  refine { hok with exited := ?_, woken := ?_, called := ?_, ready := ?_, decided := ?_, todo := ?_, lost := ?_,
                    busy := ?_ }
  · rintro rfl
    simp [Pc.Begun] at hb'
  · rintro rfl
    simp [Pc.Begun] at hb'
  · intro h
    exact absurd h hnw
  · intro j _ h
    exact absurd h hnw
  · rintro rfl
    simp [Pc.Begun] at hb'
  · intro j _ h
    exact absurd hb' h
  · rintro j _ rfl
    simp [Pc.Begun] at hb'
  · intro _
    exact hok.busy hb

theorem not_jobless (hok : ThreadOk assigned started executed t) : ¬ Jobless t := by
  rintro ⟨hpc | hpc, hnone⟩
  · obtain ⟨j, hj, _⟩ := hok.decided hpc
    simp [hnone] at hj
  · obtain ⟨j, hj, _⟩ := hok.busy (by simp [Pc.Begun, hpc])
    simp [hnone] at hj

end ThreadOk

theorem begin_inv {s : Pool} {i : Nat} (hi : Inv s) (hlt : i < s.n_threads) (hpc : (s.threads i).pc = .callJob) :
    Inv { s.set i { s.threads i with pc := .running } with executed := begins (s.threads i) ++ s.executed } := by
  have hok := hi.threads i hlt
  obtain ⟨j, hj, hs⟩ := hok.decided hpc
  have hbegins : begins (s.threads i) = [j] := by simp [begins, hpc, hj]
  have hjobs := jobs_set (s := s) (i := i) (t := { s.threads i with pc := .running }) rfl
  have hnj := hok.todo j hj (by rw [hpc]; decide)
  rw [hbegins]
  refine { hi with stops := hi.stops_move id rfl, threads := ?_, inj := ?_, executed_nodup := ?_,
                   executed_started := ?_, done := ?_, owners := ?_ }
  · intro k hk
    by_cases hki : k = i
    · subst hki
      simp only [set_threads_self]
      exact hok.execute hj
    · simp only [set_threads_other _ hki]
      apply (hi.threads k hk).execute_other
      intro j' hj' h
      obtain rfl := List.mem_singleton.mp hj'
      exact hki (hi.inj k i j' hk hlt h hj)
  · intro k k' j' hk hk' h h'
    simp only [hjobs] at h h'
    exact hi.inj k k' j' hk hk' h h'
  · exact List.nodup_cons.mpr ⟨hnj, hi.executed_nodup⟩
  · intro j' h
    rcases List.mem_cons.mp h with rfl | h
    · exact hs
    · exact hi.executed_started j' h
  · intro j' h hnone
    simp only [hjobs] at hnone
    exact List.mem_cons_of_mem _ (hi.done j' h hnone)
  · intro k j'
    simp only [hjobs]
    exact hi.owners k j'

theorem release_inv {s : Pool} {i : Nat} (hi : Inv s) (hlt : i < s.n_threads) (hpc : (s.threads i).pc = .release)
    (hlook : ∀ c ∈ s.stops, c.1 = i → ¬ c.2.Looks) :
    Inv { s.set i { s.threads i with pc := .loopTest, start := false, in_use := false, job := none } with
      owners := releaseOwner s.owners i (s.threads i) } := by
  have hok := hi.threads i hlt
  obtain ⟨j, hj, hexec⟩ := hok.busy (by rw [hpc]; decide)
  have hrel : releaseOwner s.owners i (s.threads i) = s.owners.erase (i, j) := by simp [releaseOwner, hpc, hj]
  rw [hrel]
  have hstops := hi.stops_set (i := i)
    (t := { s.threads i with pc := .loopTest, start := false, in_use := false, job := none }) id
    fun c hc hci hl => absurd hl (hlook c hc hci)
  refine { hi with stops := hstops, threads := ?_, inj := ?_, done := ?_, owners_nodup := ?_, owners := ?_ }
  · intro k hk
    by_cases hki : k = i
    · subst hki
      simp only [set_threads_self]
      constructor <;> simp [Pc.Waiting, Pc.Begun]
    · simp only [set_threads_other _ hki]
      exact hi.threads k hk
  · intro k k' j' hk hk' h h'
    by_cases hki : k = i
    · subst hki
      simp at h
    · by_cases hki' : k' = i
      · subst hki'
        simp at h'
      · simp only [set_threads_other _ hki] at h
        simp only [set_threads_other _ hki'] at h'
        exact hi.inj k k' j' hk hk' h h'
  · intro j' h hnone
    by_cases hjj : j' = j
    · rw [hjj]
      exact hexec
    · apply hi.done j' h
      intro k hk hkj
      by_cases hki : k = i
      · subst hki
        rw [hj] at hkj
        exact hjj (Option.some.inj hkj).symm
      · apply hnone k hk
        simp only [set_threads_other _ hki]
        exact hkj
  · exact hi.owners_nodup.erase _
  · intro k j'
    rw [hi.owners_nodup.mem_erase_iff, hi.owners]
    by_cases hki : k = i
    · subst hki
      simp [hj]
      grind
    · simp [set_threads_other _ hki, hki]

theorem worker_inv {s s' : Pool} {i : Nat} (hi : Inv s) (hlt : i < s.n_threads)
    (hlook : (s.threads i).pc = .release → ∀ c ∈ s.stops, c.1 = i → ¬ c.2.Looks) (h : workerStep s i = some s') :
    Inv s' := by
  have hok := hi.threads i hlt
  unfold workerStep at h
  rw [if_neg hok.not_jobless] at h
  obtain ⟨t, ht, rfl⟩ := Option.map_eq_some_iff.mp h
  have hsame : (s.threads i).pc ≠ .callJob → begins (s.threads i) = [] := by
    intro h
    simp [begins, h]
  have hkeep : (s.threads i).pc ≠ .release → releaseOwner s.owners i (s.threads i) = s.owners := by
    intro h
    unfold releaseOwner
    split
    · rename_i h' _
      exact absurd h' h
    · rfl
  unfold crtx_thread_tmain at ht
  cases hpc : (s.threads i).pc with
  | loopTest =>
    rw [hsame (by rw [hpc]; decide), hkeep (by rw [hpc]; decide)]
    simp only [hpc, Option.some.injEq] at ht
    subst ht
    have hw : (s.threads i).pc.Waiting := Or.inl hpc
    refine hi.move rfl id ?_
    by_cases hstop : (s.threads i).stop = true
    · rw [if_pos hstop]
      exact hok.leave hw hstop _
    · rw [if_neg hstop]
      exact hok.goOnWaiting hw (Or.inr (Or.inl rfl)) (by simp)
  | waitStart =>
    rw [hsame (by rw [hpc]; decide), hkeep (by rw [hpc]; decide)]
    simp only [hpc] at ht
    split at ht
    · rename_i hstart
      cases ht
      exact hi.move rfl id (hok.goOnWaiting (Or.inr (Or.inl hpc)) (Or.inr (Or.inr rfl)) (fun _ => hstart))
    · cases ht
  | afterWait =>
    rw [hsame (by rw [hpc]; decide), hkeep (by rw [hpc]; decide)]
    simp only [hpc, Option.some.injEq] at ht
    subst ht
    by_cases hstop : (s.threads i).stop = true
    · rw [if_pos hstop]
      exact hi.move rfl id (hok.leave (Or.inr (Or.inr hpc)) hstop _)
    · rw [if_neg hstop]
      exact hi.move rfl id (hok.goOnCalling hpc (by simpa using hstop))
  | callJob =>
    rw [hkeep (by rw [hpc]; decide)]
    simp only [hpc, Option.some.injEq] at ht
    subst ht
    exact begin_inv hi hlt hpc
  | running | sendFinished | onFinish =>
    rw [hsame (by rw [hpc]; decide), hkeep (by rw [hpc]; decide)]
    simp only [hpc, Option.some.injEq] at ht
    subst ht
    exact hi.move rfl id (hok.goOnBusy (by rw [hpc]; decide) (by decide) _)
  | resetFinished =>
    rw [hsame (by rw [hpc]; decide), hkeep (by rw [hpc]; decide)]
    simp only [hpc] at ht
    split at ht
    · cases ht
      exact hi.move rfl id (hok.goOnBusy (by rw [hpc]; decide) (by decide) _)
    · cases ht
  | release =>
    rw [hsame (by rw [hpc]; decide)]
    simp only [hpc, Option.some.injEq] at ht
    subst ht
    exact release_inv hi hlt hpc (hlook hpc)
  | exited =>
    simp only [hpc] at ht
    cases ht

theorem step_inv (s : Pool) (a : Action) (s' : Pool) (hi : Inv s) (hok : StopsLate s a) (hs : step s a = some s') :
    Inv s' := by
  unfold step at hs
  rw [if_neg (by simp [hi.alive])] at hs
  cases a with
  | assign =>
    cases hs
    exact assign_inv hi hok
  | start i =>
    dsimp only at hs
    split at hs
    · rename_i j hj
      split at hs
      · rename_i h
        cases hs
        exact start_inv hi h.1 hj h.2 hok
      · cases hs
    · cases hs
  | stop i =>
    dsimp only at hs
    split at hs
    · rename_i h
      cases hs
      refine { hi with stops := ?_ }
      intro c hc
      rcases List.mem_append.mp hc with hc | hc
      · exact hi.stops c hc
      · rw [List.mem_singleton] at hc
        subst hc
        exact ⟨h, by simp, by simp [StopLine.Looks]⟩
    · cases hs
  | stopLine k =>
    obtain ⟨⟨i, line⟩, hk, rfl⟩ := Option.map_eq_some_iff.mp hs
    exact stopStep_inv hi hk (hok (i, line) hk)
  | reference i =>
    dsimp only at hs
    split at hs
    · rename_i h
      cases hs
      exact hi.move rfl id { hi.threads i h with }
    · cases hs
  | dereference i =>
    dsimp only at hs
    split at hs
    · rename_i h
      cases hs
      exact hi.move rfl id { hi.threads i h.1 with }
    · cases hs
  | worker i =>
    dsimp only at hs
    split at hs
    · rename_i h
      exact worker_inv hi h hok hs
    · cases hs

/-! ## The result -/

/-- Nothing has crashed, every thread that was handed out was in its main loop, none has two jobs at once, no job is
executed twice or without having been started, and a started job is executed as soon as its worker gets to run. -/
structure Served (s : Pool) : Prop where
  alive : s.crashed = false
  handouts : ∀ h ∈ s.handouts, h.2 ≠ .exited
  one_job : ∀ i j j', (i, j) ∈ s.owners → (i, j') ∈ s.owners → j = j'
  at_most_once : ∀ j, s.executed.count j ≤ 1
  started : ∀ j ∈ s.executed, j ∈ s.started
  executed : ∀ j ∈ s.started, j ∉ s.executed →
    ∃ i k s', k ≤ 4 ∧ run step (List.replicate k (.worker i)) s = some s' ∧ j ∈ s'.executed

/-- The job of thread `i` is executed within `k` lines of its worker. -/
def ExecutesIn (s : Pool) (i j k : Nat) : Prop :=
  ∃ s', run step (List.replicate k (.worker i)) s = some s' ∧ j ∈ s'.executed

theorem worker_step {s : Pool} {i : Nat} {t : Thread} (hi : Inv s) (hlt : i < s.n_threads)
    (ht : crtx_thread_tmain (s.threads i) = some t) :
    step s (.worker i) =
      some { s.set i t with
        executed := begins (s.threads i) ++ s.executed
        owners := releaseOwner s.owners i (s.threads i) } := by
  unfold step
  rw [if_neg (by simp [hi.alive])]
  dsimp only
  rw [if_pos hlt]
  unfold workerStep
  rw [if_neg (hi.threads i hlt).not_jobless, ht]
  rfl

theorem executes_called {s : Pool} {i j : Nat} (hi : Inv s) (hlt : i < s.n_threads) (hj : (s.threads i).job = some j)
    (hpc : (s.threads i).pc = .callJob) : ExecutesIn s i j 1 := by
  have ht : crtx_thread_tmain (s.threads i) = some { s.threads i with pc := .running } := by
    simp [crtx_thread_tmain, hpc]
  refine ⟨_, by rw [List.replicate_one, run_cons, worker_step hi hlt ht]; rfl, ?_⟩
  simp [begins, hpc, hj]

theorem executes_next {s : Pool} {i j k : Nat} {pc : Pc} (hi : Inv s) (hlt : i < s.n_threads)
    (hrel : (s.threads i).pc ≠ .release) (ht : crtx_thread_tmain (s.threads i) = some { s.threads i with pc })
    (hrest : ∀ s' : Pool, Inv s' → i < s'.n_threads → s'.threads i = { s.threads i with pc } → ExecutesIn s' i j k) :
    ExecutesIn s i j (k + 1) := by
  have hstep := worker_step hi hlt ht
  obtain ⟨s', hrun, hexec⟩ := hrest _ (step_inv s (.worker i) _ hi (fun h => absurd h hrel) hstep) hlt
    (set_threads_self ..)
  exact ⟨s', by rw [List.replicate_succ, run_cons, hstep]; exact hrun, hexec⟩

theorem executes_woken {s : Pool} {i j : Nat} (hi : Inv s) (hlt : i < s.n_threads) (hj : (s.threads i).job = some j)
    (hpc : (s.threads i).pc = .afterWait) (hstop : (s.threads i).stop = false) : ExecutesIn s i j 2 := by
  apply executes_next hi hlt (by simp [hpc]) (show _ = some { s.threads i with pc := .callJob } by
    simp [crtx_thread_tmain, hpc, hstop])
  intro s' hi' hlt' heq
  exact executes_called hi' hlt' (by rw [heq, hj]) (by rw [heq])

theorem executes_waiting {s : Pool} {i j : Nat} (hi : Inv s) (hlt : i < s.n_threads) (hj : (s.threads i).job = some j)
    (hpc : (s.threads i).pc = .waitStart) (hstart : (s.threads i).start = true) (hstop : (s.threads i).stop = false) :
    ExecutesIn s i j 3 := by
  apply executes_next hi hlt (by simp [hpc]) (show _ = some { s.threads i with pc := .afterWait } by
    simp [crtx_thread_tmain, hpc, hstart])
  intro s' hi' hlt' heq
  exact executes_woken hi' hlt' (by rw [heq, hj]) (by rw [heq]) (by rw [heq, hstop])

theorem executes_soon {s : Pool} {i j : Nat} (hi : Inv s) (hlt : i < s.n_threads) (hj : (s.threads i).job = some j)
    (hw : (s.threads i).pc.Waiting) (hstart : (s.threads i).start = true) (hstop : (s.threads i).stop = false) :
    ∃ k ≤ 4, ExecutesIn s i j k := by
  rcases hw with hpc | hpc | hpc
  · refine ⟨4, Nat.le_refl 4, ?_⟩
    apply executes_next hi hlt (by simp [hpc]) (show _ = some { s.threads i with pc := .waitStart } by
      simp [crtx_thread_tmain, hpc, hstop])
    intro s' hi' hlt' heq
    exact executes_waiting hi' hlt' (by rw [heq, hj]) (by rw [heq]) (by rw [heq, hstart]) (by rw [heq, hstop])
  · exact ⟨3, by omega, executes_waiting hi hlt hj hpc hstart hstop⟩
  · exact ⟨2, by omega, executes_woken hi hlt hj hpc hstop⟩

theorem served_of_inv {s : Pool} (hi : Inv s) : Served s := by
  refine ⟨hi.alive, hi.handouts, ?_, ?_, hi.executed_started, ?_⟩
  · intro i j j' h h'
    have h1 := ((hi.owners i j).mp h).2
    have h2 := ((hi.owners i j').mp h').2
    rw [h1] at h2
    exact Option.some.inj h2
  · intro j
    exact List.nodup_iff_count.mp hi.executed_nodup j
  · intro j hs hne
    obtain ⟨i, hlt, hj⟩ : ∃ i < s.n_threads, (s.threads i).job = some j := by
      by_contra h
      exact hne (hi.done j hs fun i hlt hj => h ⟨i, hlt, hj⟩)
    have hok := hi.threads i hlt
    rcases (s.threads i).pc.cases with hw | hpc | hb | hpc
    · obtain ⟨hstart, hstop⟩ := hok.ready j hj hw hs
      obtain ⟨k, hk, s', hrun, hexec⟩ := executes_soon hi hlt hj hw hstart hstop
      exact ⟨i, k, s', hk, hrun, hexec⟩
    · obtain ⟨s', hrun, hexec⟩ := executes_called hi hlt hj hpc
      exact ⟨i, 1, s', by omega, hrun, hexec⟩
    · obtain ⟨j', hj', hexec⟩ := hok.busy hb
      rw [hj] at hj'
      exact absurd (Option.some.inj hj' ▸ hexec) hne
    · exact absurd hs (hok.lost j hj hpc)

theorem served_if_stopped_late (n : Nat) (do_stop : Nat → Bool) (as : List Action) (s : Pool)
    (hm : Meets step StopsLate as (init n do_stop)) (hr : run step as (init n do_stop) = some s) : Served s :=
  served_of_inv (run_keeps step_inv as (init n do_stop) s (init_inv n do_stop) hm hr)

/-- A thread is stopped during its first job, whose `do_stop` is called, and a second job goes to another one. -/
def stoppedDuringJob : List Action :=
  [.assign, .start 0, .worker 0, .worker 0, .worker 0, .worker 0, .stop 0, .stopLine 0, .stopLine 0, .stopLine 0,
    .stopLine 0, .assign, .stopLine 0, .start 1]

theorem served_stopped_during_job :
    ∃ s, run step stoppedDuringJob (init 0 fun _ => true) = some s ∧ s.stops = [] ∧ Served s := by
  have hrun : (run step stoppedDuringJob (init 0 fun _ => true)).map Pool.stops = some [] := by decide
  obtain ⟨s, hs, hstops⟩ := Option.map_eq_some_iff.mp hrun
  refine ⟨s, hs, hstops, served_if_stopped_late 0 _ _ s ?_ hs⟩
  decide

/-- As above, but the stopped thread ends before the second job comes. It is the first free thread of the pool, and
is handed out again. -/
def endedHandedOut : List Action :=
  [.assign, .start 0, .worker 0, .worker 0, .worker 0, .worker 0, .stop 0, .stopLine 0, .stopLine 0, .stopLine 0,
    .stopLine 0, .stopLine 0, .worker 0, .worker 0, .worker 0, .worker 0, .worker 0, .worker 0, .assign, .start 0]

theorem ended_thread_handed_out :
    ∃ s, run step endedHandedOut (init 0 fun _ => true) = some s ∧ (0, Pc.exited) ∈ s.handouts ∧ ¬ Served s := by
  have hrun : (run step endedHandedOut (init 0 fun _ => true)).map Pool.handouts =
      some [(0, .exited), (0, .loopTest)] := by decide
  obtain ⟨s, hs, hh⟩ := Option.map_eq_some_iff.mp hrun
  have hmem : (0, Pc.exited) ∈ s.handouts := by simp [hh]
  exact ⟨s, hs, hmem, fun h => h.handouts _ hmem rfl⟩

/-- The job ends while `crtx_threads_stop` looks at it: `t->job` is NULL where `do_stop` is read. -/
example :
    (run step [.assign, .start 0, .worker 0, .worker 0, .worker 0, .worker 0, .stop 0, .stopLine 0, .stopLine 0,
      .stopLine 0, .worker 0, .worker 0, .worker 0, .worker 0, .worker 0, .stopLine 0] (init 0 fun _ => true)).map
        Pool.crashed = some true := by
  decide

end Libcortex.Threads
