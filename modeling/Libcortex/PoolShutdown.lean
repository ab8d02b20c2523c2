import Mathlib.Algebra.GroupWithZero.Nat
import Mathlib.Algebra.Order.BigOperators.Group.Finset
import Mathlib.Algebra.Order.Group.Multiset
import Mathlib.Data.List.Range
import Libcortex.Threads

/-!
# The end of the thread pool

`crtx_finish` calls `crtx_threads_stop_all`, which holds `pool_mutex` while it stops one thread after the other, and
later `crtx_threads_finish`, which joins the threads and frees them. The workers, and whoever waits for one of
them or stops it, run beside it.
-/

open Libcortex.Lib Libcortex.Threads

namespace Libcortex.PoolShutdown

/-! ## The machine -/

/-- Where the thread is that takes the pool down: before a line of `crtx_threads_stop` in `crtx_threads_stop_all`,
before `pthread_join` and before `free` in `crtx_threads_finish`. -/
inductive Teardown where
  | up
  | stop (i : Nat) (line : StopLine)
  | stopped
  | join (i : Nat)
  | free (i : Nat)
  | finished
deriving DecidableEq, Repr

/-- `freed` is history. -/
structure Sys where
  pool : Pool
  pool_stop : Bool
  teardown : Teardown
  freed : List Nat

inductive Action where
  | pool (a : Threads.Action)
  | stopAll
  | finish
  | next
deriving DecidableEq

/-- `crtx_threads_stop_all` has `pool_mutex`. -/
def Teardown.holdsPool : Teardown → Bool
  | .stop .. => true
  | _ => false

/-- The next line of `crtx_threads_stop_all` or `crtx_threads_finish`. A thread is joined once it has ended. -/
def teardownStep (s : Sys) : Option Sys :=
  match s.teardown with
  | .stop i line =>
    if i < s.pool.n_threads then
      match crtx_threads_stop s.pool.do_stop (s.pool.threads i) line with
      | some (t, some line) => some { s with pool := s.pool.set i t, teardown := .stop i line }
      | some (t, none) => some { s with pool := s.pool.set i t, teardown := .stop (i + 1) .setStop }
      | none => some { s with pool := { s.pool with crashed := true } }
    else some { s with teardown := .stopped }
  | .join i =>
    if i < s.pool.n_threads then
      if (s.pool.threads i).pc = .exited then some { s with teardown := .free i } else none
    else some { s with teardown := .finished }
  | .free i => some { s with freed := s.freed ++ [i], teardown := .join (i + 1) }
  | .up | .stopped | .finished => none

/-- The calls of `crtx_threads_stop` under way on this thread, those of the teardown apart. -/
def calls (p : Pool) (i : Nat) : Nat := p.stops.countP fun c => c.1 = i

/-- What others may do. They leave freed threads alone. Who stops a thread has a reference to its `finished`, which
it keeps until the call has returned, and takes before the worker has seen that there is none. Once `pool_stop` is
set, `crtx_thread_assign_job` would write through a null pointer. The last line of a job gives the thread back under
`pool_mutex`. -/
def Allowed (s : Sys) : Threads.Action → Prop
  | .assign => s.teardown.holdsPool = false ∧ s.pool_stop = false
  | .worker i => (s.pool.threads i).pc = .release → s.teardown.holdsPool = false
  | .start i => i ∉ s.freed
  | .stop i | .dereference i => i ∉ s.freed ∧ calls s.pool i < (s.pool.threads i).n_refs
  | .stopLine k => ∀ c ∈ s.pool.stops[k]?, c.1 ∉ s.freed
  | .reference i => i ∉ s.freed ∧ (s.pool.threads i).pc ≠ .release

instance (s : Sys) : ∀ a, Decidable (Allowed s a)
  | .assign => inferInstanceAs (Decidable (_ ∧ _))
  | .worker i => inferInstanceAs (Decidable ((s.pool.threads i).pc = .release → s.teardown.holdsPool = false))
  | .start i => inferInstanceAs (Decidable (i ∉ s.freed))
  | .stop i | .dereference i =>
    inferInstanceAs (Decidable (i ∉ s.freed ∧ calls s.pool i < (s.pool.threads i).n_refs))
  | .stopLine k => inferInstanceAs (Decidable (∀ c ∈ s.pool.stops[k]?, c.1 ∉ s.freed))
  | .reference i => inferInstanceAs (Decidable (i ∉ s.freed ∧ (s.pool.threads i).pc ≠ .release))

/-- `crtx_finish` calls `crtx_threads_stop_all` twice, and the second call returns at once. -/
def step (s : Sys) (a : Action) : Option Sys :=
  if s.pool.crashed then none
  else
    match a with
    | .pool a => if Allowed s a then (Threads.step s.pool a).map fun pool => { s with pool } else none
    | .stopAll =>
      match s.teardown with
      | .up => some { s with pool_stop := true, teardown := .stop 0 .setStop }
      | .stopped => some s
      | _ => none
    | .finish => if s.teardown = .stopped then some { s with teardown := .join 0 } else none
    | .next => teardownStep s

def init (n : Nat) (do_stop : Nat → Bool) : Sys where
  pool := Threads.init n do_stop
  pool_stop := false
  teardown := .up
  freed := []

/-! ## Nothing crashes -/

/-- A worker that was woken and not stopped has a job, and keeps it until it gives the thread back. -/
structure Sane (t : Thread) : Prop where
  woken : t.pc = .afterWait → t.start = true
  armed : t.start = true → t.stop = false → t.job ≠ none
  held : t.pc = .callJob ∨ t.pc.Begun → t.job ≠ none
  released : t.pc = .release → t.n_refs = 0

/-- A call of `crtx_threads_stop` has a reference, so the job that it has seen doesn't end before it. -/
structure PoolOk (p : Pool) : Prop where
  alive : p.crashed = false
  sane : ∀ i < p.n_threads, Sane (p.threads i)
  stops : ∀ c ∈ p.stops, c.1 < p.n_threads ∧ StopOk (p.threads c.1) c.2
  refs : ∀ i < p.n_threads, calls p i ≤ (p.threads i).n_refs

theorem Sane.spawned : Sane spawned := by
  constructor <;> simp [Threads.spawned, Pc.Begun]

theorem Sane.not_jobless {t : Thread} (h : Sane t) : ¬ Jobless t := by
  rintro ⟨hpc | hpc, hnone⟩
  · exact h.held (.inl hpc) hnone
  · exact h.held (.inr (by simp [Pc.Begun, hpc])) hnone

theorem Sane.tmain {t t' : Thread} (h : Sane t) (ht : crtx_thread_tmain t = some t') : Sane t' := by
  have hwoken := h.woken
  have harmed := h.armed
  have hheld := h.held
  unfold crtx_thread_tmain at ht
  split at ht <;> rename_i hpc <;> try split at ht
  all_goals simp only [Option.some.injEq, reduceCtorEq] at ht
  all_goals subst ht
  all_goals constructor <;> simp_all [Pc.Begun]

theorem tmain_job {t t' : Thread} (h : crtx_thread_tmain t = some t') (hpc : t.pc ≠ .release) : t'.job = t.job := by
  unfold crtx_thread_tmain at h
  split at h <;> try split at h
  all_goals simp only [Option.some.injEq, reduceCtorEq] at h
  all_goals subst h
  all_goals first
    | rfl
    | contradiction

theorem tmain_keeps {t t' : Thread} (h : crtx_thread_tmain t = some t') : t'.stop = t.stop ∧ t'.n_refs = t.n_refs := by
  unfold crtx_thread_tmain at h
  split at h <;> try split at h
  all_goals simp only [Option.some.injEq, reduceCtorEq] at h
  all_goals subst h
  all_goals exact ⟨rfl, rfl⟩

theorem PoolOk.set {p : Pool} {i : Nat} {t : Thread} (h : PoolOk p) (hs : Sane t)
    (hstop : (p.threads i).stop = true → t.stop = true)
    (hjob : t.job = none → (p.threads i).job = none ∨ calls p i = 0) (hrefs : calls p i ≤ t.n_refs) :
    PoolOk (p.set i t) := by
  refine ⟨h.alive, ?_, ?_, ?_⟩
  · intro k hk
    rcases eq_or_ne k i with rfl | hne
    · rw [set_threads_self]
      exact hs
    · rw [set_threads_other _ hne]
      exact h.sane k hk
  · intro c hc
    obtain ⟨hlt, hok⟩ := h.stops c hc
    refine ⟨hlt, ?_⟩
    rcases eq_or_ne c.1 i with rfl | hne
    · rw [set_threads_self]
      refine ⟨fun hl => hstop (hok.stop hl), fun hl hnone => ?_⟩
      rcases hjob hnone with hjob | hcalls
      · exact hok.job hl hjob
      · exact List.countP_eq_zero.mp hcalls c hc (by simp)
    · rw [set_threads_other _ hne]
      exact hok
  · intro k hk
    rcases eq_or_ne k i with rfl | hne
    · rw [set_threads_self]
      exact hrefs
    · rw [set_threads_other _ hne]
      exact h.refs k hk

theorem PoolOk.setStop {p : Pool} {i : Nat} (h : PoolOk p) (hlt : i < p.n_threads) :
    PoolOk (p.set i (setStop (p.threads i))) := by
  have hs := h.sane i hlt
  exact h.set ⟨hs.woken, nofun, hs.held, hs.released⟩ (fun _ => rfl) .inl (h.refs i hlt)

theorem PoolOk.wake {p : Pool} {i : Nat} (h : PoolOk p) (hlt : i < p.n_threads)
    (hwhy : (p.threads i).stop = true ∨ (p.threads i).job ≠ none) :
    PoolOk (p.set i (crtx_thread_start_job (p.threads i))) := by
  have hs := h.sane i hlt
  refine h.set ⟨fun _ => rfl, fun _ hstop => ?_, hs.held, hs.released⟩ id .inl (h.refs i hlt)
  rcases hwhy with hwhy | hwhy
  · have hfalse : (p.threads i).stop = false := hstop
    rw [hwhy] at hfalse
    cases hfalse
  · exact hwhy

theorem PoolOk.stopLine {p : Pool} {i : Nat} {line : StopLine} (h : PoolOk p) (hlt : i < p.n_threads)
    (hok : StopOk (p.threads i) line) :
    ∃ t next, crtx_threads_stop p.do_stop (p.threads i) line = some (t, next) ∧ PoolOk (p.set i t) ∧
      ∀ l, next = some l → StopOk t l := by
  obtain ⟨t, next, heq, hdoes, hnext⟩ := hok.stop_line p.do_stop
  refine ⟨t, next, heq, ?_, hnext⟩
  rcases hdoes with ⟨-, rfl⟩ | ⟨hstop, rfl⟩ | rfl
  · exact h.setStop hlt
  · exact h.wake hlt (.inl hstop)
  · rwa [set_same]

theorem calls_resume_le (p : Pool) {k i : Nat} {line : StopLine} (hk : p.stops[k]? = some (i, line))
    (next : Option StopLine) (j : Nat) : (resume p.stops k i next).countP (fun c => c.1 = j) ≤ calls p j := by
  obtain ⟨hlt, hget⟩ := List.getElem?_eq_some_iff.mp hk
  unfold calls resume
  cases next with
  | none => exact (List.eraseIdx_sublist ..).countP_le
  | some l =>
    dsimp only
    rw [List.set_eq_take_append_cons_drop, if_pos hlt]
    conv_rhs => rw [← List.take_append_drop k p.stops, List.drop_eq_getElem_cons hlt, hget]
    simp [List.countP_cons]

theorem PoolOk.stopStep {p : Pool} {k i : Nat} {line : StopLine} (h : PoolOk p)
    (hk : p.stops[k]? = some (i, line)) : PoolOk (stopStep p k i line) := by
  obtain ⟨hlt, hok⟩ := h.stops (i, line) (List.mem_of_getElem? hk)
  obtain ⟨t, next, heq, hset, hnext⟩ := h.stopLine hlt hok
  unfold Threads.stopStep
  rw [heq]
  refine ⟨hset.alive, hset.sane, ?_, ?_⟩
  · intro c hc
    rcases mem_resume hc with hc | ⟨l, hl, rfl⟩
    · exact hset.stops c hc
    · refine ⟨hlt, ?_⟩
      simp only [set_threads_self]
      exact hnext l hl
  · intro j hj
    exact (calls_resume_le p hk next j).trans (hset.refs j hj)

/-- The worker gives its job back only where nobody stops the thread. -/
theorem PoolOk.workerStep {p p' : Pool} {i : Nat} (h : PoolOk p) (hlt : i < p.n_threads)
    (hs : workerStep p i = some p') : PoolOk p' := by
  have hsane := h.sane i hlt
  unfold Threads.workerStep at hs
  rw [if_neg hsane.not_jobless] at hs
  obtain ⟨t, ht, rfl⟩ := Option.map_eq_some_iff.mp hs
  have hset : PoolOk (p.set i t) := by
    apply h.set (hsane.tmain ht)
    · intro hstop
      rw [(tmain_keeps ht).1, hstop]
    · intro hnone
      by_cases hpc : (p.threads i).pc = .release
      · right
        have hrefs := h.refs i hlt
        rw [hsane.released hpc] at hrefs
        omega
      · left
        rw [← tmain_job ht hpc, hnone]
    · rw [(tmain_keeps ht).2]
      exact h.refs i hlt
  exact { hset with }

theorem PoolOk.calls_new {p : Pool} (h : PoolOk p) : calls p p.n_threads = 0 := by
  apply List.countP_eq_zero.mpr
  intro c hc
  have hlt := (h.stops c hc).1
  simp only [decide_eq_true_eq]
  omega

theorem PoolOk.grow {p : Pool} (h : PoolOk p) {t : Thread} (hs : Sane t) :
    PoolOk { p.set p.n_threads t with n_threads := p.n_threads + 1 } := by
  refine ⟨h.alive, ?_, ?_, ?_⟩
  · intro k hk
    rcases eq_or_ne k p.n_threads with rfl | hne
    · simp only [set_threads_self]
      exact hs
    · simp only [set_threads_other _ hne]
      exact h.sane k (by simp only at hk; omega)
  · intro c hc
    obtain ⟨hlt, hok⟩ := h.stops c hc
    refine ⟨Nat.lt_succ_of_lt hlt, ?_⟩
    simp only [set_threads_other _ hlt.ne]
    exact hok
  · intro k hk
    rcases eq_or_ne k p.n_threads with rfl | hne
    · exact h.calls_new.le.trans (Nat.zero_le _)
    · simp only [set_threads_other _ hne]
      exact h.refs k (by simp only at hk; omega)

theorem PoolOk.intern {p : Pool} (h : PoolOk p) :
    PoolOk (get_thread_intern p).1 ∧ (get_thread_intern p).2 < (get_thread_intern p).1.n_threads := by
  unfold get_thread_intern
  split
  · rename_i i hfree
    obtain ⟨hlt, -⟩ := firstFree_some hfree
    have hs := h.sane i hlt
    exact ⟨h.set ⟨hs.woken, hs.armed, hs.held, hs.released⟩ id .inl (h.refs i hlt), hlt⟩
  · refine ⟨h.grow ?_, Nat.lt_succ_self _⟩
    exact ⟨Sane.spawned.woken, Sane.spawned.armed, Sane.spawned.held, Sane.spawned.released⟩

theorem PoolOk.assign {p : Pool} (h : PoolOk p) : PoolOk (crtx_thread_assign_job p) := by
  obtain ⟨hok, hlt⟩ := h.intern
  unfold crtx_thread_assign_job
  generalize get_thread_intern p = r at hok hlt ⊢
  have hs := hok.sane r.2 hlt
  have hassign : Sane { r.1.threads r.2 with job := some p.assigned } := ⟨hs.woken, nofun, nofun, hs.released⟩
  exact { hok.set hassign id nofun (hok.refs r.2 hlt) with }

theorem pool_ok {s : Sys} {a : Threads.Action} {p : Pool} (hok : PoolOk s.pool) (ha : Allowed s a)
    (h : Threads.step s.pool a = some p) : PoolOk p := by
  unfold Threads.step at h
  rw [if_neg (by simp [hok.alive])] at h
  cases a with
  | assign =>
    cases h
    exact hok.assign
  | start i =>
    dsimp only at h
    split at h
    · rename_i j hj
      simp only [Option.ite_none_right_eq_some, Option.some.injEq] at h
      obtain ⟨⟨hlt, _⟩, rfl⟩ := h
      exact { hok.wake hlt (.inr (by simp [hj])) with }
    · cases h
  | stop i =>
    simp only [Option.ite_none_right_eq_some, Option.some.injEq] at h
    obtain ⟨hlt, rfl⟩ := h
    refine ⟨hok.alive, hok.sane, ?_, ?_⟩
    · intro c hc
      rcases List.mem_append.mp hc with hc | hc
      · exact hok.stops c hc
      · rw [List.mem_singleton.mp hc]
        exact ⟨hlt, by simp, by simp [StopLine.Looks]⟩
    · intro k hk
      have hrefs := hok.refs k hk
      have hroom := ha.2
      unfold calls at hrefs hroom ⊢
      rw [List.countP_append, List.countP_singleton]
      split
      · rename_i hik
        obtain rfl : i = k := of_decide_eq_true hik
        exact hroom
      · exact hrefs
  | stopLine k =>
    obtain ⟨⟨i, line⟩, hk, rfl⟩ := Option.map_eq_some_iff.mp h
    exact hok.stopStep hk
  | reference i =>
    simp only [Option.ite_none_right_eq_some, Option.some.injEq] at h
    obtain ⟨hlt, rfl⟩ := h
    have hs := hok.sane i hlt
    exact hok.set ⟨hs.woken, hs.armed, hs.held, fun hpc => absurd hpc ha.2⟩ id .inl
      ((hok.refs i hlt).trans (Nat.le_succ _))
  | dereference i =>
    simp only [Option.ite_none_right_eq_some, Option.some.injEq] at h
    obtain ⟨⟨hlt, _⟩, rfl⟩ := h
    have hs := hok.sane i hlt
    have hroom := ha.2
    refine hok.set ⟨hs.woken, hs.armed, hs.held, fun hpc => ?_⟩ id .inl (by simp only; omega)
    simp only [hs.released hpc]
  | worker i =>
    simp only [Option.ite_none_right_eq_some] at h
    exact hok.workerStep h.1 h.2

/-! ## What a step of the pool does -/

/-- The program counter of a thread as the number of lines that it has still to go once it was stopped. -/
def linesLeft : Pc → Nat
  | .exited => 0
  | .loopTest | .afterWait => 1
  | .waitStart | .release => 2
  | .resetFinished => 3
  | .onFinish => 4
  | .sendFinished => 5
  | .running => 6
  | .callJob => 7

/-- `crtx_threads_stop` has woken this thread. -/
structure Called (t : Thread) : Prop where
  stop : t.stop = true
  woken : t.pc = .waitStart → t.start = true

/-- What others do with a thread: they stop it, start it, or count references. -/
structure Touched (t t' : Thread) : Prop where
  pc : t'.pc = t.pc
  job : t'.job = t.job
  stop : t.stop = true → t'.stop = true
  start : t.start = true → t'.start = true

theorem Touched.refl (t : Thread) : Touched t t := ⟨rfl, rfl, id, id⟩

theorem Touched.called {t t' : Thread} (h : Touched t t') (hc : Called t) : Called t' := by
  refine ⟨h.stop hc.stop, ?_⟩
  intro hpc
  rw [h.pc] at hpc
  exact h.start (hc.woken hpc)

theorem Touched.begins {t t' : Thread} (h : Touched t t') : begins t' = begins t := by
  unfold Threads.begins
  rw [h.pc, h.job]

theorem touched_setStop (t : Thread) : Touched t (setStop t) := ⟨rfl, rfl, fun _ => rfl, id⟩

theorem touched_start (t : Thread) : Touched t (crtx_thread_start_job t) := ⟨rfl, rfl, id, fun _ => rfl⟩

theorem touched_stop {do_stop : Nat → Bool} {t t' : Thread} {line : StopLine} {next : Option StopLine}
    (h : crtx_threads_stop do_stop t line = some (t', next)) : Touched t t' := by
  unfold crtx_threads_stop at h
  split at h
  · cases h
    exact touched_setStop t
  · cases h
    exact touched_start t
  · cases h
    exact Touched.refl t
  all_goals
    obtain ⟨_, _, heq⟩ := Option.map_eq_some_iff.mp h
    cases heq
    exact Touched.refl t

theorem Called.tmain {t t' : Thread} (hc : Called t) (h : crtx_thread_tmain t = some t') :
    Called t' ∧ linesLeft t'.pc < linesLeft t.pc ∧ begins t' = [] := by
  obtain ⟨hstop, _⟩ := hc
  have hpc : t'.pc ≠ .waitStart ∧ linesLeft t'.pc < linesLeft t.pc ∧ t'.pc ≠ .callJob := by
    unfold crtx_thread_tmain at h
    split at h <;> rename_i hpc <;> rw [hpc]
    all_goals simp only [hstop, ite_true, Option.some.injEq, Option.ite_none_right_eq_some, reduceCtorEq] at h
    all_goals first
      | subst h
        simp [linesLeft]
      | obtain ⟨_, rfl⟩ := h
        simp [linesLeft]
  exact ⟨⟨(tmain_keeps h).1.trans hstop, fun hw => absurd hw hpc.1⟩, hpc.2.1, by simp [begins, hpc.2.2]⟩

theorem pool_step_cases {p p' : Pool} {a : Threads.Action} (hok : PoolOk p) (ha : a ≠ .assign)
    (h : Threads.step p a = some p') :
    ∃ i t, i < p.n_threads ∧ p'.threads = Function.update p.threads i t ∧ p'.n_threads = p.n_threads ∧
      ((∀ k, a ≠ .worker k) ∧ Touched (p.threads i) t ∧ p'.executed = p.executed ∨
        a = .worker i ∧ crtx_thread_tmain (p.threads i) = some t ∧
          p'.executed = begins (p.threads i) ++ p.executed) := by
  unfold Threads.step at h
  rw [if_neg (by simp [hok.alive])] at h
  cases a with
  | assign => exact absurd rfl ha
  | start i =>
    dsimp only at h
    split at h
    · simp only [Option.ite_none_right_eq_some, Option.some.injEq] at h
      obtain ⟨⟨hlt, _⟩, rfl⟩ := h
      exact ⟨i, _, hlt, rfl, rfl, .inl ⟨by simp, touched_start _, rfl⟩⟩
    · cases h
  | stop i =>
    simp only [Option.ite_none_right_eq_some, Option.some.injEq] at h
    obtain ⟨hlt, rfl⟩ := h
    exact ⟨i, _, hlt, (Function.update_eq_self ..).symm, rfl, .inl ⟨by simp, Touched.refl _, rfl⟩⟩
  | stopLine k =>
    obtain ⟨⟨i, line⟩, hk, rfl⟩ := Option.map_eq_some_iff.mp h
    obtain ⟨hlt, hline⟩ := hok.stops (i, line) (List.mem_of_getElem? hk)
    obtain ⟨t, next, heq, -⟩ := hok.stopLine hlt hline
    refine ⟨i, t, hlt, ?_, ?_, .inl ⟨by simp, touched_stop heq, ?_⟩⟩
    all_goals simp only [stopStep, heq, Pool.set]
  | reference i =>
    simp only [Option.ite_none_right_eq_some, Option.some.injEq] at h
    obtain ⟨hlt, rfl⟩ := h
    exact ⟨i, _, hlt, rfl, rfl, .inl ⟨by simp, ⟨rfl, rfl, id, id⟩, rfl⟩⟩
  | dereference i =>
    simp only [Option.ite_none_right_eq_some, Option.some.injEq] at h
    obtain ⟨⟨hlt, _⟩, rfl⟩ := h
    exact ⟨i, _, hlt, rfl, rfl, .inl ⟨by simp, ⟨rfl, rfl, id, id⟩, rfl⟩⟩
  | worker i =>
    simp only [Option.ite_none_right_eq_some] at h
    obtain ⟨hlt, h⟩ := h
    unfold workerStep at h
    rw [if_neg (hok.sane i hlt).not_jobless] at h
    obtain ⟨t, ht, rfl⟩ := Option.map_eq_some_iff.mp h
    exact ⟨i, t, hlt, rfl, rfl, .inr ⟨rfl, ht, rfl⟩⟩

/-! ## The invariant -/

/-- How many threads `crtx_threads_stop_all` has gone past. -/
def Sys.called (s : Sys) : Nat :=
  match s.teardown with
  | .up => 0
  | .stop i _ => i
  | _ => s.pool.n_threads

/-- How many threads `crtx_threads_finish` has gone past. -/
def Sys.released (s : Sys) : Nat :=
  match s.teardown with
  | .join i | .free i => i
  | .finished => s.pool.n_threads
  | _ => 0

/-- What is known at a line of `crtx_threads_stop` in `crtx_threads_stop_all`. -/
structure AtStop (p : Pool) (i : Nat) (line : StopLine) : Prop where
  le : i ≤ p.n_threads
  lt : line ≠ .setStop → i < p.n_threads
  ok : StopOk (p.threads i) line
  woken : line ≠ .setStop → line ≠ .startJob → Called (p.threads i)

def AtLine (p : Pool) : Teardown → Prop
  | .stop i line => AtStop p i line
  | .join i => i ≤ p.n_threads
  | .free i => i < p.n_threads ∧ (p.threads i).pc = .exited
  | _ => True

structure Inv (s : Sys) : Prop where
  pool : PoolOk s.pool
  pool_stop : s.pool_stop = true ↔ s.teardown ≠ .up
  called : ∀ i < s.called, Called (s.pool.threads i)
  atLine : AtLine s.pool s.teardown
  freed : s.freed = List.range s.released
  exited : ∀ i < s.released, (s.pool.threads i).pc = .exited

theorem init_ok (n : Nat) (do_stop : Nat → Bool) : PoolOk (Threads.init n do_stop) :=
  ⟨rfl, fun _ _ => Sane.spawned, nofun, fun _ _ => Nat.le_refl 0⟩

theorem init_inv (n : Nat) (do_stop : Nat → Bool) : Inv (init n do_stop) := by
  refine ⟨init_ok n do_stop, ?_, ?_, trivial, rfl, ?_⟩ <;> simp [init, Sys.called, Sys.released]

/-- A worker that has ended does nothing, and nobody else moves it. -/
theorem exited_stays {p p' : Pool} {a : Threads.Action} (hok : PoolOk p) (ha : a ≠ .assign)
    (h : Threads.step p a = some p') {k : Nat} (hk : (p.threads k).pc = .exited) : (p'.threads k).pc = .exited := by
  obtain ⟨i, t, _, hth, _, hcase⟩ := pool_step_cases hok ha h
  rw [hth]
  rcases eq_or_ne k i with rfl | hne
  · rw [Function.update_self]
    rcases hcase with ⟨_, ht, _⟩ | ⟨_, ht, _⟩
    · rw [ht.pc, hk]
    · simp [crtx_thread_tmain, hk] at ht
  · rw [Function.update_of_ne hne, hk]

theorem called_stays {p p' : Pool} {a : Threads.Action} (hok : PoolOk p) (ha : a ≠ .assign)
    (h : Threads.step p a = some p') {k : Nat} (hk : Called (p.threads k)) : Called (p'.threads k) := by
  obtain ⟨i, t, _, hth, _, hcase⟩ := pool_step_cases hok ha h
  rw [hth]
  rcases eq_or_ne k i with rfl | hne
  · rw [Function.update_self]
    rcases hcase with ⟨_, ht, _⟩ | ⟨_, ht, _⟩
    · exact ht.called hk
    · exact (hk.tmain ht).1
  · rw [Function.update_of_ne hne]
    exact hk

theorem stopOk_stays {s : Sys} {p : Pool} {a : Threads.Action} (hok : PoolOk s.pool) (ha : a ≠ .assign)
    (hallowed : Allowed s a) (hheld : s.teardown.holdsPool = true) (h : Threads.step s.pool a = some p) {k : Nat}
    {line : StopLine} (hk : StopOk (s.pool.threads k) line) : StopOk (p.threads k) line := by
  obtain ⟨i, t, _, hth, _, hcase⟩ := pool_step_cases hok ha h
  rw [hth]
  rcases eq_or_ne k i with rfl | hne
  · rw [Function.update_self]
    rcases hcase with ⟨_, ht, _⟩ | ⟨rfl, ht, _⟩
    · exact ⟨fun hl => ht.stop (hk.stop hl), fun hl => by rw [ht.job]; exact hk.job hl⟩
    · have hpc : (s.pool.threads k).pc ≠ .release := by
        intro hpc
        have hfalse := hallowed hpc
        rw [hheld] at hfalse
        cases hfalse
      exact ⟨fun hl => (tmain_keeps ht).1.trans (hk.stop hl), fun hl => by rw [tmain_job ht hpc]; exact hk.job hl⟩
  · rw [Function.update_of_ne hne]
    exact hk

theorem pool_n_threads {p p' : Pool} {a : Threads.Action} (hok : PoolOk p) (ha : a ≠ .assign)
    (h : Threads.step p a = some p') : p'.n_threads = p.n_threads := by
  obtain ⟨_, _, _, _, hn, _⟩ := pool_step_cases hok ha h
  exact hn

theorem Inv.not_assign {s : Sys} (hi : Inv s) (hup : s.teardown ≠ .up) {a : Threads.Action} (ha : Allowed s a) :
    a ≠ .assign := by
  rintro rfl
  have hstop := hi.pool_stop.mpr hup
  simp [Allowed, hstop] at ha

theorem Inv.atLine_stays {s : Sys} {p : Pool} {a : Threads.Action} (hi : Inv s) (ha : a ≠ .assign)
    (hallowed : Allowed s a) (h : Threads.step s.pool a = some p) : AtLine p s.teardown := by
  have hn := pool_n_threads hi.pool ha h
  have hat := hi.atLine
  unfold AtLine at hat ⊢
  split
  · rename_i hl
    simp only [hl] at hat
    have hheld : s.teardown.holdsPool = true := by rw [hl]; rfl
    refine ⟨by rw [hn]; exact hat.le, fun hline => by rw [hn]; exact hat.lt hline, ?_, ?_⟩
    · exact stopOk_stays hi.pool ha hallowed hheld h hat.ok
    · exact fun h1 h2 => called_stays hi.pool ha h (hat.woken h1 h2)
  · rename_i hl
    simp only [hl] at hat
    rw [hn]
    exact hat
  · rename_i hl
    simp only [hl] at hat
    rw [hn]
    exact ⟨hat.1, exited_stays hi.pool ha h hat.2⟩
  · trivial

theorem pool_inv {s : Sys} {a : Threads.Action} {p : Pool} (hi : Inv s) (ha : Allowed s a)
    (h : Threads.step s.pool a = some p) : Inv { s with pool := p } := by
  have hok := pool_ok hi.pool ha h
  rcases eq_or_ne s.teardown .up with hup | hup
  · have hfreed := hi.freed
    refine ⟨hok, hi.pool_stop, ?_, ?_, ?_, ?_⟩
    · simp [Sys.called, hup]
    · simp [AtLine, hup]
    · simpa [Sys.released, hup] using hfreed
    · simp [Sys.released, hup]
  · have hna := hi.not_assign hup ha
    have hn := pool_n_threads hi.pool hna h
    have hc : Sys.called { s with pool := p } = s.called := by simp [Sys.called, hn]
    have hr : Sys.released { s with pool := p } = s.released := by simp [Sys.released, hn]
    refine ⟨hok, hi.pool_stop, ?_, hi.atLine_stays hna ha h, ?_, ?_⟩
    · intro i hlt
      rw [hc] at hlt
      exact called_stays hi.pool hna h (hi.called i hlt)
    · rw [hr]
      exact hi.freed
    · intro i hlt
      rw [hr] at hlt
      exact exited_stays hi.pool hna h (hi.exited i hlt)

theorem called_line {do_stop : Nat → Bool} {t t' : Thread} {line : StopLine} {next : Option StopLine}
    (h : crtx_threads_stop do_stop t line = some (t', next)) (hok : StopOk t line)
    (hc : line ≠ .setStop → line ≠ .startJob → Called t) (hl : line ≠ .setStop) : Called t' := by
  rcases eq_or_ne line .startJob with rfl | hne
  · cases h
    exact ⟨hok.stop hl, fun _ => rfl⟩
  · exact (touched_stop h).called (hc hl hne)

theorem next_line {do_stop : Nat → Bool} {t t' : Thread} {line : StopLine} {next : Option StopLine}
    (h : crtx_threads_stop do_stop t line = some (t', next)) :
    (next = none → line ≠ .setStop) ∧ ∀ l, next = some l → l ≠ .setStop ∧ (l ≠ .startJob → line ≠ .setStop) := by
  unfold crtx_threads_stop at h
  split at h
  · cases h
    simp
  · cases h
    simp
  · cases h
    simp only [ne_eq, Option.map_eq_some_iff, reduceCtorEq, not_false_eq_true, implies_true, and_true, true_and]
    rintro l ⟨_, _, rfl⟩
    simp
  · obtain ⟨_, _, heq⟩ := Option.map_eq_some_iff.mp h
    cases heq
    simp only [ne_eq, reduceCtorEq, not_false_eq_true, implies_true, and_true, true_and]
    intro l hl
    simp only [Option.ite_none_right_eq_some, Option.some.injEq] at hl
    simp [← hl.2]
  · obtain ⟨_, _, heq⟩ := Option.map_eq_some_iff.mp h
    cases heq
    simp

theorem stopAll_inv {s s' : Sys} {i : Nat} {line : StopLine} (hi : Inv s) (hl : s.teardown = .stop i line)
    (h : teardownStep s = some s') : Inv s' := by
  have hcalled := hi.called
  have hat := hi.atLine
  have hfreed := hi.freed
  have hpool := hi.pool_stop
  simp only [Sys.called, Sys.released, hl, AtLine] at hcalled hfreed hat
  unfold teardownStep at h
  simp only [hl] at h
  by_cases hlt : i < s.pool.n_threads
  · rw [if_pos hlt] at h
    obtain ⟨t, next, heq, hset, hnext⟩ := hi.pool.stopLine hlt hat.ok
    obtain ⟨hlast, hmore⟩ := next_line heq
    have hothers : ∀ k < i, Called ((s.pool.set i t).threads k) := by
      intro k hk
      rw [set_threads_other _ hk.ne]
      exact hcalled k hk
    rw [heq] at h
    cases next with
    | some l =>
      cases h
      refine ⟨hset, by simp [hpool, hl], hothers, ?_, hfreed, by simp [Sys.released]⟩
      refine ⟨hlt.le, fun _ => hlt, ?_, fun _ hstart => ?_⟩
      · rw [set_threads_self]
        exact hnext l rfl
      · rw [set_threads_self]
        exact called_line heq hat.ok hat.woken ((hmore l rfl).2 hstart)
    | none =>
      cases h
      refine ⟨hset, by simp [hpool, hl], ?_, ?_, hfreed, by simp [Sys.released]⟩
      · intro k hk
        have hki : k < i + 1 := hk
        rcases eq_or_ne k i with rfl | hne
        · simp only [set_threads_self]
          exact called_line heq hat.ok hat.woken (hlast rfl)
        · exact hothers k (by omega)
      · exact ⟨hlt, by simp, ⟨by simp, by simp [StopLine.Looks]⟩, by simp⟩
  · rw [if_neg hlt] at h
    cases h
    refine ⟨hi.pool, by simp [hpool, hl], ?_, trivial, hfreed, by simp [Sys.released]⟩
    intro k hk
    have hkn : k < s.pool.n_threads := hk
    exact hcalled k (by omega)

theorem teardown_inv {s s' : Sys} (hi : Inv s) (h : teardownStep s = some s') : Inv s' := by
  have hcalled := hi.called
  have hat := hi.atLine
  have hfreed := hi.freed
  have hexited := hi.exited
  have hpool := hi.pool_stop
  cases hl : s.teardown with
  | stop i line => exact stopAll_inv hi hl h
  | join i =>
    simp only [Sys.called, Sys.released, hl, AtLine] at hcalled hfreed hexited hat
    simp only [teardownStep, hl] at h
    split at h
    · rename_i hlt
      simp only [Option.ite_none_right_eq_some, Option.some.injEq] at h
      obtain ⟨hpc, rfl⟩ := h
      exact ⟨hi.pool, by simp [hpool, hl], hcalled, ⟨hlt, hpc⟩, hfreed, hexited⟩
    · cases h
      have hin : i = s.pool.n_threads := by omega
      subst hin
      exact ⟨hi.pool, by simp [hpool, hl], hcalled, trivial, hfreed, hexited⟩
  | free i =>
    simp only [Sys.called, Sys.released, hl, AtLine] at hcalled hfreed hexited hat
    simp only [teardownStep, hl, Option.some.injEq] at h
    subst h
    refine ⟨hi.pool, by simp [hpool, hl], hcalled, hat.1, ?_, ?_⟩
    · simp [Sys.released, hfreed, List.range_succ]
    · intro k hk
      have hki : k < i + 1 := hk
      rcases eq_or_ne k i with rfl | hne
      · exact hat.2
      · exact hexited k (by omega)
  | up | stopped | finished => simp [teardownStep, hl] at h

theorem step_inv (s : Sys) (a : Action) (s' : Sys) (hi : Inv s) (h : step s a = some s') : Inv s' := by
  have hfreed := hi.freed
  unfold step at h
  rw [if_neg (by simp [hi.pool.alive])] at h
  cases a with
  | pool a =>
    simp only [Option.ite_none_right_eq_some, Option.map_eq_some_iff] at h
    obtain ⟨ha, p, hp, rfl⟩ := h
    exact pool_inv hi ha hp
  | stopAll =>
    dsimp only at h
    split at h
    · rename_i hl
      cases h
      simp only [Sys.released, hl] at hfreed
      refine ⟨hi.pool, by simp, by simp [Sys.called], ?_, hfreed, by simp [Sys.released]⟩
      exact ⟨Nat.zero_le _, by simp, ⟨by simp, by simp [StopLine.Looks]⟩, by simp⟩
    · cases h
      exact hi
    · cases h
  | finish =>
    simp only [Option.ite_none_right_eq_some, Option.some.injEq] at h
    obtain ⟨hl, rfl⟩ := h
    have hcalled := hi.called
    simp only [Sys.called, Sys.released, hl] at hfreed hcalled
    exact ⟨hi.pool, by simp [hi.pool_stop, hl], hcalled, Nat.zero_le _, hfreed, by simp [Sys.released]⟩
  | next => exact teardown_inv hi h

/-! ## After the pool was stopped -/

/-- `crtx_threads_stop_all` has returned. -/
def Sys.Stopped (s : Sys) : Prop := s.teardown ≠ .up ∧ s.teardown.holdsPool = false

theorem Sys.Stopped.called {s : Sys} (h : s.Stopped) : s.called = s.pool.n_threads := by
  obtain ⟨hup, hheld⟩ := h
  unfold Sys.called
  split <;> simp_all [Teardown.holdsPool]

theorem sum_update {M : Type*} [AddCommMonoid M] {n i : Nat} (hlt : i < n) (f : Thread → M) (threads : Nat → Thread)
    (t : Thread) :
    (∑ k ∈ Finset.range n, f (Function.update threads i t k)) + f (threads i) =
      (∑ k ∈ Finset.range n, f (threads k)) + f t := by
  have hmem : i ∈ Finset.range n := Finset.mem_range.mpr hlt
  have hrest : ∑ k ∈ (Finset.range n).erase i, f (Function.update threads i t k) =
      ∑ k ∈ (Finset.range n).erase i, f (threads k) := by
    apply Finset.sum_congr rfl
    intro k hk
    rw [Function.update_of_ne (Finset.ne_of_mem_erase hk)]
  rw [← Finset.add_sum_erase _ _ hmem, ← Finset.add_sum_erase _ (fun k => f (threads k)) hmem, hrest,
    Function.update_self, add_right_comm, add_comm (f t), add_right_comm]

/-- The jobs that workers have decided to call. -/
def decided (p : Pool) : Multiset Nat := ∑ i ∈ Finset.range p.n_threads, (begins (p.threads i) : Multiset Nat)

/-- The lines that all workers have still to go. -/
def work (p : Pool) : Nat := ∑ i ∈ Finset.range p.n_threads, linesLeft (p.threads i).pc

/-- The lines of `crtx_threads_finish`, its call included. -/
def teardownLeft (p : Pool) : Teardown → Nat
  | .stopped => 2 * p.n_threads + 2
  | .join i => 2 * (p.n_threads - i) + 1
  | .free i => 2 * (p.n_threads - i)
  | _ => 0

def Sys.left (s : Sys) : Nat := work s.pool + teardownLeft s.pool s.teardown

/-- The steps of the workers and of the thread that takes the pool down. -/
def own : Action → Nat
  | .pool (.worker _) | .finish | .next => 1
  | _ => 0

/-- The jobs that have begun, and those that are sure to. -/
def begun (p : Pool) : Multiset Nat := p.executed + decided p

theorem pool_step_stopped {p p' : Pool} {a : Threads.Action} (hok : PoolOk p) (ha : a ≠ .assign)
    (hc : ∀ i < p.n_threads, Called (p.threads i)) (h : Threads.step p a = some p') :
    own (.pool a) + work p' ≤ work p ∧ begun p' = begun p := by
  obtain ⟨i, t, hlt, hth, hn, hcase⟩ := pool_step_cases hok ha h
  have hwork := sum_update hlt (fun t => linesLeft t.pc) p.threads t
  have hdecided := sum_update hlt (fun t => (begins t : Multiset Nat)) p.threads t
  unfold begun work decided
  rw [hth, hn]
  rcases hcase with ⟨hna, ht, hexec⟩ | ⟨rfl, ht, hexec⟩
  · have hown : own (.pool a) = 0 := by
      unfold own
      split <;> simp_all
    simp only [ht.pc] at hwork
    simp only [ht.begins] at hdecided
    refine ⟨by omega, ?_⟩
    rw [hexec, add_right_cancel hdecided]
  · obtain ⟨-, hlines, hnone⟩ := (hc i hlt).tmain ht
    simp only [hnone, Multiset.coe_nil, add_zero] at hdecided
    refine ⟨by simp only [own]; omega, ?_⟩
    rw [hexec, ← Multiset.coe_add, add_comm (begins _ : Multiset Nat), add_assoc, add_comm (begins _ : Multiset Nat),
      hdecided]

theorem step_stopped {s s' : Sys} {a : Action} (hi : Inv s) (hs : s.Stopped) (h : step s a = some s') :
    s'.Stopped ∧ own a + s'.left ≤ s.left ∧ begun s'.pool = begun s.pool ∧
      s'.pool.n_threads = s.pool.n_threads := by
  have hcalled := hi.called
  rw [hs.called] at hcalled
  obtain ⟨hup, hheld⟩ := hs
  have hat := hi.atLine
  unfold step at h
  rw [if_neg (by simp [hi.pool.alive])] at h
  cases a with
  | pool b =>
    simp only [Option.ite_none_right_eq_some, Option.map_eq_some_iff] at h
    obtain ⟨ha, p, hp, rfl⟩ := h
    have hna := hi.not_assign hup ha
    have hn := pool_n_threads hi.pool hna hp
    obtain ⟨hwork, hbegun⟩ := pool_step_stopped hi.pool hna hcalled hp
    have hleft : teardownLeft p s.teardown = teardownLeft s.pool s.teardown := by simp [teardownLeft, hn]
    refine ⟨⟨hup, hheld⟩, ?_, hbegun, hn⟩
    simp only [Sys.left, hleft]
    omega
  | stopAll =>
    dsimp only at h
    split at h
    · exact absurd ‹_› hup
    · cases h
      exact ⟨⟨hup, hheld⟩, by simp [own], rfl, rfl⟩
    · cases h
  | finish =>
    simp only [Option.ite_none_right_eq_some, Option.some.injEq] at h
    obtain ⟨hl, rfl⟩ := h
    refine ⟨by simp [Sys.Stopped, Teardown.holdsPool], ?_, rfl, rfl⟩
    simp only [Sys.left, hl, own, teardownLeft]
    omega
  | next =>
    cases hl : s.teardown with
    | stop i line => simp [hl, Teardown.holdsPool] at hheld
    | join i =>
      simp only [hl, AtLine] at hat
      simp only [teardownStep, hl] at h
      split at h
      · simp only [Option.ite_none_right_eq_some, Option.some.injEq] at h
        obtain ⟨_, rfl⟩ := h
        refine ⟨by simp [Sys.Stopped, Teardown.holdsPool], ?_, rfl, rfl⟩
        simp only [Sys.left, hl, own, teardownLeft]
        omega
      · cases h
        refine ⟨by simp [Sys.Stopped, Teardown.holdsPool], ?_, rfl, rfl⟩
        simp only [Sys.left, hl, own, teardownLeft]
        omega
    | free i =>
      simp only [hl, AtLine] at hat
      simp only [teardownStep, hl, Option.some.injEq] at h
      subst h
      refine ⟨by simp [Sys.Stopped, Teardown.holdsPool], ?_, rfl, rfl⟩
      simp only [Sys.left, hl, own, teardownLeft]
      omega
    | up | stopped | finished => simp [teardownStep, hl] at h

/-- What stays as `crtx_threads_stop_all` left it: the jobs that were begun or decided on, and the threads. -/
def Rests (s u : Sys) : Prop :=
  Inv u ∧ u.Stopped ∧ begun u.pool = begun s.pool ∧ u.pool.n_threads = s.pool.n_threads

/-- Neither a worker nor the teardown can do anything. The return of a job is a step of its worker. -/
def Stuck (s : Sys) : Prop := ∀ a, own a = 1 → step s a = none

/-- The worker waits for the owner of its job to drop the reference to `finished`. -/
def Awaits (t : Thread) : Prop := t.pc = .resetFinished ∧ 0 < t.n_refs

end Libcortex.PoolShutdown
