import Libcortex.Listener
import Libcortex.Threads

/-!
# The worker of a graph

In thread mode `crtx_add_event` hands `process_graph_tmain` to a thread of the pool, with
`graph_consumer_stop` as the way to stop it. The worker runs beside all the other threads, so
between two of its iterations anything may have happened to the system.
-/

open Libcortex.Threads

namespace Libcortex.Worker

/-- `stop` is the field of that name of each graph. The worker runs on `thread`. -/
structure Sys where
  env : Env
  stop : GraphId → Bool
  thread : Thread

/-- What surrounds one iteration: what the other threads did before it, what the tasks of the graph do in it, and
how the callbacks of a shutdown behave. -/
structure Round where
  others : Sys → Sys
  handler : Env → Env
  outcome : Outcome

def graph_consumer_stop (s : Sys) (g : GraphId) : Sys := { s with stop := Function.update s.stop g true }

/-- A whole `crtx_threads_stop` on the thread of the worker, whose job has `graph_consumer_stop` as `do_stop`. -/
def stopWorker (s : Sys) (g : GraphId) : Sys :=
  graph_consumer_stop { s with thread := crtx_thread_start_job (setStop s.thread) } g

/-- One iteration: the state after it, and the return value that the loop looks at. -/
def iteration (s : Sys) (g : GraphId) (r : Round) : Sys × Int :=
  let s := r.others s
  let (env, rv) := crtx_process_one_event s.env g r.handler r.outcome
  ({ s with env }, rv)

/-- The loop, for at most `n` iterations. `rounds i` surrounds the `i`-th from here. `none`: it still runs. -/
def process_graph_tmain (g : GraphId) : Nat → (Nat → Round) → Sys → Option Sys
  | 0, _, _ => none
  | n + 1, rounds, s =>
    let (s, rv) := iteration s g (rounds 0)
    if rv < 0 ∧ rv ≠ -EAGAIN then some s else process_graph_tmain g n (fun i => rounds (i + 1)) s

/-- The worker returns within finitely many iterations. -/
def Ends (g : GraphId) (rounds : Nat → Round) (s : Sys) : Prop :=
  ∃ n s', process_graph_tmain g n rounds s = some s'

/-! ## The return value -/

theorem process_one_event_ret (env : Env) (g : GraphId) (handler : Env → Env) (o : Outcome) :
    (crtx_process_one_event env g handler o).2 = 1 ∨ (crtx_process_one_event env g handler o).2 = -EAGAIN := by
  unfold crtx_process_one_event
  split
  · exact Or.inr rfl
  · exact Or.inl rfl

theorem iteration_continues (s : Sys) (g : GraphId) (r : Round) :
    ¬ ((iteration s g r).2 < 0 ∧ (iteration s g r).2 ≠ -EAGAIN) := by
  rintro ⟨hneg, hne⟩
  rcases process_one_event_ret (r.others s).env g r.handler r.outcome with h | h
  · have hrv : (iteration s g r).2 = 1 := h
    omega
  · exact hne h

theorem still_running (g : GraphId) (n : Nat) :
    ∀ (rounds : Nat → Round) (s : Sys), process_graph_tmain g n rounds s = none := by
  induction n with
  | zero =>
    intro rounds s
    rfl
  | succ n ih =>
    intro rounds s
    unfold process_graph_tmain
    dsimp only
    rw [if_neg (iteration_continues s g (rounds 0))]
    exact ih _ _

/-- `stop` is written and never read, so the worker of a graph can't be stopped: it goes on whatever is in the
queue and whatever is added later. -/
theorem stopped_worker_runs_on (s : Sys) (g : GraphId) (rounds : Nat → Round) : ¬ Ends g rounds (stopWorker s g) := by
  rintro ⟨n, s', h⟩
  rw [still_running] at h
  cases h

/-- Nobody else does anything, and there is nothing to do. -/
def Round.quiet : Round where
  others := id
  handler := id
  outcome := Outcome.quiet

/-- The queue is empty and stays empty: the worker polls it forever. -/
theorem stopped_idle_worker_polls :
    (Env.idleListener.root.graphs 0).equeue = [] ∧ (stopWorker ⟨Env.idleListener, fun _ => false, spawned⟩ 0).stop 0 ∧
      ¬ Ends 0 (fun _ => Round.quiet) (stopWorker ⟨Env.idleListener, fun _ => false, spawned⟩ 0) := by
  refine ⟨by decide, by decide, ?_⟩
  rintro ⟨n, s', h⟩
  rw [still_running] at h
  cases h

end Libcortex.Worker
