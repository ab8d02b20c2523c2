import Libcortex.Frame
import Libcortex.Lib.Run

/-!
# Nested processing

One thread runs everything. While it processes an event, the tasks of the graph may make any of the
calls themselves, and may process further events. So the events that are being processed form a
stack. `evloop_ctrl_pipe_handler` processes one event after another until there is none left.
-/

open Libcortex.Lib

namespace Libcortex.Nesting

/-- An event whose tasks are running. `loop`: it is processed by the loop of `evloop_ctrl_pipe_handler`. -/
structure Frame where
  graph : GraphId
  entry : Entry
  loop : Bool
deriving DecidableEq, Repr

/-- The innermost event comes first. -/
structure Sys where
  env : Env
  stack : List Frame

/-- What the thread does next. `finish`: the tasks of the innermost event have run. -/
inductive Action where
  | start (l : ListenerId) (o : Outcome)
  | stop (l : ListenerId) (o : Outcome)
  | shutdown (l : ListenerId) (o : Outcome)
  | add (p : GraphId × EventId)
  | process (g : GraphId)
  | dispatch (g : GraphId)
  | finish (o : Outcome)

/-- `crtx_process_one_event` up to the tasks. -/
def enter (env : Env) (stack : List Frame) (g : GraphId) (loop : Bool) : Sys :=
  match claimPart env g with
  | (env, none) => ⟨env, stack⟩
  | (env, some q) => ⟨env.emit (.touchGraph g), ⟨g, q, loop⟩ :: stack⟩

/-- The rest of `crtx_process_one_event`. In the loop, the next call follows at once. -/
def complete (env : Env) (f : Frame) (stack : List Frame) (o : Outcome) : Sys :=
  let env := completePart env f.graph f.entry o
  if f.loop then enter env stack f.graph true else ⟨env, stack⟩

/-- Nobody calls for an object that is gone. The loop looks up the graph of its message itself. -/
def enabled (s : Sys) : Action → Prop
  | .start l _ => s.env.lfreed l = false
  | .stop l _ => s.env.lfreed l = false
  | .shutdown l _ => s.env.lfreed l = false
  | .add p => s.env.gfreed p.1 = false
  | .process g => s.env.gfreed g = false
  | .dispatch _ => True
  | .finish _ => s.stack ≠ []

instance (s : Sys) : ∀ a, Decidable (enabled s a)
  | .start l _ | .stop l _ | .shutdown l _ => inferInstanceAs (Decidable (s.env.lfreed l = false))
  | .add p => inferInstanceAs (Decidable (s.env.gfreed p.1 = false))
  | .process g => inferInstanceAs (Decidable (s.env.gfreed g = false))
  | .dispatch _ => inferInstanceAs (Decidable True)
  | .finish _ => inferInstanceAs (Decidable (s.stack ≠ []))

def apply (s : Sys) : Action → Sys
  | .start l o => { s with env := (crtx_start_listener s.env l o).1 }
  | .stop l o => { s with env := (crtx_stop_listener s.env l o).1 }
  | .shutdown l o => { s with env := crtx_shutdown_listener s.env l o }
  | .add p => { s with env := s.env.addEvent p }
  | .process g => enter s.env s.stack g false
  | .dispatch g => if some g ∈ s.env.root.registry then enter s.env s.stack g true else s
  | .finish o =>
    match s.stack with
    | [] => s
    | f :: stack => complete s.env f stack o

def step : Sys → Action → Option Sys := guarded enabled apply

/-- The entries of `g` whose tasks are running. -/
def entriesOf (g : GraphId) (stack : List Frame) : List Entry := (stack.filter (·.graph = g)).map Frame.entry

@[simp] theorem entriesOf_nil (g : GraphId) : entriesOf g [] = [] := rfl

theorem entriesOf_self {f : Frame} {g : GraphId} (h : f.graph = g) (stack : List Frame) :
    entriesOf g (f :: stack) = f.entry :: entriesOf g stack := by
  unfold entriesOf
  rw [List.filter_cons_of_pos (by simpa using h), List.map_cons]

theorem entriesOf_other {f : Frame} {g : GraphId} (h : f.graph ≠ g) (stack : List Frame) :
    entriesOf g (f :: stack) = entriesOf g stack := by
  unfold entriesOf
  rw [List.filter_cons_of_neg (by simpa using h)]

theorem entriesOf_eq_nil {g : GraphId} {stack : List Frame} (h : entriesOf g stack = []) :
    ∀ f ∈ stack, f.graph ≠ g := by
  intro f hf hg
  unfold entriesOf at h
  rw [List.map_eq_nil_iff, List.filter_eq_nil_iff] at h
  exact h f hf (by simpa using hg)

/-! ## Claiming -/

/-- What `crtx_process_one_event` finds in the queue. -/
inductive Claimed (env : Env) (g : GraphId) : Env × Option Entry → Prop where
  | nothing {env' : Env} : env'.root = env.root → env'.lstnr = env.lstnr → env'.gfreed = env.gfreed →
    env'.lfreed = env.lfreed → env'.log = [.unlock (.queue g), .lock (.queue g), .touchGraph g] ++ env.log →
    Claimed env g (env', none)
  | entry {env' : Env} {q : Entry} : q ∈ (env.root.graphs g).equeue →
    env'.root = env.root.setGraph g { env.root.graphs g with
      equeue := (env.root.graphs g).equeue.erase q, claimed := (env.root.graphs g).claimed ++ [q] } →
    env'.lstnr = env.lstnr → env'.gfreed = env.gfreed → env'.lfreed = env.lfreed →
    env'.log = [.unlock (.queue g), .lock (.queue g), .touchGraph g] ++ env.log → Claimed env g (env', some q)

theorem claim_cases (env : Env) (g : GraphId) : Claimed env g (claimPart env g) := by
  have heq : claimPart env g =
      ((((env.emit (.touchGraph g)).lock (.queue g)).setRoot (crtx_claim_next_event_of_graph env.root g).1).unlock
        (.queue g), (crtx_claim_next_event_of_graph env.root g).2) := rfl
  rw [heq]
  cases hq : nextEntry? env.root g with
  | none =>
    rw [claim_none hq]
    exact .nothing rfl rfl rfl rfl rfl
  | some q =>
    rw [claim_some hq]
    exact .entry (nextEntry_mem hq) rfl rfl rfl rfl rfl

/-! ## Finishing -/

/-- The entry is taken off its list, with `queue_mutex` held. -/
def unlinked (env : Env) (g : GraphId) (q : Entry) : Env :=
  (((env.setRoot (dropReference env.root q.event)).emit (.touchGraph g)).lock (.queue g)).setRoot
    (finishEntry (dropReference env.root q.event) g q)

theorem completePart_eq (env : Env) (g : GraphId) (q : Entry) (o : Outcome) :
    completePart env g q o =
      afterEvent (((checkDelayed (unlinked env g q) g).emit (.touchGraph g)).unlock (.queue g)) g o := rfl

section

variable (env : Env) (g : GraphId) (q : Entry)

theorem unlinked_claimed : ((unlinked env g q).root.graphs g).claimed = (env.root.graphs g).claimed.erase q := by
  unfold unlinked finishEntry
  rw [Env.setRoot_root, Root.setGraph_self]
  rfl

theorem unlinked_listener (g' : GraphId) :
    ((unlinked env g q).root.graphs g').listener = (env.root.graphs g').listener := by
  unfold unlinked finishEntry
  rw [Env.setRoot_root]
  by_cases h : g' = g
  · rw [h, Root.setGraph_self]
    rfl
  · rw [Root.setGraph_other _ h]
    rfl

theorem unlinked_other {g' : GraphId} (h : g' ≠ g) : (unlinked env g q).root.graphs g' = env.root.graphs g' := by
  unfold unlinked finishEntry
  rw [Env.setRoot_root, Root.setGraph_other _ h]
  rfl

end

end Libcortex.Nesting
