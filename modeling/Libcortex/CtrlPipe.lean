import Libcortex.Graph
import Libcortex.Lib.Run

/-!
# The event loop and its own control pipe

One thread runs the event loop, and all handlers run on it. Each event that a handler adds costs
one message in the control pipe, which only this thread reads. The pipe comes from `pipe()`, so a
write into a full one blocks, and then nobody is left to read.
-/

open Libcortex.Lib

namespace Libcortex.CtrlPipe

/-! ## The machine -/

/-- What a handler does as far as the pipe is concerned. -/
inductive HandlerOp where
  | addEvent (g : GraphId) (e : EventId)
  | triggerCallback (cb : CallbackId)
deriving DecidableEq, Repr

/-- Where the thread is: in `epoll_wait`, in the loop of `evloop_ctrl_pipe_handler` (with the `el_cb` of the
message), in a task handler below this loop, or in the handler of a file descriptor or callback. -/
inductive Pc where
  | wait
  | drain (g : GraphId) (cb : Option CallbackId)
  | task (g : GraphId) (q : Entry) (cb : Option CallbackId) (todo : List HandlerOp)
  | callback (todo : List HandlerOp)
deriving DecidableEq, Repr

def Pc.todo : Pc → List HandlerOp
  | .wait | .drain _ _ => []
  | .task _ _ _ todo | .callback todo => todo

structure Loop where
  root : Root
  pc : Pc

/-- `prog` is what the handler does that starts with this action, and empty if none starts. -/
inductive Action where
  | ready (prog : List HandlerOp)
  | read (prog : List HandlerOp)
  | process (prog : List HandlerOp)
  | exec
  | complete
deriving DecidableEq

/-- A graph without tasks drops the event, and a graph in thread mode starts a worker: neither writes. -/
def WritesMsg (r : Root) : HandlerOp → Prop
  | .addEvent g _ => (r.graphs g).tasks ≠ [] ∧ crtx_get_mode r (r.graphs g).mode ≠ .preferThread
  | .triggerCallback _ => True

instance (r : Root) : ∀ op, Decidable (WritesMsg r op)
  | .addEvent _ _ => inferInstanceAs (Decidable (_ ∧ _))
  | .triggerCallback _ => inferInstanceAs (Decidable True)

def writes (r : Root) (prog : List HandlerOp) : Nat := prog.countP fun op => WritesMsg r op

def perform (r : Root) : HandlerOp → Root
  | .addEvent g e => crtx_add_event r g e
  | .triggerCallback cb => crtx_evloop_trigger_callback r cb

/-- The thread is about to write, and there is no room. -/
def Blocked (s : Loop) : Prop := ∃ op ∈ s.pc.todo.head?, WritesMsg s.root op ∧ ¬ s.root.HasRoom

instance (s : Loop) : Decidable (Blocked s) :=
  match h : s.pc.todo.head? with
  | none => .isFalse (by simp [Blocked, h])
  | some op => decidable_of_iff (WritesMsg s.root op ∧ ¬ s.root.HasRoom) (by simp [Blocked, h])

/-- The end of `evloop_ctrl_pipe_handler`: the callback of the message, if it has one. -/
def afterGraph (cb : Option CallbackId) (prog : List HandlerOp) : Pc :=
  match cb with
  | none => .wait
  | some _ => .callback prog

/-- `evloop_ctrl_pipe_handler` until it knows what to do with the message. -/
def dispatch (r : Root) (m : CtrlMsg) (prog : List HandlerOp) : Pc :=
  match m.graph with
  | none => afterGraph m.el_cb prog
  | some g => if some g ∈ r.registry then .drain g m.el_cb else afterGraph m.el_cb prog

/-- The thread goes on at `pc`, with the handler that starts there. -/
def goOn (r : Root) (pc : Pc) (prog : List HandlerOp) : Option Loop :=
  if pc.todo = prog then some ⟨r, pc⟩ else none

/-- A write waits until there is room. -/
def performAt (r : Root) (op : HandlerOp) (pc : Pc) : Option Loop :=
  if WritesMsg r op ∧ ¬ r.HasRoom then none else some ⟨perform r op, pc⟩

def step (s : Loop) : Action → Option Loop
  | .ready prog =>
    match s.pc with
    | .wait => goOn s.root (.callback prog) prog
    | _ => none
  | .read prog =>
    match s.pc, s.root.pipe with
    | .wait, m :: rest => goOn { s.root with pipe := rest } (dispatch s.root m prog) prog
    | _, _ => none
  | .process prog =>
    match s.pc with
    | .drain g cb =>
      match crtx_claim_next_event_of_graph s.root g with
      | (r, none) => goOn r (afterGraph cb prog) prog
      | (r, some q) => goOn r (.task g q cb prog) prog
    | _ => none
  | .exec =>
    match s.pc with
    | .task g q cb (op :: todo) => performAt s.root op (.task g q cb todo)
    | .callback (op :: todo) => performAt s.root op (.callback todo)
    | _ => none
  | .complete =>
    match s.pc with
    | .task g q cb [] => some ⟨finishEntry (dropReference s.root q.event) g q, .drain g cb⟩
    | .callback [] => some ⟨s.root, .wait⟩
    | _ => none

/-- When a handler starts, what it writes fits into the pipe beside the messages that are there. -/
def FitsPipe (s : Loop) : Action → Prop
  | .ready prog | .process prog => (s.root.pipe.length + writes s.root prog) * ctrlMsgSize ≤ s.root.pipe_capacity
  | .read prog => (s.root.pipe.tail.length + writes s.root prog) * ctrlMsgSize ≤ s.root.pipe_capacity
  | .exec | .complete => True

instance (s : Loop) : ∀ a, Decidable (FitsPipe s a)
  | .ready _ | .process _ | .read _ => inferInstanceAs (Decidable (_ ≤ _))
  | .exec | .complete => inferInstanceAs (Decidable True)

/-! ## One operation of a handler -/

theorem writesMsg_congr {r r' : Root} (h : r.SameSetup r') (op : HandlerOp) : WritesMsg r' op ↔ WritesMsg r op := by
  cases op with
  | addEvent g e =>
    change _ ≠ _ ∧ _ ≠ _ ↔ _ ≠ _ ∧ _ ≠ _
    rw [h.tasks, h.get_mode]
  | triggerCallback cb => exact Iff.rfl

theorem writes_congr {r r' : Root} (h : r.SameSetup r') (prog : List HandlerOp) : writes r' prog = writes r prog := by
  unfold writes
  apply List.countP_congr
  intro op _
  simp only [decide_eq_true_eq, writesMsg_congr h]

theorem perform_sameSetup (r : Root) (op : HandlerOp) : r.SameSetup (perform r op) := by
  cases op with
  | addEvent g e => exact Root.SameSetup.add_event r g e
  | triggerCallback cb => exact Root.SameSetup.setPipe r _

theorem perform_pipe (r : Root) (op : HandlerOp) :
    (perform r op).pipe.length = r.pipe.length + if WritesMsg r op then 1 else 0 := by
  cases op with
  | triggerCallback cb => simp [perform, WritesMsg, crtx_evloop_trigger_callback]
  | addEvent g e =>
    have hset := (Root.SameSetup.addReference r e).trans (Root.SameSetup.addQueue (addReference r e) g e)
    have htasks : ((addReference r e).graphs g).tasks = (r.graphs g).tasks := rfl
    have hpipe : (addQueue (addReference r e) g e).pipe = r.pipe := addQueue_pipe ..
    have hw : WritesMsg r (.addEvent g e) ↔
      (r.graphs g).tasks ≠ [] ∧ crtx_get_mode r (r.graphs g).mode ≠ .preferThread := Iff.rfl
    unfold perform crtx_add_event
    dsimp only
    rw [htasks]
    split
    · rename_i ht
      rw [hpipe, if_neg (by rw [hw]; simp [ht])]
      rfl
    · rename_i ht
      unfold addTrigger
      rw [hset.get_mode]
      split
      · rename_i hm
        rw [hpipe, if_neg (by rw [hw]; simp [hm])]
        rfl
      · rename_i hm
        rw [if_pos (hw.mpr ⟨ht, hm⟩)]
        simp [crtx_evloop_queue_graph, hpipe]

/-! ## The invariant -/

def Fits (r : Root) (todo : List HandlerOp) : Prop :=
  (r.pipe.length + writes r todo) * ctrlMsgSize ≤ r.pipe_capacity

theorem writes_cons (r : Root) (op : HandlerOp) (todo : List HandlerOp) :
    writes r (op :: todo) = writes r todo + if WritesMsg r op then 1 else 0 := by
  simp [writes, List.countP_cons]

theorem fits_perform (r : Root) (op : HandlerOp) (todo : List HandlerOp) :
    Fits (perform r op) todo ↔ Fits r (op :: todo) := by
  have h := perform_sameSetup r op
  unfold Fits
  rw [perform_pipe, writes_congr h, h.pipe_capacity, writes_cons, Nat.add_assoc, Nat.add_comm (writes r todo)]

theorem fits_congr {r r' : Root} (h : r.SameSetup r') (hp : r'.pipe = r.pipe) (todo : List HandlerOp) :
    Fits r' todo ↔ Fits r todo := by
  unfold Fits
  rw [writes_congr h, h.pipe_capacity, hp]

theorem claim_pipe (r : Root) (g : GraphId) : (crtx_claim_next_event_of_graph r g).1.pipe = r.pipe := by
  cases hq : nextEntry? r g with
  | none => rw [claim_none hq]
  | some q => rw [claim_some hq]; rfl

theorem goOn_eq_some {r : Root} {pc : Pc} {prog : List HandlerOp} {s : Loop} :
    goOn r pc prog = some s ↔ pc.todo = prog ∧ s = ⟨r, pc⟩ := by
  unfold goOn
  split <;> simp_all [eq_comm]

theorem performAt_fits {r : Root} {op : HandlerOp} {todo : List HandlerOp} {pc : Pc} {s : Loop}
    (hf : Fits r (op :: todo)) (hpc : pc.todo = todo) (hs : performAt r op pc = some s) :
    Fits s.root s.pc.todo := by
  unfold performAt at hs
  split at hs
  · cases hs
  · cases hs
    rw [hpc]
    exact (fits_perform r op todo).mpr hf

theorem step_fits (s : Loop) (a : Action) (s' : Loop) (hf : Fits s.root s.pc.todo) (hok : FitsPipe s a)
    (hs : step s a = some s') : Fits s'.root s'.pc.todo := by
  cases a with
  | ready prog =>
    unfold step at hs
    dsimp only at hs
    split at hs
    · obtain ⟨_, rfl⟩ := goOn_eq_some.mp hs
      exact hok
    · cases hs
  | read prog =>
    unfold step at hs
    dsimp only at hs
    split at hs
    · rename_i m rest _ hpipe
      obtain ⟨htodo, rfl⟩ := goOn_eq_some.mp hs
      rw [htodo]
      unfold FitsPipe at hok
      rw [hpipe] at hok
      unfold Fits
      rw [writes_congr (Root.SameSetup.setPipe s.root rest)]
      exact hok
    · cases hs
  | process prog =>
    unfold step at hs
    dsimp only at hs
    split at hs
    · rename_i g cb _
      have hset := Root.SameSetup.claim s.root g
      have hpipe := claim_pipe s.root g
      have hfit := (fits_congr hset hpipe prog).mpr hok
      split at hs
      · rename_i r hc
        rw [hc] at hfit
        obtain ⟨htodo, rfl⟩ := goOn_eq_some.mp hs
        rw [htodo]
        exact hfit
      · rename_i r q hc
        rw [hc] at hfit
        obtain ⟨htodo, rfl⟩ := goOn_eq_some.mp hs
        exact hfit
    · cases hs
  | exec =>
    unfold step at hs
    dsimp only at hs
    split at hs
    · rename_i hpc
      rw [hpc] at hf
      exact performAt_fits hf rfl hs
    · rename_i hpc
      rw [hpc] at hf
      exact performAt_fits hf rfl hs
    · cases hs
  | complete =>
    unfold step at hs
    dsimp only at hs
    split at hs
    · rename_i g q cb hpc
      cases hs
      rw [hpc] at hf
      have hset := (Root.SameSetup.dropReference s.root q.event).trans (Root.SameSetup.finishEntry _ g q)
      exact (fits_congr hset rfl []).mpr hf
    · rename_i hpc
      cases hs
      rw [hpc] at hf
      exact hf
    · cases hs

/-! ## The result -/

theorem not_blocked_of_fits {s : Loop} (hf : Fits s.root s.pc.todo) : ¬ Blocked s := by
  rintro ⟨op, hop, hw, hroom⟩
  obtain ⟨todo, htodo⟩ : ∃ todo, s.pc.todo = op :: todo := by
    cases h : s.pc.todo with
    | nil => simp [h] at hop
    | cons op' todo => simp_all
  rw [htodo] at hf
  unfold Fits at hf
  rw [writes_cons, if_pos hw] at hf
  apply hroom
  unfold Root.HasRoom
  unfold ctrlMsgSize at *
  omega

/-- The thread never waits for room, from any state of the queues and any messages in the pipe. -/
theorem never_blocked_if_handlers_fit (r : Root) (hr : r.pipe.length * ctrlMsgSize ≤ r.pipe_capacity)
    (as : List Action) (s : Loop) (hm : Meets step FitsPipe as ⟨r, .wait⟩)
    (hrun : run step as ⟨r, .wait⟩ = some s) : ¬ Blocked s :=
  not_blocked_of_fits (run_keeps step_fits as ⟨r, .wait⟩ s hr hm hrun)

/-- Live graphs with a task each, in event-loop mode, and a pipe of the default size. -/
def eloopRoot : Root where
  events _ := Event.fresh
  graphs _ := ⟨[0], .preferEloop, [], [], none⟩
  registry := [some 0, some 1]
  pipe := []
  pipe_capacity := 65536
  nextEntry := 0
  force_mode := .preferNone
  default_mode := .preferEloop

/-- A task handler that adds two events, and is about to add the second. -/
theorem never_blocked_two_events :
    ∃ s, run step [.ready [.addEvent 0 7], .exec, .complete, .read [], .process [.addEvent 0 8, .addEvent 1 9], .exec]
      ⟨eloopRoot, .wait⟩ = some s ∧ s.pc.todo = [.addEvent 1 9] ∧ ¬ Blocked s := by
  have hrun : (run step [.ready [.addEvent 0 7], .exec, .complete, .read [],
      .process [.addEvent 0 8, .addEvent 1 9], .exec] ⟨eloopRoot, .wait⟩).map (fun s => s.pc.todo) =
        some [.addEvent 1 9] := by decide
  obtain ⟨s, hs, htodo⟩ := Option.map_eq_some_iff.mp hrun
  exact ⟨s, hs, htodo, never_blocked_if_handlers_fit eloopRoot (by decide) _ s (by decide) hs⟩

theorem blocks_if_not_fits (s : Loop) (hcap : s.root.pipe.length * ctrlMsgSize ≤ s.root.pipe_capacity)
    (hnf : ¬ Fits s.root s.pc.todo) :
    ∃ n s', run step (List.replicate n .exec) s = some s' ∧ Blocked s' := by
  generalize htodo : s.pc.todo = todo at hnf
  induction todo generalizing s with
  | nil => exact absurd hcap hnf
  | cons op todo ih =>
    by_cases hb : WritesMsg s.root op ∧ ¬ s.root.HasRoom
    · exact ⟨0, s, rfl, op, by simp [htodo], hb⟩
    · have hnf' : ¬ Fits (perform s.root op) todo := by
        rw [fits_perform]
        exact hnf
      have hcap' : (perform s.root op).pipe.length * ctrlMsgSize ≤ (perform s.root op).pipe_capacity := by
        rw [perform_pipe, (perform_sameSetup s.root op).pipe_capacity]
        split
        · rename_i hw
          exact not_not.mp fun h => hb ⟨hw, h⟩
        · exact hcap
      obtain ⟨pc, hpc, hstep⟩ : ∃ pc : Pc, pc.todo = todo ∧ step s .exec = some ⟨perform s.root op, pc⟩ := by
        cases hpc : s.pc with
        | wait => simp [hpc, Pc.todo] at htodo
        | drain g cb => simp [hpc, Pc.todo] at htodo
        | task g q cb todo' =>
          obtain rfl : todo' = op :: todo := by simpa [hpc, Pc.todo] using htodo
          exact ⟨.task g q cb todo, rfl, by simp only [step, hpc, performAt, if_neg hb]⟩
        | callback todo' =>
          obtain rfl : todo' = op :: todo := by simpa [hpc, Pc.todo] using htodo
          exact ⟨.callback todo, rfl, by simp only [step, hpc, performAt, if_neg hb]⟩
      obtain ⟨n, s', hrun, hblocked⟩ := ih ⟨perform s.root op, pc⟩ hcap' hpc hnf'
      refine ⟨n + 1, s', ?_, hblocked⟩
      rw [List.replicate_succ, run_cons, hstep]
      exact hrun

theorem eloopRoot_task (prog : List HandlerOp) :
    ∃ r, run step [.ready [.addEvent 0 7], .exec, .complete, .read [], .process prog] ⟨eloopRoot, .wait⟩ =
        some ⟨r, .task 0 ⟨0, 7⟩ none prog⟩ ∧
      r.pipe = [] ∧ eloopRoot.SameSetup r := by
  let r : Root := { crtx_add_event eloopRoot 0 7 with pipe := [] }
  have hread : run step [.ready [.addEvent 0 7], .exec, .complete, .read []] ⟨eloopRoot, .wait⟩ =
      some ⟨r, .drain 0 none⟩ := rfl
  have hclaim : crtx_claim_next_event_of_graph r 0 = ((crtx_claim_next_event_of_graph r 0).1, some ⟨0, 7⟩) := rfl
  have hstep : step ⟨r, .drain 0 none⟩ (.process prog) =
      some ⟨(crtx_claim_next_event_of_graph r 0).1, .task 0 ⟨0, 7⟩ none prog⟩ := by
    unfold step
    dsimp only
    rw [hclaim]
    exact if_pos rfl
  refine ⟨(crtx_claim_next_event_of_graph r 0).1, ?_, ?_, ?_⟩
  · have happ := run_append step [.ready [.addEvent 0 7], .exec, .complete, .read []] [.process prog]
      ⟨eloopRoot, .wait⟩
    rw [hread, Option.bind_some, run_cons, hstep] at happ
    exact happ
  · exact claim_pipe r 0
  · refine Root.SameSetup.trans ?_ (Root.SameSetup.claim _ 0)
    have h := Root.SameSetup.add_event eloopRoot 0 7
    exact ⟨h.registry, h.pipe_capacity, h.force_mode, h.default_mode, h.tasks, h.mode⟩

/-- A task handler that adds 4097 events, one more than the pipe has room for. -/
theorem blocked_by_4097_events :
    ∃ n s, run step ([.ready [.addEvent 0 7], .exec, .complete, .read [],
        .process (List.replicate 4097 (.addEvent 1 8))] ++ List.replicate n .exec) ⟨eloopRoot, .wait⟩ = some s ∧
      Blocked s := by
  obtain ⟨r, hrun, hpipe, hset⟩ := eloopRoot_task (List.replicate 4097 (.addEvent 1 8))
  have hcap : r.pipe_capacity = 65536 := hset.pipe_capacity
  have hwrites : writes r (List.replicate 4097 (.addEvent 1 8)) = 4097 := by
    have hw : WritesMsg eloopRoot (.addEvent 1 8) := by decide
    rw [writes_congr hset]
    unfold writes
    rw [List.countP_replicate]
    simp [hw]
  obtain ⟨n, s, hexec, hblocked⟩ := blocks_if_not_fits ⟨r, .task 0 ⟨0, 7⟩ none (List.replicate 4097 (.addEvent 1 8))⟩
    (by simp [hpipe]) (by
      unfold Fits Pc.todo
      dsimp only
      rw [hwrites, hcap, hpipe]
      decide)
  refine ⟨n, s, ?_, hblocked⟩
  rw [run_append, hrun, Option.bind_some]
  exact hexec

end Libcortex.CtrlPipe
