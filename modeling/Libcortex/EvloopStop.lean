import Mathlib.Algebra.GroupWithZero.Nat
import Libcortex.EpollLoop
import Libcortex.Graph

/-!
# The end of the event loop

`evloop_stop` may be called from any thread, and from a handler: it sets `stop`, and then writes an empty message into
the control pipe. A call of `evloop_start_intern` looks at `stop` when it begins, and before and after `epoll_wait`.
-/

open Libcortex.Lib Libcortex.EpollLoop
open Libcortex.Epoll (EPOLLIN)

namespace Libcortex.EvloopStop

/-! ## The machine -/

/-- `stopping` counts the calls of `evloop_stop` that have set `stop` and not yet written to the pipe. -/
structure Sys where
  loop : State
  stop : Bool
  stopping : Nat
  pipe : List CtrlMsg
  pipe_capacity : Nat

/-- `visit` is the step of the loop over the callbacks of an entry, and `advance` any other step that the loop takes by
itself. `write` is a message that something else writes, and `read` the start of `evloop_ctrl_pipe_handler`. -/
inductive Action where
  | call (onetime : Bool)
  | advance
  | visit
  | handlerReturns
  | timeout (el_cb : CallbackId)
  | timeoutsDone
  | wait (evs : List EpollEvent)
  | edit (tables : Tables)
  | phaseOut
  | setStop
  | writeStop
  | write (m : CtrlMsg)
  | read

def Sys.HasRoom (s : Sys) : Prop := (s.pipe.length + 1) * ctrlMsgSize ≤ s.pipe_capacity

instance (s : Sys) : Decidable s.HasRoom := inferInstanceAs (Decidable (_ ≤ _))

/-- As the loop does without `stop`. -/
def Sys.unstopped (s : Sys) (a : EpollLoop.Action) : Option Sys :=
  (EpollLoop.step s.loop a).map fun loop => { s with loop }

/-- The innermost call returns. -/
def Sys.returns (s : Sys) (below : List Level) : Sys := { s with loop := { s.loop with stack := below } }

def Pc.atCallback : Pc → Bool
  | .walk _ _ (some _) => true
  | _ => false

/-- The loop is entered, which it isn't once it was told to stop. -/
def call (s : Sys) (onetime : Bool) : Option Sys :=
  if s.stop then if s.loop.stack.head?.elim true Level.inHandler then some s else none
  else s.unstopped (.call onetime)

/-- With `stop`, a call returns at the last where it would begin to wait. -/
def advance (s : Sys) (lv : Level) (below : List Level) : Option Sys :=
  if Pc.atCallback lv.pc then none
  else if lv.pc = .exits ∧ s.stop then some (s.returns below)
  else s.unstopped .advance

/-- `epoll_wait` reports something if there is a message in the pipe. It may return because of something else, or for
the time that has passed. -/
def wait (s : Sys) (lv : Level) (below : List Level) (evs : List EpollEvent) : Option Sys :=
  if lv.pc = .wait ∧ evs.length ≤ s.loop.max_n_events ∧ (s.pipe ≠ [] → evs ≠ []) then
    if s.stop then
      let s := { s with loop := { s.loop with ready := s.loop.ready.epoll_wait evs } }
      some (s.returns below)
    else s.unstopped (.wait evs)
  else none

def step (s : Sys) (a : Action) : Option Sys :=
  match a, s.loop.stack with
  | .call onetime, _ => call s onetime
  | .advance, lv :: below => advance s lv below
  | .visit, lv :: _ => if Pc.atCallback lv.pc then s.unstopped .advance else none
  | .handlerReturns, _ => s.unstopped .handlerReturns
  | .timeout c, _ => s.unstopped (.timeout c)
  | .timeoutsDone, _ => s.unstopped .timeoutsDone
  | .wait evs, lv :: below => wait s lv below evs
  | .edit tables, _ => s.unstopped (.edit tables)
  | .phaseOut, _ => s.unstopped .phaseOut
  | .setStop, _ => some { s with stop := true, stopping := s.stopping + 1 }
  | .writeStop, _ =>
    if 0 < s.stopping ∧ s.HasRoom then some { s with stopping := s.stopping - 1, pipe := s.pipe ++ [⟨none, none⟩] }
    else none
  | .write m, _ => if s.HasRoom then some { s with pipe := s.pipe ++ [m] } else none
  | .read, lv :: _ => if lv.inHandler ∧ s.pipe ≠ [] then some { s with pipe := s.pipe.tail } else none
  | _, [] => none

def init (max_n_events pipe_capacity : Nat) (events : Nat → EpollEvent) (tables : Tables) : Sys where
  loop := EpollLoop.init max_n_events events tables
  stop := false
  stopping := 0
  pipe := []
  pipe_capacity

/-! ## What has to hold -/

/-- The innermost call waits in `epoll_wait`. -/
def waiting : List Level → Nat
  | [] => 0
  | lv :: _ => if lv.pc = .wait then 1 else 0

/-- The steps that the loop takes by itself, apart from those that the callbacks of an entry cost. -/
def own : Action → Nat
  | .advance | .timeoutsDone | .wait _ => 1
  | _ => 0

/-- The loop goes on without anyone's help: the kernel wakes it up if there is a message. -/
def Certain (s : Sys) : Action → Prop
  | .advance | .visit | .timeoutsDone | .writeStop => True
  | .wait _ => s.pipe ≠ []
  | _ => False

/-- Neither the loop nor a call of `evloop_stop` is sure to go on. -/
def Rests (s : Sys) : Prop := ∀ a, Certain s a → step s a = none

/-! ## The calls -/

/-- Every call but the innermost one waits for a handler. -/
def Nested (stack : List Level) : Prop := ∀ lv ∈ stack.tail, lv.inHandler = true

theorem Nested.below {lv : Level} {below : List Level} (h : Nested (lv :: below)) : Nested below :=
  fun lv' hlv => h lv' (List.mem_of_mem_tail hlv)

theorem Nested.goto {lv : Level} {below : List Level} (h : Nested (lv :: below)) (lv' : Level) : Nested (lv' :: below) :=
  h

theorem not_wait_of_inHandler {lv : Level} (h : lv.inHandler = true) : lv.pc ≠ .wait := by
  intro hpc
  simp [Level.inHandler, hpc] at h

theorem Nested.waiting_below {lv : Level} {below : List Level} (h : Nested (lv :: below)) : waiting below = 0 := by
  cases below with
  | nil => rfl
  | cons lv' below =>
    have hpc := not_wait_of_inHandler (h lv' (List.mem_cons_self ..))
    simp [waiting, hpc]

/-- What a call still costs, if it doesn't wait any more. -/
def rank : Pc → Nat
  | .start | .walk _ _ _ | .inCallback _ _ _ => 4
  | .dispatch => 3
  | .timeouts | .inTimeout => 2
  | .exits | .wait => 1

theorem rank_le (pc : Pc) : rank pc ≤ 4 := by
  unfold rank
  split <;> omega

def ranks (stack : List Level) : Nat := (stack.map fun lv => rank lv.pc).sum

@[simp] theorem ranks_nil : ranks [] = 0 := rfl

@[simp] theorem ranks_cons (lv : Level) (below : List Level) : ranks (lv :: below) = rank lv.pc + ranks below := rfl

/-- The elements of the array that aren't taken yet. -/
def remaining (r : Ready) : Nat := r.n_rdy_events - r.cur_event_idx

def work (s : State) : Nat := ranks s.stack + 2 * remaining s.ready

/-- The innermost call goes on and doesn't come to wait, or it returns. -/
structure Onward (s s' : State) (below : List Level) (cost : Nat) : Prop where
  stack : s'.stack = below ∨ ∃ lv, s'.stack = lv :: below ∧ lv.pc ≠ .wait
  returned : s'.ready.returned = s.ready.returned
  max_n_events : s'.max_n_events = s.max_n_events
  work : cost + work s' ≤ work s

theorem advance_onward {s s' : State} {lv : Level} {below : List Level} (hstack : s.stack = lv :: below)
    (h : EpollLoop.advance s lv below = some s') (hpc : lv.pc ≠ .exits) (hcb : Pc.atCallback lv.pc = false) :
    Onward s s' below 1 := by
  unfold EpollLoop.advance at h
  dsimp only at h
  split at h <;> rename_i hl
  · split at h <;> simp only [Option.some.injEq] at h <;> subst h
    · exact ⟨.inl rfl, rfl, rfl, by simp only [work, hstack, ranks_cons, hl, rank]; omega⟩
    · exact ⟨.inr ⟨_, rfl, by simp⟩, rfl, rfl, by simp only [work, hstack, ranks_cons, hl, rank]; omega⟩
  · split at h <;> simp only [Option.some.injEq] at h <;> subst h
    · refine ⟨.inr ⟨_, rfl, by simp⟩, rfl, rfl, ?_⟩
      simp only [work, hstack, ranks_cons, hl, rank, remaining, Ready.take]
      omega
    · exact ⟨.inr ⟨_, rfl, by simp⟩, rfl, rfl, by simp only [work, hstack, ranks_cons, hl, rank]; omega⟩
  · simp only [Option.some.injEq] at h
    subst h
    exact ⟨.inr ⟨_, rfl, by simp⟩, rfl, rfl, by simp only [work, hstack, ranks_cons, hl, rank]; omega⟩
  · simp [hl, Pc.atCallback] at hcb
  · exact absurd hl hpc
  all_goals simp at h

theorem visit_onward {s s' : State} {lv : Level} {below : List Level} (hstack : s.stack = lv :: below)
    (h : EpollLoop.advance s lv below = some s') (hcb : Pc.atCallback lv.pc = true) : Onward s s' below 0 := by
  unfold Pc.atCallback at hcb
  split at hcb
  · rename_i t error c hl
    simp only [EpollLoop.advance, hl, Option.some.injEq] at h
    subst h
    rcases visit_cases s lv below t error c with ⟨-, hv⟩ | ⟨-, hv | hv⟩ <;> rw [hv] <;>
      exact ⟨.inr ⟨_, rfl, by simp⟩, rfl, rfl, by simp [work, hstack, hl, rank, invoke]⟩
  · simp at hcb

theorem handlerReturned_onward {s s' : State} {lv : Level} {below : List Level} (hstack : s.stack = lv :: below)
    (h : handlerReturned s lv below = some s') : Onward s s' below 0 := by
  unfold handlerReturned at h
  split at h <;> rename_i hl
  · simp only [Option.some.injEq] at h
    subst h
    exact ⟨.inr ⟨_, rfl, by simp⟩, rfl, rfl, by simp [work, hstack, hl, rank]⟩
  · simp only [Option.some.injEq] at h
    subst h
    exact ⟨.inr ⟨_, rfl, by simp⟩, rfl, rfl, by simp [work, hstack, hl, rank]⟩
  · simp at h

theorem timedOut_onward {s : State} {lv : Level} {below : List Level} (hstack : s.stack = lv :: below)
    (hpc : lv.pc = .timeouts) (c : CallbackId) : Onward s (timedOut s lv below c) below 0 := by
  unfold timedOut
  dsimp only
  split <;> exact ⟨.inr ⟨_, rfl, by simp⟩, rfl, rfl, by simp [work, hstack, hpc, rank]⟩

/-! ## The steps -/

/-- The calls below the innermost one stay as they are. -/
structure OnTop (s s' : State) (below : List Level) : Prop where
  stack : s'.stack = below ∨ ∃ lv, s'.stack = lv :: below
  max_n_events : s'.max_n_events = s.max_n_events

theorem advance_onTop {s s' : State} {lv : Level} {below : List Level} (h : EpollLoop.advance s lv below = some s') :
    OnTop s s' below := by
  unfold EpollLoop.advance at h
  dsimp only at h
  split at h
  · split at h <;> simp only [Option.some.injEq] at h <;> subst h <;> exact ⟨by simp, rfl⟩
  · split at h <;> simp only [Option.some.injEq] at h <;> subst h <;> exact ⟨by simp, rfl⟩
  · simp only [Option.some.injEq] at h
    subst h
    exact ⟨by simp, rfl⟩
  · simp only [Option.some.injEq] at h
    subst h
    rename_i t error c _
    rcases visit_cases s lv below t error c with ⟨-, hv⟩ | ⟨-, hv | hv⟩ <;> rw [hv] <;> exact ⟨by simp, rfl⟩
  · split at h
    · simp only [Option.some.injEq] at h
      subst h
      exact ⟨by simp, rfl⟩
    · split at h <;> simp only [Option.some.injEq] at h <;> subst h <;> exact ⟨by simp, rfl⟩
  all_goals simp at h

theorem handlerReturned_onTop {s s' : State} {lv : Level} {below : List Level}
    (h : handlerReturned s lv below = some s') : OnTop s s' below := by
  unfold handlerReturned at h
  split at h
  · simp only [Option.some.injEq] at h
    subst h
    exact ⟨by simp, rfl⟩
  · simp only [Option.some.injEq] at h
    subst h
    exact ⟨by simp, rfl⟩
  · simp at h

theorem waited_onTop (s : State) (lv : Level) (below : List Level) (evs : List EpollEvent) :
    OnTop s (waited s lv below evs) below := by
  unfold waited
  dsimp only
  split <;> exact ⟨by simp, rfl⟩

theorem loop_cases {s s' : State} {a : EpollLoop.Action} (h : EpollLoop.step s a = some s') :
    s'.max_n_events = s.max_n_events ∧ (s'.stack = s.stack ∨
      (s.stack.head?.elim true Level.inHandler = true ∧ ∃ lv, s'.stack = lv :: s.stack) ∨
      ∃ lv below, s.stack = lv :: below ∧ (s'.stack = below ∨ ∃ lv', s'.stack = lv' :: below)) := by
  have htop : ∀ {lv below}, s.stack = lv :: below → OnTop s s' below → s'.max_n_events = s.max_n_events ∧
      (s'.stack = s.stack ∨ (s.stack.head?.elim true Level.inHandler = true ∧ ∃ lv, s'.stack = lv :: s.stack) ∨
        ∃ lv below, s.stack = lv :: below ∧ (s'.stack = below ∨ ∃ lv', s'.stack = lv' :: below)) :=
    fun hstack ho => ⟨ho.max_n_events, .inr (.inr ⟨_, _, hstack, ho.stack⟩)⟩
  unfold EpollLoop.step at h
  split at h
  · split at h
    · split at h <;> simp only [Option.some.injEq] at h <;> subst h <;> simp_all
    · simp at h
  · exact htop ‹_› (advance_onTop h)
  · exact htop ‹_› (handlerReturned_onTop h)
  · simp only [Option.ite_none_right_eq_some, Option.some.injEq] at h
    obtain ⟨-, rfl⟩ := h
    exact htop ‹_› ⟨.inr ⟨_, rfl⟩, rfl⟩
  · simp only [Option.ite_none_right_eq_some, Option.some.injEq] at h
    obtain ⟨-, rfl⟩ := h
    exact htop ‹_› ⟨.inr ⟨_, rfl⟩, rfl⟩
  · simp only [Option.ite_none_right_eq_some, Option.some.injEq] at h
    obtain ⟨-, rfl⟩ := h
    exact htop ‹_› (waited_onTop ..)
  · simp only [Option.some.injEq] at h
    subst h
    exact ⟨rfl, .inl rfl⟩
  · simp only [Option.some.injEq] at h
    subst h
    exact ⟨rfl, .inl rfl⟩
  · simp at h

theorem loop_nested {s s' : State} {a : EpollLoop.Action} (hn : Nested s.stack) (h : EpollLoop.step s a = some s') :
    Nested s'.stack := by
  rcases (loop_cases h).2 with hs | ⟨hhead, lv, hs⟩ | ⟨lv, below, hstack, hs | ⟨lv', hs⟩⟩
  · rwa [hs]
  · rw [hs]
    intro lv' hlv
    simp only [List.tail_cons] at hlv
    cases hstack : s.stack with
    | nil => simp [hstack] at hlv
    | cons top below =>
      rw [hstack] at hlv hhead hn
      rcases List.mem_cons.mp hlv with rfl | hlv
      · exact hhead
      · exact hn lv' hlv
  · rw [hs]
    exact (hstack ▸ hn).below
  · rw [hs]
    exact (hstack ▸ hn).goto lv'

theorem unstopped_eq {s s' : Sys} {a : EpollLoop.Action} (h : s.unstopped a = some s') :
    ∃ loop, EpollLoop.step s.loop a = some loop ∧ s' = { s with loop } := by
  unfold Sys.unstopped at h
  obtain ⟨loop, hloop, rfl⟩ := Option.map_eq_some_iff.mp h
  exact ⟨loop, hloop, rfl⟩

theorem stopped_cases {s s' : Sys} {a : Action} (hs : s.stop = true) (h : step s a = some s') :
    (s'.loop.stack = s.loop.stack ∧ s'.loop.ready = s.loop.ready ∧ s'.loop.max_n_events = s.loop.max_n_events ∧
      own a = 0) ∨
    (∃ lv below, s.loop.stack = lv :: below ∧ Onward s.loop s'.loop below (own a)) ∨
    ∃ lv below evs, s.loop.stack = lv :: below ∧ lv.pc = .wait ∧ a = .wait evs ∧ evs.length ≤ s.loop.max_n_events ∧
      s'.loop.stack = below ∧ s'.loop.ready = s.loop.ready.epoll_wait evs ∧
      s'.loop.max_n_events = s.loop.max_n_events := by
  unfold step at h
  split at h
  · simp only [call, hs, if_true, Option.ite_none_right_eq_some, Option.some.injEq] at h
    obtain ⟨-, rfl⟩ := h
    exact .inl ⟨rfl, rfl, rfl, rfl⟩
  · rename_i lv below hstack
    refine .inr (.inl ⟨lv, below, hstack, ?_⟩)
    simp only [advance, hs, and_true, Option.ite_none_left_eq_some] at h
    obtain ⟨hcb, h⟩ := h
    split at h
    · simp only [Option.some.injEq] at h
      subst h
      have hl : lv.pc = .exits := ‹_›
      exact ⟨.inl rfl, rfl, rfl, by simp only [Sys.returns, work, hstack, ranks_cons, hl, rank, own]; omega⟩
    · obtain ⟨loop, hloop, rfl⟩ := unstopped_eq h
      simp only [EpollLoop.step, hstack] at hloop
      exact advance_onward hstack hloop ‹_› (by simpa using hcb)
  · rename_i lv below hstack
    simp only [Option.ite_none_right_eq_some] at h
    obtain ⟨hcb, h⟩ := h
    obtain ⟨loop, hloop, rfl⟩ := unstopped_eq h
    simp only [EpollLoop.step, hstack] at hloop
    exact .inr (.inl ⟨lv, below, hstack, visit_onward hstack hloop hcb⟩)
  · obtain ⟨loop, hloop, rfl⟩ := unstopped_eq h
    cases hstack : s.loop.stack with
    | nil => simp [EpollLoop.step, hstack] at hloop
    | cons lv below =>
      simp only [EpollLoop.step, hstack] at hloop
      exact .inr (.inl ⟨lv, below, rfl, handlerReturned_onward hstack hloop⟩)
  · obtain ⟨loop, hloop, rfl⟩ := unstopped_eq h
    cases hstack : s.loop.stack with
    | nil => simp [EpollLoop.step, hstack] at hloop
    | cons lv below =>
      simp only [EpollLoop.step, hstack, Option.ite_none_right_eq_some, Option.some.injEq] at hloop
      obtain ⟨⟨hpc, -⟩, rfl⟩ := hloop
      exact .inr (.inl ⟨lv, below, rfl, timedOut_onward hstack hpc _⟩)
  · obtain ⟨loop, hloop, rfl⟩ := unstopped_eq h
    cases hstack : s.loop.stack with
    | nil => simp [EpollLoop.step, hstack] at hloop
    | cons lv below =>
      simp only [EpollLoop.step, hstack, Option.ite_none_right_eq_some, Option.some.injEq] at hloop
      obtain ⟨hpc, rfl⟩ := hloop
      refine .inr (.inl ⟨lv, below, rfl, .inr ⟨_, rfl, by simp⟩, rfl, rfl, ?_⟩)
      simp only [work, hstack, ranks_cons, hpc, rank, own]
      omega
  · rename_i evs lv below hstack
    simp only [wait, hs, if_true, Option.ite_none_right_eq_some, Option.some.injEq] at h
    obtain ⟨⟨hpc, hlen, -⟩, rfl⟩ := h
    exact .inr (.inr ⟨lv, below, evs, hstack, hpc, rfl, hlen, rfl, rfl, rfl⟩)
  · obtain ⟨loop, hloop, rfl⟩ := unstopped_eq h
    simp only [EpollLoop.step, Option.some.injEq] at hloop
    subst hloop
    exact .inl ⟨rfl, rfl, rfl, rfl⟩
  · obtain ⟨loop, hloop, rfl⟩ := unstopped_eq h
    simp only [EpollLoop.step, Option.some.injEq] at hloop
    subst hloop
    exact .inl ⟨rfl, rfl, rfl, rfl⟩
  · simp only [Option.some.injEq] at h
    subst h
    exact .inl ⟨rfl, rfl, rfl, rfl⟩
  · simp only [Option.ite_none_right_eq_some, Option.some.injEq] at h
    obtain ⟨-, rfl⟩ := h
    exact .inl ⟨rfl, rfl, rfl, rfl⟩
  · simp only [Option.ite_none_right_eq_some, Option.some.injEq] at h
    obtain ⟨-, rfl⟩ := h
    exact .inl ⟨rfl, rfl, rfl, rfl⟩
  · simp only [Option.ite_none_right_eq_some, Option.some.injEq] at h
    obtain ⟨-, rfl⟩ := h
    exact .inl ⟨rfl, rfl, rfl, rfl⟩
  · simp at h

/-! ## The invariant -/

/-- There is a message to wake up for, or there will be one. -/
def Wakes (s : Sys) : Prop := s.pipe ≠ [] ∨ 0 < s.stopping

structure Inv (s : Sys) : Prop where
  nested : Nested s.loop.stack
  woken : s.stop = true → waiting s.loop.stack = 1 → Wakes s

theorem init_inv (max_n_events pipe_capacity : Nat) (events : Nat → EpollEvent) (tables : Tables) :
    Inv (init max_n_events pipe_capacity events tables) := by
  constructor
  · simp [Nested, init, EpollLoop.init]
  · simp [init]

theorem Onward.waiting {s s' : State} {lv : Level} {below : List Level} {cost : Nat} (h : Onward s s' below cost)
    (hn : Nested (lv :: below)) : EvloopStop.waiting s'.stack = 0 := by
  rcases h.stack with hs | ⟨lv', hs, hpc⟩
  · rw [hs]
    exact hn.waiting_below
  · simp [hs, EvloopStop.waiting, hpc]

theorem stopped_waiting {s s' : Sys} {a : Action} (hn : Nested s.loop.stack) (hs : s.stop = true)
    (h : step s a = some s') : s'.loop.stack = s.loop.stack ∨ waiting s'.loop.stack = 0 := by
  rcases stopped_cases hs h with ⟨hstack, -⟩ | ⟨lv, below, hstack, ho⟩ | ⟨lv, below, evs, hstack, -, -, -, hbelow, -⟩
  · exact .inl hstack
  · exact .inr (ho.waiting (hstack ▸ hn))
  · right
    rw [hbelow]
    exact (hstack ▸ hn).waiting_below

theorem waiting_of_inHandler {lv : Level} {below : List Level} (h : lv.inHandler = true) :
    waiting (lv :: below) = 0 := by
  simp [waiting, not_wait_of_inHandler h]

theorem step_nested {s s' : Sys} {a : Action} (hn : Nested s.loop.stack) (h : step s a = some s') :
    Nested s'.loop.stack ∧ s'.loop.max_n_events = s.loop.max_n_events := by
  have hun : ∀ {b}, s.unstopped b = some s' →
      Nested s'.loop.stack ∧ s'.loop.max_n_events = s.loop.max_n_events := by
    intro b hb
    obtain ⟨loop, hloop, rfl⟩ := unstopped_eq hb
    exact ⟨loop_nested hn hloop, (loop_cases hloop).1⟩
  unfold step at h
  split at h
  · unfold call at h
    split at h
    · simp only [Option.ite_none_right_eq_some, Option.some.injEq] at h
      exact h.2 ▸ ⟨hn, rfl⟩
    · exact hun h
  · rename_i lv below hstack
    simp only [advance, Option.ite_none_left_eq_some] at h
    obtain ⟨-, h⟩ := h
    split at h
    · simp only [Option.some.injEq] at h
      subst h
      exact ⟨(hstack ▸ hn).below, rfl⟩
    · exact hun h
  · simp only [Option.ite_none_right_eq_some] at h
    exact hun h.2
  · exact hun h
  · exact hun h
  · exact hun h
  · rename_i evs lv below hstack
    simp only [wait, Option.ite_none_right_eq_some] at h
    obtain ⟨-, h⟩ := h
    split at h
    · simp only [Option.some.injEq] at h
      subst h
      exact ⟨(hstack ▸ hn).below, rfl⟩
    · exact hun h
  · exact hun h
  · exact hun h
  · simp only [Option.some.injEq] at h
    exact h ▸ ⟨hn, rfl⟩
  · simp only [Option.ite_none_right_eq_some, Option.some.injEq] at h
    exact h.2 ▸ ⟨hn, rfl⟩
  · simp only [Option.ite_none_right_eq_some, Option.some.injEq] at h
    exact h.2 ▸ ⟨hn, rfl⟩
  · simp only [Option.ite_none_right_eq_some, Option.some.injEq] at h
    exact h.2 ▸ ⟨hn, rfl⟩
  · simp at h

theorem step_pipe {s s' : Sys} {a : Action} (h : step s a = some s') :
    s'.pipe_capacity = s.pipe_capacity ∧
      (s'.stop = s.stop ∧ (Wakes s → Wakes s' ∨ waiting s'.loop.stack = 0) ∨ s'.stop = true ∧ Wakes s') := by
  have hun : ∀ {b}, s.unstopped b = some s' → s'.pipe_capacity = s.pipe_capacity ∧
      (s'.stop = s.stop ∧ (Wakes s → Wakes s' ∨ waiting s'.loop.stack = 0) ∨ s'.stop = true ∧ Wakes s') := by
    intro b hb
    obtain ⟨loop, -, rfl⟩ := unstopped_eq hb
    exact ⟨rfl, .inl ⟨rfl, .inl⟩⟩
  unfold step at h
  split at h
  · unfold call at h
    split at h
    · simp only [Option.ite_none_right_eq_some, Option.some.injEq] at h
      exact h.2 ▸ ⟨rfl, .inl ⟨rfl, .inl⟩⟩
    · exact hun h
  · simp only [advance, Option.ite_none_left_eq_some] at h
    obtain ⟨-, h⟩ := h
    split at h
    · simp only [Option.some.injEq] at h
      exact h ▸ ⟨rfl, .inl ⟨rfl, .inl⟩⟩
    · exact hun h
  · simp only [Option.ite_none_right_eq_some] at h
    exact hun h.2
  · exact hun h
  · exact hun h
  · exact hun h
  · simp only [wait, Option.ite_none_right_eq_some] at h
    obtain ⟨-, h⟩ := h
    split at h
    · simp only [Option.some.injEq] at h
      exact h ▸ ⟨rfl, .inl ⟨rfl, .inl⟩⟩
    · exact hun h
  · exact hun h
  · exact hun h
  · simp only [Option.some.injEq] at h
    subst h
    exact ⟨rfl, .inr ⟨rfl, .inr (Nat.succ_pos _)⟩⟩
  · simp only [Option.ite_none_right_eq_some, Option.some.injEq] at h
    obtain ⟨-, rfl⟩ := h
    exact ⟨rfl, .inl ⟨rfl, fun _ => .inl (.inl (by simp))⟩⟩
  · simp only [Option.ite_none_right_eq_some, Option.some.injEq] at h
    obtain ⟨-, rfl⟩ := h
    exact ⟨rfl, .inl ⟨rfl, fun _ => .inl (.inl (by simp))⟩⟩
  · rename_i lv below hstack
    simp only [Option.ite_none_right_eq_some, Option.some.injEq] at h
    obtain ⟨⟨hin, -⟩, rfl⟩ := h
    exact ⟨rfl, .inl ⟨rfl, fun _ => .inr (by simp [hstack, waiting_of_inHandler hin])⟩⟩
  · simp at h

theorem step_inv (s : Sys) (a : Action) (s' : Sys) (hi : Inv s) (h : step s a = some s') : Inv s' := by
  refine ⟨(step_nested hi.nested h).1, fun hs' hw => ?_⟩
  rcases (step_pipe h).2 with ⟨hstop, hwakes⟩ | ⟨-, hwakes⟩
  · rw [hstop] at hs'
    rcases stopped_waiting hi.nested hs' h with hstack | hzero
    · rcases hwakes (hi.woken hs' (hstack ▸ hw)) with hwakes | hzero
      · exact hwakes
      · omega
    · omega
  · exact hwakes

/-! ## The loop ends -/

/-- The steps that are left, apart from those at the callbacks of an entry. -/
def Sys.left (s : Sys) : Nat := work s.loop + 2 * s.loop.max_n_events * waiting s.loop.stack

theorem waiting_le (stack : List Level) : waiting stack ≤ 1 := by
  unfold waiting
  split
  · omega
  · split <;> omega

theorem step_stopped {s s' : Sys} {a : Action} (hn : Nested s.loop.stack) (hs : s.stop = true)
    (h : step s a = some s') :
    own a + s'.left ≤ s.left ∧
      s'.loop.ready.returned.length + waiting s'.loop.stack ≤
        s.loop.ready.returned.length + waiting s.loop.stack := by
  rcases stopped_cases hs h with ⟨hstack, hready, hmax, hown⟩ | ⟨lv, below, hstack, ho⟩ |
    ⟨lv, below, evs, hstack, hpc, rfl, hlen, hbelow, hready, hmax⟩
  · simp [Sys.left, work, hstack, hready, hmax, hown]
  · have hw := ho.waiting (hstack ▸ hn)
    have := ho.work
    simp only [Sys.left, hw, ho.returned]
    omega
  · have hone : waiting s.loop.stack = 1 := by simp [hstack, waiting, hpc]
    have hzero : waiting s'.loop.stack = 0 := by
      rw [hbelow]
      exact (hstack ▸ hn).waiting_below
    rw [Sys.left, Sys.left, hone, hzero]
    simp only [work, remaining, hstack, hbelow, hready, hmax, hpc, ranks_cons, rank, own, Ready.epoll_wait,
      List.length_append, List.length_singleton]
    omega

def Stopped (s : Sys) : Prop := Inv s ∧ s.stop = true

theorem step_keeps_stopped (s : Sys) (a : Action) (s' : Sys) (hs : Stopped s) (h : step s a = some s') : Stopped s' := by
  refine ⟨step_inv s a s' hs.1 h, ?_⟩
  rcases (step_pipe h).2 with ⟨hstop, -⟩ | ⟨hstop, -⟩
  · rw [hstop, hs.2]
  · exact hstop

theorem can_go_on {s : Sys} (hs : s.stop = true) {lv : Level} {below : List Level} (hstack : s.loop.stack = lv :: below)
    (hin : lv.inHandler = false) (hpc : lv.pc ≠ .wait) : ∃ a s', Certain s a ∧ step s a = some s' := by
  unfold Level.inHandler at hin
  have hadvance : EpollLoop.advance s.loop lv below ≠ none → Pc.atCallback lv.pc = false →
      ∃ a s', Certain s a ∧ step s a = some s' := by
    intro hne hcb
    obtain ⟨loop, hloop⟩ := Option.ne_none_iff_exists'.mp hne
    by_cases hl : lv.pc = .exits
    · exact ⟨.advance, s.returns below, trivial, by simp [step, hstack, advance, Pc.atCallback, hl, hs]⟩
    · exact ⟨.advance, { s with loop }, trivial,
        by simp [step, hstack, advance, hcb, hl, Sys.unstopped, EpollLoop.step, hloop]⟩
  cases hl : lv.pc with
  | start =>
    apply hadvance
    · simp only [EpollLoop.advance, hl]
      split <;> simp
    · simp [hl, Pc.atCallback]
  | dispatch =>
    apply hadvance
    · simp only [EpollLoop.advance, hl]
      split <;> simp
    · simp [hl, Pc.atCallback]
  | walk t error c =>
    cases c with
    | none =>
      apply hadvance
      · simp [EpollLoop.advance, hl]
      · simp [hl, Pc.atCallback]
    | some c =>
      exact ⟨.visit, { s with loop := visit s.loop lv below t error c }, trivial,
        by simp [step, hstack, hl, Pc.atCallback, Sys.unstopped, EpollLoop.step, EpollLoop.advance]⟩
  | timeouts =>
    exact ⟨.timeoutsDone, { s with loop := { s.loop with stack := { lv with pc := .exits } :: below } }, trivial,
      by simp [step, hstack, hl, Sys.unstopped, EpollLoop.step]⟩
  | exits =>
    apply hadvance
    · simp only [EpollLoop.advance, hl]
      split
      · simp
      · split <;> simp
    · simp [hl, Pc.atCallback]
  | inCallback t error c => simp [hl] at hin
  | inTimeout => simp [hl] at hin
  | wait => exact absurd hl hpc

theorem wakes_up {s : Sys} (hw : Wakes s) (hmax : 1 ≤ s.loop.max_n_events) (hcap : ctrlMsgSize ≤ s.pipe_capacity)
    (hs : s.stop = true) {lv : Level} {below : List Level} (hstack : s.loop.stack = lv :: below) (hpc : lv.pc = .wait) :
    ∃ a s', Certain s a ∧ step s a = some s' := by
  by_cases hpipe : s.pipe = []
  · have hstopping : 0 < s.stopping := hw.resolve_left (absurd hpipe)
    have hroom : s.HasRoom := by simpa [Sys.HasRoom, hpipe] using hcap
    exact ⟨.writeStop, { s with stopping := s.stopping - 1, pipe := s.pipe ++ [⟨none, none⟩] }, trivial,
      by simp [step, hstopping, hroom]⟩
  · have hstep : step s (.wait [s.loop.ready.events 0]) ≠ none := by simp [step, hstack, wait, hpc, hs, hmax]
    obtain ⟨s', hs'⟩ := Option.ne_none_iff_exists'.mp hstep
    exact ⟨.wait [s.loop.ready.events 0], s', hpipe, hs'⟩

theorem rests_cases {s : Sys} (hs : Stopped s) (hmax : 1 ≤ s.loop.max_n_events) (hcap : ctrlMsgSize ≤ s.pipe_capacity)
    (hr : Rests s) : s.loop.stack = [] ∨ ∃ lv ∈ s.loop.stack.head?, lv.inHandler = true := by
  cases hstack : s.loop.stack with
  | nil => exact .inl rfl
  | cons lv below =>
    refine .inr ⟨lv, rfl, ?_⟩
    by_contra hin
    rw [Bool.not_eq_true] at hin
    have hgoes : ∃ a s', Certain s a ∧ step s a = some s' := by
      by_cases hpc : lv.pc = .wait
      · exact wakes_up (hs.1.woken hs.2 (by simp [hstack, waiting, hpc])) hmax hcap hs.2 hstack hpc
      · exact can_go_on hs.2 hstack hin hpc
    obtain ⟨a, s', ha, hstep⟩ := hgoes
    rw [hr a ha] at hstep
    cases hstep

def SameSizes (s u : Sys) : Prop :=
  Inv u ∧ u.loop.max_n_events = s.loop.max_n_events ∧ u.pipe_capacity = s.pipe_capacity

theorem step_sameSizes {s : Sys} (u : Sys) (a : Action) (u' : Sys) (hu : SameSizes s u) (h : step u a = some u') :
    SameSizes s u' :=
  ⟨step_inv u a u' hu.1 h, (step_nested hu.1.nested h).2.trans hu.2.1, (step_pipe h).1.trans hu.2.2⟩

/-- Since `s`, no call has begun to wait. -/
def Since (s u : Sys) : Prop :=
  Stopped u ∧ u.loop.ready.returned.length + waiting u.loop.stack ≤
    s.loop.ready.returned.length + waiting s.loop.stack

theorem step_since {s : Sys} (u : Sys) (a : Action) (u' : Sys) (hu : Since s u) (h : step u a = some u') :
    Since s u' ∧ own a + u'.left ≤ u.left := by
  obtain ⟨hcost, hreturned⟩ := step_stopped hu.1.1.nested hu.1.2 h
  exact ⟨⟨step_keeps_stopped u a u' hu.1 h, hreturned.trans hu.2⟩, hcost⟩

theorem ranks_le (stack : List Level) : ranks stack ≤ 4 * stack.length := by
  induction stack with
  | nil => simp
  | cons lv below ih =>
    have := rank_le lv.pc
    rw [ranks_cons, List.length_cons]
    omega

theorem left_le (s : Sys) :
    s.left ≤ 4 * s.loop.stack.length + 2 * (remaining s.loop.ready + s.loop.max_n_events) := by
  have hranks := ranks_le s.loop.stack
  have hwaiting := Nat.mul_le_mul_left (2 * s.loop.max_n_events) (waiting_le s.loop.stack)
  simp only [Sys.left, work]
  omega

/-- Once the loop was told to stop, its calls take few steps more, of which at most one is a return from `epoll_wait`,
and only a handler that doesn't return can keep them from ending. -/
theorem stopped_loop_ends (max_n_events pipe_capacity : Nat) (events : Nat → EpollEvent) (tables : Tables)
    (hmax : 1 ≤ max_n_events) (hcap : ctrlMsgSize ≤ pipe_capacity) (as bs : List Action) (s s' : Sys)
    (hr : run step as (init max_n_events pipe_capacity events tables) = some s) (hs : s.stop = true)
    (hr' : run step bs s = some s') :
    (bs.map own).sum ≤ 4 * s.loop.stack.length + 2 * (remaining s.loop.ready + max_n_events) ∧
      s'.loop.ready.returned.length ≤ s.loop.ready.returned.length + waiting s.loop.stack ∧
      (Rests s' → s'.loop.stack = [] ∨ ∃ lv ∈ s'.loop.stack.head?, lv.inHandler = true) := by
  have hi₀ := init_inv max_n_events pipe_capacity events tables
  obtain ⟨hi, hm, hc⟩ := run_invariant step_sameSizes as _ s ⟨hi₀, rfl, rfl⟩ hr
  obtain ⟨-, hm', hc'⟩ := run_invariant step_sameSizes bs s s' ⟨hi, rfl, rfl⟩ hr'
  have hbegin : Since s s := ⟨⟨hi, hs⟩, Nat.le_refl _⟩
  have hsince := run_invariant (fun u a u' hu h => (step_since u a u' hu h).1) bs s s' hbegin hr'
  refine ⟨?_, ?_, ?_⟩
  · have hbound := run_bounded step_since bs s s' hbegin hr'
    have hle := left_le s
    rw [hm] at hle
    simp only [init, EpollLoop.init] at hle
    omega
  · have := hsince.2
    omega
  · apply rests_cases hsince.1
    · rw [hm', hm]
      exact hmax
    · rw [hc', hc]
      exact hcap

/-- Nothing is registered. -/
def noTables : Tables where
  callbacks _ := none
  next _ := none
  cbs _ := ⟨0, false, false, false, 0⟩

def someSys : Sys := init 1 16 (fun _ => ⟨0, EPOLLIN⟩) noTables

/-- The flag is set while the loop already waits. -/
def stoppedWaiting : List Action :=
  [.call false, .advance, .advance, .timeoutsDone, .advance, .setStop]

def wokenUp : List Action := [.writeStop, .wait [⟨0, EPOLLIN⟩]]

theorem stopped_loop_ends_waiting :
    ∃ s s', run step stoppedWaiting someSys = some s ∧ run step wokenUp s = some s' ∧ waiting s.loop.stack = 1 ∧
      s'.loop.stack = [] ∧ (wokenUp.map own).sum ≤ 4 * s.loop.stack.length + 2 * (remaining s.loop.ready + 1) := by
  have hrun : (run step stoppedWaiting someSys).map (fun s => (s.stop, waiting s.loop.stack)) = some (true, 1) := by
    decide
  obtain ⟨s, hs, hw⟩ := Option.map_eq_some_iff.mp hrun
  have hrest : ((run step stoppedWaiting someSys).bind (run step wokenUp)).map (fun s => s.loop.stack) = some [] := by
    decide
  rw [hs, Option.bind_some] at hrest
  obtain ⟨s', hs', hstack⟩ := Option.map_eq_some_iff.mp hrest
  simp only [Prod.mk.injEq] at hw
  exact ⟨s, s', hs, hs', hw.2, hstack,
    (stopped_loop_ends 1 16 _ noTables (by decide) (by decide) stoppedWaiting wokenUp s s' hs hw.1 hs').1⟩

end Libcortex.EvloopStop
