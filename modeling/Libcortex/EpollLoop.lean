import Libcortex.Epoll
import Libcortex.Lib.Run

/-!
# The event loop

`evloop_start_intern` of `epoll.c`, which a handler may enter again. Every call has its own
variables, but there is one array of events, one index into it and one number of events, and all calls use them.
-/

open Libcortex.Lib
open Libcortex.Epoll (EntryId EPOLLERR EPOLLHUP EPOLLRDHUP CRTX_EVLOOP_TIMEOUT crtx_epoll_flags2crtx_event_flags)

namespace Libcortex.EpollLoop

/-! ## The array -/

/-- `struct epoll_event`, with the entry that `data.ptr` points to. -/
structure EpollEvent where
  ptr : EntryId
  events : BitVec 32
deriving DecidableEq, Repr

/-- An element of the array that was taken for dispatch: which call of `epoll_wait` wrote it, and where. -/
structure Taken where
  batch : Nat
  idx : Nat
  event : EpollEvent
deriving DecidableEq, Repr

/-- What the calls share. `returned` has what each call of `epoll_wait` returned, and `taken` what was taken so far. -/
structure Ready where
  events : Nat → EpollEvent
  cur_event_idx : Nat
  n_rdy_events : Nat
  returned : List (List EpollEvent)
  taken : List Taken

namespace Ready

/-- The next element, which is also the last one of the new log. -/
def next (r : Ready) : Taken where
  batch := r.returned.length - 1
  idx := r.cur_event_idx
  event := r.events r.cur_event_idx

def take (r : Ready) : Ready :=
  { r with cur_event_idx := r.cur_event_idx + 1, taken := r.taken ++ [r.next] }

/-- `epoll_wait` writes to the front of the array. What is behind stays there. -/
def epoll_wait (r : Ready) (evs : List EpollEvent) : Ready :=
  { r with
    events := fun i => (evs[i]?).getD (r.events i)
    cur_event_idx := 0
    n_rdy_events := evs.length
    returned := r.returned ++ [evs] }

end Ready

/-! ## The state -/

/-- `struct crtx_evloop_callback`. `error_cb` and `event_handler` say whether there is one. -/
structure Callback where
  crtx_event_flags : BitVec 32
  active : Bool
  error_cb : Bool
  event_handler : Bool
  triggered_flags : BitVec 32
deriving DecidableEq, Repr

/-- The entries and callbacks, by their links. A handler may change all of it at any time. -/
structure Tables where
  callbacks : EntryId → Option CallbackId
  next : CallbackId → Option CallbackId
  cbs : CallbackId → Callback

/-- Where a call of `evloop_start_intern` is. In `walk` and `inCallback`, `t` has the variables `i` and `evloop_fd`. -/
inductive Pc where
  | start
  | dispatch
  | walk (t : Taken) (error : Bool) (el_cb : Option CallbackId)
  | inCallback (t : Taken) (error : Bool) (el_cb : CallbackId)
  | timeouts
  | inTimeout
  | exits
  | wait
deriving DecidableEq, Repr

/-- A call of `evloop_start_intern`. -/
structure Level where
  onetime : Bool
  loop : Nat
  events_processed : Bool
  pc : Pc
deriving DecidableEq, Repr

/-- A callback is called with these flags. -/
structure Invocation where
  taken : Taken
  el_cb : CallbackId
  triggered_flags : BitVec 32
deriving DecidableEq, Repr

/-- The innermost call is the first one of the stack. -/
structure State where
  max_n_events : Nat
  ready : Ready
  phase_out : Bool
  tables : Tables
  stack : List Level
  invoked : List Invocation

/-- A handler runs, so the call waits for it. -/
def Level.inHandler (lv : Level) : Bool :=
  match lv.pc with
  | .inCallback _ _ _ | .inTimeout => true
  | _ => false

/-! ## One call -/

def isError (events : BitVec 32) : Bool :=
  events &&& EPOLLERR ≠ 0 ∨ events &&& EPOLLRDHUP ≠ 0 ∨ events &&& EPOLLHUP ≠ 0

/-- `crtx_evloop_callback` calls the handler if there is one and the callback waits for what happened. -/
def callsHandler (cb : Callback) : Bool :=
  (cb.crtx_event_flags = 0 ∨ cb.crtx_event_flags &&& cb.triggered_flags ≠ 0) ∧ cb.event_handler

def Tables.trigger (tb : Tables) (c : CallbackId) (triggered_flags : BitVec 32) : Tables :=
  { tb with cbs := Function.update tb.cbs c { tb.cbs c with triggered_flags } }

/-- The flags are read from the array again for every callback. -/
def invoke (s : State) (t : Taken) (c : CallbackId) : State :=
  let triggered_flags := crtx_epoll_flags2crtx_event_flags (s.ready.events t.idx).events
  { s with
    tables := s.tables.trigger c triggered_flags
    invoked := s.invoked ++ [{ taken := t, el_cb := c, triggered_flags }] }

/-- The body of the loop over the callbacks. -/
def visit (s : State) (lv : Level) (below : List Level) (t : Taken) (error : Bool) (c : CallbackId) : State :=
  let onward (s : State) : State := { s with stack := { lv with pc := .walk t error (s.tables.next c) } :: below }
  let inside (s : State) : State := { s with stack := { lv with pc := .inCallback t error c } :: below }
  if error then
    if (s.tables.cbs c).error_cb then inside (invoke s t c) else onward s
  else if (s.tables.cbs c).active then
    let s := invoke s t c
    if callsHandler (s.tables.cbs c) then inside s else onward s
  else onward s

/-- On an error, a callback is called even if it is not active. -/
def called (tb : Tables) (error : Bool) (c : CallbackId) : Bool :=
  if error then (tb.cbs c).error_cb else (tb.cbs c).active

theorem visit_cases (s : State) (lv : Level) (below : List Level) (t : Taken) (error : Bool) (c : CallbackId) :
    called s.tables error c = false ∧ visit s lv below t error c =
      { s with stack := { lv with pc := .walk t error (s.tables.next c) } :: below } ∨
    called s.tables error c = true ∧ (visit s lv below t error c =
      { invoke s t c with stack := { lv with pc := .walk t error (s.tables.next c) } :: below } ∨
    visit s lv below t error c =
      { invoke s t c with stack := { lv with pc := .inCallback t error c } :: below }) := by
  unfold visit called
  cases error with
  | true =>
    cases hcb : (s.tables.cbs c).error_cb with
    | true => exact .inr ⟨rfl, .inr rfl⟩
    | false => exact .inl ⟨rfl, rfl⟩
  | false =>
    cases hact : (s.tables.cbs c).active with
    | true =>
      refine .inr ⟨rfl, ?_⟩
      cases hh : callsHandler ((invoke s t c).tables.cbs c) with
      | true => exact .inr (by simp [hh])
      | false =>
        left
        simp only [hh]
        rfl
    | false => exact .inl ⟨rfl, rfl⟩

/-- The innermost call goes on by itself. -/
def advance (s : State) (lv : Level) (below : List Level) : Option State :=
  let goto (pc : Pc) : State := { s with stack := { lv with pc } :: below }
  match lv.pc with
  | .start =>
    if lv.loop = 0 then some { s with stack := below }
    else
      let events_processed := decide (s.ready.cur_event_idx < s.ready.n_rdy_events)
      some { s with stack := { lv with events_processed, pc := .dispatch } :: below }
  | .dispatch =>
    if s.ready.cur_event_idx < s.ready.n_rdy_events then
      let t := s.ready.next
      let pc := .walk t (isError t.event.events) (s.tables.callbacks t.event.ptr)
      some { s with ready := s.ready.take, stack := { lv with pc } :: below }
    else some (goto .timeouts)
  | .walk _ _ none => some (goto .dispatch)
  | .walk t error (some c) => some (visit s lv below t error c)
  | .exits =>
    if lv.onetime ∧ lv.events_processed then some { s with stack := below }
    else if lv.onetime ∧ lv.loop = 1 then some { s with stack := below }
    else some (goto .wait)
  | .inCallback _ _ _ | .timeouts | .inTimeout | .wait => none

/-- A callback whose time has come is called if it is active. -/
def timedOut (s : State) (lv : Level) (below : List Level) (c : CallbackId) : State :=
  let s := { s with tables := s.tables.trigger c CRTX_EVLOOP_TIMEOUT }
  let pc := if callsHandler (s.tables.cbs c) then .inTimeout else .timeouts
  { s with stack := { lv with events_processed := true, pc } :: below }

/-- The handler that the innermost call waits for returns. -/
def handlerReturned (s : State) (lv : Level) (below : List Level) : Option State :=
  match lv.pc with
  | .inCallback t error c => some { s with stack := { lv with pc := .walk t error (s.tables.next c) } :: below }
  | .inTimeout => some { s with stack := { lv with pc := .timeouts } :: below }
  | _ => none

/-- `epoll_wait` returns, after which the call may end or start over. -/
def waited (s : State) (lv : Level) (below : List Level) (evs : List EpollEvent) : State :=
  let s := { s with ready := s.ready.epoll_wait evs }
  if s.ready.n_rdy_events = 0 ∧ s.phase_out then { s with stack := below }
  else { s with stack := { lv with loop := if lv.onetime then lv.loop - 1 else lv.loop, pc := .start } :: below }

/-! ## The machine -/

inductive Action where
  | call (onetime : Bool)
  | advance
  | handlerReturns
  | timeout (el_cb : CallbackId)
  | timeoutsDone
  | wait (evs : List EpollEvent)
  | edit (tables : Tables)
  | phaseOut

/-- The event loop is entered from outside, or by a handler of the innermost call. Which callbacks have timed out
depends on the clock, so any active one may be called. -/
def step (s : State) (a : Action) : Option State :=
  match a, s.stack with
  | .call onetime, stack =>
    if stack.head?.elim true Level.inHandler then
      if s.phase_out then some s
      else
        let lv : Level := { onetime, loop := if onetime then 2 else 1, events_processed := false, pc := .start }
        some { s with stack := lv :: stack }
    else none
  | .advance, lv :: below => advance s lv below
  | .handlerReturns, lv :: below => handlerReturned s lv below
  | .timeout c, lv :: below =>
    if lv.pc = .timeouts ∧ (s.tables.cbs c).active then some (timedOut s lv below c) else none
  | .timeoutsDone, lv :: below =>
    if lv.pc = .timeouts then some { s with stack := { lv with pc := .exits } :: below } else none
  | .wait evs, lv :: below =>
    if lv.pc = .wait ∧ evs.length ≤ s.max_n_events then some (waited s lv below evs) else none
  | .edit tables, _ => some { s with tables }
  | .phaseOut, _ => some { s with phase_out := true }
  | _, [] => none

/-- Nothing was returned yet. What is in the array does not matter, so it is whatever `malloc` left there. -/
def init (max_n_events : Nat) (events : Nat → EpollEvent) (tables : Tables) : State where
  max_n_events
  ready := { events, cur_event_idx := 0, n_rdy_events := 0, returned := [], taken := [] }
  phase_out := false
  tables
  stack := []
  invoked := []

end Libcortex.EpollLoop
