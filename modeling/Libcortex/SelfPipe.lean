import Mathlib.Data.List.Perm.Basic
import Libcortex.Types
import Libcortex.Lib.Run

/-!
# The self-pipe

`crtx_selfpipe_enqueue_cb` asks the event loop to call a function: it writes a byte with the value 1,
the function and its argument into a pipe, with three writes. `selfpipe_event_handler` reads them
back with three reads. The writes of two threads may mix, and a write that fails leaves a part behind.
The first call makes the pipe, without a lock.
-/

open Libcortex.Lib

namespace Libcortex.SelfPipe

/-! ## The machine -/

/-- A pointer, as it lies in memory. -/
abbrev Ptr := { b : List UInt8 // b.length = 8 }

structure Job where
  cb : Ptr
  data : Ptr
deriving DecidableEq

/-- What `crtx_root->selfpipe_lstnr` points to: nothing, a listener that is all zeros, one that has a pipe, or one that
the event loop listens to. -/
inductive Lstnr where
  | null
  | zeroed
  | opened
  | started
deriving DecidableEq

/-- A call of `crtx_selfpipe_enqueue_cb` before a line of `selfpipe_setup`, or before its first write. -/
inductive Line where
  | alloc
  | setup
  | start
  | write
deriving DecidableEq

/-- A call after its first and after its second write. -/
inductive Part where
  | value (j : Job)
  | cb (j : Job)
deriving DecidableEq

/-- The handler before each of its reads. -/
inductive Reader where
  | value
  | cb
  | data (cb : Ptr)
deriving DecidableEq

/-- `pipe` belongs to the listener that `crtx_root` points to, and the pipe of one that was replaced is never read
again. `entered` and `calls` are the calls before their first write and between two of them, whatever thread they run
on. The other fields after `reader` are history: did a call end after a part of its writes, which calls returned 0, and
what was called. -/
structure Sys where
  lstnr : Lstnr
  pipe : List UInt8
  entered : List (Line × Job)
  calls : List Part
  reader : Reader
  torn : Bool
  enqueued : List Job
  executed : List Job

/-- `call` is the test in `selfpipe_setup`. A write either succeeds or fails, and nothing is written if it fails. -/
inductive Action where
  | call (j : Job)
  | alloc (j : Job)
  | setup (j : Job) (ok : Bool)
  | start (j : Job) (ok : Bool)
  | writeValue (j : Job) (ok : Bool)
  | writeCb (j : Job) (ok : Bool)
  | writeData (j : Job) (ok : Bool)
  | read
deriving DecidableEq

/-- A read of a pointer takes what is there, up to 8 bytes. -/
def readPtr (pipe : List UInt8) : Option Ptr :=
  if h : (pipe.take 8).length = 8 then some ⟨pipe.take 8, h⟩ else none

/-- The next read of the handler, on a pipe with data. It has returned if there is a value. -/
def selfpipe_event_handler (s : Sys) : Sys × Option Int :=
  match s.reader with
  | .value =>
    let s' := { s with pipe := s.pipe.drop 1 }
    if s.pipe.head? = some 1 then ({ s' with reader := .cb }, none) else (s', some (-EBADE))
  | .cb =>
    let s' := { s with pipe := s.pipe.drop 8 }
    match readPtr s.pipe with
    | some cb => ({ s' with reader := .data cb }, none)
    | none => ({ s' with reader := .value }, some (-EBADE))
  | .data cb =>
    let s' := { s with pipe := s.pipe.drop 8, reader := .value }
    match readPtr s.pipe with
    | some data => ({ s' with executed := s.executed ++ [⟨cb, data⟩] }, some 0)
    | none => (s', some (-EBADE))

/-- The descriptor `fds[1]` of a listener that was not set up is 0, and not the pipe. -/
def Sys.write (s : Sys) (bytes : List UInt8) : Sys :=
  match s.lstnr with
  | .null | .zeroed => s
  | .opened | .started => { s with pipe := s.pipe ++ bytes }

/-- The call is done with a line before its first write. -/
def Sys.advance (s : Sys) (line next : Line) (j : Job) : Sys :=
  { s with entered := (next, j) :: s.entered.erase (line, j) }

/-- `crtx_selfpipe_enqueue_cb`, one line of the set-up and one write at a time. It goes on if the set-up fails. A read
of an empty pipe has to wait. -/
def step (s : Sys) : Action → Option Sys
  | .call j => some { s with entered := (if s.lstnr = .null then .alloc else .write, j) :: s.entered }
  | .alloc j =>
    if (.alloc, j) ∈ s.entered then some { s.advance .alloc .setup j with lstnr := .zeroed, pipe := [] } else none
  | .setup j ok =>
    if (.setup, j) ∈ s.entered then
      some (if ok then { s.advance .setup .start j with lstnr := .opened, pipe := [] } else s.advance .setup .write j)
    else none
  | .start j ok =>
    if (.start, j) ∈ s.entered then
      some (if ok then { s.advance .start .write j with lstnr := .started } else s.advance .start .write j)
    else none
  | .writeValue j ok =>
    if (.write, j) ∈ s.entered then
      let s := { s with entered := s.entered.erase (.write, j) }
      some (if ok then { s.write [1] with calls := .value j :: s.calls } else s)
    else none
  | .writeCb j ok =>
    if .value j ∈ s.calls then
      let s := { s with calls := s.calls.erase (.value j) }
      some (if ok then { s.write j.cb.1 with calls := .cb j :: s.calls } else { s with torn := true })
    else none
  | .writeData j ok =>
    if .cb j ∈ s.calls then
      let s := { s with calls := s.calls.erase (.cb j) }
      some (if ok then { s.write j.data.1 with enqueued := s.enqueued ++ [j] } else { s with torn := true })
    else none
  | .read => if s.lstnr = .started ∧ s.pipe ≠ [] then some (selfpipe_event_handler s).1 else none

def init : Sys where
  lstnr := .null
  pipe := []
  entered := []
  calls := []
  reader := .value
  torn := false
  enqueued := []
  executed := []

/-- Nothing was called that was not enqueued, and once the event loop has read what is in the pipe, what it called is
what was enqueued. -/
structure Served (s : Sys) : Prop where
  genuine : ∀ j, s.executed.count j ≤ s.enqueued.count j
  complete : ∃ n s', run step (List.replicate n .read) s = some s' ∧ s'.pipe = [] ∧ s'.enqueued = s.enqueued ∧
    s'.executed.Perm s.enqueued

/-- Until the listener was started only one call comes in, and its set-up succeeds. Later a call begins to write only
while no other is between two of its writes, and none has ended there. -/
def OneAtATime (s : Sys) : Action → Prop
  | .call _ => s.lstnr = .started ∨ s.lstnr = .null ∧ s.entered = []
  | .setup _ ok | .start _ ok => ok = true
  | .writeValue _ ok => ok = true → s.calls = [] ∧ s.torn = false
  | _ => True

instance (s : Sys) : ∀ a, Decidable (OneAtATime s a)
  | .call _ => inferInstanceAs (Decidable (_ ∨ _))
  | .setup _ ok | .start _ ok => inferInstanceAs (Decidable (ok = true))
  | .writeValue _ ok => inferInstanceAs (Decidable (ok = true → s.calls = [] ∧ s.torn = false))
  | .alloc _ | .writeCb _ _ | .writeData _ _ | .read => inferInstanceAs (Decidable True)

/-! ## Frames -/

def Job.frame (j : Job) : List UInt8 := 1 :: (j.cb.1 ++ j.data.1)

/-- What the call has written so far. -/
def Part.written : Part → List UInt8
  | .value _ => [1]
  | .cb j => 1 :: j.cb.1

/-- What the handler has read of the frame that it is in. -/
def Reader.consumed : Reader → List UInt8
  | .value => []
  | .cb => [1]
  | .data p => 1 :: p.1

theorem readPtr_append (p : Ptr) (l : List UInt8) : readPtr (p.1 ++ l) = some p := by
  have hlen := p.2
  have h : (p.1 ++ l).take 8 = p.1 := by
    rw [List.take_append_of_le_length (by omega), List.take_of_length_le (by omega)]
  unfold readPtr
  simp only [h, p.2, dite_true]

theorem drop_append (p : Ptr) (l : List UInt8) : (p.1 ++ l).drop 8 = l := by
  have hlen := p.2
  rw [List.drop_append_of_le_length (by omega), List.drop_of_length_le (by omega), List.nil_append]

/-! ## The invariant -/

/-- The first call makes the listener. Until it is done, nobody else is there. -/
inductive SettingUp : Lstnr → List (Line × Job) → Prop
  | unused : SettingUp .null []
  | tested (j : Job) : SettingUp .null [(.alloc, j)]
  | allocated (j : Job) : SettingUp .zeroed [(.setup, j)]
  | opened (j : Job) : SettingUp .opened [(.start, j)]

/-- The listener is started, and whoever comes in just writes. -/
structure Ready (s : Sys) : Prop where
  started : s.lstnr = .started
  entered : ∀ c ∈ s.entered, c.1 = .write

/-- `pending` are the whole frames that the handler has not finished, `part` is the frame at the end that no call has
finished. -/
structure Inv (s : Sys) (pending : List Job) (part : Option Part) : Prop where
  setup : Ready s ∨ SettingUp s.lstnr s.entered ∧ s.pipe = [] ∧ s.calls = []
  jobs : s.enqueued = s.executed ++ pending
  bytes : s.reader.consumed ++ s.pipe = pending.flatMap Job.frame ++ (part.map Part.written).getD []
  calls : s.calls = part.toList ∨ s.calls = [] ∧ s.torn = true

theorem init_inv : Inv init [] none := ⟨.inr ⟨.unused, rfl, rfl⟩, rfl, rfl, Or.inl rfl⟩

section

variable {s : Sys} {pending : List Job} {part : Option Part}

theorem write_started (h : s.lstnr = .started) (bytes : List UInt8) :
    s.write bytes = { s with pipe := s.pipe ++ bytes } := by
  unfold Sys.write
  rw [h]

theorem SettingUp.alone {l : Lstnr} {entered : List (Line × Job)} (h : SettingUp l entered) {c : Line × Job}
    (hc : c ∈ entered) : entered = [c] ∧ c.1 ≠ .write := by
  cases h with
  | unused => cases hc
  | tested | allocated | opened =>
    obtain rfl := List.mem_singleton.mp hc
    exact ⟨rfl, nofun⟩

theorem Inv.ready_of_entered (hi : Inv s pending part) {j : Job} (hj : (.write, j) ∈ s.entered) : Ready s := by
  refine hi.setup.resolve_right ?_
  rintro ⟨h, -⟩
  exact (h.alone hj).2 rfl

theorem Inv.ready_of_call (hi : Inv s pending part) {p : Part} (hp : p ∈ s.calls) : Ready s := by
  refine hi.setup.resolve_right ?_
  rintro ⟨-, -, h⟩
  simp [h] at hp

theorem call_inv (hi : Inv s pending part) {j : Job} (hok : OneAtATime s (.call j)) :
    Inv { s with entered := (if s.lstnr = .null then .alloc else .write, j) :: s.entered } pending part := by
  refine ⟨?_, hi.jobs, hi.bytes, hi.calls⟩
  rcases hok with hst | ⟨hnull, hnone⟩
  · left
    refine ⟨hst, ?_⟩
    have hready := hi.setup.resolve_right fun h => by
      have hset := h.1
      rw [hst] at hset
      cases hset
    simpa [hst] using hready.entered
  · right
    rcases hi.setup with h | ⟨-, hpipe, hcalls⟩
    · rw [h.started] at hnull
      cases hnull
    · refine ⟨?_, hpipe, hcalls⟩
      simp only [hnull, if_true, hnone]
      exact .tested j

theorem alloc_inv (hi : Inv s pending part) {j : Job} (hj : (.alloc, j) ∈ s.entered) :
    Inv { s.advance .alloc .setup j with lstnr := .zeroed, pipe := [] } pending part := by
  rcases hi.setup with h | ⟨h, hpipe, hcalls⟩
  · exact absurd (h.entered _ hj) (by simp)
  · refine ⟨.inr ⟨?_, rfl, hcalls⟩, hi.jobs, ?_, hi.calls⟩
    · simp only [Sys.advance, (h.alone hj).1, List.erase_cons_head]
      exact .allocated j
    · simpa [Sys.advance, hpipe] using hi.bytes

theorem setup_inv (hi : Inv s pending part) {j : Job} (hj : (.setup, j) ∈ s.entered) :
    Inv { s.advance .setup .start j with lstnr := .opened, pipe := [] } pending part := by
  rcases hi.setup with h | ⟨h, hpipe, hcalls⟩
  · exact absurd (h.entered _ hj) (by simp)
  · refine ⟨.inr ⟨?_, rfl, hcalls⟩, hi.jobs, ?_, hi.calls⟩
    · simp only [Sys.advance, (h.alone hj).1, List.erase_cons_head]
      exact .opened j
    · simpa [Sys.advance, hpipe] using hi.bytes

theorem start_inv (hi : Inv s pending part) {j : Job} (hj : (.start, j) ∈ s.entered) :
    Inv { s.advance .start .write j with lstnr := .started } pending part := by
  rcases hi.setup with h | ⟨h, hpipe, hcalls⟩
  · exact absurd (h.entered _ hj) (by simp)
  · refine ⟨.inl ⟨rfl, ?_⟩, hi.jobs, hi.bytes, hi.calls⟩
    simp [Sys.advance, (h.alone hj).1]

theorem entered_erase (hr : Ready s) (c : Line × Job) : ∀ c' ∈ s.entered.erase c, c'.1 = .write :=
  fun c' hc => hr.entered c' (List.mem_of_mem_erase hc)

theorem writeValue_inv {j : Job} (hi : Inv s pending part) (hr : Ready s) (hc : s.calls = []) (ht : s.torn = false) :
    Inv { s with
      entered := s.entered.erase (.write, j), pipe := s.pipe ++ [1], calls := .value j :: s.calls }
      pending (some (.value j)) := by
  have hpart : part = none := by
    rcases hi.calls with h | ⟨-, h⟩
    · rw [hc] at h
      cases part with
      | none => rfl
      | some p => cases h
    · rw [ht] at h
      cases h
  subst hpart
  refine ⟨.inl ⟨hr.started, entered_erase hr _⟩, hi.jobs, ?_, Or.inl (by rw [hc]; rfl)⟩
  have hb := hi.bytes
  simp only [Option.map_none, Option.getD_none, List.append_nil] at hb
  simp [← List.append_assoc, hb, Part.written]

theorem Inv.part_of_mem {p : Part} (hi : Inv s pending part) (hp : p ∈ s.calls) : part = some p ∧ s.calls = [p] := by
  rcases hi.calls with h | ⟨h, -⟩
  · rw [h] at hp ⊢
    cases part with
    | none => simp at hp
    | some p' =>
      simp only [Option.toList_some, List.mem_singleton] at hp
      subst hp
      exact ⟨rfl, rfl⟩
  · rw [h] at hp
    simp at hp

theorem torn_inv {p : Part} (hi : Inv s pending part) (hp : p ∈ s.calls) :
    Inv { s with calls := s.calls.erase p, torn := true } pending part := by
  obtain ⟨-, hc⟩ := hi.part_of_mem hp
  have hr := hi.ready_of_call hp
  exact ⟨.inl ⟨hr.started, hr.entered⟩, hi.jobs, hi.bytes, Or.inr ⟨by rw [hc]; simp, rfl⟩⟩

theorem writeCb_inv {j : Job} (hi : Inv s pending part) (hj : .value j ∈ s.calls) :
    Inv { s with pipe := s.pipe ++ j.cb.1, calls := .cb j :: s.calls.erase (.value j) } pending (some (.cb j)) := by
  obtain ⟨rfl, hc⟩ := hi.part_of_mem hj
  have hr := hi.ready_of_call hj
  refine ⟨.inl ⟨hr.started, hr.entered⟩, hi.jobs, ?_, Or.inl (by rw [hc]; simp)⟩
  have hb := hi.bytes
  simp only [Option.map_some, Option.getD_some, Part.written] at hb ⊢
  rw [← List.append_assoc, hb, List.append_assoc]
  rfl

theorem writeData_inv {j : Job} (hi : Inv s pending part) (hj : .cb j ∈ s.calls) :
    Inv { s with
      pipe := s.pipe ++ j.data.1, calls := s.calls.erase (.cb j), enqueued := s.enqueued ++ [j] }
      (pending ++ [j]) none := by
  obtain ⟨rfl, hc⟩ := hi.part_of_mem hj
  have hr := hi.ready_of_call hj
  refine ⟨.inl ⟨hr.started, hr.entered⟩, by simp [hi.jobs], ?_, Or.inl (by rw [hc]; simp)⟩
  have hb := hi.bytes
  simp only [Option.map_some, Option.getD_some, Part.written] at hb
  simp only [Option.map_none, Option.getD_none, List.append_nil]
  rw [← List.append_assoc, hb]
  simp [Job.frame]

/-! ## Reading -/

theorem front_value {rest : List UInt8} {b : UInt8}
    (h : b :: rest = pending.flatMap Job.frame ++ (part.map Part.written).getD []) : b = 1 := by
  cases pending with
  | cons j js =>
    simp only [List.flatMap_cons, Job.frame, List.cons_append, List.cons.injEq] at h
    exact h.1
  | nil =>
    rcases part with _ | ⟨j⟩ | ⟨j⟩
    · cases h
    · simp [Part.written] at h
      exact h.1
    · simp [Part.written] at h
      exact h.1

theorem front_cb {rest : List UInt8} (hne : rest ≠ [])
    (h : 1 :: rest = pending.flatMap Job.frame ++ (part.map Part.written).getD []) :
    ∃ (cb : Ptr) (l : List UInt8), rest = cb.1 ++ l := by
  cases pending with
  | cons j js =>
    simp only [List.flatMap_cons, Job.frame, List.cons_append, List.append_assoc, List.cons.injEq, true_and] at h
    exact ⟨j.cb, _, h⟩
  | nil =>
    rcases part with _ | ⟨j⟩ | ⟨j⟩
    · cases h
    · simp [Part.written] at h
      exact absurd h hne
    · simp [Part.written] at h
      exact ⟨j.cb, [], by simpa using h⟩

theorem front_data {cb : Ptr} {rest : List UInt8} (hne : rest ≠ [])
    (h : 1 :: (cb.1 ++ rest) = pending.flatMap Job.frame ++ (part.map Part.written).getD []) :
    ∃ (data : Ptr) (js : List Job), pending = ⟨cb, data⟩ :: js ∧
      rest = data.1 ++ (js.flatMap Job.frame ++ (part.map Part.written).getD []) := by
  have hcb := cb.2
  have hpos : 0 < rest.length := List.length_pos_iff.mpr hne
  cases pending with
  | cons j js =>
    have hj := j.cb.2
    simp only [List.flatMap_cons, Job.frame, List.cons_append, List.append_assoc, List.cons.injEq, true_and] at h
    obtain ⟨h1, h2⟩ := List.append_inj h (by omega)
    have : cb = j.cb := Subtype.ext h1
    subst this
    exact ⟨j.data, js, rfl, h2⟩
  | nil =>
    -- A frame that is not finished is too short.
    have hlen := congrArg List.length h
    simp only [List.flatMap_nil, List.nil_append, List.length_cons, List.length_append] at hlen
    rcases part with _ | ⟨j⟩ | ⟨j⟩
    · simp only [Option.map_none, Option.getD_none, List.length_nil] at hlen
      omega
    · simp only [Option.map_some, Option.getD_some, Part.written, List.length_singleton] at hlen
      omega
    · have hj := j.cb.2
      simp only [Option.map_some, Option.getD_some, Part.written, List.length_cons] at hlen
      omega

theorem read_inv (hi : Inv s pending part) (hst : s.lstnr = .started) (hne : s.pipe ≠ []) :
    ∃ pending', Inv (selfpipe_event_handler s).1 pending' part := by
  have hready : Ready s := hi.setup.resolve_right fun h => hne h.2.1
  have hb := hi.bytes
  unfold selfpipe_event_handler
  cases hr : s.reader with
  | value =>
    rw [hr, Reader.consumed, List.nil_append] at hb
    obtain ⟨b, rest, hp⟩ := List.exists_cons_of_ne_nil hne
    rw [hp] at hb
    have h1 := front_value hb
    subst h1
    simp only [hp, List.head?_cons, if_true]
    exact ⟨pending, .inl ⟨hst, hready.entered⟩, hi.jobs, hb, hi.calls⟩
  | cb =>
    rw [hr, Reader.consumed, List.singleton_append] at hb
    obtain ⟨cb, l, hp⟩ := front_cb hne hb
    simp only [hp, readPtr_append, drop_append]
    refine ⟨pending, .inl ⟨hst, hready.entered⟩, hi.jobs, ?_, hi.calls⟩
    rw [← hb, hp]
    rfl
  | data cb =>
    rw [hr, Reader.consumed, List.cons_append] at hb
    obtain ⟨data, js, rfl, hp⟩ := front_data hne hb
    simp only [hp, readPtr_append, drop_append]
    exact ⟨js, .inl ⟨hst, hready.entered⟩, by simp [hi.jobs], rfl, hi.calls⟩

end

theorem step_inv (s : Sys) (a : Action) (s' : Sys) (hi : ∃ pending part, Inv s pending part) (hok : OneAtATime s a)
    (hs : step s a = some s') : ∃ pending part, Inv s' pending part := by
  obtain ⟨pending, part, hi⟩ := hi
  unfold step at hs
  cases a with
  | call j =>
    cases hs
    exact ⟨pending, part, call_inv hi hok⟩
  | alloc j =>
    simp only [Option.ite_none_right_eq_some, Option.some.injEq] at hs
    obtain ⟨hj, rfl⟩ := hs
    exact ⟨pending, part, alloc_inv hi hj⟩
  | setup j ok =>
    obtain rfl : ok = true := hok
    simp only [if_true, Option.ite_none_right_eq_some, Option.some.injEq] at hs
    obtain ⟨hj, rfl⟩ := hs
    exact ⟨pending, part, setup_inv hi hj⟩
  | start j ok =>
    obtain rfl : ok = true := hok
    simp only [if_true, Option.ite_none_right_eq_some, Option.some.injEq] at hs
    obtain ⟨hj, rfl⟩ := hs
    exact ⟨pending, part, start_inv hi hj⟩
  | writeValue j ok =>
    simp only [Option.ite_none_right_eq_some, Option.some.injEq] at hs
    obtain ⟨hj, rfl⟩ := hs
    have hr := hi.ready_of_entered hj
    cases ok with
    | false => exact ⟨pending, part, .inl ⟨hr.started, entered_erase hr (.write, j)⟩, hi.jobs, hi.bytes, hi.calls⟩
    | true =>
      obtain ⟨hc, ht⟩ := hok rfl
      rw [if_pos rfl, write_started]
      · exact ⟨_, _, writeValue_inv hi hr hc ht⟩
      · exact hr.started
  | writeCb j ok =>
    simp only [Option.ite_none_right_eq_some, Option.some.injEq] at hs
    obtain ⟨hj, rfl⟩ := hs
    have hr := hi.ready_of_call hj
    cases ok with
    | false => exact ⟨_, _, torn_inv hi hj⟩
    | true =>
      rw [if_pos rfl, write_started]
      · exact ⟨_, _, writeCb_inv hi hj⟩
      · exact hr.started
  | writeData j ok =>
    simp only [Option.ite_none_right_eq_some, Option.some.injEq] at hs
    obtain ⟨hj, rfl⟩ := hs
    have hr := hi.ready_of_call hj
    cases ok with
    | false => exact ⟨_, _, torn_inv hi hj⟩
    | true =>
      rw [if_pos rfl, write_started]
      · exact ⟨_, _, writeData_inv hi hj⟩
      · exact hr.started
  | read =>
    simp only [Option.ite_none_right_eq_some, Option.some.injEq] at hs
    obtain ⟨⟨hst, hne⟩, rfl⟩ := hs
    obtain ⟨pending', h⟩ := read_inv hi hst hne
    exact ⟨pending', part, h⟩

/-! ## Draining the pipe -/

theorem handler_enqueued (s : Sys) : (selfpipe_event_handler s).1.enqueued = s.enqueued := by
  unfold selfpipe_event_handler
  split
  · dsimp only
    split <;> rfl
  · dsimp only
    split <;> rfl
  · dsimp only
    split <;> rfl

theorem handler_pipe_lt {s : Sys} (hne : s.pipe ≠ []) : (selfpipe_event_handler s).1.pipe.length < s.pipe.length := by
  have hpos : 0 < s.pipe.length := List.length_pos_iff.mpr hne
  unfold selfpipe_event_handler
  split
  · dsimp only
    split <;> simp <;> omega
  · dsimp only
    split <;> simp <;> omega
  · dsimp only
    split <;> simp <;> omega

theorem drains (n : Nat) : ∀ (s : Sys), s.pipe.length ≤ n → (∃ pending part, Inv s pending part) →
    ∃ k s', run step (List.replicate k .read) s = some s' ∧ s'.pipe = [] ∧ s'.enqueued = s.enqueued ∧
      ∃ pending part, Inv s' pending part := by
  induction n with
  | zero =>
    intro s hn hi
    exact ⟨0, s, rfl, List.length_eq_zero_iff.mp (by omega), rfl, hi⟩
  | succ n ih =>
    intro s hn hi
    by_cases hne : s.pipe = []
    · exact ⟨0, s, rfl, hne, rfl, hi⟩
    · have hready : Ready s := by
        obtain ⟨_, _, hi⟩ := hi
        exact hi.setup.resolve_right fun h => hne h.2.1
      have hstep : step s .read = some (selfpipe_event_handler s).1 := if_pos ⟨hready.started, hne⟩
      have hlt := handler_pipe_lt hne
      obtain ⟨k, s', hrun, hnil, henq, hi'⟩ := ih _ (by omega) (step_inv s .read _ hi trivial hstep)
      refine ⟨k + 1, s', ?_, hnil, henq.trans (handler_enqueued s), hi'⟩
      rw [List.replicate_succ, run_cons, hstep]
      exact hrun

theorem Inv.executed_of_drained {s : Sys} {pending : List Job} {part : Option Part} (hi : Inv s pending part)
    (hnil : s.pipe = []) : s.executed = s.enqueued := by
  have hb := congrArg List.length hi.bytes
  rw [hnil, List.append_nil, List.length_append] at hb
  have hle : s.reader.consumed.length ≤ 9 := by
    rcases s.reader with _ | _ | cb
    · simp [Reader.consumed]
    · simp [Reader.consumed]
    · simp [Reader.consumed, cb.2]
  cases pending with
  | nil => rw [hi.jobs, List.append_nil]
  | cons j js =>
    have h1 := j.cb.2
    have h2 := j.data.2
    simp only [List.flatMap_cons, Job.frame, List.length_append, List.length_cons] at hb
    omega

theorem served_of_inv {s : Sys} (hi : ∃ pending part, Inv s pending part) : Served s := by
  constructor
  · intro j
    obtain ⟨pending, part, h⟩ := hi
    rw [h.jobs, List.count_append]
    omega
  · obtain ⟨k, s', hrun, hnil, henq, pending, part, hi'⟩ := drains _ s (Nat.le_refl _) hi
    refine ⟨k, s', hrun, hnil, henq, ?_⟩
    rw [hi'.executed_of_drained hnil, henq]

/-- As long as the calls come one at a time, and none comes after one that ended halfway, every enqueued function is
called once. -/
theorem selfpipe_serves (as : List Action) (s : Sys) (hm : Meets step OneAtATime as init)
    (hr : run step as init = some s) : Served s :=
  served_of_inv (run_keeps step_inv as init s ⟨_, _, init_inv⟩ hm hr)

def jobAt (a b : UInt8) : Job := ⟨⟨List.replicate 8 a, by simp⟩, ⟨List.replicate 8 b, by simp⟩⟩

/-- The first call makes the pipe, and fails at its first write. -/
def firstCall (j : Job) : List Action := [.call j, .alloc j, .setup j true, .start j true, .writeValue j false]

/-- After the first call, one is read while it writes, and another one, which came in before, ends halfway. -/
def threeCalls : List Action :=
  firstCall (jobAt 2 3) ++ [.call (jobAt 6 7), .call (jobAt 4 5), .writeValue (jobAt 4 5) true, .read,
    .writeCb (jobAt 4 5) true, .writeData (jobAt 4 5) true, .read, .writeValue (jobAt 6 7) true,
    .writeCb (jobAt 6 7) false]

theorem selfpipe_serves_three_calls : ∃ s, run step threeCalls init = some s ∧ Served s :=
  ⟨_, rfl, selfpipe_serves threeCalls _ (by decide) rfl⟩

/-- Two threads write when the pipe is there: the second one writes its first byte after the first byte of the other.
Then a function is called that nobody enqueued, at an address that is off by one byte. -/
theorem selfpipe_mixes_frames :
    ∃ s, run step (firstCall (jobAt 0 0) ++ [.call (jobAt 2 3), .call (jobAt 4 5), .writeValue (jobAt 2 3) true,
        .writeValue (jobAt 4 5) true, .writeCb (jobAt 2 3) true, .writeData (jobAt 2 3) true, .writeCb (jobAt 4 5) true,
        .writeData (jobAt 4 5) true, .read, .read, .read]) init = some s ∧
      s.enqueued = [jobAt 2 3, jobAt 4 5] ∧
      s.executed = [⟨⟨[1, 2, 2, 2, 2, 2, 2, 2], rfl⟩, ⟨[2, 3, 3, 3, 3, 3, 3, 3], rfl⟩⟩] ∧ ¬ Served s := by
  refine ⟨_, rfl, rfl, rfl, ?_⟩
  intro h
  exact absurd (h.genuine ⟨⟨[1, 2, 2, 2, 2, 2, 2, 2], rfl⟩, ⟨[2, 3, 3, 3, 3, 3, 3, 3], rfl⟩⟩) (by decide)

/-- Two first calls make two listeners. What the first one wrote is in the pipe of the one that was replaced. -/
example :
    (run step [.call (jobAt 2 3), .call (jobAt 4 5), .alloc (jobAt 2 3), .setup (jobAt 2 3) true,
      .start (jobAt 2 3) true, .writeValue (jobAt 2 3) true, .writeCb (jobAt 2 3) true, .writeData (jobAt 2 3) true,
      .alloc (jobAt 4 5), .setup (jobAt 4 5) true, .start (jobAt 4 5) true] init).map
        (fun s => (s.enqueued, s.pipe)) = some ([jobAt 2 3], []) := rfl

end Libcortex.SelfPipe
