import Mathlib.Data.BitVec
import Libcortex.Graph
import Libcortex.Lib.Run

/-!
# State machines

`sm.c`: a change of the state is not made at once. It goes through the control pipe, and `change_sms` makes
it when the event loop reads the message. The callbacks of a state may ask for more changes, or for the release of
the machine, which has to wait until no change is left in the pipe.
-/

open Libcortex.Lib

namespace Libcortex.StateMachine

/-! ## The machine -/

abbrev SmsId := Nat

/-- `enum crtx_sms_event` -/
inductive SmsEvent where
  | enter
  | trigger
  | leave
deriving DecidableEq, Repr

/-- `struct crtx_sm_state`. Of the callbacks it matters whether they are set. -/
structure SmState where
  enter : Bool
  trigger : Bool
  leave : Bool

/-- The states of one `struct crtx_sm`, and whether it has a `release_cb`. -/
structure Machine where
  states : SmsId → SmState
  release_cb : Bool

/-- `other` is a message that this machine has nothing to do with. -/
inductive Msg where
  | change_sms (sms : Option SmsId)
  | other
deriving DecidableEq, Repr

/-- Where the thread of the event loop is. In `crashed` it has read from a null pointer. -/
inductive Pc where
  | loop
  | callback (ev : SmsEvent) (sms : SmsId)
  | release
  | crashed
deriving DecidableEq, Repr

/-- History. `late` says that the delivery began when the machine was to be released. `scheduled` counts the changes
that were in the pipe. -/
inductive Ev where
  | callback (ev : SmsEvent) (sms : SmsId) (late : Bool)
  | release_cb (scheduled : Nat)
deriving DecidableEq, Repr

/-- `struct crtx_sm` with the control pipe. `release` is the flag `CRTX_SMF_RELEASE`. The fields after `pc` are history:
was the machine to be released when the last delivery began, has `crtx_change_state` been called, and what was
called. -/
structure Sys where
  cur_state : Option SmsId
  n_schedules : BitVec 32
  release : Bool
  pipe : List Msg
  pc : Pc
  late : Bool
  changed : Bool
  log : List Ev

/-- What a new pipe holds under Linux. -/
def pipe_capacity : Nat := 65536

def Msg.isChange : Msg → Bool
  | .change_sms _ => true
  | .other => false

/-- The deliveries of `change_sms` that are still to come. -/
def Sys.scheduled (s : Sys) : Nat := s.pipe.countP Msg.isChange

/-- A write into a full pipe waits. -/
def write (s : Sys) (m : Msg) : Option Sys :=
  if (s.pipe.length + 1) * ctrlMsgSize ≤ pipe_capacity then some { s with pipe := s.pipe ++ [m] } else none

/-- A null pointer stands for the current state. -/
def crtx_change_state (s : Sys) (sms : Option SmsId) : Option Sys :=
  write { s with n_schedules := s.n_schedules + 1 } (.change_sms (sms.or s.cur_state))

def crtx_release_sm (s : Sys) : Option Sys :=
  if s.release then some s
  else if s.n_schedules = 0 then crtx_change_state { s with release := true } none
  else some { s with release := true }

def call (s : Sys) (ev : SmsEvent) (sms : SmsId) : Sys :=
  { s with pc := .callback ev sms, log := .callback ev sms s.late :: s.log }

/-- The end of `change_sms`, behind the `leave` callback. -/
def enterState (m : Machine) (s : Sys) (sms : SmsId) : Sys :=
  let s := { s with cur_state := some sms, pc := .loop }
  if (m.states sms).enter then call s .enter sms else s

/-- `leave` is called for the old state, with the new one as its argument. -/
def change_sms (m : Machine) (s : Sys) (sms : SmsId) : Sys :=
  let s := { s with n_schedules := s.n_schedules - 1 }
  if s.release then
    if m.release_cb ∧ s.n_schedules = 0 then { s with pc := .release, log := .release_cb s.scheduled :: s.log } else s
  else if s.cur_state = some sms then
    if (m.states sms).trigger then call s .trigger sms else s
  else if s.cur_state.any fun cur => (m.states cur).leave then call s .leave sms
  else enterState m s sms

/-- The event loop executes a message. -/
def deliver (m : Machine) (s : Sys) : Msg → Sys
  | .other => s
  | .change_sms none => { s with pc := .crashed }
  | .change_sms (some sms) => change_sms m { s with late := s.release } sms

/-- A callback comes back. -/
def callbackDone (m : Machine) (s : Sys) : Option Sys :=
  match s.pc with
  | .callback .leave sms => some (enterState m s sms)
  | .callback _ _ | .release => some { s with pc := .loop }
  | .loop | .crashed => none

/-- Anyone calls `crtx_change_state` and `crtx_release_sm`, the callbacks too, and writes other messages. -/
inductive Action where
  | change (sms : Option SmsId)
  | release
  | other
  | deliver
  | callbackDone
deriving DecidableEq

def step (m : Machine) (s : Sys) : Action → Option Sys
  | .change sms => if s.pc = .crashed then none else crtx_change_state { s with changed := true } sms
  | .release => if s.pc = .crashed then none else crtx_release_sm s
  | .other => if s.pc = .crashed then none else write s .other
  | .deliver =>
    match s.pc, s.pipe with
    | .loop, msg :: rest => some (deliver m { s with pipe := rest } msg)
    | _, _ => none
  | .callbackDone => callbackDone m s

/-- A new machine. -/
def init : Sys where
  cur_state := none
  n_schedules := 0
  release := false
  pipe := []
  pc := .loop
  late := false
  changed := false
  log := []

/-! ## What has to hold -/

def Ev.isRelease : Ev → Bool
  | .release_cb _ => true
  | .callback _ _ _ => false

/-- How often `release_cb` was called. -/
def Sys.releases (s : Sys) : Nat := s.log.countP Ev.isRelease

/-- The machine is released once, when no change is left, and does nothing else after it was asked to. -/
structure Released (s : Sys) : Prop where
  once : s.releases ≤ 1
  last : ∀ n, .release_cb n ∈ s.log → n = 0
  quiet : ∀ ev sms late, .callback ev sms late ∈ s.log → late = false
  pending : s.release = true → s.releases = 0 → s.scheduled ≠ 0

/-- Changes are to states of the machine, and only until `release_cb` was called. The release comes after a change. -/
def InTurn (s : Sys) : Action → Prop
  | .change sms => sms ≠ none ∧ s.releases = 0
  | .release => s.changed = true ∨ s.release = true
  | .other | .deliver | .callbackDone => True

instance (s : Sys) : ∀ a, Decidable (InTurn s a)
  | .change _ => inferInstanceAs (Decidable (_ ∧ _))
  | .release => inferInstanceAs (Decidable (_ ∨ _))
  | .other | .deliver | .callbackDone => inferInstanceAs (Decidable True)

/-- Whoever means the current state, there is one. -/
def HasState (s : Sys) : Action → Prop
  | .change sms => sms = none → s.cur_state ≠ none
  | .release => s.release = false → s.n_schedules = 0 → s.cur_state ≠ none
  | .other | .deliver | .callbackDone => True

instance (s : Sys) : ∀ a, Decidable (HasState s a)
  | .change sms => inferInstanceAs (Decidable (sms = none → _))
  | .release => inferInstanceAs (Decidable (_ → _ → _))
  | .other | .deliver | .callbackDone => inferInstanceAs (Decidable True)

/-! ## What the calls do -/

theorem write_eq_some {s s' : Sys} {msg : Msg} :
    write s msg = some s' ↔
      (s.pipe.length + 1) * ctrlMsgSize ≤ pipe_capacity ∧ { s with pipe := s.pipe ++ [msg] } = s' := by
  unfold write
  split
  · rename_i h
    simp [h]
  · rename_i h
    simp [h]

theorem crtx_release_sm_set {s : Sys} (h : s.release = true) : crtx_release_sm s = some s := by
  unfold crtx_release_sm
  rw [if_pos h]

theorem crtx_release_sm_busy {s : Sys} (h : s.release = false) (hn : s.n_schedules ≠ 0) :
    crtx_release_sm s = some { s with release := true } := by
  unfold crtx_release_sm
  rw [if_neg (by simp [h]), if_neg hn]

theorem crtx_release_sm_idle {s : Sys} (h : s.release = false) (hn : s.n_schedules = 0) :
    crtx_release_sm s = crtx_change_state { s with release := true } none := by
  unfold crtx_release_sm
  rw [if_neg (by simp [h]), if_pos hn]

/-! ## The invariant -/

/-- `n_schedules` counts the changes in the pipe, and all of them name a state. -/
structure Inv (s : Sys) : Prop where
  count : s.n_schedules.toNat = s.scheduled
  room : s.pipe.length * ctrlMsgSize ≤ pipe_capacity
  present : Msg.change_sms none ∉ s.pipe
  alive : s.pc ≠ .crashed
  current : ∀ ev sms, s.pc = .callback ev sms → s.late = false
  entered : s.changed = true → s.release = false → s.scheduled = 0 → s.cur_state ≠ none
  ended : s.releases ≠ 0 → s.release = true ∧ s.scheduled = 0
  ok : Released s

theorem scheduled_append (pipe : List Msg) (msg : Msg) :
    (pipe ++ [msg]).countP Msg.isChange = pipe.countP Msg.isChange + if msg.isChange then 1 else 0 := by
  rw [List.countP_append, List.countP_singleton]

theorem Inv.scheduled_le {s : Sys} (hi : Inv s) : s.scheduled ≤ 4096 := by
  have hle : s.scheduled ≤ s.pipe.length := List.countP_le_length
  have hroom := hi.room
  unfold ctrlMsgSize pipe_capacity at hroom
  omega

theorem Inv.add {s : Sys} (hi : Inv s) (sms : SmsId) (release changed : Bool)
    (hroom : (s.pipe.length + 1) * ctrlMsgSize ≤ pipe_capacity) (hr : s.releases = 0) :
    Inv { s with
      n_schedules := s.n_schedules + 1, pipe := s.pipe ++ [.change_sms (some sms)], release, changed } := by
  have hs : (s.pipe ++ [Msg.change_sms (some sms)]).countP Msg.isChange = s.scheduled + 1 := scheduled_append s.pipe _
  have hlt := hi.scheduled_le
  constructor
  case count =>
    have hn := hi.count
    change (s.n_schedules + 1).toNat = _
    rw [Sys.scheduled, hs, BitVec.toNat_add, hn]
    exact Nat.mod_eq_of_lt (by change s.scheduled + 1 < 2 ^ 32; omega)
  case room => simpa using hroom
  case present => simpa using hi.present
  case alive => exact hi.alive
  case current => exact hi.current
  case entered =>
    intro _ _ h
    rw [Sys.scheduled, hs] at h
    omega
  case ended => exact fun h => absurd hr h
  case ok =>
    refine ⟨hi.ok.once, hi.ok.last, hi.ok.quiet, fun _ _ => ?_⟩
    rw [Sys.scheduled, hs]
    omega

theorem Inv.call {s : Sys} (hi : Inv s) (hlate : s.late = false) (ev : SmsEvent) (sms : SmsId) :
    Inv (StateMachine.call s ev sms) where
  count := hi.count
  room := hi.room
  present := hi.present
  alive := by simp [StateMachine.call]
  current _ _ _ := hlate
  entered := hi.entered
  ended := hi.ended
  ok :=
    { once := hi.ok.once
      last := by simpa [StateMachine.call] using hi.ok.last
      quiet := by
        intro ev' sms' late h
        rcases List.mem_cons.mp h with h | h
        · cases h
          exact hlate
        · exact hi.ok.quiet ev' sms' late h
      pending := hi.ok.pending }

theorem Inv.enterState {s : Sys} {sms : SmsId} (hi : Inv { s with cur_state := some sms, pc := .loop })
    (hlate : s.late = false) (m : Machine) : Inv (StateMachine.enterState m s sms) := by
  unfold StateMachine.enterState
  dsimp only
  split
  · exact hi.call hlate .enter sms
  · exact hi

theorem Inv.rest {s : Sys} (hi : Inv s) {msg : Msg} {rest : List Msg} (hp : s.pipe = msg :: rest) :
    rest.length * ctrlMsgSize ≤ pipe_capacity ∧ Msg.change_sms none ∉ rest := by
  have hroom := hi.room
  have hpresent := hi.present
  rw [hp] at hroom hpresent
  rw [List.length_cons] at hroom
  exact ⟨Nat.le_trans (Nat.mul_le_mul_right _ (Nat.le_succ _)) hroom,
    fun h => hpresent (List.mem_cons_of_mem _ h)⟩

theorem Inv.restChange {s : Sys} (hi : Inv s) {sms : Option SmsId} {rest : List Msg}
    (hp : s.pipe = .change_sms sms :: rest) :
    s.releases = 0 ∧ (s.n_schedules - 1).toNat = rest.countP Msg.isChange := by
  have hs : s.scheduled = rest.countP Msg.isChange + 1 := by
    rw [Sys.scheduled, hp, List.countP_cons]
    rfl
  have hn := hi.count
  constructor
  · by_contra h
    have := (hi.ended h).2
    omega
  · bv_omega

theorem Inv.take {s : Sys} (hi : Inv s) {sms : SmsId} {rest : List Msg}
    (hp : s.pipe = .change_sms (some sms) :: rest) (hpc : s.pc = .loop)
    (hlast : s.release = true → rest.countP Msg.isChange ≠ 0) {c : Option SmsId}
    (hcur : s.release = false → c ≠ none) :
    Inv { s with pipe := rest, late := s.release, n_schedules := s.n_schedules - 1, cur_state := c } := by
  obtain ⟨hroom, hpresent⟩ := hi.rest hp
  obtain ⟨hnone, hcount⟩ := hi.restChange hp
  constructor
  case count => exact hcount
  case room => exact hroom
  case present => exact hpresent
  case alive => exact hi.alive
  case current =>
    intro ev sms h
    rw [hpc] at h
    cases h
  case entered => exact fun _ h _ => hcur h
  case ended => exact fun h => absurd hnone h
  case ok => exact ⟨hi.ok.once, hi.ok.last, hi.ok.quiet, fun h _ => hlast h⟩

theorem Inv.last {s : Sys} (hi : Inv s) {sms : SmsId} {rest : List Msg}
    (hp : s.pipe = .change_sms (some sms) :: rest) (hrel : s.release = true) (hlast : rest.countP Msg.isChange = 0) :
    Inv { s with
      pipe := rest, late := s.release, n_schedules := s.n_schedules - 1, pc := .release
      log := .release_cb (rest.countP Msg.isChange) :: s.log } := by
  obtain ⟨hroom, hpresent⟩ := hi.rest hp
  obtain ⟨hnone, hcount⟩ := hi.restChange hp
  have hone : ((Ev.release_cb (rest.countP Msg.isChange)) :: s.log).countP Ev.isRelease = 1 := by
    rw [List.countP_cons_of_pos rfl]
    exact congrArg Nat.succ hnone
  constructor
  case count => exact hcount
  case room => exact hroom
  case present => exact hpresent
  case alive => simp
  case current => simp
  case entered =>
    intro _ h
    rw [hrel] at h
    cases h
  case ended => exact fun _ => ⟨hrel, hlast⟩
  case ok =>
    refine ⟨Nat.le_of_eq hone, fun n h => ?_, fun ev sms' late h => ?_, fun _ h => ?_⟩
    · rcases List.mem_cons.mp h with h | h
      · cases h
        exact hlast
      · exact hi.ok.last n h
    · rcases List.mem_cons.mp h with h | h
      · cases h
      · exact hi.ok.quiet ev sms' late h
    · rw [Sys.releases, hone] at h
      cases h

theorem Inv.resume {s : Sys} (hi : Inv s) {cur : Option SmsId} (hcur : s.cur_state ≠ none → cur ≠ none) :
    Inv { s with cur_state := cur, pc := .loop } where
  count := hi.count
  room := hi.room
  present := hi.present
  alive := by simp
  current := by simp
  entered hc hr h := hcur (hi.entered hc hr h)
  ended := hi.ended
  ok := ⟨hi.ok.once, hi.ok.last, hi.ok.quiet, hi.ok.pending⟩

theorem Inv.skip {s : Sys} (hi : Inv s) {rest : List Msg} (hp : s.pipe = .other :: rest) :
    Inv { s with pipe := rest } := by
  have hs : s.scheduled = rest.countP Msg.isChange := by
    rw [Sys.scheduled, hp, List.countP_cons]
    rfl
  obtain ⟨hroom, hpresent⟩ := hi.rest hp
  refine ⟨hi.count.trans hs, hroom, hpresent, hi.alive, hi.current,
    fun hc hr h => hi.entered hc hr (hs.trans h), fun h => ⟨(hi.ended h).1, hs.symm.trans (hi.ended h).2⟩,
    hi.ok.once, hi.ok.last, hi.ok.quiet, fun hr h0 h => hi.ok.pending hr h0 (hs.trans h)⟩

/-! ## One step -/

theorem change_sms_inv {m : Machine} (hcb : m.release_cb = true) {s : Sys} (hi : Inv s) {sms : SmsId}
    {rest : List Msg} (hp : s.pipe = .change_sms (some sms) :: rest) (hpc : s.pc = .loop) :
    Inv (change_sms m { s with pipe := rest, late := s.release } sms) := by
  have hzero : s.n_schedules - 1 = 0 ↔ rest.countP Msg.isChange = 0 := by
    rw [← (hi.restChange hp).2]
    bv_omega
  unfold change_sms
  dsimp only
  by_cases hrel : s.release = true
  · rw [if_pos hrel]
    by_cases hlast : rest.countP Msg.isChange = 0
    · rw [if_pos ⟨hcb, hzero.mpr hlast⟩]
      exact hi.last hp hrel hlast
    · rw [if_neg fun h => hlast (hzero.mp h.2)]
      exact hi.take hp hpc (fun _ => hlast) fun h => by simp [h] at hrel
  · rw [if_neg hrel]
    have hlate : s.release = false := by simpa using hrel
    have htake := fun cur hcur => hi.take (c := cur) hp hpc (fun h => absurd h hrel) hcur
    by_cases hsame : s.cur_state = some sms
    · rw [if_pos hsame]
      have hstay := htake s.cur_state fun _ => by simp [hsame]
      split
      · exact hstay.call hlate .trigger sms
      · exact hstay
    · rw [if_neg hsame]
      split
      · rename_i hleave
        refine (htake s.cur_state fun _ hnone => ?_).call hlate .leave sms
        rw [hnone] at hleave
        cases hleave
      · refine Inv.enterState ?_ hlate m
        have hmove := htake (some sms) fun _ => by simp
        rw [hpc] at hmove
        exact hmove

theorem step_inv {m : Machine} (hcb : m.release_cb = true) (s : Sys) (a : Action) (s' : Sys) (hi : Inv s)
    (hok : InTurn s a) (h : step m s a = some s') : Inv s' := by
  cases a with
  | change sms =>
    obtain ⟨hsms, hr⟩ := hok
    obtain ⟨x, rfl⟩ := Option.ne_none_iff_exists'.mp hsms
    simp only [step, hi.alive, if_false, crtx_change_state, write_eq_some] at h
    obtain ⟨hroom, rfl⟩ := h
    exact hi.add x s.release true hroom hr
  | release =>
    simp only [step, hi.alive, if_false] at h
    cases hrel : s.release with
    | true =>
      rw [crtx_release_sm_set hrel] at h
      cases h
      exact hi
    | false =>
      have hr : s.releases = 0 := by
        by_contra hne
        have := (hi.ended hne).1
        simp [hrel] at this
      by_cases hn : s.n_schedules = 0
      · have hcount : s.scheduled = 0 := by rw [← hi.count, hn]; rfl
        have hchanged : s.changed = true := by simpa [InTurn, hrel] using hok
        obtain ⟨x, hx⟩ := Option.ne_none_iff_exists'.mp (hi.entered hchanged hrel hcount)
        simp only [crtx_release_sm_idle hrel hn, crtx_change_state, write_eq_some, hx] at h
        obtain ⟨hroom, rfl⟩ := h
        have := hi.add x true s.changed hroom hr
        rw [hx] at this
        exact this
      · rw [crtx_release_sm_busy hrel hn] at h
        cases h
        have hcount : s.scheduled ≠ 0 := fun h0 => hn (by
          have := hi.count
          bv_omega)
        exact ⟨hi.count, hi.room, hi.present, hi.alive, hi.current, fun _ h => absurd h (by simp),
          fun h => absurd hr h, ⟨hi.ok.once, hi.ok.last, hi.ok.quiet, fun _ _ => hcount⟩⟩
  | other =>
    simp only [step, hi.alive, if_false, write_eq_some] at h
    obtain ⟨hroom, rfl⟩ := h
    have hs : (s.pipe ++ [Msg.other]).countP Msg.isChange = s.scheduled := scheduled_append s.pipe _
    refine ⟨hi.count.trans hs.symm, by simpa using hroom, by simpa using hi.present, hi.alive, hi.current,
      fun hc hr h => hi.entered hc hr (hs.symm.trans h), fun h => ⟨(hi.ended h).1, hs.trans (hi.ended h).2⟩,
      hi.ok.once, hi.ok.last, hi.ok.quiet, fun hr h0 h => hi.ok.pending hr h0 (hs.symm.trans h)⟩
  | deliver =>
    cases hpc : s.pc with
    | loop =>
      cases hp : s.pipe with
      | nil => simp [step, hpc, hp] at h
      | cons msg rest =>
        simp only [step, hpc, hp, Option.some.injEq] at h
        subst h
        rcases msg with ⟨_ | sms⟩ | _
        · exact absurd (by simp [hp]) hi.present
        · have := change_sms_inv hcb hi hp hpc
          rw [hpc] at this
          exact this
        · have := hi.skip hp
          rw [hpc] at this
          exact this
    | callback ev sms => simp [step, hpc] at h
    | release => simp [step, hpc] at h
    | crashed => simp [step, hpc] at h
  | callbackDone =>
    simp only [step, callbackDone] at h
    split at h
    · rename_i sms hpc
      cases h
      exact (hi.resume fun _ => by simp).enterState (hi.current _ _ hpc) m
    · cases h
      exact hi.resume id
    · cases h
      exact hi.resume id
    · cases h
    · cases h

theorem init_inv : Inv init where
  count := rfl
  room := by decide
  present := by simp [init]
  alive := by simp [init]
  current := by simp [init]
  entered h := by cases h
  ended h := absurd rfl h
  ok := ⟨by decide, by simp [init], by simp [init], fun h => by cases h⟩

/-! ## The release -/

theorem release_protocol (states : SmsId → SmState) (as : List Action) (s : Sys)
    (hm : Meets (step ⟨states, true⟩) InTurn as init) (hr : run (step ⟨states, true⟩) as init = some s) : Released s :=
  (run_keeps (step_inv rfl) as init s init_inv hm hr).ok

/-- The states of the runs below: all callbacks are set, but state 1 has no `leave`. -/
def someStates (sms : SmsId) : SmState := ⟨true, true, sms ≠ 1⟩

/-- The machine is released by the callback of its first state, while a change is left. -/
def someRun : List Action :=
  [.change (some 0), .change (some 1), .deliver, .release, .callbackDone, .change (some 0), .other, .deliver, .deliver,
    .callbackDone, .deliver, .release]

theorem release_protocol_in_callback :
    ∃ s, run (step ⟨someStates, true⟩) someRun init = some s ∧
      s.log = [.release_cb 0, .callback .enter 0 false] ∧ Released s :=
  ⟨_, rfl, rfl, release_protocol someStates someRun _ (by decide) rfl⟩

/-! ## States that are missing -/

/-- No delivery of a null pointer is to come, and none has been. -/
def Sound (s : Sys) : Prop := Msg.change_sms none ∉ s.pipe ∧ s.pc ≠ .crashed

theorem enterState_pipe (m : Machine) (s : Sys) (sms : SmsId) : (enterState m s sms).pipe = s.pipe := by
  unfold enterState
  dsimp only
  split <;> rfl

theorem enterState_alive (m : Machine) (s : Sys) (sms : SmsId) : (enterState m s sms).pc ≠ .crashed := by
  unfold enterState
  dsimp only
  split <;> simp [call]

theorem change_sms_pipe (m : Machine) (s : Sys) (sms : SmsId) : (change_sms m s sms).pipe = s.pipe := by
  unfold change_sms
  dsimp only
  split_ifs <;> first | rfl | exact enterState_pipe ..

theorem change_sms_alive (m : Machine) {s : Sys} (h : s.pc ≠ .crashed) (sms : SmsId) :
    (change_sms m s sms).pc ≠ .crashed := by
  unfold change_sms
  dsimp only
  split_ifs
  · simp
  · exact h
  · simp [call]
  · exact h
  · simp [call]
  · exact enterState_alive m _ sms

theorem sound_change {s s' : Sys} (hs : Sound s) {sms : Option SmsId} (h : crtx_change_state s sms = some s') :
    Sound s' ↔ (sms = none → s.cur_state ≠ none) := by
  obtain ⟨-, rfl⟩ := write_eq_some.mp h
  obtain ⟨hpipe, hpc⟩ := hs
  have hor : sms.or s.cur_state = none ↔ ¬ (sms = none → s.cur_state ≠ none) := by
    rw [Option.or_eq_none_iff]
    tauto
  unfold Sound
  simp only [List.mem_append, List.mem_singleton, hpipe, false_or, Msg.change_sms.injEq]
  rw [eq_comm, hor, not_not]
  exact and_iff_left hpc

theorem sound_deliver (m : Machine) {s : Sys} {msg : Msg} {rest : List Msg} (hpipe : Msg.change_sms none ∉ msg :: rest)
    (hpc : s.pc ≠ .crashed) : Sound (deliver m { s with pipe := rest } msg) := by
  have hrest : Msg.change_sms none ∉ rest := fun h => hpipe (List.mem_cons_of_mem _ h)
  rcases msg with ⟨_ | sms⟩ | _
  · exact absurd List.mem_cons_self hpipe
  · refine ⟨?_, change_sms_alive m (by exact hpc) sms⟩
    rw [deliver, change_sms_pipe]
    exact hrest
  · exact ⟨hrest, hpc⟩

theorem callbackDone_pipe {m : Machine} {s s' : Sys} (h : callbackDone m s = some s') : s'.pipe = s.pipe := by
  unfold callbackDone at h
  split at h
  · cases h
    exact enterState_pipe ..
  · cases h
    rfl
  · cases h
    rfl
  · cases h
  · cases h

theorem callbackDone_alive {m : Machine} {s s' : Sys} (h : callbackDone m s = some s') : s'.pc ≠ .crashed := by
  unfold callbackDone at h
  split at h
  · cases h
    exact enterState_alive m s _
  · cases h
    simp
  · cases h
    simp
  · cases h
  · cases h

theorem deliver_eq_some {m : Machine} {s s' : Sys} :
    step m s .deliver = some s' ↔
      s.pc = .loop ∧ ∃ msg rest, s.pipe = msg :: rest ∧ deliver m { s with pipe := rest } msg = s' := by
  cases hpc : s.pc with
  | loop =>
    cases hp : s.pipe with
    | nil => simp [step, hpc, hp]
    | cons msg rest => simp [step, hpc, hp]
  | callback ev sms => simp [step, hpc]
  | release => simp [step, hpc]
  | crashed => simp [step, hpc]

theorem sound_step {m : Machine} {s s' : Sys} {a : Action} (hs : Sound s) (h : step m s a = some s') :
    Sound s' ↔ HasState s a := by
  obtain ⟨hpipe, hpc⟩ := hs
  cases a with
  | change sms =>
    simp only [step, if_neg hpc] at h
    exact sound_change (s := { s with changed := true }) ⟨hpipe, hpc⟩ h
  | release =>
    simp only [step, if_neg hpc] at h
    cases hrel : s.release with
    | true =>
      rw [crtx_release_sm_set hrel] at h
      cases h
      exact iff_of_true ⟨hpipe, hpc⟩ (by simp [HasState, hrel])
    | false =>
      by_cases hn : s.n_schedules = 0
      · rw [crtx_release_sm_idle hrel hn] at h
        rw [sound_change (s := { s with release := true }) ⟨hpipe, hpc⟩ h]
        simp [HasState, hrel, hn]
      · rw [crtx_release_sm_busy hrel hn] at h
        cases h
        exact iff_of_true ⟨hpipe, hpc⟩ fun _ h => absurd h hn
  | other =>
    simp only [step, if_neg hpc] at h
    obtain ⟨-, rfl⟩ := write_eq_some.mp h
    exact iff_of_true ⟨by simpa using hpipe, hpc⟩ trivial
  | deliver =>
    obtain ⟨-, msg, rest, hp, rfl⟩ := deliver_eq_some.mp h
    rw [hp] at hpipe
    exact iff_of_true (sound_deliver m hpipe hpc) trivial
  | callbackDone =>
    refine iff_of_true ⟨?_, callbackDone_alive h⟩ trivial
    rw [callbackDone_pipe h]
    exact hpipe

theorem unsound_step {m : Machine} {s s' : Sys} {a : Action} (hs : ¬ Sound s) (h : step m s a = some s') :
    ¬ Sound s' := by
  have hpc : s.pc ≠ .crashed := by
    intro hpc
    cases a <;> simp [step, callbackDone, hpc] at h
  have hpipe : Msg.change_sms none ∈ s.pipe := by
    by_contra hno
    exact hs ⟨hno, hpc⟩
  rintro ⟨hno, halive⟩
  cases a with
  | change sms =>
    simp only [step, if_neg hpc] at h
    obtain ⟨-, rfl⟩ := write_eq_some.mp h
    exact hno (List.mem_append_left _ hpipe)
  | release =>
    simp only [step, if_neg hpc, crtx_release_sm] at h
    split_ifs at h
    · cases h
      exact hno hpipe
    · obtain ⟨-, rfl⟩ := write_eq_some.mp h
      exact hno (List.mem_append_left _ hpipe)
    · cases h
      exact hno hpipe
  | other =>
    simp only [step, if_neg hpc] at h
    obtain ⟨-, rfl⟩ := write_eq_some.mp h
    exact hno (List.mem_append_left _ hpipe)
  | deliver =>
    obtain ⟨-, msg, rest, hp, rfl⟩ := deliver_eq_some.mp h
    rw [hp] at hpipe
    rcases msg with ⟨_ | sms⟩ | _
    · exact halive rfl
    · rw [deliver, change_sms_pipe] at hno
      exact hno ((List.mem_cons.mp hpipe).resolve_left (by simp))
    · exact hno ((List.mem_cons.mp hpipe).resolve_left (by simp))
  | callbackDone =>
    rw [callbackDone_pipe h] at hno
    exact hno hpipe

/-! ## What is left in the pipe -/

/-- The event loop gets from one state to the other without a call from outside. -/
def Goes (m : Machine) (s t : Sys) : Prop :=
  ∃ as, (∀ a ∈ as, a = .deliver ∨ a = .callbackDone) ∧ run (step m) as s = some t

theorem Goes.refl (m : Machine) (s : Sys) : Goes m s s := ⟨[], by simp, rfl⟩

theorem Goes.head {m : Machine} {s s' t : Sys} {a : Action} (ha : a = .deliver ∨ a = .callbackDone)
    (hs : step m s a = some s') (h : Goes m s' t) : Goes m s t := by
  obtain ⟨as, has, hr⟩ := h
  refine ⟨a :: as, fun b hb => ?_, by rw [run_cons, hs]; exact hr⟩
  rcases List.mem_cons.mp hb with rfl | hb
  · exact ha
  · exact has b hb

theorem Goes.trans {m : Machine} {s t u : Sys} (h : Goes m s t) (h' : Goes m t u) : Goes m s u := by
  obtain ⟨as, has, hr⟩ := h
  obtain ⟨bs, hbs, hr'⟩ := h'
  refine ⟨as ++ bs, fun a ha => ?_, by rw [run_append, hr]; exact hr'⟩
  rcases List.mem_append.mp ha with ha | ha
  · exact has a ha
  · exact hbs a ha

theorem goes_loop {m : Machine} {s : Sys} (h : s.pc ≠ .crashed) : ∃ t, Goes m s t ∧ t.pc = .loop ∧ t.pipe = s.pipe := by
  have hlast : ∀ s : Sys, (∃ sms, s.pc = .callback .enter sms) ∨ (∃ sms, s.pc = .callback .trigger sms) ∨
      s.pc = .release → Goes m s { s with pc := .loop } := by
    rintro s (⟨sms, hpc⟩ | ⟨sms, hpc⟩ | hpc) <;>
      exact (Goes.refl m _).head (.inr rfl) (by simp [step, callbackDone, hpc])
  cases hpc : s.pc with
  | loop => exact ⟨s, .refl m s, hpc, rfl⟩
  | callback ev sms =>
    cases ev with
    | enter => exact ⟨_, hlast s (.inl ⟨sms, hpc⟩), rfl, rfl⟩
    | trigger => exact ⟨_, hlast s (.inr (.inl ⟨sms, hpc⟩)), rfl, rfl⟩
    | leave =>
      have hstep : step m s .callbackDone = some (enterState m s sms) := by simp [step, callbackDone, hpc]
      by_cases henter : (m.states sms).enter = true
      · refine ⟨_, (hlast (enterState m s sms) (.inl ⟨sms, ?_⟩)).head (.inr rfl) hstep, rfl, enterState_pipe m s sms⟩
        simp [enterState, henter, call]
      · refine ⟨_, (Goes.refl m _).head (.inr rfl) hstep, ?_, enterState_pipe m s sms⟩
        simp [enterState, henter]
  | release => exact ⟨_, hlast s (.inr (.inr hpc)), rfl, rfl⟩
  | crashed => exact absurd hpc h

theorem goes_crash {m : Machine} (pipe : List Msg) :
    ∀ s : Sys, s.pipe = pipe → s.pc ≠ .crashed → Msg.change_sms none ∈ pipe → ∃ t, Goes m s t ∧ t.pc = .crashed := by
  induction pipe with
  | nil => exact fun _ _ _ h => absurd h List.not_mem_nil
  | cons msg rest ih =>
    intro s hp hpc hmem
    obtain ⟨t, hgoes, hloop, hpipe⟩ := goes_loop (m := m) hpc
    have hstep : step m t .deliver = some (deliver m { t with pipe := rest } msg) :=
      deliver_eq_some.mpr ⟨hloop, msg, rest, hpipe.trans hp, rfl⟩
    by_cases hnull : msg = .change_sms none
    · subst hnull
      exact ⟨_, hgoes.trans ((Goes.refl m _).head (.inl rfl) hstep), rfl⟩
    · have hrest : Msg.change_sms none ∈ rest := (List.mem_cons.mp hmem).resolve_left fun h => hnull h.symm
      have hnext : (deliver m { t with pipe := rest } msg).pipe = rest ∧
          (deliver m { t with pipe := rest } msg).pc ≠ .crashed := by
        rcases msg with ⟨_ | sms⟩ | _
        · exact absurd rfl hnull
        · exact ⟨change_sms_pipe m _ sms, change_sms_alive m (by simp [hloop]) sms⟩
        · exact ⟨rfl, by simp [deliver, hloop]⟩
      obtain ⟨u, hu, hcrash⟩ := ih _ hnext.1 hnext.2 hrest
      exact ⟨u, hgoes.trans (hu.head (.inl rfl) hstep), hcrash⟩

theorem sound_iff {m : Machine} {s : Sys} : Sound s ↔ ∀ t, Goes m s t → t.pc ≠ .crashed := by
  constructor
  · rintro hs t ⟨as, has, hr⟩
    have hstep : ∀ s a s', Sound s → a = .deliver ∨ a = .callbackDone → step m s a = some s' → Sound s' := by
      rintro s a s' hs (rfl | rfl) h
      · exact (sound_step hs h).mpr trivial
      · exact (sound_step hs h).mpr trivial
    exact (run_keeps hstep as s t hs (meets_of_forall has s) hr).2
  · intro h
    refine ⟨fun hmem => ?_, h s (.refl m s)⟩
    obtain ⟨t, ht, hcrash⟩ := goes_crash (m := m) s.pipe s rfl (h s (.refl m s)) hmem
    exact h t ht hcrash

/-- No null pointer is delivered, now or later, if and only if there was a current state whenever it was asked for. -/
theorem null_safe_iff (m : Machine) (as : List Action) (s : Sys) (hr : run (step m) as init = some s) :
    (∀ t, Goes m s t → t.pc ≠ .crashed) ↔ Meets (step m) HasState as init := by
  have hinit : Sound init := ⟨by simp [init], by simp [init]⟩
  have hstep : ∀ s a s', True → Sound s → step m s a = some s' → True ∧ (Sound s' ↔ HasState s a) :=
    fun s a s' _ hs h => ⟨trivial, sound_step hs h⟩
  rw [← sound_iff]
  exact run_good_iff hstep (fun s a s' hs h => unsound_step hs h) as init s trivial hinit hr

/-- All calls come after the first change. -/
def laterCalls : List Action := [.change (some 1), .deliver, .change none, .release, .callbackDone]

theorem null_safe_iff_after_enter :
    ∃ s, run (step ⟨someStates, false⟩) laterCalls init = some s ∧
      Meets (step ⟨someStates, false⟩) HasState laterCalls init ∧
      ((∀ t, Goes ⟨someStates, false⟩ s t → t.pc ≠ .crashed) ↔
        Meets (step ⟨someStates, false⟩) HasState laterCalls init) :=
  ⟨_, rfl, by decide, null_safe_iff ⟨someStates, false⟩ laterCalls _ rfl⟩

/-- The release of a machine that has never had a state. -/
theorem release_without_state :
    ∃ s, run (step ⟨someStates, true⟩) [.release, .deliver] init = some s ∧ s.pc = .crashed :=
  ⟨_, rfl, rfl⟩

end Libcortex.StateMachine
