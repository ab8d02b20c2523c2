import Libcortex.Registration

/-!
# Timeouts of callbacks

`evloop.c` and `epoll.c`: a callback has a deadline, and a flag that says whether the deadline is enabled. Of the two
loops of `evloop_start_intern` over all callbacks, the one that calls the handlers tests the deadline only, and the one
that computes how long to wait tests the flag.
-/

open Libcortex.Lib Libcortex.Epoll

namespace Libcortex.Timeouts

/-! ## Points in time -/

/-- `tv_sec` is far from the end of its type. -/
structure Timespec where
  tv_sec : Nat
  tv_nsec : Nat
  nsec_lt : tv_nsec < 1000000000
deriving DecidableEq

namespace Timespec

def ns (ts : Timespec) : Nat := ts.tv_sec * 1000000000 + ts.tv_nsec

def zero : Timespec := ⟨0, 0, by decide⟩

def raw (ts : Timespec) : Nat × Nat := (ts.tv_sec, ts.tv_nsec)

end Timespec

def CRTX_CMP_TIMESPEC (ts1 ts2 : Nat × Nat) : Int :=
  if (ts1.1 : Int) - ts2.1 ≠ 0 then ts1.1 - ts2.1 else if (ts1.2 : Int) - ts2.2 ≠ 0 then ts1.2 - ts2.2 else 0

def CRTX_timespec2uint64 (ts : Timespec) : Nat := (ts.tv_sec * 1000000000 + ts.tv_nsec) % 2 ^ 64

def CRTX_timespec2us_u64 (ts : Timespec) : Nat := (ts.tv_sec * 1000000 + ts.tv_nsec / 1000) % 2 ^ 64

/-- `time_t` has 64 bits. -/
def TIME_T_MAX : Nat := 2 ^ 63 - 1

def INT32_MAX : Nat := 2 ^ 31 - 1

def UINT64_MAX : Nat := 2 ^ 64 - 1

/-! ## The calls -/

/-- The two fields of `struct crtx_evloop_callback`. -/
structure Timeout where
  timeout_enabled : Bool
  timeout : Timespec
deriving DecidableEq

def crtx_evloop_set_timeout (t : Timeout) (timeout : Timespec) : Timeout := { t with timeout }

/-- `now` is the time of `CRTX_DEFAULT_CLOCK`. -/
def crtx_evloop_set_timeout_rel (now : Timespec) (timeout_us : Nat) : Timeout :=
  let sec :=
    if TIME_T_MAX ≤ timeout_us / 1000000 ∨ TIME_T_MAX - timeout_us / 1000000 < now.tv_sec then TIME_T_MAX
    else now.tv_sec + timeout_us / 1000000
  let nsec := now.tv_nsec + timeout_us % 1000000 * 1000
  have hnow := now.nsec_lt
  if h : 1000000000 ≤ nsec then
    ⟨true, if sec < TIME_T_MAX then sec + 1 else sec, nsec - 1000000000, by omega⟩
  else ⟨true, sec, nsec, by omega⟩

/-- A clock, with its time. For another clock than `CRTX_DEFAULT_CLOCK`, `now` is the time that
`crtx_evloop_set_timeout_rel` gets for that one. -/
inductive Clock where
  | default
  | other (reading now : Timespec)
deriving DecidableEq

def crtx_evloop_set_timeout_abs (clock : Clock) (timeout_us : Nat) : Timeout :=
  match clock with
  | .other reading now =>
    let now_us := CRTX_timespec2us_u64 reading
    if now_us < timeout_us then crtx_evloop_set_timeout_rel now (timeout_us - now_us)
    else crtx_evloop_set_timeout_rel now 0
  | .default =>
    let sec := if TIME_T_MAX ≤ timeout_us / 1000000 then TIME_T_MAX else timeout_us / 1000000
    ⟨true, sec, timeout_us % 1000000 * 1000, by omega⟩

def crtx_evloop_disable_timeout (t : Timeout) : Timeout := { t with timeout_enabled := false }

inductive Call where
  | set (timeout : Timespec)
  | set_abs (clock : Clock) (timeout_us : Nat)
  | set_rel (now : Timespec) (timeout_us : Nat)
  | disable
deriving DecidableEq

def Call.perform (t : Timeout) : Call → Timeout
  | .set timeout => crtx_evloop_set_timeout t timeout
  | .set_abs clock timeout_us => crtx_evloop_set_timeout_abs clock timeout_us
  | .set_rel now timeout_us => crtx_evloop_set_timeout_rel now timeout_us
  | .disable => crtx_evloop_disable_timeout t

/-- The time that the call reads from `CRTX_DEFAULT_CLOCK`. -/
def Call.now? : Call → Option Timespec
  | .set_abs (.other _ now) _ | .set_rel now _ => some now
  | _ => none

/-! ## The two loops of `evloop_start_intern` -/

/-- `crtx_evloop_callback` with `triggered_flags = CRTX_EVLOOP_TIMEOUT` -/
def takesTimeout (cb : Callback) : Bool :=
  cb.crtx_event_flags = 0 ∨ cb.crtx_event_flags &&& CRTX_EVLOOP_TIMEOUT ≠ 0

/-- The loop that calls the handlers, for one callback. Is its handler called? -/
def fire (now_ts : Timespec) (cb : Callback) (t : Timeout) : Timeout × Bool :=
  if (0 < t.timeout.tv_sec ∨ 0 < t.timeout.tv_nsec) ∧ CRTX_CMP_TIMESPEC t.timeout.raw now_ts.raw < 0 then
    (⟨false, .zero⟩, cb.active && takesTimeout cb)
  else (t, false)

def max_ts : Timespec := ⟨1000000000, 1000000000 - 1, by decide⟩

def then_ts (now_ts : Timespec) (timeout : Nat) : Nat × Nat :=
  let sec := now_ts.tv_sec + timeout / 1000000000
  let nsec := now_ts.tv_nsec + timeout % 1000000000
  if 1000000000 < nsec then (sec + 1, nsec - 1000000000) else (sec, nsec)

/-- The loop that computes `timeout` and `timeout_set`, for one callback. -/
def nextTimeout (now_ts : Timespec) (acc : Nat × Bool) (t : Timeout) : Nat × Bool :=
  -- Only a deadline in the past makes it zero, and both loops are left then.
  if acc.1 = 0 then acc
  else if t.timeout_enabled = false then acc
  else if CRTX_CMP_TIMESPEC t.timeout.raw now_ts.raw ≤ 0 then (0, true)
  else if CRTX_CMP_TIMESPEC t.timeout.raw (then_ts now_ts acc.1) < 0 then
    if CRTX_CMP_TIMESPEC max_ts.raw t.timeout.raw < 0 then (1000000000 * 1000000000, true)
    else ((CRTX_timespec2uint64 t.timeout + 2 ^ 64 - CRTX_timespec2uint64 now_ts) % 2 ^ 64, true)
  else acc

def initialTimeout (epl_timeout : Int) : Nat := if 0 ≤ epl_timeout then epl_timeout.toNat else UINT64_MAX

def toMs (timeout : Nat) : Nat :=
  let ms := if INT32_MAX < timeout / 1000000 then INT32_MAX else timeout / 1000000
  if ms = 0 then 1 else ms

/-- `ts` are the timeouts of the callbacks, in the order of the loop, and `epl_timeout` is `epl->timeout`. -/
def epoll_timeout_ms (epl_timeout : Int) (phase_out : Bool) (now_ts : Timespec) (ts : List Timeout) : Int :=
  let r := ts.foldl (nextTimeout now_ts) (initialTimeout epl_timeout, false)
  if phase_out then 0 else if r.2 then toMs r.1 else epl_timeout

/-! ## Deadlines -/

theorem cmp_neg {ts ts' : Timespec} : CRTX_CMP_TIMESPEC ts.raw ts'.raw < 0 ↔ ts.ns < ts'.ns := by
  have h := ts.nsec_lt
  have h' := ts'.nsec_lt
  unfold CRTX_CMP_TIMESPEC Timespec.raw Timespec.ns
  dsimp only
  split
  · omega
  · split <;> omega

theorem cmp_nonpos {ts ts' : Timespec} : CRTX_CMP_TIMESPEC ts.raw ts'.raw ≤ 0 ↔ ts.ns ≤ ts'.ns := by
  have h := ts.nsec_lt
  have h' := ts'.nsec_lt
  unfold CRTX_CMP_TIMESPEC Timespec.raw Timespec.ns
  dsimp only
  split
  · omega
  · split <;> omega

theorem cmp_then {ts now_ts : Timespec} (timeout : Nat) :
    CRTX_CMP_TIMESPEC ts.raw (then_ts now_ts timeout) < 0 ↔ ts.ns < now_ts.ns + timeout := by
  have h := ts.nsec_lt
  have h' := now_ts.nsec_lt
  unfold CRTX_CMP_TIMESPEC then_ts Timespec.raw Timespec.ns
  dsimp only
  split
  · dsimp only
    split
    · omega
    · split <;> omega
  · dsimp only
    split
    · omega
    · split <;> omega

/-! ## How long to wait -/

/-- What a deadline makes of `timeout` if it is considered. -/
def wait (now_ts deadline : Timespec) : Nat :=
  if deadline.ns ≤ now_ts.ns then 0
  else if max_ts.ns < deadline.ns then 1000000000 * 1000000000
  else deadline.ns - now_ts.ns

theorem timespec2uint64_sub {ts now_ts : Timespec} (h : now_ts.ns < ts.ns) (hmax : ts.ns ≤ max_ts.ns) :
    (CRTX_timespec2uint64 ts + 2 ^ 64 - CRTX_timespec2uint64 now_ts) % 2 ^ 64 = ts.ns - now_ts.ns := by
  change ((ts.ns % 2 ^ 64) + 2 ^ 64 - now_ts.ns % 2 ^ 64) % 2 ^ 64 = _
  have hmax' : max_ts.ns = 1000000000999999999 := rfl
  omega

/-- A deadline that ends the wait earlier, or is in the past. -/
def Shortens (now_ts : Timespec) (timeout : Nat) (t : Timeout) : Prop :=
  t.timeout_enabled = true ∧ timeout ≠ 0 ∧ t.timeout.ns < now_ts.ns + timeout

instance (now_ts : Timespec) (timeout : Nat) (t : Timeout) : Decidable (Shortens now_ts timeout t) :=
  inferInstanceAs (Decidable (_ ∧ _))

theorem nextTimeout_eq (now_ts : Timespec) (acc : Nat × Bool) (t : Timeout) :
    nextTimeout now_ts acc t = if Shortens now_ts acc.1 t then (wait now_ts t.timeout, true) else acc := by
  unfold nextTimeout wait
  simp only [cmp_nonpos, cmp_then, cmp_neg, Shortens]
  by_cases hz : acc.1 = 0
  · simp [hz]
  by_cases he : t.timeout_enabled = true
  · by_cases hpast : t.timeout.ns ≤ now_ts.ns
    · have hlt : t.timeout.ns < now_ts.ns + acc.1 := by omega
      simp [hz, he, hpast, hlt]
    · by_cases hmax : max_ts.ns < t.timeout.ns
      · simp [hz, he, hpast, hmax]
      · rw [timespec2uint64_sub (by omega) (by omega)]
        simp [hz, he, hpast, hmax]
  · simp [he]

/-- What the loop has found among `ts`, where it began with `limit`. The wait is that of a deadline, and longer than
that of no other one, but for those that are years ahead. -/
inductive Scanned (limit : Nat) (now_ts : Timespec) (ts : List Timeout) : Nat × Bool → Prop where
  | none (h : ∀ t ∈ ts, ¬ Shortens now_ts limit t) : Scanned limit now_ts ts (limit, false)
  | some (t : Timeout) (ht : t ∈ ts) (hs : Shortens now_ts limit t)
      (h : ∀ t' ∈ ts, Shortens now_ts limit t' →
        min (wait now_ts t.timeout) (1000000000 * 1000000000) ≤ wait now_ts t'.timeout) :
      Scanned limit now_ts ts (wait now_ts t.timeout, true)

theorem forall_mem_concat {α : Type} {p : α → Prop} {l : List α} {a : α} :
    (∀ x ∈ l ++ [a], p x) ↔ (∀ x ∈ l, p x) ∧ p a := by
  rw [List.forall_mem_append, List.forall_mem_singleton]

theorem wait_le {now_ts d d' : Timespec} (hd : wait now_ts d ≠ 0 ∧ d'.ns < now_ts.ns + wait now_ts d) :
    min (wait now_ts d') (1000000000 * 1000000000) ≤ min (wait now_ts d) (1000000000 * 1000000000) := by
  unfold wait at *
  generalize max_ts.ns = m, 1000000000 * 1000000000 = years at *
  split_ifs at * <;> omega

theorem le_wait {now_ts d d' : Timespec} (h : wait now_ts d ≠ 0 → now_ts.ns + wait now_ts d ≤ d'.ns) :
    min (wait now_ts d) (1000000000 * 1000000000) ≤ wait now_ts d' := by
  unfold wait at *
  generalize max_ts.ns = m, 1000000000 * 1000000000 = years at *
  split_ifs at * <;> omega

theorem wait_eq {now_ts d d' : Timespec} {limit : Nat} (hd : d.ns < now_ts.ns + limit)
    (hd' : d'.ns < now_ts.ns + wait now_ts d) (hlimit : now_ts.ns + limit ≤ d'.ns) :
    wait now_ts d' = wait now_ts d := by
  unfold wait at *
  generalize max_ts.ns = m, 1000000000 * 1000000000 = years at *
  split_ifs at * <;> omega

theorem nextTimeout_scanned {limit : Nat} {now_ts : Timespec} {ts : List Timeout} {acc : Nat × Bool}
    (h : Scanned limit now_ts ts acc) (t : Timeout) :
    Scanned limit now_ts (ts ++ [t]) (nextTimeout now_ts acc t) := by
  rw [nextTimeout_eq]
  split
  · rename_i hs
    cases h with
    | none h =>
      refine .some t (by simp) hs (forall_mem_concat.mpr ⟨fun t' ht' hs' => absurd hs' (h t' ht'), fun _ => ?_⟩)
      exact min_le_left ..
    | some t₀ ht₀ hs₀ h =>
      by_cases hlimit : t.timeout.ns < now_ts.ns + limit
      · refine .some t (by simp) ⟨hs.1, hs₀.2.1, hlimit⟩ (forall_mem_concat.mpr ⟨fun t' ht' hs' => ?_, fun _ => ?_⟩)
        · exact (wait_le hs.2).trans (h t' ht' hs')
        · exact min_le_left ..
      · rw [wait_eq hs₀.2.2 hs.2.2 (Nat.le_of_not_lt hlimit)]
        exact .some t₀ (List.mem_append_left _ ht₀) hs₀ (forall_mem_concat.mpr ⟨h, fun hs' => absurd hs'.2.2 hlimit⟩)
  · rename_i hs
    cases h with
    | none h => exact .none (forall_mem_concat.mpr ⟨h, hs⟩)
    | some t₀ ht₀ hs₀ h =>
      refine .some t₀ (List.mem_append_left _ ht₀) hs₀ (forall_mem_concat.mpr ⟨h, fun hs' => le_wait fun hz => ?_⟩)
      exact Nat.le_of_not_lt fun hlt => hs ⟨hs'.1, hz, hlt⟩

theorem fold_scanned (limit : Nat) (now_ts : Timespec) (ts : List Timeout) :
    Scanned limit now_ts ts (ts.foldl (nextTimeout now_ts) (limit, false)) := by
  induction ts using List.reverseRecOn with
  | nil => exact .none nofun
  | append_singleton ts t ih =>
    rw [List.foldl_append, List.foldl_cons, List.foldl_nil]
    exact nextTimeout_scanned ih t

/-- The milliseconds that are left until the deadline. -/
def msLeft (now_ts deadline : Timespec) : Nat := (deadline.ns - now_ts.ns) / 1000000

/-- `epoll_wait` does not wait for longer than to the deadline, or for a millisecond. -/
def InTime (now_ts deadline : Timespec) (ms : Int) : Prop := 0 ≤ ms ∧ ms ≤ (max 1 (msLeft now_ts deadline) : Nat)

instance (now_ts deadline : Timespec) (ms : Int) : Decidable (InTime now_ts deadline ms) :=
  inferInstanceAs (Decidable (_ ∧ _))

/-- The deadline `d` has passed, or it comes in the next millisecond or no later than `deadline`, and before the clock
has run for 31 years. Or `deadline` is as far away as any wait can last. -/
def Precedes (now_ts d deadline : Timespec) : Prop :=
  d.ns ≤ now_ts.ns ∨ (d.ns ≤ max_ts.ns ∧ msLeft now_ts d ≤ max 1 (msLeft now_ts deadline)) ∨
    INT32_MAX ≤ msLeft now_ts deadline

/-- A deadline that is enabled, and nearer than `epl->timeout` nanoseconds, comes no later than `deadline`. Or there is
none that is enabled and so near, and `epl->timeout` milliseconds last no longer than to `deadline`. -/
def Heeded (epl_timeout : Int) (now_ts : Timespec) (ts : List Timeout) (deadline : Timespec) : Prop :=
  (∃ t ∈ ts, Shortens now_ts (initialTimeout epl_timeout) t ∧ Precedes now_ts t.timeout deadline) ∨
    (∀ t ∈ ts, ¬ Shortens now_ts (initialTimeout epl_timeout) t) ∧
      0 ≤ epl_timeout ∧ epl_timeout ≤ (max 1 (msLeft now_ts deadline) : Nat)

theorem toMs_eq (a : Nat) : toMs a = max 1 (min (a / 1000000) 2147483647) := by
  have hmax : INT32_MAX = 2147483647 := rfl
  unfold toMs
  dsimp only
  rw [hmax]
  by_cases hlong : 2147483647 < a / 1000000
  · rw [if_pos hlong, if_neg (by decide)]
    omega
  · rw [if_neg hlong]
    split <;> omega

theorem toMs_mono {a b : Nat} (h : min a (1000000000 * 1000000000) ≤ b) : toMs a ≤ toMs b := by
  rw [toMs_eq, toMs_eq]
  omega

theorem InTime.of_le {now_ts deadline : Timespec} {a b : Nat} (h : a ≤ b) (hb : InTime now_ts deadline b) :
    InTime now_ts deadline a := ⟨Int.natCast_nonneg a, (Int.ofNat_le.mpr h).trans hb.2⟩

theorem inTime_wait {now_ts d deadline : Timespec} :
    InTime now_ts deadline (toMs (wait now_ts d)) ↔ Precedes now_ts d deadline := by
  have hmax : max_ts.ns = 1000000000999999999 := rfl
  have hint : INT32_MAX = 2147483647 := rfl
  unfold InTime Precedes
  rw [and_iff_right (Int.natCast_nonneg _), Int.ofNat_le, toMs_eq, hint]
  unfold wait
  rw [hmax]
  split_ifs with hpast hfar
  · exact iff_of_true (by omega) (.inl hpast)
  · omega
  · change max 1 (min (msLeft now_ts d) 2147483647) ≤ _ ↔ _
    omega

theorem inTime_iff {epl_timeout : Int} {phase_out : Bool} {now_ts : Timespec} {ts : List Timeout}
    {deadline : Timespec} :
    InTime now_ts deadline (epoll_timeout_ms epl_timeout phase_out now_ts ts) ↔
      phase_out = true ∨ Heeded epl_timeout now_ts ts deadline := by
  have hr := fold_scanned (initialTimeout epl_timeout) now_ts ts
  unfold epoll_timeout_ms
  dsimp only
  generalize ts.foldl (nextTimeout now_ts) (initialTimeout epl_timeout, false) = r at hr ⊢
  cases phase_out with
  | true => exact iff_of_true ⟨le_rfl, Int.natCast_nonneg _⟩ (.inl rfl)
  | false =>
    rw [if_neg Bool.false_ne_true, or_iff_right Bool.false_ne_true]
    cases hr with
    | none h =>
      refine ⟨fun ht => .inr ⟨h, ht⟩, ?_⟩
      rintro (⟨t, ht, hs, -⟩ | ⟨-, ht⟩)
      · exact absurd hs (h t ht)
      · exact ht
    | some t ht hs h =>
      refine ⟨fun hin => .inl ⟨t, ht, hs, inTime_wait.mp hin⟩, ?_⟩
      rintro (⟨t', ht', hs', hprec⟩ | ⟨hnone, -⟩)
      · exact (inTime_wait.mpr hprec).of_le (toMs_mono (h t' ht' hs'))
      · exact absurd hs (hnone t ht)

theorem heeded_enabled {epl_timeout : Int} {now_ts : Timespec} {ts : List Timeout} {t : Timeout}
    (hdefault : epl_timeout < 0) (ht : t ∈ ts) (he : t.timeout_enabled = true)
    (hlt : t.timeout.ns < now_ts.ns + UINT64_MAX)
    (hmax : t.timeout.ns ≤ max_ts.ns ∨ now_ts.ns + 2147483647 * 1000000 ≤ t.timeout.ns) :
    Heeded epl_timeout now_ts ts t.timeout := by
  have hlimit : initialTimeout epl_timeout = UINT64_MAX := if_neg (Int.not_le.mpr hdefault)
  have hprec : Precedes now_ts t.timeout t.timeout := by
    rcases hmax with hmax | hfar
    · exact .inr (.inl ⟨hmax, Nat.le_max_right ..⟩)
    · refine .inr (.inr ?_)
      unfold msLeft INT32_MAX
      omega
  exact .inl ⟨t, ht, hlimit ▸ ⟨he, by decide, hlt⟩, hprec⟩

/-! ## The machine -/

/-- `epl_timeout` is `epl->timeout`, and `clock` the last time that was read. `now_ts` is set while the loop calls the
handlers. `deadline` is history: what the last call has set, if the loop has not taken it since. -/
structure St where
  loop : Evloop
  timeouts : CallbackId → Timeout
  epl_timeout : Int
  phase_out : Bool
  clock : Timespec
  now_ts : Option Timespec
  deadline : CallbackId → Option Timespec

/-- The callbacks that the two loops visit. -/
def St.callbacks (s : St) : List CallbackId := s.loop.fds.flatMap fun e => (s.loop.entries e).callbacks

/-- `call` is one of the calls for the timeout of a callback. The two loops are entered at the time `now_ts`, and the
first one visits the callbacks one after the other, with the calls that their handlers make in between. -/
inductive Action where
  | loop (a : Epoll.Action)
  | call (c : CallbackId) (call : Call)
  | phaseOut
  | begin (now_ts : Timespec)
  | visit (c : CallbackId)
  | next (now_ts : Timespec)
deriving DecidableEq

def perform (s : St) (c : CallbackId) (call : Call) : St :=
  let t := call.perform (s.timeouts c)
  { s with
    timeouts := Function.update s.timeouts c t
    clock := call.now?.getD s.clock
    deadline := Function.update s.deadline c (if call = .disable then none else some t.timeout) }

def visit (s : St) (now_ts : Timespec) (c : CallbackId) : St :=
  let t := (fire now_ts (s.loop.cbs c) (s.timeouts c)).1
  { s with
    timeouts := Function.update s.timeouts c t
    deadline := Function.update s.deadline c (if t = s.timeouts c then s.deadline c else none) }

/-- No clock goes backwards. -/
def step (s : St) : Action → Option St
  | .loop a => (Epoll.step s.loop a).map fun loop => { s with loop }
  | .call c call => if s.clock.ns ≤ (call.now?.getD s.clock).ns then some (perform s c call) else none
  | .phaseOut => some { s with phase_out := true }
  | .begin now_ts =>
    if s.clock.ns ≤ now_ts.ns then some { s with clock := now_ts, now_ts := some now_ts } else none
  | .visit c => s.now_ts.bind fun now_ts => if c ∈ s.callbacks then some (visit s now_ts c) else none
  | .next now_ts => if s.clock.ns ≤ now_ts.ns then some { s with clock := now_ts, now_ts := none } else none

def init (d : Descriptors) (epl_timeout : Int) (clock : Timespec) : St where
  loop := Epoll.init d
  timeouts _ := ⟨false, .zero⟩
  epl_timeout
  phase_out := false
  clock
  now_ts := none
  deadline _ := none

/-! ## What has to hold -/

/-- A handler is called if its deadline has passed, and `epoll_wait` is left in time for all deadlines. -/
def Punctual (s : St) : Action → Prop
  | .visit c => ∀ now_ts, s.now_ts = some now_ts → (fire now_ts (s.loop.cbs c) (s.timeouts c)).2 = true →
    ∃ d, s.deadline c = some d ∧ d.ns < now_ts.ns
  | .next now_ts => ∀ c ∈ s.callbacks, (s.loop.cbs c).active = true → ∀ d, s.deadline c = some d →
    InTime now_ts d (epoll_timeout_ms s.epl_timeout s.phase_out now_ts (s.callbacks.map s.timeouts))
  | _ => True

/-- The callback has a deadline that has passed. -/
def Due (now_ts : Timespec) (t : Timeout) : Prop :=
  (0 < t.timeout.tv_sec ∨ 0 < t.timeout.tv_nsec) ∧ t.timeout.ns < now_ts.ns

/-- No deadline passes that was disabled, and none is waited for that is not enabled. -/
def Agrees (s : St) : Action → Prop
  | .visit c => ∀ now_ts, s.now_ts = some now_ts → (s.loop.cbs c).active = true → takesTimeout (s.loop.cbs c) = true →
    Due now_ts (s.timeouts c) → s.deadline c ≠ none
  | .next now_ts => ∀ c ∈ s.callbacks, (s.loop.cbs c).active = true → ∀ d, s.deadline c = some d →
    s.phase_out = true ∨ Heeded s.epl_timeout now_ts (s.callbacks.map s.timeouts) d
  | _ => True

/-! ## All runs -/

/-- What was set last is what is stored. -/
def Stored (s : St) : Prop := ∀ c d, s.deadline c = some d → (s.timeouts c).timeout = d

theorem fire_called {now_ts : Timespec} {cb : Callback} {t : Timeout} :
    (fire now_ts cb t).2 = true ↔ cb.active = true ∧ takesTimeout cb = true ∧ Due now_ts t := by
  unfold fire Due
  simp only [cmp_neg]
  split
  · rename_i h
    rw [Bool.and_eq_true, and_iff_left h]
  · rename_i h
    exact iff_of_false Bool.false_ne_true fun hc => h hc.2.2

theorem punctual_iff {s : St} (hs : Stored s) (a : Action) : Punctual s a ↔ Agrees s a := by
  cases a with
  | visit c =>
    refine forall₂_congr fun now_ts _ => ?_
    rw [fire_called]
    constructor
    · intro h hact htakes hdue hnone
      obtain ⟨d, hd, -⟩ := h ⟨hact, htakes, hdue⟩
      rw [hnone] at hd
      cases hd
    · rintro h ⟨hact, htakes, hdue⟩
      obtain ⟨d, hd⟩ := Option.ne_none_iff_exists'.mp (h hact htakes hdue)
      refine ⟨d, hd, ?_⟩
      rw [← hs c d hd]
      exact hdue.2
  | next now_ts => exact forall₂_congr fun c _ => forall_congr' fun _ => forall₂_congr fun d _ => inTime_iff
  | _ => exact Iff.rfl

theorem stored_update {s : St} (hs : Stored s) {c : CallbackId} {t : Timeout} {o : Option Timespec}
    (h : ∀ d, o = some d → t.timeout = d) (c' : CallbackId) (d : Timespec)
    (hd : Function.update s.deadline c o c' = some d) : (Function.update s.timeouts c t c').timeout = d := by
  by_cases hc : c' = c
  · subst hc
    rw [Function.update_self] at hd ⊢
    exact h d hd
  · rw [Function.update_of_ne hc] at hd ⊢
    exact hs c' d hd

theorem step_stored {s s' : St} {a : Action} (hs : Stored s) (h : step s a = some s') : Stored s' := by
  cases a with
  | loop a =>
    obtain ⟨loop, -, rfl⟩ := Option.map_eq_some_iff.mp h
    exact hs
  | call c call =>
    obtain ⟨-, rfl⟩ := (Option.ite_none_right_eq_some.mp h).imp_right Option.some.inj
    refine stored_update hs fun d hd => ?_
    split at hd
    · cases hd
    · exact Option.some.inj hd
  | phaseOut =>
    cases h
    exact hs
  | begin now_ts | next now_ts =>
    obtain ⟨-, rfl⟩ := (Option.ite_none_right_eq_some.mp h).imp_right Option.some.inj
    exact hs
  | visit c =>
    obtain ⟨now_ts, -, h⟩ := Option.bind_eq_some_iff.mp h
    obtain ⟨-, rfl⟩ := (Option.ite_none_right_eq_some.mp h).imp_right Option.some.inj
    refine stored_update hs fun d hd => ?_
    split at hd
    · rename_i ht
      rw [ht]
      exact hs c d hd
    · cases hd

/-- Every step of a run is on time if and only if every step is taken in a state in which the two loops agree. -/
theorem timeouts_punctual (d : Descriptors) (epl_timeout : Int) (clock : Timespec) (as : List Action) :
    Meets step Punctual as (init d epl_timeout clock) ↔ Meets step Agrees as (init d epl_timeout clock) :=
  meets_congr (fun _ a hs => punctual_iff hs a) (fun _ _ _ hs _ _ h => step_stored hs h) as _
    (fun _ _ h => nomatch h) (meets_true step as _)

def oneCallback : List Action := [.loop (.create 3 0 (CRTX_EVLOOP_READ ||| CRTX_EVLOOP_TIMEOUT)), .loop (.enable 0)]

/-- A deadline that is disabled before it passes, and one that is set by `crtx_evloop_set_timeout`. -/
theorem timeouts_punctual_disabled :
    (¬ Meets step Punctual
      (oneCallback ++ [.call 0 (.set_rel ⟨1, 0, by decide⟩ 1000), .call 0 .disable, .begin ⟨2, 0, by decide⟩, .visit 0])
      (init identity (-1) .zero)) ∧
    ¬ Meets step Punctual (oneCallback ++ [.call 0 (.set ⟨5, 0, by decide⟩), .next ⟨1, 0, by decide⟩])
      (init identity (-1) .zero) := by
  constructor
  · rintro ⟨-, -, -, -, -, h, -⟩
    obtain ⟨d, hd, -⟩ := h _ rfl rfl
    cases hd
  · rintro ⟨-, -, -, h, -⟩
    exact absurd (h 0 (by decide) rfl _ rfl).1 (by decide)

end Libcortex.Timeouts
