import Libcortex.Lib.Checked
import Libcortex.Timeouts

/-!
# The integers behind the timeouts

Deadlines in the types of C. Every operation of `evloop.c` and of the loop of `epoll.c` that computes how long to wait
is checked here, and none of them overflows. What they compute is then what `Timeouts` says.
-/

open Libcortex.Lib

namespace Libcortex.Deadlines

open Timeouts

/-! ## The types -/

/-- `struct timespec`, with any two values in its fields. -/
structure RawTimespec where
  tv_sec : Int
  tv_nsec : Int
deriving DecidableEq

namespace RawTimespec

def ns (ts : RawTimespec) : Int := ts.tv_sec * 1000000000 + ts.tv_nsec

/-- `time_t` can hold the seconds. -/
def Normalised (time_t : IntType) (ts : RawTimespec) : Prop :=
  (0 ≤ ts.tv_sec ∧ ts.tv_sec ≤ time_t.max) ∧ 0 ≤ ts.tv_nsec ∧ ts.tv_nsec < 1000000000

instance (time_t : IntType) (ts : RawTimespec) : Decidable (ts.Normalised time_t) :=
  inferInstanceAs (Decidable ((_ ∧ _) ∧ _ ∧ _))

end RawTimespec

/-- The two widths that the static assertion on `sizeof(time_t)` admits. -/
inductive TimeT where
  | int32
  | int64
deriving DecidableEq

def TimeT.type : TimeT → IntType
  | .int32 => .signed 32
  | .int64 => .signed 64

/-- The width of the platforms where it has less. -/
def long : IntType := .signed 32

def uint64 : IntType := .unsigned 64

/-! ## A deadline from now -/

/-- `now` is the time of `CRTX_DEFAULT_CLOCK`. A sum of a `time_t` and a `uint64_t` is a `uint64_t`, and stored again in
the `time_t`. -/
def crtx_evloop_set_timeout_rel (time_t : TimeT) (now : RawTimespec) (timeout_us : Nat) : Option (Bool × RawTimespec) :=
  let TIME_T_MAX := time_t.type.max
  let timeout_sec : Int := timeout_us / 1000000
  (if TIME_T_MAX ≤ timeout_sec then some TIME_T_MAX
    else if toUnsigned 64 (TIME_T_MAX - timeout_sec) < toUnsigned 64 now.tv_sec then some TIME_T_MAX
    else time_t.type.checked (toUnsigned 64 (now.tv_sec + timeout_sec))).bind fun sec =>
  (long.checked (toUnsigned 64 (now.tv_nsec + timeout_us % 1000000 * 1000))).bind fun nsec =>
  if 1000000000 ≤ nsec then
    (long.checked (nsec - 1000000000)).bind fun nsec =>
    if sec < TIME_T_MAX then (time_t.type.checked (sec + 1)).map fun sec => (true, ⟨sec, nsec⟩)
    else some (true, ⟨sec, nsec⟩)
  else some (true, ⟨sec, nsec⟩)

/-- The deadline is `timeout_us` after `now`, or as late as `time_t` can tell. -/
structure IsDeadline (time_t : TimeT) (now : RawTimespec) (timeout_us : Nat) (ts : RawTimespec) : Prop where
  normalised : ts.Normalised time_t.type
  exact : (now.ns + timeout_us * 1000) / 1000000000 ≤ time_t.type.max → ts.ns = now.ns + timeout_us * 1000
  saturated : time_t.type.max < (now.ns + timeout_us * 1000) / 1000000000 → ts.tv_sec = time_t.type.max

theorem timeT_max (time_t : TimeT) : 2147483647 ≤ time_t.type.max ∧ time_t.type.max ≤ 9223372036854775807 := by
  cases time_t <;> decide

theorem timeT_fits {time_t : TimeT} {x : Int} (h : 0 ≤ x) (hmax : x ≤ time_t.type.max) : time_t.type.Fits x := by
  refine ⟨le_trans ?_ h, hmax⟩
  cases time_t <;> decide

theorem long_fits {x : Int} (h : 0 ≤ x) (hmax : x < 2000000000) : long.Fits x := by
  have hmin : long.min = -2147483648 := by decide
  have hmax : long.max = 2147483647 := by decide
  exact ⟨by omega, by omega⟩

theorem deadline_sec {time_t : TimeT} {now : RawTimespec} (hnow : now.Normalised time_t.type) (timeout_sec : Int) 
    (hsec : 0 ≤ timeout_sec) :
    (if time_t.type.max ≤ timeout_sec then some time_t.type.max
      else if toUnsigned 64 (time_t.type.max - timeout_sec) < toUnsigned 64 now.tv_sec then some time_t.type.max
      else time_t.type.checked (toUnsigned 64 (now.tv_sec + timeout_sec))) =
      some (min (now.tv_sec + timeout_sec) time_t.type.max) := by
  obtain ⟨⟨hnonneg, hle⟩, -⟩ := hnow
  have hmax := (timeT_max time_t).2
  have hunsigned : ∀ x : Int, 0 ≤ x → x ≤ time_t.type.max → toUnsigned 64 x = x := fun x h0 h1 =>
    toUnsigned_eq h0 (by omega)
  split
  · rw [min_eq_right (by omega)]
  · rename_i hsmall
    rw [hunsigned _ (by omega) (by omega), hunsigned _ hnonneg hle]
    split
    · rw [min_eq_right (by omega)]
    · rw [hunsigned _ (by omega) (by omega), min_eq_left (by omega), IntType.checked_eq]
      exact timeT_fits (by omega) (by omega)

theorem deadline_nsec {time_t : TimeT} {now : RawTimespec} (hnow : now.Normalised time_t.type) (timeout_us : Nat) :
    long.checked (toUnsigned 64 (now.tv_nsec + timeout_us % 1000000 * 1000)) =
      some (now.tv_nsec + timeout_us % 1000000 * 1000) := by
  obtain ⟨-, hnonneg, hlt⟩ := hnow
  rw [toUnsigned_eq (by omega) (by omega), IntType.checked_eq]
  exact long_fits (by omega) (by omega)

theorem isDeadline_of {time_t : TimeT} {now : RawTimespec} {timeout_us : Nat} {sec nsec : Int}
    (hsec : 0 ≤ sec ∧ sec ≤ time_t.type.max) (hnsec : 0 ≤ nsec ∧ nsec < 1000000000)
    (h : sec * 1000000000 + nsec = now.ns + timeout_us * 1000 ∨
      sec = time_t.type.max ∧ time_t.type.max < (now.ns + timeout_us * 1000) / 1000000000) :
    IsDeadline time_t now timeout_us ⟨sec, nsec⟩ := by
  refine ⟨⟨hsec, hnsec⟩, fun hfits => ?_, fun hlate => ?_⟩
  · exact h.resolve_right fun hs => absurd hs.2 (by omega)
  · rcases h with h | h
    · omega
    · exact h.1

/-- In both widths no addition overflows, and the deadline is the one that was asked for. -/
theorem set_timeout_rel_deadline {time_t : TimeT} {now : RawTimespec} (hnow : now.Normalised time_t.type)
    (timeout_us : Nat) :
    ∃ ts, crtx_evloop_set_timeout_rel time_t now timeout_us = some (true, ts) ∧
      IsDeadline time_t now timeout_us ts := by
  unfold crtx_evloop_set_timeout_rel
  dsimp only
  rw [deadline_sec hnow _ (by omega), Option.bind_some, deadline_nsec hnow, Option.bind_some]
  obtain ⟨⟨hsec, hsecmax⟩, hnsec, hnseclt⟩ := hnow
  have hmax := (timeT_max time_t).1
  have hns : now.ns = now.tv_sec * 1000000000 + now.tv_nsec := rfl
  split
  · rw [IntType.checked_bind (long_fits (by omega) (by omega))]
    split
    · rw [IntType.checked_eq (timeT_fits (by omega) (by omega)), Option.map_some]
      exact ⟨_, rfl, isDeadline_of ⟨by omega, by omega⟩ ⟨by omega, by omega⟩ (.inl (by omega))⟩
    · exact ⟨_, rfl, isDeadline_of ⟨by omega, by omega⟩ ⟨by omega, by omega⟩ (.inr ⟨by omega, by omega⟩)⟩
  · exact ⟨_, rfl, isDeadline_of ⟨by omega, by omega⟩ ⟨by omega, by omega⟩ (by omega)⟩

/-- A carry in the last second. -/
theorem set_timeout_rel_deadline_last :
    ∃ ts, crtx_evloop_set_timeout_rel .int32 ⟨2147483646, 999999999⟩ 1000001 = some (true, ts) ∧
      IsDeadline .int32 ⟨2147483646, 999999999⟩ 1000001 ts :=
  set_timeout_rel_deadline (by decide) 1000001

def RawTimespec.of (ts : Nat × Nat) : RawTimespec := ⟨ts.1, ts.2⟩

theorem of_normalised {ts : Timespec} (h : ts.tv_sec ≤ TIME_T_MAX) :
    (RawTimespec.of ts.raw).Normalised TimeT.int64.type := by
  have hmax : TimeT.int64.type.max = (TIME_T_MAX : Int) := by decide
  have hlt := ts.nsec_lt
  unfold RawTimespec.Normalised RawTimespec.of Timespec.raw
  dsimp only
  omega

theorem set_timeout_rel_int64 {now : Timespec} (hnow : now.tv_sec ≤ TIME_T_MAX) (timeout_us : Nat) :
    crtx_evloop_set_timeout_rel .int64 (.of now.raw) timeout_us =
      some (true, .of (Timeouts.crtx_evloop_set_timeout_rel now timeout_us).timeout.raw) := by
  unfold crtx_evloop_set_timeout_rel Timeouts.crtx_evloop_set_timeout_rel
  dsimp only
  rw [deadline_sec (of_normalised hnow) _ (by omega), Option.bind_some, deadline_nsec (of_normalised hnow),
    Option.bind_some]
  have hmax : TimeT.int64.type.max = (TIME_T_MAX : Int) := by decide
  have hlt := now.nsec_lt
  have hsec : min ((RawTimespec.of now.raw).tv_sec + timeout_us / 1000000) TimeT.int64.type.max =
      ((if TIME_T_MAX ≤ timeout_us / 1000000 ∨ TIME_T_MAX - timeout_us / 1000000 < now.tv_sec then TIME_T_MAX
        else now.tv_sec + timeout_us / 1000000 : Nat) : Int) := by
    rw [hmax]
    unfold RawTimespec.of Timespec.raw
    dsimp only
    split <;> omega
  rw [hsec, hmax]
  generalize (if TIME_T_MAX ≤ timeout_us / 1000000 ∨ TIME_T_MAX - timeout_us / 1000000 < now.tv_sec then TIME_T_MAX
    else now.tv_sec + timeout_us / 1000000) = sec
  have hnsec : (RawTimespec.of now.raw).tv_nsec + timeout_us % 1000000 * 1000 =
      ((now.tv_nsec + timeout_us % 1000000 * 1000 : Nat) : Int) := by
    unfold RawTimespec.of Timespec.raw
    dsimp only
    omega
  rw [hnsec]
  by_cases hcarry : 1000000000 ≤ now.tv_nsec + timeout_us % 1000000 * 1000
  · rw [if_pos (by omega), dif_pos hcarry, IntType.checked_bind (long_fits (by omega) (by omega))]
    by_cases hlast : sec < TIME_T_MAX
    · rw [if_pos (by omega), if_pos hlast, IntType.checked_eq (timeT_fits (by omega) (by omega)), Option.map_some]
      simp only [RawTimespec.of, Timespec.raw, Option.some.injEq, Prod.mk.injEq, RawTimespec.mk.injEq, true_and]
      omega
    · rw [if_neg (by omega), if_neg hlast]
      simp only [RawTimespec.of, Timespec.raw, Option.some.injEq, Prod.mk.injEq, RawTimespec.mk.injEq, true_and]
      omega
  · rw [if_neg (by omega), dif_neg hcarry]
    rfl

/-! ## How long to wait -/

def cmpChecked (ts1 ts2 : RawTimespec) : Option Int :=
  (TimeT.int64.type.checked (ts1.tv_sec - ts2.tv_sec)).bind fun sec =>
  if sec ≠ 0 then some sec else long.checked (ts1.tv_nsec - ts2.tv_nsec)

def timespec2uint64Checked (ts : RawTimespec) : Option Int :=
  (uint64.checked (ts.tv_sec * 1000000000)).bind fun ns => uint64.checked (ns + ts.tv_nsec)

def thenChecked (now_ts : RawTimespec) (timeout : Int) : Option RawTimespec :=
  (TimeT.int64.type.checked (now_ts.tv_sec + timeout / 1000000000)).bind fun sec =>
  (long.checked (now_ts.tv_nsec + timeout % 1000000000)).bind fun nsec =>
  if 1000000000 < nsec then
    (long.checked (nsec - 1000000000)).bind fun nsec =>
    (TimeT.int64.type.checked (sec + 1)).map fun sec => ⟨sec, nsec⟩
  else some ⟨sec, nsec⟩

/-- `now` is `now_ts` as a `uint64_t`. -/
def nextChecked (now_ts : RawTimespec) (now : Int) (acc : Int × Bool) (t : Timeout) : Option (Int × Bool) :=
  if acc.1 = 0 then some acc
  else if t.timeout_enabled = false then some acc
  else
    (cmpChecked (.of t.timeout.raw) now_ts).bind fun past =>
    if past ≤ 0 then some (0, true)
    else
      (thenChecked now_ts acc.1).bind fun then_ts =>
      (cmpChecked (.of t.timeout.raw) then_ts).bind fun earlier =>
      if earlier < 0 then
        (cmpChecked (.of max_ts.raw) (.of t.timeout.raw)).bind fun years =>
        if years < 0 then (uint64.checked (1000000000 * 1000000000)).map (·, true)
        else (timespec2uint64Checked (.of t.timeout.raw)).bind fun deadline =>
          (uint64.checked (deadline - now)).map (·, true)
      else some acc

/-- `timeout` becomes an `int`. -/
def msChecked (timeout : Int) : Option Int :=
  ((IntType.signed 32).checked (if INT32_MAX < timeout / 1000000 then INT32_MAX else timeout / 1000000)).map fun ms =>
    if ms = 0 then 1 else ms

/-- `epoll_timeout_ms` with every operation checked. -/
def epollTimeoutChecked (epl_timeout : Int) (phase_out : Bool) (now_ts : Timespec) (ts : List Timeout) : Option Int :=
  (timespec2uint64Checked (.of now_ts.raw)).bind fun now =>
  (ts.foldlM (nextChecked (.of now_ts.raw) now) ((initialTimeout epl_timeout : Int), false)).bind fun r =>
  (if r.2 then msChecked r.1 else some epl_timeout).map fun ms => if phase_out then 0 else ms

/-- The largest wait that the loop ever has. -/
def Bounded (acc : Nat × Bool) : Prop := acc.1 ≤ UINT64_MAX

theorem time_fits {x : Int} (h : -9223372036854775808 ≤ x) (hmax : x ≤ 9223372036854775807) :
    TimeT.int64.type.Fits x := ⟨h, hmax⟩

theorem uint64_fits {x : Int} (h : 0 ≤ x) (hmax : x ≤ 18446744073709551615) : uint64.Fits x := ⟨h, hmax⟩

theorem cmpChecked_eq {p q : Nat × Nat} (hp : p.1 ≤ TIME_T_MAX) (hq : q.1 ≤ TIME_T_MAX) (hp' : p.2 ≤ 1000000000)
    (hq' : q.2 ≤ 1000000000) : cmpChecked (.of p) (.of q) = some (CRTX_CMP_TIMESPEC p q) := by
  have hmax : TIME_T_MAX = 9223372036854775807 := rfl
  unfold cmpChecked CRTX_CMP_TIMESPEC RawTimespec.of
  dsimp only
  rw [IntType.checked_bind (time_fits (by omega) (by omega))]
  split
  · rfl
  · rw [IntType.checked_eq ⟨by change (-2147483648 : Int) ≤ _; omega, by change _ ≤ (2147483647 : Int); omega⟩]
    split <;> simp_all

theorem timespec2uint64Checked_eq {ts : Timespec} (h : ts.ns ≤ UINT64_MAX) :
    timespec2uint64Checked (.of ts.raw) = some (ts.ns : Int) := by
  have hmax : UINT64_MAX = 18446744073709551615 := rfl
  have hns : ts.ns = ts.tv_sec * 1000000000 + ts.tv_nsec := rfl
  unfold timespec2uint64Checked RawTimespec.of Timespec.raw
  dsimp only
  rw [IntType.checked_bind (uint64_fits (by omega) (by omega)), IntType.checked_eq (uint64_fits (by omega) (by omega)),
    hns]
  simp

theorem thenChecked_eq {now_ts : Timespec} {timeout : Nat} (hnow : now_ts.tv_sec ≤ 1000000000)
    (h : timeout ≤ UINT64_MAX) :
    thenChecked (.of now_ts.raw) timeout = some (.of (then_ts now_ts timeout)) := by
  have hmax : UINT64_MAX = 18446744073709551615 := rfl
  have hlt := now_ts.nsec_lt
  unfold thenChecked then_ts RawTimespec.of Timespec.raw
  dsimp only
  rw [IntType.checked_bind (time_fits (by omega) (by omega)), IntType.checked_bind (long_fits (by omega) (by omega))]
  by_cases hcarry : 1000000000 < now_ts.tv_nsec + timeout % 1000000000
  · rw [if_pos (by omega), if_pos hcarry, IntType.checked_bind (long_fits (by omega) (by omega)),
      IntType.checked_eq (time_fits (by omega) (by omega)), Option.map_some]
    simp only [Option.some.injEq, RawTimespec.mk.injEq]
    omega
  · rw [if_neg (by omega), if_neg hcarry]
    simp

theorem then_ts_bounds {now_ts : Timespec} {timeout : Nat} (hnow : now_ts.tv_sec ≤ 1000000000)
    (h : timeout ≤ UINT64_MAX) : (then_ts now_ts timeout).1 ≤ TIME_T_MAX ∧ (then_ts now_ts timeout).2 ≤ 1000000000 := by
  have hmax : UINT64_MAX = 18446744073709551615 := rfl
  have hmax' : TIME_T_MAX = 9223372036854775807 := rfl
  have hlt := now_ts.nsec_lt
  unfold then_ts
  dsimp only
  split
  · dsimp only
    omega
  · dsimp only
    omega

theorem cmpChecked_of {ts ts' : Timespec} (h : ts.tv_sec ≤ TIME_T_MAX) (h' : ts'.tv_sec ≤ TIME_T_MAX) :
    cmpChecked (.of ts.raw) (.of ts'.raw) = some (CRTX_CMP_TIMESPEC ts.raw ts'.raw) :=
  cmpChecked_eq (p := ts.raw) (q := ts'.raw) h h' ts.nsec_lt.le ts'.nsec_lt.le

theorem nextChecked_eq {now_ts : Timespec} {t : Timeout} {acc : Nat × Bool} (hnow : now_ts.tv_sec ≤ 1000000000)
    (ht : t.timeout.tv_sec ≤ TIME_T_MAX) (hacc : Bounded acc) :
    nextChecked (.of now_ts.raw) now_ts.ns ((acc.1 : Int), acc.2) t =
        some (((nextTimeout now_ts acc t).1 : Int), (nextTimeout now_ts acc t).2) ∧
      Bounded (nextTimeout now_ts acc t) := by
  have hmax : max_ts.ns = 1000000000999999999 := rfl
  have hnow' : now_ts.tv_sec ≤ TIME_T_MAX := hnow.trans (by decide)
  obtain ⟨hthen, hthen'⟩ := then_ts_bounds hnow hacc
  unfold nextChecked nextTimeout
  dsimp only
  rw [cmpChecked_of ht hnow', Option.bind_some, thenChecked_eq hnow hacc, Option.bind_some,
    cmpChecked_eq (p := t.timeout.raw) ht hthen t.timeout.nsec_lt.le hthen', Option.bind_some,
    cmpChecked_of (show max_ts.tv_sec ≤ TIME_T_MAX by decide) ht, Option.bind_some]
  simp only [Int.natCast_eq_zero]
  by_cases hz : acc.1 = 0
  · simp [hz, Bounded]
  by_cases he : t.timeout_enabled = false
  · simp only [if_neg hz, if_pos he]
    exact ⟨trivial, hacc⟩
  by_cases hpast : CRTX_CMP_TIMESPEC t.timeout.raw now_ts.raw ≤ 0
  · simp [hz, he, hpast, Bounded]
  by_cases hearlier : CRTX_CMP_TIMESPEC t.timeout.raw (then_ts now_ts acc.1) < 0
  · by_cases hyears : CRTX_CMP_TIMESPEC max_ts.raw t.timeout.raw < 0
    · simp only [if_neg hz, if_neg he, if_neg hpast, if_pos hearlier, if_pos hyears]
      refine ⟨rfl, ?_⟩
      unfold Bounded
      decide
    · have hlater : now_ts.ns < t.timeout.ns := Nat.lt_of_not_le fun h => hpast (cmp_nonpos.mpr h)
      have hle : t.timeout.ns ≤ max_ts.ns := Nat.le_of_not_lt fun h => hyears (cmp_neg.mpr h)
      simp only [if_neg hz, if_neg he, if_neg hpast, if_pos hearlier, if_neg hyears]
      rw [timespec2uint64_sub hlater hle, timespec2uint64Checked_eq (hle.trans (by decide)), Option.bind_some,
        IntType.checked_eq (uint64_fits (by omega) (by omega)), Option.map_some, Int.natCast_sub hlater.le]
      refine ⟨rfl, ?_⟩
      have hUINT64_MAX : UINT64_MAX = 18446744073709551615 := rfl
      unfold Bounded
      dsimp only
      omega
  · simp only [if_neg hz, if_neg he, if_neg hpast, if_neg hearlier]
    exact ⟨trivial, hacc⟩

theorem msChecked_eq (timeout : Nat) : msChecked timeout = some (toMs timeout : Int) := by
  have hmax : INT32_MAX = 2147483647 := rfl
  unfold msChecked toMs
  dsimp only
  by_cases hlong : INT32_MAX < timeout / 1000000
  · rw [if_pos (by omega), if_pos hlong]
    rfl
  · rw [if_neg (by omega), if_neg hlong, IntType.checked_eq, Option.map_some]
    · rw [Option.some.injEq]
      split <;> split <;> omega
    · exact ⟨by change (-2147483648 : Int) ≤ _; omega, by change _ ≤ (2147483647 : Int); omega⟩

theorem epollTimeoutChecked_eq {now_ts : Timespec} {ts : List Timeout} (hnow : now_ts.tv_sec ≤ 1000000000)
    (hts : ∀ t ∈ ts, t.timeout.tv_sec ≤ TIME_T_MAX) {epl_timeout : Int} (hmax : epl_timeout ≤ INT32_MAX)
    (phase_out : Bool) :
    epollTimeoutChecked epl_timeout phase_out now_ts ts = some (epoll_timeout_ms epl_timeout phase_out now_ts ts) := by
  have hINT32_MAX : INT32_MAX = 2147483647 := rfl
  have hUINT64_MAX : UINT64_MAX = 18446744073709551615 := rfl
  have hns : now_ts.ns ≤ UINT64_MAX := by
    have hlt := now_ts.nsec_lt
    unfold Timespec.ns
    omega
  have hlimit : Bounded (initialTimeout epl_timeout, false) := by
    unfold Bounded initialTimeout
    dsimp only
    split <;> omega
  have hfold := foldlM_eq (f := nextChecked (.of now_ts.raw) now_ts.ns) (g := nextTimeout now_ts)
    (r := fun acc => ((acc.1 : Int), acc.2)) (fun acc hacc t ht => nextChecked_eq hnow (hts t ht) hacc) hlimit
  unfold epollTimeoutChecked epoll_timeout_ms
  rw [timespec2uint64Checked_eq hns, Option.bind_some, hfold, Option.bind_some]
  dsimp only
  by_cases hset : (ts.foldl (nextTimeout now_ts) (initialTimeout epl_timeout, false)).2 = true
  · simp only [if_pos hset]
    rw [msChecked_eq, Option.map_some]
  · simp only [if_neg hset]
    rw [Option.map_some]

/-! ## The earliest deadline -/

def enabledDeadlines (ts : List Timeout) : List Nat := (ts.filter (·.timeout_enabled)).map (·.timeout.ns)

def earliest (ts : List Timeout) : Option Nat := (enabledDeadlines ts).min?

theorem mem_enabledDeadlines {ts : List Timeout} {d : Nat} :
    d ∈ enabledDeadlines ts ↔ ∃ t ∈ ts, t.timeout_enabled = true ∧ t.timeout.ns = d := by
  simp [enabledDeadlines, and_assoc]

theorem earliest_eq_some {ts : List Timeout} {d : Nat} :
    earliest ts = some d ↔
      (∃ t ∈ ts, t.timeout_enabled = true ∧ t.timeout.ns = d) ∧
        ∀ t ∈ ts, t.timeout_enabled = true → d ≤ t.timeout.ns := by
  unfold earliest
  rw [List.min?_eq_some_iff, mem_enabledDeadlines]
  refine and_congr_right fun _ => ⟨fun h t ht he => h _ (mem_enabledDeadlines.mpr ⟨t, ht, he, rfl⟩), ?_⟩
  intro h b hb
  obtain ⟨t, ht, he, rfl⟩ := mem_enabledDeadlines.mp hb
  exact h t ht he

theorem earliest_eq_none {ts : List Timeout} : earliest ts = none ↔ ∀ t ∈ ts, t.timeout_enabled = false := by
  simp [earliest, enabledDeadlines, List.min?_eq_none_iff]

theorem exists_earliest {ts : List Timeout} {t : Timeout} (ht : t ∈ ts) (he : t.timeout_enabled = true) :
    ∃ d, earliest ts = some d ∧ d ≤ t.timeout.ns := by
  cases h : earliest ts with
  | none =>
    have := earliest_eq_none.mp h t ht
    rw [he] at this
    cases this
  | some d => exact ⟨d, rfl, (earliest_eq_some.mp h).2 t ht he⟩

theorem scanned_earliest {limit d : Nat} {now_ts : Timespec} {ts : List Timeout} {acc : Nat × Bool}
    (h : Scanned limit now_ts ts acc) (hd : earliest ts = some d) (hlimit : limit ≠ 0) (hlt : d < now_ts.ns + limit) :
    ∃ t ∈ ts, t.timeout_enabled = true ∧ d ≤ t.timeout.ns ∧ acc = (wait now_ts t.timeout, true) ∧
      ∃ e ∈ ts, e.timeout.ns = d ∧ toMs (wait now_ts t.timeout) ≤ toMs (wait now_ts e.timeout) := by
  obtain ⟨⟨e, he, hen, rfl⟩, hle⟩ := earliest_eq_some.mp hd
  have hs : Shortens now_ts limit e := ⟨hen, hlimit, hlt⟩
  cases h with
  | none h => exact absurd hs (h e he)
  | some t ht hst h => exact ⟨t, ht, hst.1, hle t ht hst.1, rfl, e, he, rfl, toMs_mono (h e he hs)⟩

theorem scanned_late {limit : Nat} {now_ts : Timespec} {ts : List Timeout} {acc : Nat × Bool}
    (h : Scanned limit now_ts ts acc) (hlate : ∀ d, earliest ts = some d → limit = 0 ∨ now_ts.ns + limit ≤ d) :
    acc = (limit, false) := by
  cases h with
  | none h => rfl
  | some t ht hs h =>
    obtain ⟨d, hd, hle⟩ := exists_earliest ht hs.1
    obtain ⟨-, hz, hlt⟩ := hs
    have := hlate d hd
    omega

/-! ## The default: no limit -/

/-- What `epoll_wait` gets, for the earliest of the deadlines that are enabled. One that is 584 years ahead does not
count. -/
structure Sleeps (epl_timeout : Int) (now_ts : Timespec) (ts : List Timeout) (ms : Int) : Prop where
  bounded : ∀ d, earliest ts = some d → d < now_ts.ns + UINT64_MAX →
    1 ≤ ms ∧ ms * 1000000 ≤ max 1000000 (min ((INT32_MAX : Int) * 1000000) ((d : Int) - now_ts.ns))
  exact : ∀ d, earliest ts = some d → (∀ t ∈ ts, t.timeout_enabled = true → t.timeout.tv_sec < 1000000000) →
    ms = max 1 (min (INT32_MAX : Int) (((d : Int) - now_ts.ns) / 1000000))
  unlimited : earliest ts = none → ms = epl_timeout

theorem toMs_le {a : Nat} {b : Int} (h : a ≤ max b 0 ∨ (INT32_MAX : Int) * 1000000 ≤ b) :
    (toMs a * 1000000 : Int) ≤ max 1000000 (min ((INT32_MAX : Int) * 1000000) b) := by
  have hINT32_MAX : INT32_MAX = 2147483647 := rfl
  rw [toMs_eq]
  omega

theorem toMs_le_max (a : Nat) : toMs a ≤ max 1 (a / 1000000) := by
  rw [toMs_eq]
  exact max_le_max_left _ (min_le_left ..)

theorem one_le_toMs (a : Nat) : (1 : Int) ≤ toMs a := by
  rw [toMs_eq]
  omega

theorem toMs_wait {now_ts deadline : Timespec} (hnow : now_ts.tv_sec ≤ 1000000000 - 2147484) :
    (toMs (wait now_ts deadline) * 1000000 : Int) ≤
      max 1000000 (min ((INT32_MAX : Int) * 1000000) ((deadline.ns : Int) - now_ts.ns)) := by
  apply toMs_le
  unfold wait
  split
  · exact .inl (le_max_right ..)
  · split
    · rename_i hlate
      have hlt := now_ts.nsec_lt
      have hns : now_ts.ns = now_ts.tv_sec * 1000000000 + now_ts.tv_nsec := rfl
      have hmax : max_ts.ns = 1000000000999999999 := rfl
      have hINT32_MAX : INT32_MAX = 2147483647 := rfl
      exact .inr (by omega)
    · exact .inl (by omega)

theorem toMs_wait_eq (now_ts : Timespec) {deadline : Timespec} (h : deadline.ns ≤ max_ts.ns) :
    (toMs (wait now_ts deadline) : Int) =
      max 1 (min (INT32_MAX : Int) (((deadline.ns : Int) - now_ts.ns) / 1000000)) := by
  have hINT32_MAX : INT32_MAX = 2147483647 := rfl
  rw [toMs_eq]
  unfold wait
  rw [if_neg (Nat.not_lt.mpr h)]
  clear h
  split <;> omega

/-- The wait is as long as the earliest deadline allows, and no operation on the way overflows. -/
theorem sleeps_default {epl_timeout : Int} (hdefault : epl_timeout < 0) {now_ts : Timespec}
    (hnow : now_ts.tv_sec ≤ 1000000000 - 2147484) {ts : List Timeout}
    (hts : ∀ t ∈ ts, t.timeout.tv_sec ≤ TIME_T_MAX) :
    ∃ ms, epollTimeoutChecked epl_timeout false now_ts ts = some ms ∧ Sleeps epl_timeout now_ts ts ms := by
  have hINT32_MAX : INT32_MAX = 2147483647 := rfl
  have hlimit : initialTimeout epl_timeout = UINT64_MAX := if_neg (Int.not_le.mpr hdefault)
  have hr := fold_scanned (initialTimeout epl_timeout) now_ts ts
  refine ⟨_, epollTimeoutChecked_eq (by omega) hts (by omega) false, ?_⟩
  unfold epoll_timeout_ms
  dsimp only
  rw [if_neg Bool.false_ne_true]
  generalize ts.foldl (nextTimeout now_ts) (initialTimeout epl_timeout, false) = acc at hr ⊢
  rw [hlimit] at hr
  constructor
  · intro d hd hlt
    obtain ⟨t, ht, hen, hdt, rfl, e, he, rfl, hle⟩ := scanned_earliest hr hd (by decide) hlt
    rw [if_pos rfl]
    refine ⟨one_le_toMs _, le_trans ?_ (toMs_wait hnow)⟩
    exact Int.mul_le_mul_of_nonneg_right (Int.ofNat_le.mpr hle) (by decide)
  · intro d hd hsec
    have hns : ∀ t : Timeout, t.timeout.tv_sec < 1000000000 → t.timeout.ns ≤ max_ts.ns := by
      intro t ht
      have hmax : max_ts.ns = 1000000000999999999 := rfl
      have hlt := t.timeout.nsec_lt
      unfold Timespec.ns at *
      omega
    have hlt : d < now_ts.ns + UINT64_MAX := by
      obtain ⟨⟨t, ht, hen, rfl⟩, -⟩ := earliest_eq_some.mp hd
      have hmax : max_ts.ns < UINT64_MAX := by decide
      have := hns t (hsec t ht hen)
      omega
    obtain ⟨t, ht, hen, hdt, rfl, e, he, rfl, hle⟩ := scanned_earliest hr hd (by decide) hlt
    rw [if_pos rfl]
    have hwait := toMs_wait_eq now_ts (hns t (hsec t ht hen))
    have hleast := toMs_wait_eq now_ts (hdt.trans (hns t (hsec t ht hen)))
    rw [← hleast]
    refine le_antisymm (Int.ofNat_le.mpr hle) ?_
    rw [hwait, hleast]
    exact max_le_max_left _ (min_le_min_left _ (Int.ediv_le_ediv (by decide) (by omega)))
  · intro hnone
    rw [scanned_late hr fun d hd => by rw [hnone] at hd; cases hd]
    exact if_neg Bool.false_ne_true

def atMs (ms : Nat) : Timespec := ⟨ms / 1000, ms % 1000 * 1000000, by omega⟩

/-- A deadline in three milliseconds, and one in two seconds that is disabled. -/
theorem sleeps_default_two :
    ∃ ms, epollTimeoutChecked (-1) false (atMs 5999) [⟨true, atMs 6002⟩, ⟨false, atMs 7999⟩] = some ms ∧
      Sleeps (-1) (atMs 5999) [⟨true, atMs 6002⟩, ⟨false, atMs 7999⟩] ms :=
  sleeps_default (by decide) (by decide) (by decide)

/-! ## With a limit -/

/-- The wait is not longer than the limit, and ends with the earliest deadline. -/
def Capped (epl_timeout : Int) (now_ts : Timespec) (ts : List Timeout) (ms : Int) : Prop :=
  (ms ≤ if epl_timeout = 0 ∧ earliest ts ≠ none then 1 else epl_timeout) ∧
    ∀ d, earliest ts = some d → ms * 1000000 ≤ max 1000000 ((d : Int) - now_ts.ns)

/-- The limit of `epl_timeout` milliseconds is compared as nanoseconds. Beyond them the earliest deadline has to be
beyond the milliseconds as well. -/
def CapFits (epl_timeout : Int) (phase_out : Bool) (now_ts : Timespec) (ts : List Timeout) : Prop :=
  phase_out = true ∨ epl_timeout = 0 ∨ ∀ d, earliest ts = some d → now_ts.ns < d →
    if (d : Int) < now_ts.ns + epl_timeout then d ≤ max_ts.ns
    else epl_timeout = 1 ∨ now_ts.ns + epl_timeout * 1000000 ≤ d

theorem capped_iff {limit d : Nat} {now_ts : Timespec} {ts : List Timeout} {ms : Int} (hz : limit ≠ 0)
    (hd : earliest ts = some d) :
    Capped limit now_ts ts ms ↔ ms ≤ limit ∧ ms * 1000000 ≤ max 1000000 ((d : Int) - now_ts.ns) := by
  unfold Capped
  rw [if_neg (by omega), hd]
  simp

theorem capped_soon {limit d : Nat} {now_ts : Timespec} {ts : List Timeout} {acc : Nat × Bool}
    (h : Scanned limit now_ts ts acc) (hd : earliest ts = some d) (hz : limit ≠ 0) (hmax : limit ≤ INT32_MAX)
    (hlt : d < now_ts.ns + limit) :
    Capped limit now_ts ts (if acc.2 then toMs acc.1 else limit) ↔ (now_ts.ns < d → d ≤ max_ts.ns) := by
  have hINT32_MAX : INT32_MAX = 2147483647 := rfl
  obtain ⟨t, ht, hen, hdt, rfl, e, he, rfl, hle⟩ := scanned_earliest h hd hz hlt
  rw [capped_iff hz hd, if_pos rfl]
  constructor
  · rintro ⟨-, hms⟩ hfuture
    by_contra hfar
    have hwait : wait now_ts t.timeout = 1000000000 * 1000000000 := by
      unfold wait
      rw [if_neg (by omega), if_pos (by omega)]
    have hlong : toMs (wait now_ts t.timeout) = 2147483647 := by
      rw [hwait]
      rfl
    rw [hlong] at hms
    clear hwait hfar
    omega
  · intro hnear
    have hwait : wait now_ts e.timeout ≤ e.timeout.ns - now_ts.ns := by
      unfold wait
      split
      · omega
      · rw [if_neg (by omega)]
    have hms := toMs_le_max (wait now_ts e.timeout)
    clear hnear hmax hINT32_MAX
    dsimp only
    omega

theorem capped_late {limit d : Nat} {now_ts : Timespec} {ts : List Timeout} (hd : earliest ts = some d) (hz : limit ≠ 0)
    (hle : now_ts.ns + limit ≤ d) :
    Capped limit now_ts ts limit ↔ limit = 1 ∨ now_ts.ns + limit * 1000000 ≤ d := by
  rw [capped_iff hz hd]
  omega

/-- The limit is kept, and the earliest deadline, if and only if the limit is no nearer as milliseconds than as
nanoseconds. -/
theorem epoll_timeout_capped {epl_timeout : Int} (h0 : 0 ≤ epl_timeout) (hmax : epl_timeout ≤ INT32_MAX)
    (phase_out : Bool) (now_ts : Timespec) (ts : List Timeout) :
    Capped epl_timeout now_ts ts (epoll_timeout_ms epl_timeout phase_out now_ts ts) ↔
      CapFits epl_timeout phase_out now_ts ts := by
  obtain ⟨limit, rfl⟩ := Int.eq_ofNat_of_zero_le h0
  have hr := fold_scanned limit now_ts ts
  have hlimit : initialTimeout limit = limit := if_pos h0
  unfold epoll_timeout_ms CapFits
  dsimp only
  rw [hlimit]
  generalize ts.foldl (nextTimeout now_ts) (limit, false) = acc at hr ⊢
  by_cases hphase : phase_out = true
  · rw [if_pos hphase]
    refine iff_of_true ⟨?_, fun d _ => by omega⟩ (.inl hphase)
    split <;> omega
  rw [if_neg hphase, or_iff_right hphase]
  by_cases hz : limit = 0
  · rw [scanned_late hr fun d _ => .inl hz, if_neg Bool.false_ne_true]
    refine iff_of_true ⟨?_, fun d _ => by omega⟩ (.inl (by omega))
    split <;> omega
  rw [or_iff_right (by omega)]
  cases hd : earliest ts with
  | none =>
    rw [scanned_late hr fun d h => by rw [hd] at h; cases h]
    simp [Capped, hd]
  | some d =>
    simp only [Option.some.injEq, forall_eq']
    by_cases hlt : d < now_ts.ns + limit
    · rw [capped_soon hr hd hz (by omega) hlt, if_pos (by omega)]
    · have hle := Nat.le_of_not_lt hlt
      rw [scanned_late hr fun d' h => .inr (Option.some.inj (hd.symm.trans h) ▸ hle), if_neg Bool.false_ne_true,
        capped_late hd hz hle, if_neg (by omega)]
      omega

theorem epoll_timeout_capped_later :
    Capped 1000 .zero [⟨true, atMs 3000⟩] (epoll_timeout_ms 1000 false .zero [⟨true, atMs 3000⟩]) ↔
      CapFits 1000 false .zero [⟨true, atMs 3000⟩] :=
  epoll_timeout_capped (by decide) (by decide) false .zero _

/-- A limit of a second, and a deadline after five milliseconds. -/
theorem epoll_timeout_capped_second :
    ¬ Capped 1000 .zero [⟨true, atMs 5⟩] (epoll_timeout_ms 1000 false .zero [⟨true, atMs 5⟩]) :=
  fun h => absurd (h.2 5000000 rfl) (by decide)

end Libcortex.Deadlines
