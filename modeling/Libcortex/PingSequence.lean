import Libcortex.Ping

/-!
# The sequence numbers of pings

`packets_sent` has 16 bits. The number of a request is its value before it is incremented, and an answer is
compared with its value after that, less one, as integers. This adds the round-trip time to `Ping`. It is computed from
`sent_ts`, which any reply to the listener sets to zero.
-/

open Libcortex.Lib Libcortex.Ping

namespace Libcortex.PingSequence

/-! ## The code -/

/-- `last_rt_time`: zero, or what is computed from the seconds and nanoseconds between two times. -/
inductive RtTime where
  | zero
  | difference (tv_sec tv_nsec : Int)
deriving DecidableEq, Repr

/-- `sent` is history: how many packets were sent. -/
structure State where
  lstnr : PingListener
  last_rt_time : RtTime
  sent : Nat

def rtTime (arrived sent : Timespec) : RtTime :=
  .difference (arrived.tv_sec - sent.tv_sec) (arrived.tv_nsec - sent.tv_nsec)

/-- `stamp` is the time of arrival, unless the `ioctl` fails. The round-trip time is computed for a reply before
`sent_ts` is cleared. -/
def fd_event_handler (s : State) (d : Datagram) (stamp : Option Timespec) (rv : Int) : State :=
  let ts := stamp.getD .zero
  { s with
    lstnr := Ping.fd_event_handler s.lstnr d rv
    last_rt_time :=
      if ValidAt ipLen d ∧ icmpType ipLen d = ICMP_ECHOREPLY ∧ echoId ipLen d = s.lstnr.echo_id then
        if ((echoSequence ipLen d).toNat : Int) = (s.lstnr.packets_sent.toNat : Int) - 1 ∧
            (ts.tv_sec ≠ 0 ∨ ts.tv_nsec ≠ 0)
        then rtTime ts s.lstnr.sent_ts
        else .zero
      else s.last_rt_time }

inductive Action where
  | send (clock : Option Timespec) (sent rv : Int)
  | receive (d : Datagram) (stamp : Option Timespec) (rv : Int)

def step (s : State) : Action → Option State
  | .send clock sent rv =>
    (Ping.step s.lstnr (.send clock sent rv)).map fun lstnr => { s with lstnr, sent := s.sent + 1 }
  | .receive d stamp rv =>
    (Ping.step s.lstnr (.receive d rv)).map fun lstnr => { fd_event_handler s d stamp rv with lstnr }

def init (echo_id : BitVec 16) (recv_hook generate_timeout : Bool) : State where
  lstnr := Ping.init echo_id recv_hook generate_timeout
  last_rt_time := .zero
  sent := 0

/-! ## What has to hold -/

/-- The number in a request. -/
def requestSequence (packet : List UInt8) : BitVec 16 := ntohs (packet.getD 6 0) (packet.getD 7 0)

/-- The round-trip time is computed, whatever it was before, from the time at which the last request was sent. -/
def Recognised (s : State) (d : Datagram) (stamp : Option Timespec) (rv : Int) : Prop :=
  ∃ t ∈ s.lstnr.clock, ∀ last_rt_time,
    (fd_event_handler { s with last_rt_time } d stamp rv).last_rt_time = rtTime (stamp.getD .zero) t

/-- No request is waiting for an answer any more. -/
def Cleared (s : State) (d : Datagram) (stamp : Option Timespec) (rv : Int) : Prop :=
  (fd_event_handler s d stamp rv).lstnr.sent_ts = .zero

/-- The clock didn't fail when the last request was sent, and nothing that seems to be an answer has arrived since.
Where the clock says that no time has passed since the beginning of 1970, nothing is lost with `sent_ts`. -/
def Waiting (l : PingListener) (seq : BitVec 16) : Prop :=
  ∃ t ∈ l.clock, t = .zero ∨ ∀ d ∈ l.since, ¬ Seems l.echo_id seq d

instance (l : PingListener) (seq : BitVec 16) : Decidable (Waiting l seq) :=
  match h : l.clock with
  | none => isFalse (by simp [Waiting, h])
  | some t => decidable_of_iff (t = .zero ∨ ∀ d ∈ l.since, ¬ Seems l.echo_id seq d) (by simp [Waiting, h])

/-! ## The number of a request -/

theorem ntohs_htons (x : BitVec 16) : ntohs (UInt8.ofNat (x.toNat / 256)) (UInt8.ofNat x.toNat) = x := by
  apply BitVec.eq_of_toNat_eq
  have := x.isLt
  simp only [ntohs, UInt8.toNat_ofNat', BitVec.toNat_ofNat]
  omega

theorem requestSequence_request (l : PingListener) (packet : List UInt8) (seq : BitVec 16) :
    requestSequence (request l packet seq) = seq := ntohs_htons seq

theorem send_ping_packet (l : PingListener) (clock : Option Timespec) (sent rv : Int) :
    ∃ packet, (crtx_ping_send_ping l clock sent rv).1.packet = some packet ∧
      requestSequence packet = l.packets_sent := by
  unfold crtx_ping_send_ping
  dsimp only
  split
  · exact ⟨_, rfl, requestSequence_request ..⟩
  · exact ⟨_, rfl, requestSequence_request ..⟩

/-- What a request leaves in the listener. -/
structure Numbered (s : State) : Prop where
  kept : Ping.Inv s.lstnr
  counts : s.lstnr.packets_sent = BitVec.ofNat 16 s.sent
  packet : 1 ≤ s.sent → ∃ packet, s.lstnr.packet = some packet ∧ s.lstnr.last = some (requestSequence packet)

theorem step_numbered {s s' : State} {a : Action} (hs : Numbered s) (h : step s a = some s') : Numbered s' := by
  cases a with
  | send clock sent rv =>
    cases h
    obtain ⟨packet, hp, hseq⟩ := send_ping_packet s.lstnr clock sent rv
    obtain ⟨packet', events, heq⟩ := send_ping_spec s.lstnr clock sent rv
    refine ⟨step_inv (a := .send clock sent rv) hs.kept rfl, ?_, fun _ => ⟨packet, hp, by rw [hseq]⟩⟩
    simp only [heq, hs.counts]
    bv_omega
  | receive d stamp rv =>
    cases h
    obtain ⟨events, sent_ts, heq, -, -⟩ := fd_event_handler_spec s.lstnr d rv
    refine ⟨step_inv (a := .receive d rv) hs.kept rfl, ?_, ?_⟩
    · simp only [heq]
      exact hs.counts
    · simp only [heq]
      exact hs.packet

theorem init_numbered (echo_id : BitVec 16) (recv_hook generate_timeout : Bool) :
    Numbered (init echo_id recv_hook generate_timeout) :=
  ⟨init_inv .., rfl, fun h => absurd h (Nat.not_succ_le_zero 0)⟩

theorem run_numbered {echo_id : BitVec 16} {recv_hook generate_timeout : Bool} {as : List Action} {s : State}
    (hr : run step as (init echo_id recv_hook generate_timeout) = some s) : Numbered s :=
  run_invariant (fun _ _ _ => step_numbered) as _ s (init_numbered ..) hr

/-! ## The comparison -/

theorem last_number_iff {n : Nat} {seq : BitVec 16} (h : BitVec.ofNat 16 n = seq + 1) : seq ≠ 65535 ↔ ¬ 65536 ∣ n := by
  have hmod := congrArg BitVec.toNat h
  rw [BitVec.toNat_ofNat, BitVec.toNat_add] at hmod
  have hlt := seq.isLt
  have hseq : seq = 65535 ↔ seq.toNat = 65535 := by bv_omega
  have hone : (1 : BitVec 16).toNat = 1 := rfl
  rw [ne_eq, hseq]
  omega

theorem rtTime_inj {ts a b : Timespec} : rtTime ts a = rtTime ts b ↔ a = b := by
  rw [Timespec.ext_iff]
  simp [rtTime]

theorem waiting_iff {l : PingListener} (hi : Ping.Inv l) {seq : BitVec 16} (hseq : l.last = some seq) :
    (∃ t ∈ l.clock, l.sent_ts = t) ↔ Waiting l seq := by
  refine exists_congr fun t => and_congr_right fun ht => ?_
  by_cases hseems : ∃ d ∈ l.since, Seems l.echo_id seq d
  · rw [hi.cleared seq hseq hseems]
    refine ⟨fun h => .inl h.symm, ?_⟩
    rintro (h | h)
    · exact h.symm
    · obtain ⟨d, hd, hs⟩ := hseems
      exact absurd hs (h d hd)
  · refine iff_of_true ((hi.kept seq hseq hseems).trans (hi.stamp t ht)) (.inr fun d hd hs => hseems ⟨d, hd, hs⟩)

theorem fd_event_handler_rt_time {s : State} {seq : BitVec 16} (hseq : s.lstnr.packets_sent = seq + 1) (d : Datagram)
    (stamp : Option Timespec) (rv : Int) :
    (fd_event_handler s d stamp rv).last_rt_time =
      if ValidAt ipLen d ∧ icmpType ipLen d = ICMP_ECHOREPLY ∧ echoId ipLen d = s.lstnr.echo_id then
        if (echoSequence ipLen d = seq ∧ seq ≠ 65535) ∧ stamp.getD .zero ≠ .zero
        then rtTime (stamp.getD .zero) s.lstnr.sent_ts else .zero
      else s.last_rt_time := by
  have hbelow : ((echoSequence ipLen d).toNat : Int) = ((seq + 1).toNat : Int) - 1 ↔
      echoSequence ipLen d = seq ∧ seq ≠ 65535 := below_iff
  unfold fd_event_handler
  simp only [← hbelow, ← hseq, zero_iff]

theorem recognised_iff {s : State} {seq : BitVec 16} (hs : Numbered s) (hseq : s.lstnr.last = some seq) (d : Datagram)
    (stamp : Option Timespec) (rv : Int) :
    Recognised s d stamp rv ↔
      ReplyAt ipLen s.lstnr.echo_id seq d ∧ seq ≠ 65535 ∧ stamp.getD .zero ≠ .zero ∧ Waiting s.lstnr seq := by
  have hrt := fun last_rt_time => fd_event_handler_rt_time (s := { s with last_rt_time }) (hs.kept.number seq hseq) d
    stamp rv
  rw [← waiting_iff hs.kept hseq]
  constructor
  · rintro ⟨t, ht, hcomputed⟩
    have hfirst := (hrt .zero).symm.trans (hcomputed .zero)
    split at hfirst
    · rename_i hreply
      split at hfirst
      · rename_i hlast
        obtain ⟨⟨hnumbered, hlast⟩, hknown⟩ := hlast
        have hd : ReplyAt ipLen s.lstnr.echo_id seq d := ⟨hreply.1, hreply.2.1, hreply.2.2, hnumbered⟩
        exact ⟨hd, hlast, hknown, t, ht, rtTime_inj.mp hfirst⟩
      · cases hfirst
    · cases hfirst
  · rintro ⟨⟨hvalid, htype, hid, hnumbered⟩, hlast, hknown, t, ht, rfl⟩
    refine ⟨_, ht, fun last_rt_time => ?_⟩
    rw [hrt, if_pos ⟨hvalid, htype, hid⟩, if_pos ⟨⟨hnumbered, hlast⟩, hknown⟩]

theorem cleared_iff {s : State} {seq : BitVec 16} (hs : Numbered s) (hseq : s.lstnr.last = some seq) (d : Datagram)
    (stamp : Option Timespec) (rv : Int) :
    Cleared s d stamp rv ↔ Seems s.lstnr.echo_id seq d ∨ s.lstnr.sent_ts = .zero := by
  obtain ⟨events, sent_ts, heq, hclears, hkeeps⟩ := fd_event_handler_spec s.lstnr d rv
  have hts : (fd_event_handler s d stamp rv).lstnr.sent_ts = sent_ts := congrArg PingListener.sent_ts heq
  unfold Cleared
  rw [hts]
  rw [hs.kept.number seq hseq, clears_iff] at hclears hkeeps
  by_cases hnow : Seems s.lstnr.echo_id seq d
  · exact iff_of_true (hclears hnow) (.inl hnow)
  · rw [hkeeps hnow]
    exact (or_iff_right hnow).symm

/-! ## Answers to the last request -/

/-- The reply to the last request is recognised unless its IP header has options, the number of packets is a multiple of
65536, a time isn't known or something has cleared `sent_ts`. A message that the destination is unreachable is left out
of account in the first two cases. -/
theorem last_ping_recognised_iff {echo_id : BitVec 16} {recv_hook generate_timeout : Bool} {as : List Action}
    {s : State} (hr : run step as (init echo_id recv_hook generate_timeout) = some s) (hn : 1 ≤ s.sent) :
    ∃ packet, s.lstnr.packet = some packet ∧ ∀ (d : Datagram) (stamp : Option Timespec) (rv : Int),
      (Reply s.lstnr.echo_id (requestSequence packet) d →
        (Recognised s d stamp rv ↔
          ReplyAt ipLen s.lstnr.echo_id (requestSequence packet) d ∧ ¬ 65536 ∣ s.sent ∧ stamp.getD .zero ≠ .zero ∧
            Waiting s.lstnr (requestSequence packet))) ∧
      (Unreachable s.lstnr.echo_id (requestSequence packet) d →
        (Cleared s d stamp rv ↔
          (ReplyAt ipLen s.lstnr.echo_id (echoSequence ipLen d) d ∨
            UnreachableAt ipLen ipLen s.lstnr.echo_id (requestSequence packet) d ∧ ¬ 65536 ∣ s.sent) ∨
          s.lstnr.sent_ts = .zero)) := by
  have hs := run_numbered hr
  obtain ⟨packet, hpacket, hseq⟩ := hs.packet hn
  have hlast := last_number_iff (hs.counts.symm.trans (hs.kept.number _ hseq))
  refine ⟨packet, hpacket, fun d stamp rv => ⟨fun _ => ?_, fun _ => ?_⟩⟩
  · rw [recognised_iff hs hseq, hlast]
  · rw [cleared_iff hs hseq, Seems, hlast]

/-- The reply to the first request of the listener 7. -/
theorem first_ping_recognised :
    ∃ s, run step [.send (some ⟨1, 0⟩) 64 0] (init 7 false true) = some s ∧
      Recognised s replyToFirst (some ⟨2, 0⟩) 0 := by
  have hr : run step [.send (some ⟨1, 0⟩) 64 0] (init 7 false true) = some _ := rfl
  obtain ⟨packet, hp, h⟩ := last_ping_recognised_iff hr (by decide)
  refine ⟨_, hr, ((h replyToFirst (some ⟨2, 0⟩) 0).1 ?_).mpr ?_⟩
  · cases hp
    decide
  · cases hp
    decide

theorem run_sends (l : PingListener) (last_rt_time : RtTime) (k n : Nat) :
    ∃ s, run step (List.replicate k (.send (some ⟨1, 0⟩) 64 0)) ⟨l, last_rt_time, n⟩ = some s ∧ s.sent = n + k ∧
      s.lstnr.echo_id = l.echo_id := by
  induction k generalizing l n with
  | zero => exact ⟨_, rfl, rfl, rfl⟩
  | succ k ih =>
    have hstep : ∃ l', step ⟨l, last_rt_time, n⟩ (.send (some ⟨1, 0⟩) 64 0) = some ⟨l', last_rt_time, n + 1⟩ ∧
        l'.echo_id = l.echo_id := by
      obtain ⟨packet, events, heq⟩ := send_ping_spec l (some ⟨1, 0⟩) 64 0
      exact ⟨_, rfl, by simp only [heq]⟩
    obtain ⟨l', hl, hl'⟩ := hstep
    obtain ⟨s, hr, hsent, hid⟩ := ih l' (n + 1)
    refine ⟨s, ?_, by omega, hid.trans hl'⟩
    rw [List.replicate_succ, run_cons, hl]
    exact hr

/-- A reply to the request 65535 of the listener 7. -/
def replyToLast : Datagram := 0x45 :: List.replicate 19 0 ++ [0, 0, 0xff, 0xf8, 0, 7, 0xff, 0xff]

/-- The counter is back at 0 behind the packet 65536, whose reply is not recognised. -/
theorem reply_not_recognised_after_wrap :
    ∃ s packet, run step (List.replicate 65536 (.send (some ⟨1, 0⟩) 64 0)) (init 7 false true) = some s ∧
      s.lstnr.packet = some packet ∧ s.sent = 65536 ∧ Reply s.lstnr.echo_id (requestSequence packet) replyToLast ∧
      ¬ Recognised s replyToLast (some ⟨2, 0⟩) 0 := by
  obtain ⟨s, hr, hsent, hid⟩ := run_sends (init 7 false true).lstnr .zero 65536 0
  have hs : Numbered s := run_numbered hr
  obtain ⟨packet, hpacket, hseq⟩ := hs.packet (by omega)
  have hlast : requestSequence packet = 65535 := by
    have hcounts := hs.counts
    rw [hs.kept.number _ hseq, hsent] at hcounts
    bv_omega
  have hreply : Reply s.lstnr.echo_id (requestSequence packet) replyToLast := by
    rw [hid, hlast]
    decide
  refine ⟨s, packet, hr, hpacket, by omega, hreply, fun h => ?_⟩
  exact ((recognised_iff hs hseq replyToLast _ 0).mp h).2.1 hlast

end Libcortex.PingSequence
