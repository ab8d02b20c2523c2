import Mathlib.Data.BitVec
import Libcortex.Lib.Run

/-!
# Ping

`ping.c` sends echo requests and waits for the answers. Whether the last request still waits for one is kept
in the time it was sent at, which an answer sets to zero. The next request finds out from it whether the last one
has timed out. Each IP header is taken to be as long as `struct ip`, also one that has options.
-/

open Libcortex.Lib

namespace Libcortex.Ping

/-! ## Datagrams -/

/-- What `recvfrom` returns. Nothing at all stands for an error. -/
abbrev Datagram := List UInt8

def PACKET_LEN : Nat := 64

/-- `sizeof(struct ip)` -/
def ipLen : Nat := 20

/-- `sizeof(struct icmphdr)` -/
def icmpLen : Nat := 8

def ICMP_ECHOREPLY : UInt8 := 0
def ICMP_DEST_UNREACH : UInt8 := 3
def ICMP_ECHO : UInt8 := 8

def CRTX_PING_ET_PING_SUCCESS : Nat := 601
def CRTX_PING_ET_PING_UNREACHABLE : Nat := 602
def CRTX_PING_ET_PING_ERROR : Nat := 603
def CRTX_PING_ET_PING_TIMEOUT : Nat := 604

/-- Two bytes in the order of the network. -/
def ntohs (hi lo : UInt8) : BitVec 16 := BitVec.ofNat 16 (256 * hi.toNat + lo.toNat)

def htons (x : BitVec 16) : List UInt8 := [UInt8.ofNat (x.toNat / 256), UInt8.ofNat x.toNat]

/-- Two bytes as the processor reads them, the low half first. -/
def word (lo hi : UInt8) : BitVec 32 := BitVec.ofNat 32 (256 * hi.toNat + lo.toNat)

def addcarry (sum : BitVec 32) : BitVec 32 := if sum &&& 0xffff0000 ≠ 0 then (sum &&& 0xffff) + 1 else sum

/-- The loop of `in_cksum`. An odd byte at the end is the low half of a word. -/
def cksumLoop (sum : BitVec 32) : List UInt8 → BitVec 32
  | a :: b :: rest => cksumLoop (addcarry (sum + word a b)) rest
  | [a] => addcarry (sum + word a 0)
  | [] => sum

def in_cksum (bytes : List UInt8) : BitVec 32 := ~~~ cksumLoop 0 bytes &&& 0xffff

/-- The length of the IP header at the beginning, which is in its first byte. -/
def headerLen (d : Datagram) : Nat := 4 * ((d.getD 0 0).toNat % 16)

/-- The ICMP message behind an IP header of `n` bytes, with its checksum set to zero. -/
def icmp (n : Nat) (d : Datagram) : List UInt8 := ((d.drop n).set 2 0).set 3 0

def icmpType (n : Nat) (d : Datagram) : UInt8 := d.getD n 0

def echoId (n : Nat) (d : Datagram) : BitVec 16 := ntohs (d.getD (n + 4) 0) (d.getD (n + 5) 0)

def echoSequence (n : Nat) (d : Datagram) : BitVec 16 := ntohs (d.getD (n + 6) 0) (d.getD (n + 7) 0)

/-- The message behind an IP header of `n` bytes is long enough, and its checksum is right. -/
def ValidAt (n : Nat) (d : Datagram) : Prop :=
  n + icmpLen ≤ d.length ∧ word (d.getD (n + 2) 0) (d.getD (n + 3) 0) = in_cksum (icmp n d)

instance (n : Nat) (d : Datagram) : Decidable (ValidAt n d) := inferInstanceAs (Decidable (_ ∧ _))

/-- Where the message begins that a message about an unreachable destination quotes, behind an IP header of `m`
bytes. -/
def quoted (n m : Nat) : Nat := n + icmpLen + m

/-- A reply to the request with this number, behind an IP header of `n` bytes. -/
def ReplyAt (n : Nat) (id seq : BitVec 16) (d : Datagram) : Prop :=
  ValidAt n d ∧ icmpType n d = ICMP_ECHOREPLY ∧ echoId n d = id ∧ echoSequence n d = seq

/-- A message that a destination is unreachable. What it quotes has this number. -/
def UnreachableAt (n m : Nat) (id seq : BitVec 16) (d : Datagram) : Prop :=
  ValidAt n d ∧ icmpType n d = ICMP_DEST_UNREACH ∧ quoted n m + icmpLen ≤ d.length ∧
    echoId (quoted n m) d = id ∧ echoSequence (quoted n m) d = seq

instance (n : Nat) (id seq : BitVec 16) (d : Datagram) : Decidable (ReplyAt n id seq d) :=
  inferInstanceAs (Decidable (_ ∧ _))

instance (n m : Nat) (id seq : BitVec 16) (d : Datagram) : Decidable (UnreachableAt n m id seq d) :=
  inferInstanceAs (Decidable (_ ∧ _))

/-! ## The listener -/

/-- `struct timespec` -/
@[ext]
structure Timespec where
  tv_sec : Int
  tv_nsec : Int
deriving DecidableEq, Repr

def Timespec.zero : Timespec := ⟨0, 0⟩

/-- A call of `send_event`, with the type and the data. `hooked` says that `recv_hook` has taken the event. -/
structure Event where
  type : Nat
  data : List UInt8
  hooked : Bool
deriving DecidableEq, Repr

/-- `struct crtx_ping_listener`. Of `recv_hook` it matters whether it is set. The fields after `packet` are history:
the events, the newest first, the number of the last request, what the clock said, the value that `sent_ts` had when it
was sent, and what has arrived since. -/
structure PingListener where
  echo_id : BitVec 16
  packets_sent : BitVec 16
  sent_ts : Timespec
  generate_timeout : Bool
  recv_hook : Bool
  packet : Option (List UInt8)
  events : List Event
  last : Option (BitVec 16)
  clock : Option Timespec
  stamp : Timespec
  since : List Datagram

/-- `rv` is what the hook returns. -/
def send_event (s : PingListener) (type : Nat) (data : List UInt8) (rv : Int) : PingListener :=
  { s with events := ⟨type, data, s.recv_hook && rv = 1⟩ :: s.events }

/-- The request with the number `seq`. What is behind the header stays as it is. -/
def request (s : PingListener) (packet : List UInt8) (seq : BitVec 16) : List UInt8 :=
  let rest := packet.drop icmpLen
  let sum := in_cksum ([ICMP_ECHO, 0, 0, 0] ++ htons s.echo_id ++ htons seq ++ rest)
  [ICMP_ECHO, 0, UInt8.ofNat sum.toNat, UInt8.ofNat (sum.toNat / 256)] ++ htons s.echo_id ++ htons seq ++ rest

/-- `clock` is the time, unless `clock_gettime` fails, and `sent` is what `sendto` returns. -/
def crtx_ping_send_ping (s : PingListener) (clock : Option Timespec) (sent rv : Int) : PingListener × Int :=
  let packet := s.packet.getD (List.replicate PACKET_LEN 0)
  let s := if s.generate_timeout ∧ (s.sent_ts.tv_sec ≠ 0 ∨ s.sent_ts.tv_nsec ≠ 0)
    then send_event s CRTX_PING_ET_PING_TIMEOUT packet rv else s
  let s := { s with
    packet := some (request s packet s.packets_sent)
    packets_sent := s.packets_sent + 1
    sent_ts := clock.getD s.sent_ts }
  (s, if sent ≠ PACKET_LEN then 1 else 0)

/-- The time of arrival, and the round-trip time that is computed from it, are left out. -/
def fd_event_handler (s : PingListener) (d : Datagram) (rv : Int) : PingListener :=
  let orig_icmp := quoted ipLen ipLen
  if ¬ ValidAt ipLen d then s
  else if icmpType ipLen d ≠ ICMP_ECHOREPLY then
    if icmpType ipLen d = ICMP_DEST_UNREACH then
      if orig_icmp + icmpLen ≤ d.length then
        if echoId orig_icmp d ≠ s.echo_id then s
        else
          let s := send_event s CRTX_PING_ET_PING_UNREACHABLE (icmp ipLen d) rv
          if ((echoSequence orig_icmp d).toNat : Int) = (s.packets_sent.toNat : Int) - 1
          then { s with sent_ts := .zero } else s
      else send_event s CRTX_PING_ET_PING_ERROR (icmp ipLen d) rv
    else s
  else if echoId ipLen d ≠ s.echo_id then s
  else send_event { s with sent_ts := .zero } CRTX_PING_ET_PING_SUCCESS (icmp ipLen d) rv

inductive Action where
  | send (clock : Option Timespec) (sent rv : Int)
  | receive (d : Datagram) (rv : Int)

def step (s : PingListener) : Action → Option PingListener
  | .send clock sent rv =>
    let s' := (crtx_ping_send_ping s clock sent rv).1
    some { s' with last := some s.packets_sent, clock := clock, stamp := s'.sent_ts, since := [] }
  | .receive d rv => some { fd_event_handler s d rv with since := d :: s.since }

def init (echo_id : BitVec 16) (recv_hook generate_timeout : Bool) : PingListener where
  echo_id := echo_id
  packets_sent := 0
  sent_ts := .zero
  generate_timeout := generate_timeout
  recv_hook := recv_hook
  packet := none
  events := []
  last := none
  clock := none
  stamp := .zero
  since := []

/-! ## What has to hold -/

/-- A valid reply to the request with this number. -/
def Reply (id seq : BitVec 16) (d : Datagram) : Prop := ipLen ≤ headerLen d ∧ ReplyAt (headerLen d) id seq d

/-- The length of the IP header that a message about an unreachable destination quotes. -/
def quotedLen (d : Datagram) : Nat := headerLen (d.drop (headerLen d + icmpLen))

/-- What is quoted is an echo request: the protocol is ICMP, and the type is right. -/
def QuotesEcho (d : Datagram) : Prop :=
  ipLen ≤ quotedLen d ∧ d.getD (headerLen d + icmpLen + 9) 0 = 1 ∧
    icmpType (quoted (headerLen d) (quotedLen d)) d = ICMP_ECHO

/-- A valid message that the destination of this request is unreachable. -/
def Unreachable (id seq : BitVec 16) (d : Datagram) : Prop :=
  ipLen ≤ headerLen d ∧ QuotesEcho d ∧ UnreachableAt (headerLen d) (quotedLen d) id seq d

instance (id seq : BitVec 16) (d : Datagram) : Decidable (Reply id seq d) := inferInstanceAs (Decidable (_ ∧ _))
instance (d : Datagram) : Decidable (QuotesEcho d) := inferInstanceAs (Decidable (_ ∧ _))
instance (id seq : BitVec 16) (d : Datagram) : Decidable (Unreachable id seq d) :=
  inferInstanceAs (Decidable (_ ∧ _))

def Answers (id seq : BitVec 16) (d : Datagram) : Prop := Reply id seq d ∨ Unreachable id seq d

instance (id seq : BitVec 16) (d : Datagram) : Decidable (Answers id seq d) := inferInstanceAs (Decidable (_ ∨ _))

def PingListener.timeouts (s : PingListener) : Nat := s.events.countP fun ev => ev.type = CRTX_PING_ET_PING_TIMEOUT

/-- A request reports that the one before has timed out if and only if no answer to that one has arrived. -/
def Accounted (s : PingListener) : Action → Prop
  | .send clock sent rv => ∀ seq ∈ s.last,
    ((crtx_ping_send_ping s clock sent rv).1.timeouts = s.timeouts + 1 ↔ ∀ d ∈ s.since, ¬ Answers s.echo_id seq d)
  | .receive _ _ => True

/-- Without options in IP headers this is a reply to any request of the listener or, unless the request has the number
65535, a message that its destination is unreachable. -/
def Seems (id seq : BitVec 16) (d : Datagram) : Prop :=
  ReplyAt ipLen id (echoSequence ipLen d) d ∨ UnreachableAt ipLen ipLen id seq d ∧ seq ≠ 65535

instance (id seq : BitVec 16) (d : Datagram) : Decidable (Seems id seq d) := inferInstanceAs (Decidable (_ ∨ _))

/-- What seems to be an answer arrives together with an answer to the last request, and an answer to the last request
together with what seems to be one. If the clock has failed, or says that no time has passed since the beginning of
1970, the request is answered. -/
def OnTime (s : PingListener) : Action → Prop
  | .send _ _ _ => ∀ seq ∈ s.last,
    (s.stamp = .zero → ∃ d ∈ s.since, Answers s.echo_id seq d) ∧
      (s.stamp ≠ .zero →
        ((∃ d ∈ s.since, Seems s.echo_id seq d) → ∃ d ∈ s.since, Answers s.echo_id seq d) ∧
        ((∃ d ∈ s.since, Answers s.echo_id seq d) → ∃ d ∈ s.since, Seems s.echo_id seq d))
  | .receive _ _ => True

instance (s : PingListener) : ∀ a, Decidable (OnTime s a)
  | .send _ _ _ => inferInstanceAs (Decidable (∀ seq ∈ s.last, _ ∧ _))
  | .receive _ _ => inferInstanceAs (Decidable True)

/-! ## What a datagram does -/

/-- The datagram sets `sent_ts` to zero. -/
def Clears (id packets_sent : BitVec 16) (d : Datagram) : Prop :=
  ReplyAt ipLen id (echoSequence ipLen d) d ∨
    UnreachableAt ipLen ipLen id (echoSequence (quoted ipLen ipLen) d) d ∧
      ((echoSequence (quoted ipLen ipLen) d).toNat : Int) = (packets_sent.toNat : Int) - 1

theorem replyAt_iff {n : Nat} {id : BitVec 16} {d : Datagram} :
    ReplyAt n id (echoSequence n d) d ↔ ValidAt n d ∧ icmpType n d = ICMP_ECHOREPLY ∧ echoId n d = id := by
  simp [ReplyAt]

theorem unreachableAt_iff {n m : Nat} {id : BitVec 16} {d : Datagram} :
    UnreachableAt n m id (echoSequence (quoted n m) d) d ↔
      ValidAt n d ∧ icmpType n d = ICMP_DEST_UNREACH ∧ quoted n m + icmpLen ≤ d.length ∧
        echoId (quoted n m) d = id := by
  simp [UnreachableAt]

theorem fd_event_handler_spec (s : PingListener) (d : Datagram) (rv : Int) :
    ∃ events sent_ts, fd_event_handler s d rv = { s with events, sent_ts } ∧
      (Clears s.echo_id s.packets_sent d → sent_ts = .zero) ∧
      (¬ Clears s.echo_id s.packets_sent d → sent_ts = s.sent_ts) := by
  unfold fd_event_handler Clears
  rw [replyAt_iff, unreachableAt_iff]
  dsimp only
  by_cases hvalid : ValidAt ipLen d
  · rw [if_neg (not_not.mpr hvalid)]
    by_cases hreply : icmpType ipLen d = ICMP_ECHOREPLY
    · have htype : icmpType ipLen d ≠ ICMP_DEST_UNREACH := by
        rw [hreply]
        decide
      rw [if_neg (not_not.mpr hreply)]
      by_cases hid : echoId ipLen d = s.echo_id
      · rw [if_neg (not_not.mpr hid)]
        exact ⟨_, _, rfl, fun _ => rfl, fun h => absurd (.inl ⟨hvalid, hreply, hid⟩) h⟩
      · rw [if_pos hid]
        exact ⟨_, _, rfl, by simp [hid, htype], fun _ => rfl⟩
    · rw [if_pos hreply]
      by_cases htype : icmpType ipLen d = ICMP_DEST_UNREACH
      · rw [if_pos htype]
        by_cases hlen : quoted ipLen ipLen + icmpLen ≤ d.length
        · rw [if_pos hlen]
          by_cases hid : echoId (quoted ipLen ipLen) d = s.echo_id
          · rw [if_neg (not_not.mpr hid)]
            split
            · rename_i hseq
              exact ⟨_, _, rfl, fun _ => rfl, fun h => absurd (.inr ⟨⟨hvalid, htype, hlen, hid⟩, hseq⟩) h⟩
            · rename_i hseq
              refine ⟨_, _, rfl, ?_, fun _ => rfl⟩
              rintro (⟨-, h, -⟩ | ⟨-, h⟩)
              · exact absurd h hreply
              · exact absurd h hseq
          · rw [if_pos hid]
            exact ⟨_, _, rfl, by simp [hid, hreply], fun _ => rfl⟩
        · rw [if_neg hlen]
          exact ⟨_, _, rfl, by simp [hlen, hreply], fun _ => rfl⟩
      · rw [if_neg htype]
        exact ⟨_, _, rfl, by simp [htype, hreply], fun _ => rfl⟩
  · rw [if_pos hvalid]
    exact ⟨_, _, rfl, by simp [hvalid], fun _ => rfl⟩

theorem below_iff {x seq : BitVec 16} : (x.toNat : Int) = ((seq + 1).toNat : Int) - 1 ↔ x = seq ∧ seq ≠ 65535 := by
  bv_omega

theorem clears_iff {id seq : BitVec 16} {d : Datagram} : Clears id (seq + 1) d ↔ Seems id seq d := by
  unfold Clears Seems
  refine or_congr_right ?_
  rw [below_iff]
  constructor
  · rintro ⟨h, rfl, hne⟩
    exact ⟨h, hne⟩
  · rintro ⟨h, hne⟩
    have heq : echoSequence (quoted ipLen ipLen) d = seq := h.2.2.2.2
    exact ⟨heq.symm ▸ h, heq, hne⟩

/-! ## The invariant -/

/-- `sent_ts` is what it was set to, until something seems to be an answer. -/
structure Inv (s : PingListener) : Prop where
  number : ∀ seq ∈ s.last, s.packets_sent = seq + 1
  stamp : ∀ t ∈ s.clock, s.stamp = t
  cleared : ∀ seq ∈ s.last, (∃ d ∈ s.since, Seems s.echo_id seq d) → s.sent_ts = .zero
  kept : ∀ seq ∈ s.last, (¬ ∃ d ∈ s.since, Seems s.echo_id seq d) → s.sent_ts = s.stamp

theorem init_inv (echo_id : BitVec 16) (recv_hook generate_timeout : Bool) :
    Inv (init echo_id recv_hook generate_timeout) where
  number _ h := by cases h
  stamp _ h := by cases h
  cleared _ h := by cases h
  kept _ h := by cases h

theorem send_ping_spec (s : PingListener) (clock : Option Timespec) (sent rv : Int) :
    ∃ packet events, (crtx_ping_send_ping s clock sent rv).1 =
      { s with packet, events, packets_sent := s.packets_sent + 1, sent_ts := clock.getD s.sent_ts } := by
  unfold crtx_ping_send_ping
  dsimp only
  split <;> exact ⟨_, _, rfl⟩

theorem step_inv {s s' : PingListener} {a : Action} (hi : Inv s) (h : step s a = some s') : Inv s' := by
  cases a with
  | send clock sent rv =>
    obtain ⟨packet, events, heq⟩ := send_ping_spec s clock sent rv
    simp only [step, heq, Option.some.injEq] at h
    subst h
    refine ⟨?_, ?_, ?_, ?_⟩
    · rintro seq ⟨⟩
      rfl
    · rintro t ⟨⟩
      rfl
    · rintro seq _ ⟨d, hd, -⟩
      cases hd
    · exact fun _ _ _ => rfl
  | receive d rv =>
    cases h
    obtain ⟨events, sent_ts, heq, hclears, hkeeps⟩ := fd_event_handler_spec s d rv
    rw [heq]
    refine ⟨hi.number, hi.stamp, fun seq hseq => ?_, fun seq hseq => ?_⟩
    · rw [hi.number seq hseq, clears_iff] at hclears hkeeps
      rintro ⟨d', hd', hc⟩
      by_cases hnow : Seems s.echo_id seq d
      · exact hclears hnow
      · rcases List.mem_cons.mp hd' with rfl | hd'
        · exact absurd hc hnow
        · exact (hkeeps hnow).trans (hi.cleared seq hseq ⟨d', hd', hc⟩)
    · rw [hi.number seq hseq, clears_iff] at hkeeps
      intro hno
      have hnow : ¬ Seems s.echo_id seq d := fun hc => hno ⟨d, List.mem_cons_self, hc⟩
      refine (hkeeps hnow).trans (hi.kept seq hseq ?_)
      exact fun ⟨d', hd', hc⟩ => hno ⟨d', List.mem_cons_of_mem _ hd', hc⟩

theorem step_generates {s s' : PingListener} {a : Action} (hs : s.generate_timeout = true) (h : step s a = some s') :
    s'.generate_timeout = true := by
  cases a with
  | send clock sent rv =>
    obtain ⟨packet, events, heq⟩ := send_ping_spec s clock sent rv
    simp only [step, heq, Option.some.injEq] at h
    subst h
    exact hs
  | receive d rv =>
    cases h
    obtain ⟨events, sent_ts, heq, -, -⟩ := fd_event_handler_spec s d rv
    rw [heq]
    exact hs

/-! ## Timeouts -/

theorem zero_iff (t : Timespec) : t ≠ .zero ↔ t.tv_sec ≠ 0 ∨ t.tv_nsec ≠ 0 := by
  unfold Timespec.zero
  rw [ne_eq, Timespec.ext_iff]
  tauto

theorem timeout_iff {s : PingListener} (hs : s.generate_timeout = true) (clock : Option Timespec) (sent rv : Int) :
    (crtx_ping_send_ping s clock sent rv).1.timeouts = s.timeouts + 1 ↔ s.sent_ts ≠ .zero := by
  unfold crtx_ping_send_ping
  dsimp only
  rw [zero_iff]
  split
  · rename_i h
    refine iff_of_true ?_ h.2
    exact List.countP_cons_of_pos (by simp)
  · rename_i h
    refine iff_of_false ?_ fun hne => h ⟨hs, hne⟩
    exact Nat.ne_of_lt (Nat.lt_succ_self _)

theorem timely_iff {answered seems unset : Prop} :
    ((¬ unset ∧ ¬ seems) ↔ ¬ answered) ↔
      (unset → answered) ∧ (¬ unset → (seems → answered) ∧ (answered → seems)) := by
  by_cases hunset : unset
  · simp [hunset]
  · simp only [hunset]
    tauto

theorem accounted_iff {s : PingListener} (a : Action) (hi : Inv s) (hs : s.generate_timeout = true) :
    Accounted s a ↔ OnTime s a := by
  cases a with
  | receive d rv => exact Iff.rfl
  | send clock sent rv =>
    refine forall_congr' fun seq => forall_congr' fun hseq => ?_
    rw [timeout_iff hs]
    have hts : s.sent_ts ≠ .zero ↔ s.stamp ≠ .zero ∧ ¬ ∃ d ∈ s.since, Seems s.echo_id seq d := by
      by_cases hc : ∃ d ∈ s.since, Seems s.echo_id seq d
      · exact iff_of_false (not_not.mpr (hi.cleared seq hseq hc)) fun h => h.2 hc
      · rw [hi.kept seq hseq hc]
        exact (and_iff_left hc).symm
    have hnone : (∀ d ∈ s.since, ¬ Answers s.echo_id seq d) ↔ ¬ ∃ d ∈ s.since, Answers s.echo_id seq d := by
      simp
    rw [hts, hnone]
    exact timely_iff

/-- Every request reports a timeout exactly when it should, if and only if all of them meet the condition. -/
theorem timeouts_iff_on_time (echo_id : BitVec 16) (recv_hook : Bool) (as : List Action) :
    Meets step Accounted as (init echo_id recv_hook true) ↔ Meets step OnTime as (init echo_id recv_hook true) := by
  let Kept (s : PingListener) : Prop := Inv s ∧ s.generate_timeout = true
  have hinit : Kept (init echo_id recv_hook true) := ⟨init_inv echo_id recv_hook true, rfl⟩
  have hiff : ∀ s a, Kept s → (Accounted s a ↔ OnTime s a) := fun s a h => accounted_iff a h.1 h.2
  have hstep : ∀ s a s', Kept s → OnTime s a → True → step s a = some s' → Kept s' :=
    fun s a s' h _ _ hs => ⟨step_inv h.1 hs, step_generates h.2 hs⟩
  exact meets_congr hiff hstep as _ hinit (meets_true step as _)

/-- A reply to the request 0 of the listener 7. -/
def replyToFirst : Datagram := 0x45 :: List.replicate 19 0 ++ [0, 0, 0xff, 0xf8, 0, 7, 0, 0]

/-- The reply to the first request arrives late, and the second request is not reported. -/
theorem late_reply_hides_timeout :
    ∃ s, run step [.send (some ⟨1, 0⟩) 64 0, .send (some ⟨2, 0⟩) 64 0, .receive replyToFirst 0] (init 7 false true) =
        some s ∧
      ¬ Accounted s (.send (some ⟨3, 0⟩) 64 0) := by
  refine ⟨_, rfl, fun h => ?_⟩
  have hnone := (h 1 rfl).mpr (by decide)
  exact absurd hnone (by decide)

end Libcortex.Ping
