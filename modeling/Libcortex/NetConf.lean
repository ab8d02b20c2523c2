import Mathlib.Data.BitVec
import Mathlib.Data.List.Nodup
import Libcortex.Lib.Run

/-!
# Querying the network configuration

`netconf.c` can ask the kernel for what exists already, one kind of object after the other, as the kernel answers one
request for a dump at a time. The next request is made by the callback for the end of a dump. Which kinds have been
requested is kept in `queried_types`, and the event that reports the end of a dump says whether these are all. All
handlers run in the one thread of the event loop.
-/

open Libcortex.Lib

namespace Libcortex.NetConf

/-! ## The code -/

def CRTX_NETCONF_INTF : BitVec 32 := 1
def CRTX_NETCONF_NEIGH : BitVec 32 := 2
def CRTX_NETCONF_IPV4_ADDR : BitVec 32 := 4
def CRTX_NETCONF_IPV6_ADDR : BitVec 32 := 8

/-- The type of a message that asks for a dump. -/
inductive Request where
  | getLink
  | getNeigh
  | getAddr
deriving DecidableEq

/-- `RTNLGRP_LINK` and so on -/
inductive Group where
  | link
  | neigh
  | ipv4Ifaddr
  | ipv6Ifaddr
deriving DecidableEq

/-- The types of messages that get a type of event. -/
inductive MsgType where
  | addr
  | link
  | neigh
  | other
deriving DecidableEq

inductive Event where
  | message (type : Nat)
  | queryDone (all : Int)
deriving DecidableEq

def CRTX_NETCONF_ET_INTF : Nat := 701
def CRTX_NETCONF_ET_NEIGH : Nat := 702
def CRTX_NETCONF_ET_IP_ADDR : Nat := 703

/-- `struct crtx_netconf_listener`. The fields after `queried_types` are the socket's: the groups it has joined, the
requests it has sent, and those of them that the kernel still works on. -/
structure NetconfListener where
  monitor_types : BitVec 32
  query_existing : Int
  queried_types : BitVec 32
  groups : List Group
  sent : List Request
  dumps : List Request
  events : List Event
  started : Bool
  stopped : Bool

/-- `nl_send_simple` and what follows it. -/
def request (s : NetconfListener) (r : Request) (types : BitVec 32) (sends : Bool) : NetconfListener × Int :=
  if sends then
    ({ s with sent := s.sent ++ [r], dumps := s.dumps ++ [r], queried_types := s.queried_types ||| types }, 0)
  else (s, 1)

def crtx_netconf_query_interfaces (s : NetconfListener) (sends : Bool) : NetconfListener × Int :=
  if s.monitor_types &&& CRTX_NETCONF_INTF ≠ 0 ∧ s.queried_types &&& CRTX_NETCONF_INTF = 0 then
    request s .getLink CRTX_NETCONF_INTF sends
  else if s.monitor_types &&& CRTX_NETCONF_NEIGH ≠ 0 ∧ s.queried_types &&& CRTX_NETCONF_NEIGH = 0 then
    request s .getNeigh CRTX_NETCONF_NEIGH sends
  else if (s.monitor_types &&& CRTX_NETCONF_IPV4_ADDR ≠ 0 ∨ s.monitor_types &&& CRTX_NETCONF_IPV6_ADDR ≠ 0) ∧
      (s.queried_types &&& CRTX_NETCONF_IPV4_ADDR = 0 ∧ s.queried_types &&& CRTX_NETCONF_IPV6_ADDR = 0) then
    request s .getAddr (CRTX_NETCONF_IPV4_ADDR ||| CRTX_NETCONF_IPV6_ADDR) sends
  else (s, 0)

/-- `nl_socket_add_membership` -/
def join (mask : BitVec 32) (g : Group) (s : NetconfListener) : NetconfListener :=
  if s.monitor_types &&& mask ≠ 0 then { s with groups := s.groups ++ [g] } else s

def joinAll (s : NetconfListener) : NetconfListener :=
  let s := join CRTX_NETCONF_INTF .link s
  let s := join CRTX_NETCONF_NEIGH .neigh s
  let s := join CRTX_NETCONF_IPV4_ADDR .ipv4Ifaddr s
  join CRTX_NETCONF_IPV6_ADDR .ipv6Ifaddr s

/-- The event says that the listener of the socket has started. -/
def netconf_state_handler (s : NetconfListener) (sends : Bool) : NetconfListener :=
  let s := joinAll s
  if 0 < s.query_existing then (crtx_netconf_query_interfaces s sends).1 else s

/-- `event->type` -/
def eventType : MsgType → Nat
  | .addr => CRTX_NETCONF_ET_IP_ADDR
  | .link => CRTX_NETCONF_ET_INTF
  | .neigh => CRTX_NETCONF_ET_NEIGH
  | .other => 0

def crtx_libnl_msg2dict (s : NetconfListener) (t : MsgType) : NetconfListener :=
  { s with events := s.events ++ [.message (eventType t)] }

def AllQueried (s : NetconfListener) : Prop := s.monitor_types &&& s.queried_types = s.monitor_types

instance (s : NetconfListener) : Decidable (AllQueried s) := inferInstanceAs (Decidable (_ = _))

def crtx_libnl_msg_end (s : NetconfListener) (sends : Bool) : NetconfListener :=
  let s := { s with events := s.events ++ [.queryDone (if AllQueried s then 1 else 0)] }
  if 0 < s.query_existing then
    if ¬ AllQueried s then (crtx_netconf_query_interfaces s sends).1
    else if s.query_existing = 2 then { s with stopped := true } else s
  else s

inductive Action where
  | start (sends : Bool)
  | message (t : MsgType)
  | dumpEnd (sends : Bool)

/-- A socket is connected once, and the kernel ends a dump that was asked for. What was received together with the end
of the last dump is still handled after the listener has stopped itself. -/
def Enabled (s : NetconfListener) : Action → Prop
  | .start _ => s.started = false
  | .message _ => s.started
  | .dumpEnd _ => s.dumps ≠ []

instance (s : NetconfListener) (a : Action) : Decidable (Enabled s a) := by
  cases a <;> unfold Enabled <;> infer_instance

def apply (s : NetconfListener) : Action → NetconfListener
  | .start sends => netconf_state_handler { s with started := true } sends
  | .message t => crtx_libnl_msg2dict s t
  | .dumpEnd sends => crtx_libnl_msg_end { s with dumps := s.dumps.tail } sends

def step : NetconfListener → Action → Option NetconfListener := guarded Enabled apply

/-- A listener that was set up and not started. -/
def initial (monitor_types : BitVec 32) (query_existing : Int) : NetconfListener where
  monitor_types
  query_existing
  queried_types := 0
  groups := []
  sent := []
  dumps := []
  events := []
  started := false
  stopped := false

/-! ## What is requested -/

/-- The types that a dump stands for. -/
def Request.types : Request → BitVec 32
  | .getLink => CRTX_NETCONF_INTF
  | .getNeigh => CRTX_NETCONF_NEIGH
  | .getAddr => CRTX_NETCONF_IPV4_ADDR ||| CRTX_NETCONF_IPV6_ADDR

def wanted (monitor : BitVec 32) (r : Request) : Bool := monitor &&& r.types ≠ 0

/-- The dumps of what is monitored, in the order of the code. -/
def plan (monitor : BitVec 32) : List Request := [.getLink, .getNeigh, .getAddr].filter (wanted monitor)

/-- Nothing is monitored that the code doesn't know. -/
def Known (monitor : BitVec 32) : Prop := monitor &&& ~~~15 = 0

instance (monitor : BitVec 32) : Decidable (Known monitor) := inferInstanceAs (Decidable (_ = _))

/-- The answers of the `queryDone` events, in order. -/
def answers (s : NetconfListener) : List Int :=
  s.events.filterMap fun
    | .queryDone all => some all
    | .message _ => none

/-- What the end of the `k`-th dump reports. -/
def answer (monitor : BitVec 32) (k : Nat) : Int := if Known monitor ∧ k + 1 = (plan monitor).length then 1 else 0

/-- The requests are the first ones of the plan, and all of them but the last have been answered. The end of every dump
has been reported, with whether it was the last one. The listener has stopped itself if it should and all dumps of the
plan are done. -/
structure Follows (monitor : BitVec 32) (s : NetconfListener) : Prop where
  sent : s.sent = (plan monitor).take s.sent.length
  dumps : s.dumps = [] ∨ ∃ done r, s.sent = done ++ [r] ∧ s.dumps = [r]
  answers : answers s = (List.range (s.sent.length - s.dumps.length)).map (answer monitor)
  stopped : s.stopped = true ↔
    s.query_existing = 2 ∧ Known monitor ∧ s.dumps = [] ∧ s.sent = plan monitor ∧ plan monitor ≠ []

/-! ## The masks -/

def queriedOf (sent : List Request) : BitVec 32 := sent.foldl (fun q r => q ||| r.types) 0

theorem queriedOf_append (sent : List Request) (r : Request) : queriedOf (sent ++ [r]) = queriedOf sent ||| r.types := by
  simp [queriedOf]

theorem queriedOf_eq (sent : List Request) :
    queriedOf sent = (if .getLink ∈ sent then 1 else 0) ||| (if .getNeigh ∈ sent then 2 else 0) |||
      (if .getAddr ∈ sent then 12 else 0) := by
  induction sent using List.reverseRecOn with
  | nil => rfl
  | append_singleton sent r ih =>
    rw [queriedOf_append, ih]
    cases r <;> simp only [List.mem_append, List.mem_singleton, reduceCtorEq, or_false, or_true, if_true] <;>
      (repeat' split) <;> decide

theorem queried_link (sent : List Request) : queriedOf sent &&& CRTX_NETCONF_INTF = 0 ↔ .getLink ∉ sent := by
  rw [queriedOf_eq]
  by_cases h : Request.getLink ∈ sent <;> simp only [h, if_true, if_false] <;> (repeat' split) <;> decide

theorem queried_neigh (sent : List Request) : queriedOf sent &&& CRTX_NETCONF_NEIGH = 0 ↔ .getNeigh ∉ sent := by
  rw [queriedOf_eq]
  by_cases h : Request.getNeigh ∈ sent <;> simp only [h, if_true, if_false] <;> (repeat' split) <;> decide

theorem queried_addr (sent : List Request) :
    queriedOf sent &&& CRTX_NETCONF_IPV4_ADDR = 0 ∧ queriedOf sent &&& CRTX_NETCONF_IPV6_ADDR = 0 ↔ .getAddr ∉ sent := by
  rw [queriedOf_eq]
  by_cases h : Request.getAddr ∈ sent <;> simp only [h, if_true, if_false] <;> (repeat' split) <;> decide

theorem or_zero_iff {a b : BitVec 32} : a ||| b = 0 ↔ a = 0 ∧ b = 0 := BitVec.or_eq_zero_iff

theorem wanted_iff (monitor : BitVec 32) (r : Request) : wanted monitor r = true ↔ monitor &&& r.types ≠ 0 := by
  unfold wanted
  rw [decide_eq_true_iff]

theorem wanted_addr (monitor : BitVec 32) :
    monitor &&& CRTX_NETCONF_IPV4_ADDR ≠ 0 ∨ monitor &&& CRTX_NETCONF_IPV6_ADDR ≠ 0 ↔ wanted monitor .getAddr = true := by
  rw [wanted_iff, Request.types, BitVec.and_or_distrib_left, ne_eq, ne_eq, ne_eq, or_zero_iff]
  tauto

theorem and_eq_self_iff (m q : BitVec 32) : m &&& q = m ↔ m &&& ~~~ q = 0 := by
  constructor
  · intro h
    rw [← h, BitVec.and_assoc, BitVec.and_not_self]
    exact BitVec.and_zero
  · intro h
    have hsplit : m &&& (q ||| ~~~ q) = m := by rw [BitVec.or_not_self, BitVec.and_allOnes]
    rw [BitVec.and_or_distrib_left, h] at hsplit
    simpa using hsplit

theorem allQueried_iff {s : NetconfListener} (hq : s.queried_types = queriedOf s.sent) :
    AllQueried s ↔ Known s.monitor_types ∧ ∀ r ∈ plan s.monitor_types, r ∈ s.sent := by
  have hnot : ~~~ queriedOf s.sent = ~~~15 ||| (if .getLink ∈ s.sent then 0 else Request.getLink.types) |||
      (if .getNeigh ∈ s.sent then 0 else Request.getNeigh.types) |||
      (if .getAddr ∈ s.sent then 0 else Request.getAddr.types) := by
    rw [queriedOf_eq]
    (repeat' split) <;> decide
  have hzero : AllQueried s ↔ s.monitor_types &&& ~~~ queriedOf s.sent = 0 := by
    unfold AllQueried
    rw [hq]
    exact and_eq_self_iff _ _
  rw [hzero, hnot, BitVec.and_or_distrib_left, BitVec.and_or_distrib_left, BitVec.and_or_distrib_left, or_zero_iff,
    or_zero_iff, or_zero_iff, and_assoc, and_assoc]
  refine and_congr_right fun _ => ?_
  have hkind : ∀ r : Request, s.monitor_types &&& (if r ∈ s.sent then 0 else r.types) = 0 ↔
      (wanted s.monitor_types r = true → r ∈ s.sent) := by
    intro r
    rw [wanted_iff]
    split <;> simp_all
  rw [hkind, hkind, hkind]
  simp [plan]

/-! ## One request -/

/-- The request that the code makes next, if any. -/
def next (s : NetconfListener) : Option Request := (plan s.monitor_types).find? fun r => r ∉ s.sent

theorem query_interfaces_spec {s : NetconfListener} (hq : s.queried_types = queriedOf s.sent) (sends : Bool) :
    (crtx_netconf_query_interfaces s sends).1 = (next s).elim s fun r => (request s r r.types sends).1 := by
  have hnext : next s = [Request.getLink, .getNeigh, .getAddr].find? fun r => wanted s.monitor_types r ∧ r ∉ s.sent := by
    rw [next, plan, List.find?_filter]
    simp
  have hlink := (wanted_iff s.monitor_types .getLink).symm
  have hneigh := (wanted_iff s.monitor_types .getNeigh).symm
  unfold Request.types at hlink hneigh
  unfold crtx_netconf_query_interfaces
  simp only [hq, queried_link, queried_neigh, queried_addr, wanted_addr, hlink, hneigh]
  rw [hnext]
  simp only [List.find?_cons, List.find?_nil]
  by_cases h1 : wanted s.monitor_types .getLink = true ∧ Request.getLink ∉ s.sent
  · simp [h1, Request.types]
  by_cases h2 : wanted s.monitor_types .getNeigh = true ∧ Request.getNeigh ∉ s.sent
  · simp [h1, h2, Request.types]
  by_cases h3 : wanted s.monitor_types .getAddr = true ∧ Request.getAddr ∉ s.sent
  · simp [h1, h2, h3, Request.types]
  · simp [h1, h2, h3]

theorem plan_nodup (monitor : BitVec 32) : (plan monitor).Nodup := List.Nodup.filter _ (by decide)

theorem find_behind {α : Type} [DecidableEq α] {before after : List α} (h : (before ++ after).Nodup) :
    ((before ++ after).find? fun a => a ∉ before) = after.head? := by
  rw [List.nodup_append] at h
  have hnone : before.find? (fun a => a ∉ before) = none := by simp
  rw [List.find?_append, hnone, Option.none_or]
  cases after with
  | nil => rfl
  | cons a after =>
    have ha : a ∉ before := fun hmem => h.2.2 a hmem a List.mem_cons_self rfl
    rw [List.find?_cons, decide_eq_true ha, List.head?_cons]

/-! ## Runs -/

structure Inv (monitor : BitVec 32) (s : NetconfListener) : Prop extends Follows monitor s where
  monitored : s.monitor_types = monitor
  queried : s.queried_types = queriedOf s.sent
  idle : s.started = false → s.sent = []

section

variable {monitor : BitVec 32} {s : NetconfListener}

theorem Follows.length_le (h : Follows monitor s) : s.sent.length ≤ (plan monitor).length := by
  have hlen := congrArg List.length h.sent
  rw [List.length_take] at hlen
  omega

theorem Inv.next_eq (h : Inv monitor s) : next s = (plan monitor)[s.sent.length]? := by
  have hsplit : s.sent ++ (plan monitor).drop s.sent.length = plan monitor := by
    conv => lhs; rw [h.sent]
    rw [List.length_take_of_le h.length_le, List.take_append_drop]
  have hnodup := plan_nodup monitor
  rw [← hsplit] at hnodup
  rw [next, h.monitored, ← List.head?_drop, ← find_behind hnodup, hsplit]

theorem answers_append (s : NetconfListener) (e : Event) :
    answers { s with events := s.events ++ [e] } = answers s ++ (match e with
      | .queryDone all => [all]
      | .message _ => []) := by
  unfold answers
  rw [List.filterMap_append]
  cases e <;> rfl

theorem Inv.requested (h : Inv monitor s) (hd : s.dumps = []) (hs : s.started = true) {r : Request}
    (hr : (plan monitor)[s.sent.length]? = some r) : Inv monitor (request s r r.types true).1 := by
  obtain ⟨hlt, hget⟩ := List.getElem?_eq_some_iff.mp hr
  have hsent := h.sent
  refine ⟨⟨?_, ?_, ?_, ?_⟩, h.monitored, ?_, ?_⟩
  · simp only [request, if_true, List.length_append, List.length_singleton]
    rw [List.take_add_one, hr, ← hsent, Option.toList_some]
  · exact .inr ⟨s.sent, r, rfl, by simp [request, hd]⟩
  · have hans := h.answers
    rw [hd, List.length_nil, Nat.sub_zero] at hans
    simp only [request, if_true, hd, List.length_append, List.length_singleton, List.nil_append, Nat.add_sub_cancel]
    exact hans
  · have hstop := h.stopped
    have hne : s.sent ≠ plan monitor := fun heq => absurd (congrArg List.length heq) (by omega)
    simp only [request, if_true, hd, List.nil_append]
    simp [hstop, hne]
  · simp only [request, if_true]
    rw [queriedOf_append, h.queried]
  · intro hidle
    simp [request, hs] at hidle

theorem Inv.query (h : Inv monitor s) (hd : s.dumps = []) (hs : s.started = true) (sends : Bool) :
    Inv monitor (crtx_netconf_query_interfaces s sends).1 := by
  rw [query_interfaces_spec h.queried, h.next_eq]
  cases hr : (plan monitor)[s.sent.length]? with
  | none => exact h
  | some r =>
    cases sends with
    | false => exact h
    | true => exact h.requested hd hs hr

theorem Inv.joined (h : Inv monitor s) (mask : BitVec 32) (g : Group) : Inv monitor (join mask g s) := by
  unfold join
  split
  · exact ⟨⟨h.sent, h.dumps, h.answers, h.stopped⟩, h.monitored, h.queried, h.idle⟩
  · exact h

theorem Inv.joinedAll (h : Inv monitor s) : Inv monitor (joinAll s) :=
  (((h.joined ..).joined ..).joined ..).joined ..

theorem join_fields (mask : BitVec 32) (g : Group) (s : NetconfListener) :
    (join mask g s).dumps = s.dumps ∧ (join mask g s).started = s.started ∧
      (join mask g s).query_existing = s.query_existing := by
  unfold join
  split <;> simp

theorem joinAll_fields (s : NetconfListener) :
    (joinAll s).dumps = s.dumps ∧ (joinAll s).started = s.started ∧ (joinAll s).query_existing = s.query_existing := by
  unfold joinAll
  simp [join_fields]

theorem Inv.allQueried (h : Inv monitor s) : AllQueried s ↔ Known monitor ∧ s.sent = plan monitor := by
  rw [allQueried_iff h.queried, h.monitored]
  refine and_congr_right fun _ => ⟨fun hall => ?_, fun heq => by rw [heq]; exact fun _ hr => hr⟩
  have hle : (plan monitor).length ≤ s.sent.length := (List.Nodup.subperm (plan_nodup monitor) hall).length_le
  rw [h.sent, List.take_of_length_le hle]

theorem Inv.started (h : Inv monitor s) (hd : s.dumps ≠ []) : s.started = true := by
  rw [← Bool.not_eq_false]
  intro hidle
  rcases h.dumps with hnil | ⟨done, r, hsent, -⟩
  · exact hd hnil
  · rw [h.idle hidle] at hsent
    simp at hsent

theorem Inv.starting (h : Inv monitor s) (hidle : s.started = false) :
    Inv monitor (joinAll { s with started := true }) ∧ (joinAll { s with started := true }).dumps = [] := by
  have h0 : Inv monitor { s with started := true } :=
    ⟨⟨h.sent, h.dumps, h.answers, h.stopped⟩, h.monitored, h.queried, fun hf => by cases hf⟩
  refine ⟨h0.joinedAll, ?_⟩
  rw [(joinAll_fields _).1]
  by_contra hne
  simp [h.started hne] at hidle

theorem Inv.start (h : Inv monitor s) (hidle : s.started = false) (sends : Bool) :
    Inv monitor (netconf_state_handler { s with started := true } sends) := by
  obtain ⟨hjoin, hd⟩ := h.starting hidle
  unfold netconf_state_handler
  dsimp only
  split
  · exact hjoin.query hd (joinAll_fields _).2.1 sends
  · exact hjoin

theorem Inv.message (h : Inv monitor s) (t : MsgType) : Inv monitor (crtx_libnl_msg2dict s t) := by
  refine ⟨⟨h.sent, h.dumps, ?_, h.stopped⟩, h.monitored, h.queried, h.idle⟩
  rw [crtx_libnl_msg2dict, answers_append, List.append_nil]
  exact h.answers

/-- What the end of a dump leaves if nothing is requested. -/
def reported (s : NetconfListener) : NetconfListener :=
  { s with
    dumps := s.dumps.tail
    events := s.events ++ [.queryDone (if AllQueried s then 1 else 0)]
    stopped := decide (s.query_existing = 2 ∧ AllQueried s) }

theorem Inv.running (h : Inv monitor s) (hd : s.dumps ≠ []) : s.stopped = false := by
  rw [← Bool.not_eq_true, h.stopped]
  exact fun hstop => hd hstop.2.2.1

theorem Inv.dumps_tail (h : Inv monitor s) : s.dumps.tail = [] := by
  rcases h.dumps with hnil | ⟨done, r, -, hdumps⟩
  · rw [hnil, List.tail_nil]
  · rw [hdumps, List.tail_cons]

theorem Inv.msg_end_eq (h : Inv monitor s) (hd : s.dumps ≠ []) (sends : Bool) :
    crtx_libnl_msg_end { s with dumps := s.dumps.tail } sends =
      if 0 < s.query_existing ∧ ¬ AllQueried s then (crtx_netconf_query_interfaces (reported s) sends).1
      else reported s := by
  have hrunning := h.running hd
  unfold crtx_libnl_msg_end reported AllQueried
  by_cases hall : s.monitor_types &&& s.queried_types = s.monitor_types
  · by_cases htwo : s.query_existing = 2
    · simp [htwo, hall]
    · simp [htwo, hall, hrunning]
  · simp [hall, hrunning]

theorem Inv.reported (h : Inv monitor s) (hd : s.dumps ≠ []) : Inv monitor (reported s) := by
  obtain ⟨done, r, hsent, hdumps⟩ := h.dumps.resolve_left hd
  have hlen : s.sent.length = done.length + 1 := by rw [hsent, List.length_append, List.length_singleton]
  have hans := h.answers
  rw [hdumps, List.length_singleton, hlen, Nat.add_sub_cancel] at hans
  have hlast : (if AllQueried s then (1 : Int) else 0) = answer monitor done.length := by
    unfold answer
    refine if_congr ?_ rfl rfl
    rw [h.allQueried, ← hlen]
    refine and_congr_right fun _ => ⟨fun heq => by rw [heq], fun heq => ?_⟩
    rw [h.sent, heq, List.take_length]
  refine ⟨⟨h.sent, .inl h.dumps_tail, ?_, ?_⟩, h.monitored, h.queried, h.idle⟩
  · show answers { s with events := s.events ++ [_] } =
      (List.range (s.sent.length - s.dumps.tail.length)).map (answer monitor)
    rw [answers_append, hans, hlast, h.dumps_tail, hlen, List.length_nil, Nat.sub_zero, List.range_succ,
      List.map_append]
    rfl
  · have hne : s.sent = plan monitor → plan monitor ≠ [] := by
      intro heq hnil
      rw [heq, hnil] at hlen
      cases hlen
    have htail := h.dumps_tail
    show decide (s.query_existing = 2 ∧ AllQueried s) = true ↔ s.query_existing = 2 ∧ Known monitor ∧
      s.dumps.tail = [] ∧ s.sent = plan monitor ∧ plan monitor ≠ []
    rw [decide_eq_true_iff, h.allQueried]
    tauto

theorem Inv.msg_end (h : Inv monitor s) (hd : s.dumps ≠ []) (sends : Bool) :
    Inv monitor (crtx_libnl_msg_end { s with dumps := s.dumps.tail } sends) := by
  rw [h.msg_end_eq hd]
  split
  · exact (h.reported hd).query h.dumps_tail (h.started hd) sends
  · exact h.reported hd

theorem step_inv (s : NetconfListener) (a : Action) (h : Inv monitor s) (he : Enabled s a) :
    Inv monitor (apply s a) := by
  cases a with
  | start sends => exact h.start he sends
  | message t => exact h.message t
  | dumpEnd sends => exact h.msg_end he sends

end

theorem initial_inv (monitor : BitVec 32) (query_existing : Int) : Inv monitor (initial monitor query_existing) where
  sent := rfl
  dumps := .inl rfl
  answers := rfl
  stopped := by
    simp only [initial, Bool.false_eq_true, false_iff]
    rintro ⟨-, -, -, hsent, hne⟩
    exact hne hsent.symm
  monitored := rfl
  queried := rfl
  idle _ := rfl

/-- The kernel never works on two dumps for a listener, whatever messages come between, and whichever of the requests
could not be sent. -/
theorem netconf_follows_plan (monitor : BitVec 32) (query_existing : Int) (as : List Action) (s : NetconfListener)
    (hr : run step as (initial monitor query_existing) = some s) : Follows monitor s :=
  (guarded_invariant step_inv as _ _ (initial_inv monitor query_existing) hr).toFollows

/-- A network with two kinds of objects: the second dump is asked for after the first, and the listener stops itself. -/
def twoKinds : List Action := [.start true, .message .link, .dumpEnd true, .message .addr, .dumpEnd true, .message .link]

theorem netconf_follows_plan_two : ∃ s, run step twoKinds (initial 9 2) = some s ∧ s.sent = [.getLink, .getAddr] ∧
    answers s = [0, 1] ∧ s.stopped = true ∧ Follows 9 s :=
  ⟨_, rfl, by decide, by decide, by decide, netconf_follows_plan 9 2 twoKinds _ rfl⟩

/-! ## Runs in which every request can be sent -/

/-- `nl_send_simple` doesn't fail. -/
def Action.Sends : Action → Prop
  | .start sends => sends = true
  | .message _ => True
  | .dumpEnd sends => sends = true

/-- While there is something to ask for, a dump is left. -/
structure Busy (monitor : BitVec 32) (query_existing : Int) (s : NetconfListener) : Prop extends Inv monitor s where
  existing : s.query_existing = query_existing
  settled : s.started = true → 0 < query_existing → s.dumps = [] → s.sent = plan monitor

section

variable {monitor : BitVec 32} {query_existing : Int} {s : NetconfListener}

theorem query_existing_kept (s : NetconfListener) (sends : Bool) :
    (crtx_netconf_query_interfaces s sends).1.query_existing = s.query_existing := by
  unfold crtx_netconf_query_interfaces request
  (repeat' split) <;> rfl

theorem Inv.query_settled (h : Inv monitor s) (hd : (crtx_netconf_query_interfaces s true).1.dumps = []) :
    (crtx_netconf_query_interfaces s true).1.sent = plan monitor := by
  rw [query_interfaces_spec h.queried, h.next_eq] at hd ⊢
  cases hr : (plan monitor)[s.sent.length]? with
  | none =>
    rw [List.getElem?_eq_none_iff] at hr
    rw [Option.elim_none, h.sent, List.take_of_length_le hr]
  | some r => simp [hr, request] at hd

theorem start_existing (s : NetconfListener) (sends : Bool) :
    (netconf_state_handler s sends).query_existing = s.query_existing := by
  unfold netconf_state_handler
  dsimp only
  split <;> simp [query_existing_kept, joinAll_fields]

theorem msg_end_existing (s : NetconfListener) (sends : Bool) :
    (crtx_libnl_msg_end s sends).query_existing = s.query_existing := by
  unfold crtx_libnl_msg_end
  dsimp only
  (repeat' split) <;> simp [query_existing_kept]

theorem Busy.start (h : Busy monitor query_existing s) (hidle : s.started = false) :
    Busy monitor query_existing (netconf_state_handler { s with started := true } true) := by
  refine ⟨h.toInv.start hidle true, (start_existing _ _).trans h.existing, fun _ hpos hd => ?_⟩
  rw [← h.existing] at hpos
  have hexisting := (joinAll_fields { s with started := true }).2.2
  unfold netconf_state_handler at hd ⊢
  rw [if_pos (by rw [hexisting]; exact hpos)] at hd ⊢
  exact (h.toInv.starting hidle).1.query_settled hd

theorem Busy.msg_end (h : Busy monitor query_existing s) (hne : s.dumps ≠ []) :
    Busy monitor query_existing (crtx_libnl_msg_end { s with dumps := s.dumps.tail } true) := by
  refine ⟨h.toInv.msg_end hne true, (msg_end_existing _ _).trans h.existing, fun _ hpos hd => ?_⟩
  rw [← h.existing] at hpos
  rw [h.toInv.msg_end_eq hne] at hd ⊢
  split at hd
  · rename_i hleft
    rw [if_pos hleft]
    exact (h.toInv.reported hne).query_settled hd
  · rename_i hdone
    rw [if_neg hdone]
    have hall : AllQueried s := by
      by_contra hno
      exact hdone ⟨hpos, hno⟩
    exact (h.toInv.allQueried.mp hall).2

theorem step_busy (s : NetconfListener) (a : Action) (h : Busy monitor query_existing s) (ha : a.Sends)
    (he : Enabled s a) : Busy monitor query_existing (apply s a) := by
  cases a with
  | start sends =>
    obtain rfl : sends = true := ha
    exact h.start he
  | message t => exact ⟨h.toInv.message t, h.existing, h.settled⟩
  | dumpEnd sends =>
    obtain rfl : sends = true := ha
    exact h.msg_end he

end

/-- Once the kernel has no dump left, all that is monitored has been asked for, in the order of the plan. The last end
of a dump was reported as the last, and the listener has stopped itself if it should, unless something is monitored that
the code doesn't know. -/
theorem netconf_queries_all (monitor : BitVec 32) (query_existing : Int) (hpos : 0 < query_existing) (as : List Action)
    (s : NetconfListener) (hsends : ∀ a ∈ as, a.Sends) (hr : run step as (initial monitor query_existing) = some s)
    (hstarted : s.started = true) (hd : s.dumps = []) :
    s.sent = plan monitor ∧ answers s = (List.range (plan monitor).length).map (answer monitor) ∧
      (s.stopped = true ↔ query_existing = 2 ∧ Known monitor ∧ plan monitor ≠ []) := by
  have h0 : Busy monitor query_existing (initial monitor query_existing) :=
    ⟨initial_inv monitor query_existing, rfl, fun hf => by cases hf⟩
  have h := guarded_keeps step_busy as _ _ h0 (meets_of_forall hsends _) hr
  have hsent := h.settled hstarted hpos hd
  refine ⟨hsent, ?_, ?_⟩
  · rw [h.answers, hd, hsent, List.length_nil, Nat.sub_zero]
  · rw [h.stopped, h.existing]
    simp [hd, hsent]

theorem netconf_queries_all_two : ∃ s, run step twoKinds (initial 9 2) = some s ∧ s.sent = plan 9 ∧
    answers s = (List.range (plan 9).length).map (answer 9) ∧ (s.stopped = true ↔ (2 : Int) = 2 ∧ Known 9 ∧ plan 9 ≠ []) :=
  ⟨_, rfl, netconf_queries_all 9 2 (by decide) twoKinds _ (by simp [twoKinds, Action.Sends]) rfl rfl rfl⟩

end Libcortex.NetConf
