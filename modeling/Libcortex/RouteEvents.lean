import Mathlib.Data.Option.Basic
import Libcortex.RouteLink

/-!
# From datagrams to events

The listener hands every message that it wants to `raw2dict`, and the dictionary is the data of an event. What the
events of a datagram have to be can be said without the loops: each message has a meaning, which is a list of fields.
-/

open Libcortex.Lib

namespace Libcortex.Route

open Dicts DictBuild
open Netlink (typeAt nlmsg_len headerLen Datagram Call NLMSG_OK)

/-! ## The code -/

def RTM_NEWNEIGH : Nat := 28
def RTM_DELNEIGH : Nat := 29

/-- The outer `none` stands for a read of bytes that the message doesn't have or that were never set, with which the
code goes on. The inner one stands for NULL. -/
def crtx_nl_route_raw2dict_ifaddr (env : Env) (all_fields : Bool) (nlh : List UInt8) : Option (Option Build) :=
  if typeAt nlh = RTM_NEWADDR ∨ typeAt nlh = RTM_DELADDR then
    (crtx_nl_route_raw2dict_addr env nlh all_fields).map some
  else if typeAt nlh = RTM_NEWLINK ∨ typeAt nlh = RTM_DELLINK then
    (crtx_nl_route_raw2dict_interface nlh all_fields).map some
  else some none

def crtx_nl_route_raw2dict_ifaddr2 (env : Env) (all_fields : Bool) (nlh : List UInt8) : Option (Option Build) :=
  if typeAt nlh = RTM_NEWADDR ∨ typeAt nlh = RTM_DELADDR then
    (crtx_nl_route_raw2dict_addr env nlh all_fields).map some
  else if typeAt nlh = RTM_NEWLINK ∨ typeAt nlh = RTM_DELLINK then
    (crtx_nl_route_raw2dict_interface nlh all_fields).map some
  else if typeAt nlh = RTM_NEWNEIGH ∨ typeAt nlh = RTM_DELNEIGH then
    (crtx_nl_route_raw2dict_neigh nlh).map some
  else some none

/-! ## What has to hold -/

instance (ifa : IfAddrMsg) (all_fields : Bool) (p : Placed) : Decidable (Readable ifa all_fields p) := by
  unfold Readable
  infer_instance

instance (env : Env) (ifa : IfAddrMsg) (all_fields : Bool) (ps : List Placed) :
    Decidable (AddrLegible env ifa all_fields ps) := by
  unfold AddrLegible
  infer_instance

instance (all_fields : Bool) (p : Placed) : Decidable (LinkReadable all_fields p) := by
  unfold LinkReadable
  infer_instance

/-- The fields of a message about an address. `none`: it can't be read. -/
def addrMeaning (env : Env) (all_fields : Bool) (action : CString) (nlh : List UInt8) : Option (List Field) :=
  (ifaddrmsg (nlh.drop headerLen)).bind fun ifa =>
    if AddrLegible env ifa all_fields (addrAttrs nlh) then some (addrFields env ifa all_fields action (addrAttrs nlh))
    else none

def linkMeaning (all_fields : Bool) (action : CString) (nlh : List UInt8) : Option (List Field) :=
  (ifinfomsg (nlh.drop headerLen)).bind fun ifi =>
    if ∀ p ∈ linkAttrs nlh, LinkReadable all_fields p then some (linkFields ifi all_fields action (linkAttrs nlh))
    else none

def neighMeaning (nlh : List UInt8) : Option (List Field) := (ndmsg (nlh.drop headerLen)).map neighFields

/-- The fields of a message, if it is one of those that have any. -/
def meaning (env : Env) (all_fields : Bool) (nlh : List UInt8) : Option (Option (List Field)) :=
  match actionName RTM_NEWADDR RTM_DELADDR (typeAt nlh), actionName RTM_NEWLINK RTM_DELLINK (typeAt nlh) with
  | some action, _ => (addrMeaning env all_fields action nlh).map some
  | none, some action => (linkMeaning all_fields action nlh).map some
  | none, none => some none

/-- Messages about neighbours have fields as well. -/
def meaning2 (env : Env) (all_fields : Bool) (nlh : List UInt8) : Option (Option (List Field)) :=
  if typeAt nlh = RTM_NEWNEIGH ∨ typeAt nlh = RTM_DELNEIGH then (neighMeaning nlh).map some
  else meaning env all_fields nlh

/-- A dictionary that shows these fields, or none where there are none. -/
abbrev Conveys : Option (Option Build) → Option (Option (List Field)) → Prop := Option.Rel (Option.Rel Shows)

/-- If the message can be read, the dictionary shows its fields, or is missing where it has none. -/
def Tells (env : Env) (all_fields : Bool) (dict : Option (Option Build)) (nlh : List UInt8) : Prop :=
  ∀ fields, meaning env all_fields nlh = some fields → ∃ d, dict = some d ∧ Option.Rel Shows d fields

theorem Conveys.tells {env : Env} {all_fields : Bool} {dict : Option (Option Build)} {nlh : List UInt8}
    (h : Conveys dict (meaning env all_fields nlh)) : Tells env all_fields dict nlh := by
  intro fields hfields
  rw [hfields] at h
  cases h with
  | some h => exact ⟨_, rfl, h⟩

/-! ## Messages -/

theorem Gives.rel {r : Option Build} {legible : Prop} [Decidable legible] {fields : List Field}
    (h : Gives r legible fields) : Option.Rel Shows r (if legible then some fields else none) := by
  cases r with
  | none =>
    rw [if_neg fun hl => h.1.mpr hl rfl]
    exact .none
  | some b =>
    rw [if_pos (h.1.mp (Option.some_ne_none b))]
    exact .some (h.2 b rfl)

theorem actionName_isSome {new del type : Nat} {action : CString} (h : actionName new del type = some action) :
    type = new ∨ type = del := by
  unfold actionName at h
  split at h
  · exact .inl ‹_›
  · split at h
    · exact .inr ‹_›
    · cases h

theorem actionName_none {new del type : Nat} : actionName new del type = none ↔ ¬ (type = new ∨ type = del) := by
  unfold actionName
  split
  · simp_all
  · split <;> simp_all

theorem Conveys.map_some {r : Option Build} {m : Option (List Field)} (h : Option.Rel Shows r m) :
    Conveys (r.map some) (m.map some) := by
  cases h with
  | none => exact .none
  | some h => exact .some (.some h)

section

variable (env : Env) (all_fields : Bool) {nlh : List UInt8} (hlen : nlh.length = nlmsg_len nlh)

include hlen

theorem addr_conveys (hmax : nlh.length < 2 ^ 30) {action : CString}
    (haction : actionName RTM_NEWADDR RTM_DELADDR (typeAt nlh) = some action) :
    Option.Rel Shows (crtx_nl_route_raw2dict_addr env nlh all_fields) (addrMeaning env all_fields action nlh) := by
  unfold addrMeaning
  cases hifa : ifaddrmsg (nlh.drop headerLen) with
  | none =>
    rw [crtx_nl_route_raw2dict_addr, hifa]
    exact .none
  | some ifa => exact (raw2dict_addr_gives env hlen hmax all_fields haction hifa).rel

theorem link_conveys (hmax : nlh.length < 2 ^ 30) {action : CString}
    (haction : actionName RTM_NEWLINK RTM_DELLINK (typeAt nlh) = some action) :
    Option.Rel Shows (crtx_nl_route_raw2dict_interface nlh all_fields) (linkMeaning all_fields action nlh) := by
  unfold linkMeaning
  cases hifi : ifinfomsg (nlh.drop headerLen) with
  | none =>
    rw [crtx_nl_route_raw2dict_interface, hifi]
    exact .none
  | some ifi => exact (raw2dict_interface_gives hlen hmax all_fields haction hifi).rel

theorem neigh_conveys : Option.Rel Shows (crtx_nl_route_raw2dict_neigh nlh) (neighMeaning nlh) := by
  unfold neighMeaning
  cases hndm : ndmsg (nlh.drop headerLen) with
  | none =>
    rw [crtx_nl_route_raw2dict_neigh, hndm]
    exact .none
  | some ndm => simpa using (raw2dict_neigh_gives hlen hndm).rel

theorem ifaddr_conveys (hmax : nlh.length < 2 ^ 30) :
    Conveys (crtx_nl_route_raw2dict_ifaddr env all_fields nlh) (meaning env all_fields nlh) := by
  unfold crtx_nl_route_raw2dict_ifaddr meaning
  cases haddr : actionName RTM_NEWADDR RTM_DELADDR (typeAt nlh) with
  | some action =>
    rw [if_pos (actionName_isSome haddr)]
    exact .map_some (addr_conveys env all_fields hlen hmax haddr)
  | none =>
    rw [if_neg (actionName_none.mp haddr)]
    cases hlink : actionName RTM_NEWLINK RTM_DELLINK (typeAt nlh) with
    | some action =>
      rw [if_pos (actionName_isSome hlink)]
      exact .map_some (link_conveys all_fields hlen hmax hlink)
    | none =>
      rw [if_neg (actionName_none.mp hlink)]
      exact .some .none

/-- Neither kind of message is about neighbours. -/
theorem ifaddr2_conveys (hmax : nlh.length < 2 ^ 30) :
    Conveys (crtx_nl_route_raw2dict_ifaddr2 env all_fields nlh) (meaning2 env all_fields nlh) := by
  have hplain := ifaddr_conveys env all_fields hlen hmax
  unfold crtx_nl_route_raw2dict_ifaddr at hplain
  unfold crtx_nl_route_raw2dict_ifaddr2 meaning2
  by_cases hneigh : typeAt nlh = RTM_NEWNEIGH ∨ typeAt nlh = RTM_DELNEIGH
  · have haddr : ¬ (typeAt nlh = RTM_NEWADDR ∨ typeAt nlh = RTM_DELADDR) := by
      unfold RTM_NEWADDR RTM_DELADDR RTM_NEWNEIGH RTM_DELNEIGH at *
      omega
    have hlink : ¬ (typeAt nlh = RTM_NEWLINK ∨ typeAt nlh = RTM_DELLINK) := by
      unfold RTM_NEWLINK RTM_DELLINK RTM_NEWNEIGH RTM_DELNEIGH at *
      omega
    rw [if_neg haddr, if_neg hlink, if_pos hneigh, if_pos hneigh]
    exact .map_some (neigh_conveys hlen)
  · rwa [if_neg hneigh, if_neg hneigh]

end

/-! ## Datagrams -/

/-- `raw2dict` of a listener, as `crtx_setup_nl_route_raw_listener` sets it. -/
def routeListener (env : Env) (all_fields : Bool) (nlmsg_types : List Nat) (msg_done_cb : Bool) :
    Netlink.RouteListener (Option (Option Build)) :=
  ⟨nlmsg_types, some (crtx_nl_route_raw2dict_ifaddr env all_fields), msg_done_cb⟩

/-- The messages that the listener wants, without what follows them in the datagram. -/
def wantedMessages (nlmsg_types : List Nat) (d : Datagram) : List (List UInt8) :=
  ((Netlink.messages d).filter fun m => Netlink.wanted (typeAt m) nlmsg_types).map fun m => m.take (nlmsg_len m)

theorem length_take_message {m : List UInt8} (h : NLMSG_OK m m.length) :
    (m.take (nlmsg_len m)).length = nlmsg_len (m.take (nlmsg_len m)) := by
  obtain ⟨-, hhead, hle⟩ := h
  unfold headerLen at hhead
  have hlen : nlmsg_len (m.take (nlmsg_len m)) = nlmsg_len m := by
    rw [Netlink.nlmsg_len, List.take_take, Nat.min_eq_left (by omega), ← Netlink.nlmsg_len]
  rw [hlen, List.length_take]
  omega

theorem gather_route {δ : Type} (nlmsg_types : List Nat) (raw2dict : List UInt8 → δ) (done : Bool) (d : Datagram)
    (rest : List UInt8) :
    Netlink.gather ((Netlink.messages d).map fun m =>
        Netlink.routeMessage ⟨nlmsg_types, some raw2dict, done⟩ (m ++ rest) m.length) =
      some (((wantedMessages nlmsg_types d).map raw2dict).map .dictEvent) := by
  have hmessage : ∀ m ∈ Netlink.messages d,
      Netlink.routeMessage ⟨nlmsg_types, some raw2dict, done⟩ (m ++ rest) m.length =
        some
          (if Netlink.wanted (typeAt m) nlmsg_types then [.dictEvent (raw2dict (m.take (nlmsg_len m)))] else []) := by
    intro m hm
    have hok := (Netlink.walk_messages _ _ m hm).1
    rw [Netlink.routeMessage, Netlink.typeAt_append hok]
    dsimp only
    rw [Netlink.take_message hok]
    exact (apply_ite some _ _ _).symm
  rw [Netlink.gather_map hmessage, wantedMessages]
  generalize Netlink.messages d = ms
  congr 1
  induction ms with
  | nil => rfl
  | cons m ms ih =>
    by_cases hw : Netlink.wanted (typeAt m) nlmsg_types <;> simp [hw, ih]

theorem receive_definite {δ : Type} (l : Netlink.RouteListener δ) {d : Datagram} (hdef : Netlink.Definite d)
    {rest : List UInt8} (hrest : d.1.length + rest.length = Netlink.bufferSize) {calls : List (Call δ)}
    (hcalls : Netlink.gather ((Netlink.messages d).map fun m => Netlink.routeMessage l (m ++ rest) m.length) =
      some calls) :
    ∃ ends, Netlink.nl_route_read_cb l d.1.length (d.1 ++ rest) = some (calls ++ ends) ∧
      ((Netlink.ContainsDone d ∧ ends = [if l.msg_done_cb then .doneCallback else .doneEvent]) ∨
        (¬ Netlink.ContainsDone d ∧ ends = [])) := by
  have hne : d.1 ≠ [] := by
    intro h
    apply hdef.stop_ne_nil
    rw [Netlink.stop, h, Netlink.walk_nil]
  obtain ⟨k, hk, hreceive⟩ := @Netlink.receive_walk _ (Netlink.routeMessage l) (Netlink.routeDone l) _ hne
  obtain rfl : k = 0 := hk.resolve_right hdef.stop_ne_nil
  rw [Netlink.nl_route_read_cb, hreceive, hcalls, Option.bind_some, List.drop_zero]
  rcases hdef with hok | ⟨h5, htype⟩
  · have hlong := hok.1
    unfold headerLen at hlong
    refine ⟨_, ?_, .inl ⟨hok, rfl⟩⟩
    rw [Netlink.nlmsg_type_append (by omega), Netlink.stop_type hok, Option.map_some, if_pos rfl]
    rfl
  · obtain ⟨type, hsome, hne'⟩ := Netlink.type_of_definite h5 htype hrest
    refine ⟨[], ?_, .inr ⟨Netlink.not_containsDone htype, rfl⟩⟩
    rw [hsome, Option.map_some, if_neg hne', List.append_nil]

/-- A datagram whose end is definite gives one event for each message that is wanted, in their order, and then says once
that it is done, if the kernel said so. The dictionary of each event tells what the message means. -/
theorem route_events_convey (env : Env) (all_fields : Bool) (nlmsg_types : List Nat) (msg_done_cb : Bool) (d : Datagram)
    (hdef : Netlink.Definite d) (rest : List UInt8) (hrest : d.1.length + rest.length = Netlink.bufferSize) :
    ∃ dicts ends,
      Netlink.nl_route_read_cb (routeListener env all_fields nlmsg_types msg_done_cb) d.1.length (d.1 ++ rest) =
        some (dicts.map .dictEvent ++ ends) ∧
      List.Forall₂ (Tells env all_fields) dicts (wantedMessages nlmsg_types d) ∧
      ((Netlink.ContainsDone d ∧ ends = [if msg_done_cb then .doneCallback else .doneEvent]) ∨
        (¬ Netlink.ContainsDone d ∧ ends = [])) := by
  obtain ⟨ends, hread, hends⟩ := receive_definite (routeListener env all_fields nlmsg_types msg_done_cb) hdef hrest
    (gather_route nlmsg_types (crtx_nl_route_raw2dict_ifaddr env all_fields) msg_done_cb d rest)
  refine ⟨_, ends, hread, ?_, hends⟩
  rw [List.forall₂_map_left_iff, List.forall₂_same]
  intro nlh hnlh
  obtain ⟨m, hm, rfl⟩ := List.mem_map.mp hnlh
  obtain ⟨hok, -, hle⟩ := Netlink.walk_messages _ _ m (List.mem_of_mem_filter hm)
  have hsize := d.2
  unfold Netlink.bufferSize at hsize
  refine (ifaddr_conveys env all_fields (length_take_message hok) ?_).tells
  rw [List.length_take]
  omega

/-- The address 127.0.0.1 of the first interface, without its name, and the end. -/
def oneAddress : Datagram :=
  ⟨[32, 0, 0, 0, 20, 0, 2, 0, 1, 0, 0, 0, 0, 0, 0, 0, 2, 8, 0x80, 254, 1, 0, 0, 0, 8, 0, 1, 0, 127, 0, 0, 1,
    20, 0, 0, 0, 3, 0, 2, 0, 1, 0, 0, 0, 0, 0, 0, 0, 0, 0, 0, 0], by decide⟩

def oneInterface : Env where
  inet_ntop family addr := if family = AF_INET ∧ addr = [127, 0, 0, 1] then some (text "127.0.0.1") else none
  if_indextoname index := if index = 1 then some (text "lo") else none

theorem route_events_convey_one :
    ∃ dicts ends,
      Netlink.nl_route_read_cb (routeListener oneInterface true [20, 21, 0] true) 52
          (oneAddress.1 ++ List.replicate 4044 0) = some (dicts.map .dictEvent ++ ends) ∧
      List.Forall₂ (Tells oneInterface true) dicts (wantedMessages [20, 21, 0] oneAddress) ∧
      ((Netlink.ContainsDone oneAddress ∧ ends = [.doneCallback]) ∨
        (¬ Netlink.ContainsDone oneAddress ∧ ends = [])) :=
  route_events_convey oneInterface true [20, 21, 0] true oneAddress (.inl (by unfold Netlink.ContainsDone; decide))
    (List.replicate 4044 0) (by rw [List.length_replicate]; decide)

end Libcortex.Route
