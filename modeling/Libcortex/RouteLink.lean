import Libcortex.RouteAddr

/-!
# Messages about interfaces and neighbours

A message about an interface has the hardware addresses as they are, and the dictionary has them as text. Six bytes are
always formatted, and the text is cut off where the address of the attribute ends.
-/

open Libcortex.Lib

namespace Libcortex.Route

open Dicts DictBuild
open Netlink (typeAt nlmsg_len headerLen)
open DictWire (cstring)

/-! ## Interfaces -/

def RTM_NEWLINK : Nat := 16
def RTM_DELLINK : Nat := 17

def IFLA_ADDRESS : Nat := 1
def IFLA_BROADCAST : Nat := 2
def IFLA_IFNAME : Nat := 3
def IFLA_MTU : Nat := 4
def IFLA_LINK : Nat := 5
def IFLA_QDISC : Nat := 6
def IFLA_STATS : Nat := 7

/-- `struct ifinfomsg`, as far as it is read. -/
structure IfInfoMsg where
  ifi_index : BitVec 32
  ifi_flags : BitVec 32
deriving DecidableEq, Repr

/-- `sizeof(struct ifinfomsg)` -/
def ifinfomsgSize : Nat := 16

/-- `none`: the message is too short for it. -/
def ifinfomsg (mem : List UInt8) : Option IfInfoMsg :=
  if 12 ≤ mem.length then some ⟨word (mem.drop 4), word (mem.drop 8)⟩ else none

/-- `IFF_UP` and so on -/
def ifiFlags : List (Nat × CString) :=
  [(0x1, text "UP"), (0x2, text "BROADCAST"), (0x4, text "DEBUG"), (0x8, text "LOOPBACK"), (0x10, text "POINTOPOINT"),
    (0x20, text "NOTRAILERS"), (0x40, text "RUNNING"), (0x80, text "NOARP"), (0x100, text "PROMISC"),
    (0x200, text "ALLMULTI"), (0x400, text "MASTER"), (0x800, text "SLAVE"), (0x1000, text "MULTICAST"),
    (0x2000, text "PORTSEL"), (0x4000, text "AUTOMEDIA"), (0x8000, text "DYNAMIC")]

/-- `%02x` -/
def hexByte (b : UInt8) : List UInt8 := [hexDigit (b.toNat / 16), hexDigit (b.toNat % 16)]

/-- `%02x:%02x:…` -/
def hexText : List UInt8 → List UInt8
  | [] => []
  | [b] => hexByte b
  | b :: bs => hexByte b ++ 58 :: hexText bs

theorem zero_notMem_hexText : ∀ bs : List UInt8, 0 ∉ hexText bs
  | [] => by simp [hexText]
  | [b] => by
    have := b.toNat_lt
    simp [hexText, hexByte, (hexDigit_ne_zero (n := b.toNat / 16) (by omega)).symm,
      (hexDigit_ne_zero (n := b.toNat % 16) (by omega)).symm]
  | b :: c :: bs => by
    have := b.toNat_lt
    have ih := zero_notMem_hexText (c :: bs)
    simp [hexText, hexByte, (hexDigit_ne_zero (n := b.toNat / 16) (by omega)).symm,
      (hexDigit_ne_zero (n := b.toNat % 16) (by omega)).symm]
    simpa [hexText, hexByte] using ih

/-- What `snprintf` leaves in `s`, which has three bytes for each byte of the attribute. `none`: it leaves nothing
there, or it reads beyond the end of the message. -/
def hardwareAddress (p : Placed) : Option CString :=
  if p.mem.length < 6 ∨ p.length = 0 then none
  else some ⟨(hexText (p.mem.take 6)).take (3 * p.length - 1), fun h =>
    zero_notMem_hexText _ (List.mem_of_mem_take h)⟩

/-- The members of `struct rtnl_link_stats` that become items, in the order of the items, with their offsets in words. -/
def statsMembers : List (CString × Nat) :=
  [(text "tx_packets", 1), (text "tx_bytes", 3), (text "rx_packets", 0), (text "rx_bytes", 2), (text "rx_errors", 4),
    (text "tx_errors", 5), (text "rx_dropped", 6), (text "tx_dropped", 7), (text "multicast", 8),
    (text "collisions", 9), (text "rx_length_errors", 10), (text "rx_over_errors", 11), (text "rx_crc_errors", 12),
    (text "rx_frame_errors", 13), (text "rx_fifo_errors", 14), (text "rx_missed_errors", 15),
    (text "tx_aborted_errors", 16), (text "tx_carrier_errors", 17), (text "tx_fifo_errors", 18),
    (text "tx_heartbeat_errors", 19), (text "tx_window_errors", 20), (text "rx_compressed", 21),
    (text "tx_compressed", 22)]

def statsWords (stats : List UInt8) : List (CString × BitVec 32) :=
  statsMembers.map fun x => (x.1, word (stats.drop (4 * x.2)))

def statsDict (stats : List UInt8) : Option Dict :=
  let d := crtx_init_dict none 23
  fillFrom d (crtx_get_first_item d) (statsWords stats)

/-- The loop's variables. `di` is the item that was taken last. -/
structure LinkState where
  b : Build
  di : Nat

/-- An item is taken and filled, and it is `di`. -/
def LinkState.add (s : LinkState) (c : Char) (key : CString) (a : Args) : LinkState :=
  let (b, di) := s.b.alloc
  ⟨b.fill di c (some key) a, di⟩

/-- The body of the loop. `none`: it reads beyond the end of the message, or an item gets no text. -/
def linkAttr (all_fields : Bool) (s : LinkState) (p : Placed) : Option LinkState :=
  if p.type = IFLA_ADDRESS ∨ p.type = IFLA_BROADCAST then
    (hardwareAddress p).map fun address =>
      s.add 's' (if p.type = IFLA_ADDRESS then text "address" else text "broadcast")
        ⟨.string (some address), BitVec.ofNat 64 (p.length * 3 - 1), 0⟩
  else if p.type = IFLA_IFNAME then
    (stringAt p.mem).map fun name => s.add 's' (text "interface") (copied name)
  else if p.type = IFLA_MTU then
    if p.mem.length < 4 then none else some (s.add 'u' (text "mtu") (number (word p.mem) 0))
  else if p.type = IFLA_LINK then
    if p.mem.length < 4 then none else some (s.add 'i' (text "link") (number (word p.mem) 0))
  else if p.type = IFLA_QDISC then
    (stringAt p.mem).map fun name => s.add 's' (text "qdisc") (copied name)
  else if p.type = IFLA_STATS ∧ all_fields = true then
    if p.mem.length < 92 then none
    else
      (statsDict p.mem).map fun d =>
        let (b, di) := s.b.alloc
        ⟨b.assign di (text "stats") d, di⟩
  else some s

/-- What comes before the loop. -/
def linkHead (ifi : IfInfoMsg) (type : Nat) : LinkState :=
  let b := addAction RTM_NEWLINK RTM_DELLINK type .empty
  let b := b.add 'i' (some (text "index")) (number ifi.ifi_index 4)
  let (b, di) := b.alloc
  ⟨b.assign di (text "flags") (addFlags ifi.ifi_flags.toNat some ifiFlags (crtx_init_dict none 0)), di⟩

def crtx_nl_route_raw2dict_interface (nlh : List UInt8) (all_fields : Bool) : Option Build :=
  (ifinfomsg (nlh.drop headerLen)).bind fun ifi =>
    let rth := nlh.drop (NLMSG_SPACE ifinfomsgSize)
    (attrLoop (linkAttr all_fields) (nlh.length + 1) rth (nlmsg_len nlh - NLMSG_SPACE ifinfomsgSize)
      (linkHead ifi (typeAt nlh))).map fun s => { s.b with dict := endAt s.b.dict s.di }

/-! ## What has to hold -/

/-- The bytes of a hardware address, of which no more than six are shown. -/
def shownBytes (p : Placed) : List UInt8 := p.payload.take 6

def addressText (p : Placed) : CString := ⟨hexText (shownBytes p), zero_notMem_hexText _⟩

def hardwareField (key : CString) (p : Placed) : Field :=
  .item ⟨some 's', 0, some key, BitVec.ofNat 64 (p.length * 3 - 1), .string (some (addressText p))⟩

/-- What is read of the attribute is inside the message, and a hardware address is not empty. -/
def LinkReadable (all_fields : Bool) (p : Placed) : Prop :=
  if p.type = IFLA_ADDRESS ∨ p.type = IFLA_BROADCAST then 6 ≤ p.mem.length ∧ 0 < p.length
  else if p.type = IFLA_IFNAME ∨ p.type = IFLA_QDISC then 0 ∈ p.mem
  else if p.type = IFLA_MTU ∨ p.type = IFLA_LINK then 4 ≤ p.mem.length
  else p.type = IFLA_STATS ∧ all_fields = true → 92 ≤ p.mem.length

def linkAttrFields (all_fields : Bool) (p : Placed) : List Field :=
  if p.type = IFLA_ADDRESS then [hardwareField (text "address") p]
  else if p.type = IFLA_BROADCAST then [hardwareField (text "broadcast") p]
  else if p.type = IFLA_IFNAME then [copiedField (text "interface") (cstring p.mem)]
  else if p.type = IFLA_MTU then [wordField 'u' (text "mtu") (word p.mem) 0]
  else if p.type = IFLA_LINK then [wordField 'i' (text "link") (word p.mem) 0]
  else if p.type = IFLA_QDISC then [copiedField (text "qdisc") (cstring p.mem)]
  else if p.type = IFLA_STATS ∧ all_fields = true then [.dict (text "stats") ((statsWords p.mem).map numberField)]
  else []

def linkHeadFields (ifi : IfInfoMsg) (action : CString) : List Field :=
  actionFields action ++ [wordField 'i' (text "index") ifi.ifi_index 4,
    .dict (text "flags") (flagItems ifi.ifi_flags.toNat some ifiFlags)]

/-! ## Hardware addresses -/

theorem hexText_cons (b c : UInt8) (bs : List UInt8) : hexText (b :: c :: bs) = hexByte b ++ 58 :: hexText (c :: bs) :=
  rfl

theorem take_hexText : ∀ (bs : List UInt8) (n : Nat), 0 < n → (hexText bs).take (3 * n - 1) = hexText (bs.take n)
  | [], n, _ => by simp [hexText]
  | [b], n, h => by
    obtain ⟨n, rfl⟩ : ∃ m, n = m + 1 := ⟨n - 1, by omega⟩
    have hlen : (hexText [b]).length ≤ 3 * (n + 1) - 1 := by
      simp [hexText, hexByte]
      omega
    rw [List.take_of_length_le hlen]
    simp
  | b :: c :: bs, n, h => by
    obtain ⟨n, rfl⟩ : ∃ m, n = m + 1 := ⟨n - 1, by omega⟩
    cases n with
    | zero => rfl
    | succ n =>
      have ih := take_hexText (c :: bs) (n + 1) (by omega)
      have hn : 3 * (n + 1 + 1) - 1 = (3 * (n + 1) - 1) + 3 := by omega
      rw [hexText_cons, hn, List.take_succ_cons, List.take_succ_cons, hexText_cons, ← List.take_succ_cons, ← ih]
      simp [hexByte]

theorem hardwareAddress_spec {p : Placed} (h6 : 6 ≤ p.mem.length) (h0 : 0 < p.length) :
    hardwareAddress p = some (addressText p) := by
  have hbytes : (p.mem.take 6).take p.length = shownBytes p := by
    unfold shownBytes Placed.payload
    rw [List.take_take, List.take_take, Nat.min_comm]
  rw [hardwareAddress, if_neg (by omega), Option.some.injEq]
  apply Subtype.ext
  dsimp only
  rw [take_hexText _ _ h0, hbytes]
  rfl

/-! ## The parts of a message -/

variable {fields : List Field}

/-- The state after some attributes. Every item that has been taken is filled. -/
structure LinkState.Has (s : LinkState) (fields : List Field) : Prop where
  filled : Filled fields s.b
  di : s.di + 1 = fields.length

theorem LinkState.Has.add {s : LinkState} (h : s.Has fields) (hlt : fields.length + 1 < 2 ^ 32) {c : Char} {a : Args}
    (hp : Plain c a) (key : CString) : (s.add c key a).Has (fields ++ [.item (freshItem c (some key) a)]) := by
  obtain ⟨b, halloc, hspare⟩ := h.filled.alloc hlt
  rw [LinkState.add, halloc]
  exact ⟨hspare.fill hp (some key), by simp⟩

theorem hardware_plain (p : Placed) (s : CString) :
    Plain 's' ⟨.string (some s), BitVec.ofNat 64 (p.length * 3 - 1), 0⟩ :=
  ⟨rfl, rfl, by show (0 : BitVec 32).setWidth 8 &&& CRTX_DIF_LAST_ITEM = 0; decide⟩

theorem fresh_hardware (key : CString) (p : Placed) :
    Field.item (freshItem 's' (some key) ⟨.string (some (addressText p)), BitVec.ofNat 64 (p.length * 3 - 1), 0⟩) =
      hardwareField key p := by
  have hflags : (0 : BitVec 32).setWidth 8 = 0 := by decide
  rw [freshItem_uncopied _ _ (by show (0 : BitVec 32).setWidth 8 &&& CRTX_DIF_CREATE_DATA_COPY = 0; decide)
    (by show (0 : BitVec 32).setWidth 8 &&& CRTX_DIF_CREATE_KEY_COPY = 0; decide)]
  rfl

theorem statsDict_spec (stats : List UInt8) :
    ∃ d, statsDict stats = some d ∧ Contains d ((statsWords stats).map numberField) := by
  obtain ⟨d, hd, hlisted⟩ := fillFrom_init none (l := statsWords stats) (by simp [statsWords, statsMembers])
    (by simp [statsWords, statsMembers])
  exact ⟨d, hd, .of_listed hlisted⟩

theorem linkHead_spec (ifi : IfInfoMsg) {type : Nat} {action : CString}
    (h : actionName RTM_NEWLINK RTM_DELLINK type = some action) :
    (linkHead ifi type).Has (linkHeadFields ifi action) := by
  have hindex := Ready.add (.inl (addAction_spec h)) (by simp [actionFields])
    (number_plain (.inl rfl) ifi.ifi_index 4 (by decide)) (some (text "index"))
  rw [fresh_number (.inl rfl)] at hindex
  obtain ⟨b, halloc, hspare⟩ := hindex.alloc (by simp [actionFields])
  have hflags := addFlags_spec ifi.ifi_flags.toNat some ifiFlags listed_init (by decide)
  rw [List.nil_append] at hflags
  have hassign := hspare.assign (text "flags") (Contains.of_listed hflags)
  unfold linkHead
  dsimp only
  rw [halloc]
  exact ⟨by simpa [linkHeadFields, wordField] using hassign, by simp [linkHeadFields, actionFields]⟩

/-- The attribute can be read, and adds these fields, or it can't. -/
def Adds (r : Option LinkState) (readable : Prop) (fields : List Field) : Prop :=
  (readable → ∃ s, r = some s ∧ s.Has fields) ∧ (¬ readable → r = none)

section

variable {s : LinkState} (h : s.Has fields) (hlt : fields.length + 1 < 2 ^ 32)

include h hlt

theorem adds_string (p : Placed) (key : CString) :
    Adds ((stringAt p.mem).map fun name => s.add 's' key (copied name)) (0 ∈ p.mem)
      (fields ++ [copiedField key (cstring p.mem)]) := by
  refine ⟨fun hr => ?_, fun hr => by rw [stringAt_none hr]; rfl⟩
  have hadd := h.add hlt (copied_plain (cstring p.mem)) key
  rw [fresh_copied] at hadd
  exact ⟨_, by rw [stringAt_some hr]; rfl, hadd⟩

theorem adds_number {c : Char} (hc : c = 'i' ∨ c = 'u') (p : Placed) (key : CString) :
    Adds (if p.mem.length < 4 then none else some (s.add c key (number (word p.mem) 0))) (4 ≤ p.mem.length)
      (fields ++ [wordField c key (word p.mem) 0]) := by
  refine ⟨fun hr => ?_, fun hr => if_pos (by omega)⟩
  have hadd := h.add hlt (number_plain hc (word p.mem) 0 (by decide)) key
  rw [fresh_number hc] at hadd
  exact ⟨_, if_neg (by omega), hadd⟩

theorem adds_hardware (p : Placed) (key : CString) :
    Adds ((hardwareAddress p).map fun address =>
        s.add 's' key ⟨.string (some address), BitVec.ofNat 64 (p.length * 3 - 1), 0⟩)
      (6 ≤ p.mem.length ∧ 0 < p.length) (fields ++ [hardwareField key p]) := by
  refine ⟨fun hr => ?_, fun hr => ?_⟩
  · have hadd := h.add hlt (hardware_plain p (addressText p)) key
    rw [fresh_hardware] at hadd
    exact ⟨_, by rw [hardwareAddress_spec hr.1 hr.2]; rfl, hadd⟩
  · rw [hardwareAddress, if_pos (by omega)]
    rfl

theorem adds_stats (p : Placed) :
    Adds (if p.mem.length < 92 then none
        else (statsDict p.mem).map fun d => let (b, di) := s.b.alloc; ⟨b.assign di (text "stats") d, di⟩)
      (92 ≤ p.mem.length) (fields ++ [.dict (text "stats") ((statsWords p.mem).map numberField)]) := by
  refine ⟨fun hr => ?_, fun hr => if_pos (by omega)⟩
  obtain ⟨d, hd, hcontains⟩ := statsDict_spec p.mem
  obtain ⟨b, halloc, hspare⟩ := h.filled.alloc hlt
  rw [if_neg (by omega), hd, Option.map_some, halloc]
  exact ⟨_, rfl, hspare.assign (text "stats") hcontains, by simp⟩

theorem linkAttr_adds (all_fields : Bool) (p : Placed) :
    Adds (linkAttr all_fields s p) (LinkReadable all_fields p) (fields ++ linkAttrFields all_fields p) := by
  unfold linkAttr LinkReadable linkAttrFields
  by_cases h1 : p.type = IFLA_ADDRESS
  · simpa [h1] using adds_hardware h hlt p (text "address")
  by_cases h2 : p.type = IFLA_BROADCAST
  · simpa [h2, IFLA_ADDRESS, IFLA_BROADCAST] using adds_hardware h hlt p (text "broadcast")
  by_cases h3 : p.type = IFLA_IFNAME
  · simpa [h3, IFLA_ADDRESS, IFLA_BROADCAST, IFLA_IFNAME] using adds_string h hlt p (text "interface")
  by_cases h4 : p.type = IFLA_MTU
  · simpa [h4, IFLA_ADDRESS, IFLA_BROADCAST, IFLA_IFNAME, IFLA_MTU, IFLA_QDISC] using
      adds_number h hlt (.inr rfl) p (text "mtu")
  by_cases h5 : p.type = IFLA_LINK
  · simpa [h5, IFLA_ADDRESS, IFLA_BROADCAST, IFLA_IFNAME, IFLA_MTU, IFLA_LINK, IFLA_QDISC] using
      adds_number h hlt (.inl rfl) p (text "link")
  by_cases h6 : p.type = IFLA_QDISC
  · simpa [h6, IFLA_ADDRESS, IFLA_BROADCAST, IFLA_IFNAME, IFLA_MTU, IFLA_LINK, IFLA_QDISC] using
      adds_string h hlt p (text "qdisc")
  by_cases h7 : p.type = IFLA_STATS ∧ all_fields = true
  · simpa [h7, IFLA_ADDRESS, IFLA_BROADCAST, IFLA_IFNAME, IFLA_MTU, IFLA_LINK, IFLA_QDISC, IFLA_STATS] using
      adds_stats h hlt p
  · refine ⟨fun _ => ⟨s, ?_, ?_⟩, fun hr => absurd ?_ hr⟩
    · simp only [h1, h2, h3, h4, h5, h6, h7, or_self, if_false]
    · simpa [h1, h2, h3, h4, h5, h6, h7] using h
    · simp only [h1, h2, h3, h4, h5, h6, h7, or_self, if_false]
      exact False.elim

end

/-! ## The message -/

def linkAttrs (nlh : List UInt8) : List Placed := attributes (nlh.drop (NLMSG_SPACE ifinfomsgSize))

def linkFields (ifi : IfInfoMsg) (all_fields : Bool) (action : CString) (ps : List Placed) : List Field :=
  linkHeadFields ifi action ++ ps.flatMap (linkAttrFields all_fields)

theorem length_linkAttrFields (all_fields : Bool) (p : Placed) : (linkAttrFields all_fields p).length ≤ 1 := by
  unfold linkAttrFields
  repeat' split
  all_goals simp

theorem linkLoop_adds (all_fields : Bool) (ps : List Placed) :
    ∀ {fields : List Field} {s : LinkState}, s.Has fields → fields.length + ps.length < 2 ^ 32 →
      Adds (ps.foldlM (linkAttr all_fields) s) (∀ p ∈ ps, LinkReadable all_fields p)
        (fields ++ ps.flatMap (linkAttrFields all_fields)) := by
  induction ps with
  | nil => exact fun h _ => ⟨fun _ => ⟨_, rfl, by simpa using h⟩, fun hr => absurd (by simp) hr⟩
  | cons p ps ih =>
    intro fields s h hlt
    rw [List.length_cons] at hlt
    have hp := length_linkAttrFields all_fields p
    obtain ⟨hgood, hbad⟩ := linkAttr_adds h (by omega) all_fields p
    simp only [List.forall_mem_cons, List.foldlM_cons, List.flatMap_cons]
    by_cases hr : LinkReadable all_fields p
    · obtain ⟨s₁, hs₁, h₁⟩ := hgood hr
      have hrest := ih h₁ (by rw [List.length_append]; omega)
      simp only [hs₁, hr, true_and, ← List.append_assoc]
      exact hrest
    · rw [hbad hr]
      exact ⟨fun hall => absurd hall.1 hr, fun _ => rfl⟩

theorem raw2dict_interface_gives {nlh : List UInt8} (hlen : nlh.length = nlmsg_len nlh)
    (hmax : nlh.length < 2 ^ 30) (all_fields : Bool) {action : CString}
    (haction : actionName RTM_NEWLINK RTM_DELLINK (typeAt nlh) = some action) {ifi : IfInfoMsg}
    (hifi : ifinfomsg (nlh.drop headerLen) = some ifi) :
    Gives (crtx_nl_route_raw2dict_interface nlh all_fields) (∀ p ∈ linkAttrs nlh, LinkReadable all_fields p)
      (linkFields ifi all_fields action (linkAttrs nlh)) := by
  have hspace : NLMSG_SPACE ifinfomsgSize = 32 := rfl
  have hcount := attributes_length (nlh.drop (NLMSG_SPACE ifinfomsgSize))
  rw [List.length_drop, hspace] at hcount
  obtain ⟨hgood, hbad⟩ := linkLoop_adds all_fields (linkAttrs nlh) (linkHead_spec ifi haction) (by
    unfold linkAttrs
    rw [hspace]
    simp [linkHeadFields, actionFields]
    omega)
  rw [crtx_nl_route_raw2dict_interface, hifi, Option.bind_some]
  dsimp only
  rw [rtaLoop_eq _ hlen, ← linkAttrs]
  by_cases hr : ∀ p ∈ linkAttrs nlh, LinkReadable all_fields p
  · obtain ⟨s, hs, hhas⟩ := hgood hr
    rw [hs, Option.map_some]
    refine ⟨iff_of_true (Option.some_ne_none _) hr, fun b hb => ?_⟩
    obtain rfl := Option.some.inj hb
    exact (hhas.filled.endAt hhas.di).shows
  · rw [hbad hr]
    exact ⟨iff_of_false (fun h => h rfl) hr, fun b hb => by cases hb⟩

/-! ## Neighbours -/

/-- `struct ndmsg` -/
structure NdMsg where
  ndm_family : UInt8
  ndm_pad1 : UInt8
  ndm_pad2 : BitVec 16
  ndm_ifindex : BitVec 32
  ndm_state : BitVec 16
  ndm_flags : UInt8
  ndm_type : UInt8
deriving DecidableEq, Repr

/-- `sizeof(struct ndmsg)` -/
def ndmsgSize : Nat := 12

def half (mem : List UInt8) : BitVec 16 := BitVec.ofNat 16 (leNat (mem.take 2))

/-- `none`: the message is too short for it. -/
def ndmsg (mem : List UInt8) : Option NdMsg :=
  if 12 ≤ mem.length then
    some { ndm_family := mem.getD 0 0, ndm_pad1 := mem.getD 1 0, ndm_pad2 := half (mem.drop 2),
           ndm_ifindex := word (mem.drop 4), ndm_state := half (mem.drop 8), ndm_flags := mem.getD 10 0,
           ndm_type := mem.getD 11 0 }
  else none

/-- `NUD_INCOMPLETE` and so on -/
def ndmStates : List (Nat × CString) :=
  [(0x01, text "INCOMPLETE"), (0x02, text "REACHABLE"), (0x04, text "STALE"), (0x08, text "DELAY"),
    (0x10, text "PROBE"), (0x20, text "FAILED"), (0x40, text "NOARP"), (0x80, text "PERMANENT")]

/-- `NTF_PROXY` and `NTF_ROUTER` -/
def ndmFlags : List (Nat × CString) := [(0x08, text "PROXY"), (0x80, text "ROUTER")]

def emptyKey (_ : CString) : Option CString := some (text "")

/-- The attributes are gone over, and nothing is done with them. -/
def crtx_nl_route_raw2dict_neigh (nlh : List UInt8) : Option Build :=
  (ndmsg (nlh.drop headerLen)).bind fun ndm =>
    let b := Build.empty
    let b := b.add 'u' (some (text "ndm_family")) (number (BitVec.ofNat 32 ndm.ndm_family.toNat) 1)
    let b := b.add 'u' (some (text "ndm_pad1")) (number (BitVec.ofNat 32 ndm.ndm_pad1.toNat) 1)
    let b := b.add 'u' (some (text "ndm_pad2")) (number (ndm.ndm_pad2.setWidth 32) 2)
    let b := b.add 'i' (some (text "ndm_ifindex")) (number ndm.ndm_ifindex 4)
    let b := b.add 'u' (some (text "ndm_flags")) (number (BitVec.ofNat 32 ndm.ndm_flags.toNat) 1)
    let b := b.add 'u' (some (text "ndm_type")) (number (BitVec.ofNat 32 ndm.ndm_type.toNat) 1)
    let b := b.addDict (text "ndm_state")
      (addFlags ndm.ndm_state.toNat emptyKey ndmStates (crtx_init_dict none 0))
    let b := b.addDict (text "ndm_flags")
      (addFlags ndm.ndm_flags.toNat emptyKey ndmFlags (crtx_init_dict none 0))
    let rth := nlh.drop (NLMSG_SPACE ndmsgSize)
    attrLoop (fun b _ => some b) (nlh.length + 1) rth (nlmsg_len nlh - NLMSG_SPACE ndmsgSize) b

def neighFields (ndm : NdMsg) : List Field :=
  [wordField 'u' (text "ndm_family") (BitVec.ofNat 32 ndm.ndm_family.toNat) 1,
    wordField 'u' (text "ndm_pad1") (BitVec.ofNat 32 ndm.ndm_pad1.toNat) 1,
    wordField 'u' (text "ndm_pad2") (ndm.ndm_pad2.setWidth 32) 2,
    wordField 'i' (text "ndm_ifindex") ndm.ndm_ifindex 4,
    wordField 'u' (text "ndm_flags") (BitVec.ofNat 32 ndm.ndm_flags.toNat) 1,
    wordField 'u' (text "ndm_type") (BitVec.ofNat 32 ndm.ndm_type.toNat) 1,
    .dict (text "ndm_state") (flagItems ndm.ndm_state.toNat emptyKey ndmStates),
    .dict (text "ndm_flags") (flagItems ndm.ndm_flags.toNat emptyKey ndmFlags)]

theorem addNumber_spec {fields : List Field} {b : Build} (h : Filled fields b) (hlt : fields.length + 1 < 2 ^ 32)
    {c : Char} (hc : c = 'i' ∨ c = 'u') (key : CString) (w : BitVec 32) (size : BitVec 64) (hs : size.toNat ≤ 4) :
    Filled (fields ++ [wordField c key w size]) (b.add c (some key) (number w size)) := by
  have hadd := Ready.add (.inl h) hlt (number_plain hc w size hs) (some key)
  rwa [fresh_number hc] at hadd

theorem addFlagDict_spec {fields : List Field} {b : Build} (h : Filled fields b) (hlt : fields.length + 1 < 2 ^ 32)
    (key : CString) (flags : Nat) (name : CString → Option CString) (names : List (Nat × CString))
    (hn : names.length < 2 ^ 32) :
    Filled (fields ++ [.dict key (flagItems flags name names)])
      (b.addDict key (addFlags flags name names (crtx_init_dict none 0))) := by
  have hflags := addFlags_spec flags name names listed_init (by simpa using hn)
  rw [List.nil_append] at hflags
  exact Ready.addDict (.inl h) hlt key (.of_listed hflags)

theorem foldlM_skip {β : Type} (ps : List Placed) (b : β) : ps.foldlM (fun b _ => some b) b = some b := by
  induction ps with
  | nil => rfl
  | cons p ps ih => simpa using ih

theorem raw2dict_neigh_gives {nlh : List UInt8} (hlen : nlh.length = nlmsg_len nlh)
    {ndm : NdMsg} (hndm : ndmsg (nlh.drop headerLen) = some ndm) :
    Gives (crtx_nl_route_raw2dict_neigh nlh) True (neighFields ndm) := by
  have h1 := addNumber_spec empty_filled (by simp) (.inr rfl) (text "ndm_family")
    (BitVec.ofNat 32 ndm.ndm_family.toNat) 1 (by decide)
  have h2 := addNumber_spec h1 (by simp) (.inr rfl) (text "ndm_pad1") (BitVec.ofNat 32 ndm.ndm_pad1.toNat) 1
    (by decide)
  have h3 := addNumber_spec h2 (by simp) (.inr rfl) (text "ndm_pad2") (ndm.ndm_pad2.setWidth 32) 2 (by decide)
  have h4 := addNumber_spec h3 (by simp) (.inl rfl) (text "ndm_ifindex") ndm.ndm_ifindex 4 (by decide)
  have h5 := addNumber_spec h4 (by simp) (.inr rfl) (text "ndm_flags") (BitVec.ofNat 32 ndm.ndm_flags.toNat) 1
    (by decide)
  have h6 := addNumber_spec h5 (by simp) (.inr rfl) (text "ndm_type") (BitVec.ofNat 32 ndm.ndm_type.toNat) 1
    (by decide)
  have h7 := addFlagDict_spec h6 (by simp) (text "ndm_state") ndm.ndm_state.toNat emptyKey ndmStates (by decide)
  have h8 := addFlagDict_spec h7 (by simp) (text "ndm_flags") ndm.ndm_flags.toNat emptyKey ndmFlags (by decide)
  rw [crtx_nl_route_raw2dict_neigh, hndm, Option.bind_some]
  dsimp only
  rw [rtaLoop_eq _ hlen, foldlM_skip]
  refine ⟨iff_of_true (Option.some_ne_none _) trivial, fun b hb => ?_⟩
  obtain rfl := Option.some.inj hb
  exact h8.shows

end Libcortex.Route
