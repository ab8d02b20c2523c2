import Libcortex.RouteEvents

/-!
# Messages as they were written

What the kernel writes is a header, a fixed part and attributes. The dictionary of an event says what was written, if
every attribute is as long as what is read of it: then nothing depends on what comes behind an attribute.
-/

open Libcortex.Lib

namespace Libcortex.Route

open Dicts DictBuild
open Netlink (typeAt nlmsg_len headerLen Datagram Call NLMSG_OK)
open DictWire (cstring)

/-! ## Messages -/

/-- The fixed part of a message. `other` is one of a type that has no dictionary. -/
inductive Content where
  | addr (new : Bool) (ifa : IfAddrMsg)
  | link (new : Bool) (ifi_family : UInt8) (ifi_type : BitVec 16) (ifi : IfInfoMsg) (ifi_change : BitVec 32)
  | other (type : Nat) (body : List UInt8)

structure Message where
  content : Content
  nlmsg_flags : Nat
  nlmsg_seq : Nat
  nlmsg_pid : Nat
  attrs : List Attribute

def Content.type : Content → Nat
  | .addr new _ => if new then RTM_NEWADDR else RTM_DELADDR
  | .link new .. => if new then RTM_NEWLINK else RTM_DELLINK
  | .other type _ => type

def IfAddrMsg.bytes (ifa : IfAddrMsg) : List UInt8 :=
  ifa.ifa_family :: ifa.ifa_prefixlen :: ifa.ifa_flags :: ifa.ifa_scope :: leBytes 4 ifa.ifa_index.toNat

def Content.bytes : Content → List UInt8
  | .addr _ ifa => ifa.bytes
  | .link _ ifi_family ifi_type ifi ifi_change =>
    ifi_family :: 0 :: (leBytes 2 ifi_type.toNat ++ (leBytes 4 ifi.ifi_index.toNat ++ (leBytes 4 ifi.ifi_flags.toNat ++
      leBytes 4 ifi_change.toNat)))
  | .other _ body => body ++ padding body.length

def Message.body (m : Message) : List UInt8 := m.content.bytes ++ m.attrs.flatMap Attribute.bytes

def Message.bytes (m : Message) : List UInt8 :=
  leBytes 4 (headerLen + m.body.length) ++ (leBytes 2 m.content.type ++ (leBytes 2 m.nlmsg_flags ++
    (leBytes 4 m.nlmsg_seq ++ (leBytes 4 m.nlmsg_pid ++ m.body))))

/-- The type of a message that has no dictionary. -/
def Content.Fits : Content → Prop
  | .other type _ => type < 2 ^ 16 ∧ type ≠ Netlink.NLMSG_DONE ∧
    ¬ (type = RTM_NEWADDR ∨ type = RTM_DELADDR) ∧ ¬ (type = RTM_NEWLINK ∨ type = RTM_DELLINK)
  | _ => True

/-- What is read of each attribute is in its payload. -/
def Content.Legible (env : Env) (all_fields : Bool) (attrs : List Attribute) : Content → Prop
  | .addr _ ifa => AddrLegible env ifa all_fields (attrs.map Attribute.alone)
  | .link .. => ∀ a ∈ attrs, LinkReadable all_fields a.alone
  | .other .. => True

structure Message.Ok (env : Env) (all_fields : Bool) (m : Message) : Prop where
  fits : m.content.Fits
  attrs : ∀ a ∈ m.attrs, a.Fits
  legible : m.content.Legible env all_fields m.attrs

def actionOf (new : Bool) : CString := if new then text "add" else text "del"

/-- The fields that a reader should find. -/
def Message.fields (env : Env) (all_fields : Bool) (m : Message) : Option (List Field) :=
  match m.content with
  | .addr new ifa => some (addrFields env ifa all_fields (actionOf new) (m.attrs.map Attribute.alone))
  | .link new _ _ ifi _ => some (linkFields ifi all_fields (actionOf new) (m.attrs.map Attribute.alone))
  | .other .. => none

/-! ## Memory with something behind it -/

theorem word_append {mem : List UInt8} (h : 4 ≤ mem.length) (more : List UInt8) : word (mem ++ more) = word mem := by
  rw [word, List.take_append_of_le_length h, word]

theorem word_drop_append {mem : List UInt8} {n : Nat} (h : n + 4 ≤ mem.length) (more : List UInt8) :
    word ((mem ++ more).drop n) = word (mem.drop n) := by
  rw [List.drop_append_of_le_length (by omega), word_append (by rw [List.length_drop]; omega)]

theorem cstring_append_of_mem {mem : List UInt8} (h : 0 ∈ mem) (more : List UInt8) :
    cstring (mem ++ more) = cstring mem := by
  apply Subtype.ext
  induction mem with
  | nil => cases h
  | cons b mem ih =>
    by_cases hb : b = 0
    · simp [cstring, hb]
    · have ih := ih (by simpa [Ne.symm hb] using h)
      simpa [cstring, hb] using ih

theorem word_leBytes (w : BitVec 32) (more : List UInt8) : word (leBytes 4 w.toNat ++ more) = w := by
  have hw := w.isLt
  rw [word, List.take_left' (leBytes_length _ _), leNat_leBytes _ _ (by omega), BitVec.ofNat_toNat, BitVec.setWidth_eq]

theorem cacheWords_append {mem : List UInt8} (h : 16 ≤ mem.length) (more : List UInt8) :
    cacheWords (mem ++ more) = cacheWords mem := by
  unfold cacheWords
  rw [word_append (by omega), word_drop_append (by omega), word_drop_append (by omega), word_drop_append (by omega)]

theorem statsWords_append {mem : List UInt8} (h : 92 ≤ mem.length) (more : List UInt8) :
    statsWords (mem ++ more) = statsWords mem := by
  have hmembers : ∀ x ∈ statsMembers, x.2 ≤ 22 := by decide
  apply List.map_congr_left
  intro x hx
  have := hmembers x hx
  rw [word_drop_append (by omega)]

/-! ## Attributes -/

section

variable {p : Placed} (more : List UInt8)

theorem readable_more {ifa : IfAddrMsg} {all_fields : Bool} (h : Readable ifa all_fields p) :
    Readable ifa all_fields { p with mem := p.mem ++ more } := by
  unfold Readable at *
  dsimp only
  split
  · rw [if_pos ‹_›] at h
    exact List.mem_append_left _ h
  · rw [if_neg ‹_›] at h
    split
    · rw [if_pos ‹_›] at h
      exact fun x hx => (h x hx).trans (by simp)
    · rw [if_neg ‹_›] at h
      exact fun hc => (h hc).trans (by simp)

theorem attrFields_more (env : Env) {ifa : IfAddrMsg} {all_fields : Bool} (h : Readable ifa all_fields p)
    (family : Bool) :
    attrFields env ifa all_fields family { p with mem := p.mem ++ more } = attrFields env ifa all_fields family p := by
  unfold attrFields
  unfold Readable at h
  dsimp only
  split
  · rw [if_pos ‹_›] at h
    rw [cstring_append_of_mem h]
  · rw [if_neg ‹_›] at h
    split
    · rename_i hkey hfam
      rw [if_pos (by simp [hkey]), hfam] at h
      rw [List.take_append_of_le_length (h _ rfl)]
    · rfl
    · rename_i hkey
      rw [if_neg (by simp [hkey])] at h
      split
      · rw [cacheWords_append (h ‹_›)]
      · rfl

theorem linkReadable_more {all_fields : Bool} (h : LinkReadable all_fields p) :
    LinkReadable all_fields { p with mem := p.mem ++ more } := by
  unfold LinkReadable at *
  simp only [List.length_append, List.mem_append]
  grind

theorem linkAttrFields_more {all_fields : Bool} (hin : p.length ≤ p.mem.length) (h : LinkReadable all_fields p) :
    linkAttrFields all_fields { p with mem := p.mem ++ more } = linkAttrFields all_fields p := by
  have hpayload : Placed.payload { p with mem := p.mem ++ more } = p.payload := List.take_append_of_le_length hin
  have hhardware (key : CString) : hardwareField key { p with mem := p.mem ++ more } = hardwareField key p := by
    simp only [hardwareField, addressText, shownBytes, hpayload]
  unfold linkAttrFields
  dsimp only
  rw [hhardware, hhardware]
  by_cases h1 : p.type = IFLA_ADDRESS ∨ p.type = IFLA_BROADCAST
  · rcases h1 with h1 | h1 <;> simp [h1, IFLA_ADDRESS, IFLA_BROADCAST]
  rw [LinkReadable, if_neg h1] at h
  by_cases h2 : p.type = IFLA_IFNAME ∨ p.type = IFLA_QDISC
  · rw [if_pos h2] at h
    rw [cstring_append_of_mem h]
    rcases h2 with h2 | h2 <;>
      simp [h2, IFLA_ADDRESS, IFLA_BROADCAST, IFLA_IFNAME, IFLA_MTU, IFLA_LINK, IFLA_QDISC]
  rw [if_neg h2] at h
  by_cases h3 : p.type = IFLA_MTU ∨ p.type = IFLA_LINK
  · rw [if_pos h3] at h
    rw [word_append h]
    rcases h3 with h3 | h3 <;> simp [h3, IFLA_ADDRESS, IFLA_BROADCAST, IFLA_IFNAME, IFLA_MTU, IFLA_LINK]
  rw [if_neg h3] at h
  simp only [not_or] at h1 h2 h3
  simp only [h1, h2, h3, if_false]
  split
  · rw [statsWords_append (h ‹_›)]
  · rfl

end

/-! ## Lists of attributes -/

section

variable {ps : List Placed} {as : List Attribute} (h : List.Forall₂ Extends ps as)

include h

theorem types_written : ps.map Placed.type = as.map Attribute.type := by
  induction h with
  | nil => rfl
  | cons hp _ ih =>
    obtain ⟨more, rfl⟩ := hp
    rw [List.map_cons, ih]
    rfl

theorem any_written (type : Nat) :
    (ps.any fun p => p.type = type) = (as.map Attribute.alone).any fun p => p.type = type := by
  have hps : (ps.any fun p => p.type = type) = (ps.map Placed.type).any (· = type) := by rw [List.any_map]; rfl
  have has : ((as.map Attribute.alone).any fun p => p.type = type) = (as.map Attribute.type).any (· = type) := by
    rw [List.any_map, List.any_map]
    rfl
  rw [hps, has, types_written h]

theorem all_written {P : Placed → Prop} (hmore : ∀ {p} more, P p → P { p with mem := p.mem ++ more })
    (hall : ∀ a ∈ as, P a.alone) : ∀ p ∈ ps, P p := by
  induction h with
  | nil => exact fun p hp => absurd hp List.not_mem_nil
  | cons hp _ ih =>
    obtain ⟨more, rfl⟩ := hp
    rw [List.forall_mem_cons] at hall
    exact List.forall_mem_cons.mpr ⟨hmore more hall.1, ih hall.2⟩

theorem attrsFields_written (env : Env) {ifa : IfAddrMsg} {all_fields : Bool}
    (hall : ∀ a ∈ as, Readable ifa all_fields a.alone) : ∀ family,
    attrsFields env ifa all_fields family ps = attrsFields env ifa all_fields family (as.map Attribute.alone) := by
  induction h with
  | nil => exact fun _ => rfl
  | cons hp _ ih =>
    intro family
    obtain ⟨more, rfl⟩ := hp
    rw [List.forall_mem_cons] at hall
    rw [List.map_cons, attrsFields, attrsFields, attrFields_more more env hall.1, ih hall.2]
    rfl

theorem linkAttrsFields_written {all_fields : Bool} (hall : ∀ a ∈ as, LinkReadable all_fields a.alone) :
    ps.flatMap (linkAttrFields all_fields) = (as.map Attribute.alone).flatMap (linkAttrFields all_fields) := by
  induction h with
  | nil => rfl
  | cons hp _ ih =>
    obtain ⟨more, rfl⟩ := hp
    rw [List.forall_mem_cons] at hall
    rw [List.map_cons, List.flatMap_cons, List.flatMap_cons,
      linkAttrFields_more more (Nat.le_refl _) hall.1, ih hall.2]

theorem addrLegible_written {env : Env} {ifa : IfAddrMsg} {all_fields : Bool}
    (hlegible : AddrLegible env ifa all_fields (as.map Attribute.alone)) : AddrLegible env ifa all_fields ps := by
  have hreadable := all_written h (fun more hp => readable_more more hp) fun a ha =>
    hlegible.1 _ (List.mem_map_of_mem ha)
  refine ⟨hreadable, fun hno => hlegible.2 ?_⟩
  have hany : (ps.any fun p => p.type = IFA_LABEL) = false := by simpa using hno
  rw [any_written h] at hany
  simpa using hany

theorem addrFields_written {env : Env} {ifa : IfAddrMsg} {all_fields : Bool}
    (hlegible : AddrLegible env ifa all_fields (as.map Attribute.alone)) (action : CString) :
    addrFields env ifa all_fields action ps = addrFields env ifa all_fields action (as.map Attribute.alone) := by
  unfold addrFields
  rw [any_written h, attrsFields_written h env fun a ha => hlegible.1 _ (List.mem_map_of_mem ha)]

end

/-! ## One message -/

theorem length_content (c : Content) : c.bytes.length % 4 = 0 := by
  cases c with
  | addr new ifa => simp [Content.bytes, IfAddrMsg.bytes]
  | link new family type ifi change => simp [Content.bytes]
  | other type body =>
    have := align4_le body.length
    simp [Content.bytes]
    omega

theorem length_attrs (as : List Attribute) : (as.flatMap Attribute.bytes).length % 4 = 0 := by
  induction as with
  | nil => rfl
  | cons a as ih =>
    have := align4_le (4 + a.payload.length)
    rw [List.flatMap_cons, List.length_append, length_bytes]
    omega

section

variable {m : Message}

theorem length_message (m : Message) : m.bytes.length = headerLen + m.body.length := by
  simp [Message.bytes, headerLen]
  omega

theorem message_aligned (m : Message) : m.bytes.length % 4 = 0 := by
  have hcontent := length_content m.content
  have hattrs := length_attrs m.attrs
  rw [length_message, Message.body, List.length_append, headerLen]
  omega

theorem nlmsg_len_message (h : m.bytes.length < 2 ^ 32) (rest : List UInt8) :
    nlmsg_len (m.bytes ++ rest) = m.bytes.length := by
  have hlen := length_message m
  rw [nlmsg_len, Message.bytes, List.append_assoc, List.take_left' (leBytes_length _ _), leNat_leBytes _ _ (by omega),
    ← Message.bytes, hlen]

theorem typeAt_message (h : m.content.type < 2 ^ 16) (rest : List UInt8) :
    typeAt (m.bytes ++ rest) = m.content.type := by
  rw [typeAt, Netlink.typeBytes, Message.bytes, List.append_assoc, List.drop_left' (leBytes_length _ _),
    List.append_assoc, List.take_left' (leBytes_length _ _), leNat_leBytes _ _ h]

theorem drop_message (m : Message) : m.bytes.drop headerLen = m.body := by
  have hsplit : m.bytes = (leBytes 4 (headerLen + m.body.length) ++ leBytes 2 m.content.type ++
      leBytes 2 m.nlmsg_flags ++ leBytes 4 m.nlmsg_seq ++ leBytes 4 m.nlmsg_pid) ++ m.body := by
    simp [Message.bytes]
  rw [hsplit]
  exact List.drop_left' (by simp [headerLen])

theorem drop_content {size : Nat} (h : m.content.bytes.length = size)
    (hsize : align4 (headerLen + size) = headerLen + size) :
    m.bytes.drop (NLMSG_SPACE size) = m.attrs.flatMap Attribute.bytes := by
  rw [NLMSG_SPACE, hsize, ← List.drop_drop, drop_message, Message.body]
  exact List.drop_left' h

theorem ifaddrmsg_bytes (ifa : IfAddrMsg) (rest : List UInt8) : ifaddrmsg (ifa.bytes ++ rest) = some ifa := by
  simp [IfAddrMsg.bytes, ifaddrmsg, word_leBytes]

theorem ifinfomsg_bytes (new : Bool) (ifi_family : UInt8) (ifi_type : BitVec 16) (ifi : IfInfoMsg)
    (ifi_change : BitVec 32) (rest : List UInt8) :
    ifinfomsg ((Content.link new ifi_family ifi_type ifi ifi_change).bytes ++ rest) = some ifi := by
  have hsplit : (Content.link new ifi_family ifi_type ifi ifi_change).bytes ++ rest =
      (ifi_family :: 0 :: leBytes 2 ifi_type.toNat) ++ (leBytes 4 ifi.ifi_index.toNat ++
        (leBytes 4 ifi.ifi_flags.toNat ++ (leBytes 4 ifi_change.toNat ++ rest))) := by
    simp [Content.bytes]
  have hindex : ((ifi_family :: 0 :: leBytes 2 ifi_type.toNat) ++ (leBytes 4 ifi.ifi_index.toNat ++
        (leBytes 4 ifi.ifi_flags.toNat ++ (leBytes 4 ifi_change.toNat ++ rest)))).drop 4 =
      leBytes 4 ifi.ifi_index.toNat ++ (leBytes 4 ifi.ifi_flags.toNat ++ (leBytes 4 ifi_change.toNat ++ rest)) :=
    List.drop_left' (by simp)
  have hflags := congrArg (List.drop 4) hindex
  rw [List.drop_drop, List.drop_left' (leBytes_length _ _)] at hflags
  rw [ifinfomsg, hsplit, if_pos (by simp; omega), hindex, hflags, word_leBytes, word_leBytes]

theorem Message.Ok.type_lt {env : Env} {all_fields : Bool} (h : m.Ok env all_fields) : m.content.type < 2 ^ 16 := by
  have hfits := h.fits
  cases hc : m.content with
  | addr new ifa => cases new <;> simp [Content.type, RTM_NEWADDR, RTM_DELADDR]
  | link new => cases new <;> simp [Content.type, RTM_NEWLINK, RTM_DELLINK]
  | other type body =>
    rw [hc] at hfits
    exact hfits.1

theorem Message.Ok.type_ne {env : Env} {all_fields : Bool} (h : m.Ok env all_fields) :
    m.content.type ≠ Netlink.NLMSG_DONE := by
  have hfits := h.fits
  cases hc : m.content with
  | addr new ifa => cases new <;> simp [Content.type, RTM_NEWADDR, RTM_DELADDR, Netlink.NLMSG_DONE]
  | link new => cases new <;> simp [Content.type, RTM_NEWLINK, RTM_DELLINK, Netlink.NLMSG_DONE]
  | other type body =>
    rw [hc] at hfits
    exact hfits.2.1

theorem meaning_written {env : Env} {all_fields : Bool} (h : m.Ok env all_fields) :
    meaning env all_fields m.bytes = some (m.fields env all_fields) := by
  have hattrs := attributes_written h.attrs
  have hlegible := h.legible
  have hfits := h.fits
  have htype : typeAt m.bytes = m.content.type := by simpa using typeAt_message h.type_lt []
  unfold meaning Message.fields
  rw [htype]
  cases hc : m.content with
  | addr new ifa =>
    rw [hc] at hlegible
    have haction : actionName RTM_NEWADDR RTM_DELADDR (Content.addr new ifa).type = some (actionOf new) := by
      cases new <;> rfl
    have hifa : ifaddrmsg (m.bytes.drop headerLen) = some ifa := by
      rw [drop_message, Message.body, hc]
      exact ifaddrmsg_bytes ifa _
    have hdrop : m.bytes.drop (NLMSG_SPACE ifaddrmsgSize) = _ :=
      drop_content (by simp [hc, Content.bytes, IfAddrMsg.bytes, ifaddrmsgSize]) rfl
    rw [haction]
    dsimp only
    rw [addrMeaning, hifa, Option.bind_some, addrAttrs, hdrop, if_pos (addrLegible_written hattrs hlegible),
      addrFields_written hattrs hlegible, Option.map_some]
  | link new family type ifi change =>
    rw [hc] at hlegible
    have hno : actionName RTM_NEWADDR RTM_DELADDR (Content.link new family type ifi change).type = none := by
      cases new <;> rfl
    have haction : actionName RTM_NEWLINK RTM_DELLINK (Content.link new family type ifi change).type =
        some (actionOf new) := by
      cases new <;> rfl
    have hifi : ifinfomsg (m.bytes.drop headerLen) = some ifi := by
      rw [drop_message, Message.body, hc]
      exact ifinfomsg_bytes ..
    have hdrop : m.bytes.drop (NLMSG_SPACE ifinfomsgSize) = _ :=
      drop_content (by simp [hc, Content.bytes, ifinfomsgSize]) rfl
    rw [hno, haction]
    dsimp only
    rw [linkMeaning, hifi, Option.bind_some, linkAttrs, hdrop,
      if_pos (all_written hattrs (fun more hp => linkReadable_more more hp) hlegible), linkFields,
      linkAttrsFields_written hattrs hlegible, Option.map_some]
    rfl
  | other type body =>
    rw [hc] at hfits
    obtain ⟨-, -, haddr, hlink⟩ := hfits
    rw [Content.type, actionName_none.mpr haddr, actionName_none.mpr hlink]

end

/-! ## A datagram -/

section

variable {env : Env} {all_fields : Bool} {ms : List Message} {last : List UInt8}
  (hlast : NLMSG_OK last last.length ∧ Netlink.nlmsg_type last = some Netlink.NLMSG_DONE)

include hlast

theorem walk_written (hok : ∀ m ∈ ms, m.Ok env all_fields) : ∀ fuel,
    (ms.flatMap Message.bytes ++ last).length < fuel → fuel ≤ 2 ^ 32 →
    (Netlink.walk fuel (ms.flatMap Message.bytes ++ last)).2 = last ∧
      (Netlink.walk fuel (ms.flatMap Message.bytes ++ last)).1.map (fun m => (typeAt m, m.take (nlmsg_len m))) =
        ms.map fun m => (m.content.type, m.bytes) := by
  induction ms with
  | nil =>
    intro fuel hlt _
    obtain ⟨fuel, rfl⟩ : ∃ n, fuel = n + 1 := ⟨fuel - 1, by omega⟩
    rw [List.flatMap_nil, List.nil_append, Netlink.walk, if_neg fun h => h.2 hlast.2]
    exact ⟨rfl, rfl⟩
  | cons m ms ih =>
    intro fuel hlt hmax
    obtain ⟨fuel, rfl⟩ : ∃ n, fuel = n + 1 := ⟨fuel - 1, by omega⟩
    rw [List.forall_mem_cons] at hok
    rw [List.flatMap_cons, List.append_assoc, List.length_append] at hlt
    have hlen := nlmsg_len_message (m := m) (by omega) (ms.flatMap Message.bytes ++ last)
    have htype := typeAt_message hok.1.type_lt (ms.flatMap Message.bytes ++ last)
    have hsize := length_message m
    have haligned := message_aligned m
    unfold headerLen at hsize
    have hgo : NLMSG_OK (m.bytes ++ (ms.flatMap Message.bytes ++ last))
        (m.bytes ++ (ms.flatMap Message.bytes ++ last)).length ∧
        Netlink.nlmsg_type (m.bytes ++ (ms.flatMap Message.bytes ++ last)) ≠ some Netlink.NLMSG_DONE := by
      unfold NLMSG_OK headerLen
      rw [hlen, List.length_append]
      refine ⟨by omega, ?_⟩
      rw [Netlink.nlmsg_type, if_pos (by rw [List.length_append]; omega)]
      intro h
      rw [Option.some.injEq, ← typeAt, htype] at h
      exact hok.1.type_ne h
    have hdrop : (m.bytes ++ (ms.flatMap Message.bytes ++ last)).drop (Netlink.NLMSG_ALIGN m.bytes.length) =
        ms.flatMap Message.bytes ++ last := by
      have halign : Netlink.NLMSG_ALIGN m.bytes.length = m.bytes.length := by
        unfold Netlink.NLMSG_ALIGN
        omega
      rw [halign, List.drop_left]
    obtain ⟨hstop, hmap⟩ := ih hok.2 fuel (by omega) (by omega)
    rw [List.flatMap_cons, List.append_assoc, Netlink.walk, if_pos hgo, hlen, hdrop]
    refine ⟨hstop, ?_⟩
    rw [List.map_cons, List.map_cons, hmap, htype, hlen, List.take_left]

theorem wantedMessages_written (hok : ∀ m ∈ ms, m.Ok env all_fields)
    (hsize : (ms.flatMap Message.bytes ++ last).length ≤ Netlink.bufferSize) (nlmsg_types : List Nat) :
    wantedMessages nlmsg_types ⟨ms.flatMap Message.bytes ++ last, hsize⟩ =
      (ms.filter fun m => Netlink.wanted m.content.type nlmsg_types).map Message.bytes := by
  have hmax : (ms.flatMap Message.bytes ++ last).length + 1 ≤ 2 ^ 32 := by
    unfold Netlink.bufferSize at hsize
    omega
  have hmap := (walk_written hlast hok _ (Nat.lt_succ_self _) hmax).2
  have hleft : ∀ l : List (List UInt8), (l.filter fun m => Netlink.wanted (typeAt m) nlmsg_types).map
      (fun m => m.take (nlmsg_len m)) = ((l.map fun m => (typeAt m, m.take (nlmsg_len m))).filter fun x =>
        Netlink.wanted x.1 nlmsg_types).map Prod.snd := by
    intro l
    rw [List.filter_map, List.map_map]
    rfl
  have hright : (ms.filter fun m => Netlink.wanted m.content.type nlmsg_types).map Message.bytes =
      ((ms.map fun m => (m.content.type, m.bytes)).filter fun x => Netlink.wanted x.1 nlmsg_types).map Prod.snd := by
    rw [List.filter_map, List.map_map]
    rfl
  rw [wantedMessages, hleft, hright, ← hmap]
  rfl

theorem definite_written (hok : ∀ m ∈ ms, m.Ok env all_fields)
    (hsize : (ms.flatMap Message.bytes ++ last).length ≤ Netlink.bufferSize) :
    Netlink.ContainsDone ⟨ms.flatMap Message.bytes ++ last, hsize⟩ := by
  have hmax : (ms.flatMap Message.bytes ++ last).length + 1 ≤ 2 ^ 32 := by
    unfold Netlink.bufferSize at hsize
    omega
  have hstop := (walk_written hlast hok _ (Nat.lt_succ_self _) hmax).1
  rw [Netlink.ContainsDone, Netlink.stop, hstop]
  exact hlast.1

end

theorem conveys_written {env : Env} {all_fields : Bool} {m : Message} (h : m.Ok env all_fields)
    (hmax : m.bytes.length < 2 ^ 30) :
    ∃ d, crtx_nl_route_raw2dict_ifaddr env all_fields m.bytes = some d ∧
      Option.Rel Shows d (m.fields env all_fields) := by
  have hlen : m.bytes.length = nlmsg_len m.bytes := by
    simpa using (nlmsg_len_message (m := m) (by omega) []).symm
  have hconveys := ifaddr_conveys env all_fields hlen hmax
  rw [meaning_written h] at hconveys
  generalize crtx_nl_route_raw2dict_ifaddr env all_fields m.bytes = r at hconveys
  cases hconveys with
  | some hd => exact ⟨_, rfl, hd⟩

theorem dicts_written {env : Env} {all_fields : Bool} (ms : List Message)
    (h : ∀ m ∈ ms, m.Ok env all_fields ∧ m.bytes.length < 2 ^ 30) :
    ∃ dicts, (ms.map Message.bytes).map (crtx_nl_route_raw2dict_ifaddr env all_fields) = dicts.map some ∧
      List.Forall₂ (Option.Rel Shows) dicts (ms.map (Message.fields env all_fields)) := by
  induction ms with
  | nil => exact ⟨[], rfl, .nil⟩
  | cons m ms ih =>
    rw [List.forall_mem_cons] at h
    obtain ⟨d, hd, hshows⟩ := conveys_written h.1.1 h.1.2
    obtain ⟨dicts, hmap, hforall⟩ := ih h.2
    exact ⟨d :: dicts, by rw [List.map_cons, List.map_cons, hmap, hd, List.map_cons], .cons hshows hforall⟩

/-- Messages that have been written give one event each, if they are wanted, in their order, and then it is said once
that all is done. The dictionary of an event shows the fields of what was written, or there is none. -/
theorem written_messages_arrive (env : Env) (all_fields : Bool) (nlmsg_types : List Nat) (msg_done_cb : Bool)
    (ms : List Message) (hok : ∀ m ∈ ms, m.Ok env all_fields) (last : List UInt8)
    (hlast : NLMSG_OK last last.length ∧ Netlink.nlmsg_type last = some Netlink.NLMSG_DONE) (rest : List UInt8)
    (hsize : (ms.flatMap Message.bytes ++ last).length + rest.length = Netlink.bufferSize) :
    ∃ dicts,
      Netlink.nl_route_read_cb (routeListener env all_fields nlmsg_types msg_done_cb)
          (ms.flatMap Message.bytes ++ last).length (ms.flatMap Message.bytes ++ last ++ rest) =
        some ((dicts.map fun d => .dictEvent (some d)) ++ [if msg_done_cb then .doneCallback else .doneEvent]) ∧
      List.Forall₂ (Option.Rel Shows) dicts
        ((ms.filter fun m => Netlink.wanted m.content.type nlmsg_types).map (Message.fields env all_fields)) := by
  have hle : (ms.flatMap Message.bytes ++ last).length ≤ Netlink.bufferSize := by omega
  have hdone := definite_written hlast hok hle
  obtain ⟨ends, hread, hends⟩ := receive_definite (routeListener env all_fields nlmsg_types msg_done_cb)
    (d := ⟨ms.flatMap Message.bytes ++ last, hle⟩) (.inl hdone) hsize
    (gather_route nlmsg_types (crtx_nl_route_raw2dict_ifaddr env all_fields) msg_done_cb _ rest)
  obtain ⟨-, rfl⟩ := hends.resolve_right fun h => h.1 hdone
  rw [wantedMessages_written hlast hok hle] at hread
  obtain ⟨dicts, hmap, hforall⟩ := dicts_written (ms.filter fun m => Netlink.wanted m.content.type nlmsg_types) (by
    intro m hm
    have hmem := List.mem_of_mem_filter hm
    have hsub := (List.sublist_flatten_of_mem (List.mem_map_of_mem (f := Message.bytes) hmem)).length_le
    rw [← List.flatMap_def] at hsub
    rw [List.length_append] at hle
    unfold Netlink.bufferSize at hle
    exact ⟨hok m hmem, by omega⟩)
  refine ⟨dicts, ?_, hforall⟩
  rw [hread, hmap, List.map_map]
  rfl

/-- An address of the loopback interface and the interface itself. The first attribute is one that is left out. -/
def loopback : List Message :=
  [⟨.addr true ⟨2, 8, 0x80, 254, 1⟩, 2, 1, 0, [⟨8, [0x80, 0, 0, 0]⟩, ⟨1, [127, 0, 0, 1]⟩, ⟨3, [0x6c, 0x6f, 0]⟩]⟩,
    ⟨.link true 0 772 ⟨1, 0x49⟩ 0, 2, 1, 0, [⟨3, [0x6c, 0x6f, 0]⟩, ⟨4, [0, 0, 1, 0]⟩, ⟨1, [0, 0, 0, 0, 0, 0]⟩]⟩]

def doneMessage : List UInt8 := [20, 0, 0, 0, 3, 0, 2, 0, 1, 0, 0, 0, 0, 0, 0, 0, 0, 0, 0, 0]

theorem written_messages_arrive_two :
    ∃ dicts,
      Netlink.nl_route_read_cb (routeListener oneInterface true [20, 21, 16, 0] true)
          (loopback.flatMap Message.bytes ++ doneMessage).length
          (loopback.flatMap Message.bytes ++ doneMessage ++ List.replicate 3968 0) =
        some ((dicts.map fun d => .dictEvent (some d)) ++ [.doneCallback]) ∧
      List.Forall₂ (Option.Rel Shows) dicts
        ((loopback.filter fun m => Netlink.wanted m.content.type [20, 21, 16, 0]).map
          (Message.fields oneInterface true)) :=
  written_messages_arrive oneInterface true [20, 21, 16, 0] true loopback
    (by
      intro m hm
      simp only [loopback, List.mem_cons, List.not_mem_nil, or_false] at hm
      rcases hm with rfl | rfl
      · exact ⟨trivial, by decide, by show AddrLegible _ _ _ _; decide⟩
      · exact ⟨trivial, by decide, by show ∀ a ∈ _, LinkReadable _ (Attribute.alone a); decide⟩)
    doneMessage (by decide) (List.replicate 3968 0) (by rw [List.length_replicate]; decide)

end Libcortex.Route
