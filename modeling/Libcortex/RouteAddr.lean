import Libcortex.DictBuild
import Libcortex.Netlink
import Libcortex.DictWire
import Libcortex.Lib.Attributes

/-!
# Messages about addresses

`nl_route_raw.c` makes a dictionary of a message of the kernel about the address of an interface: a fixed part, and a
list of attributes. What the attributes say is read without a look at how long they are, so a short one is read beyond
its end.
-/

open Libcortex.Lib

namespace Libcortex.Route

open Dicts DictBuild
open Netlink (typeAt nlmsg_len headerLen)
open DictWire (cstring)

/-! ## What both kinds of messages have in common -/

/-- Functions of the C library, for what they are called with here. -/
structure Env where
  inet_ntop : Nat → List UInt8 → Option CString
  if_indextoname : BitVec 32 → Option CString

/-- `NLMSG_SPACE(size)`, with `sizeof(struct nlmsghdr)` in it. -/
def NLMSG_SPACE (size : Nat) : Nat := align4 (headerLen + size)

/-- A number of 32 bits. -/
def word (mem : List UInt8) : BitVec 32 := BitVec.ofNat 32 (leNat (mem.take 4))

/-- The string that the memory begins with. `none`: it is read beyond the end of the message. -/
def stringAt (mem : List UInt8) : Option CString := if 0 ∈ mem then some (cstring mem) else none

/-- The items "type" and "action", for the types of messages that are about new and about deleted objects. -/
def addAction (new del type : Nat) (b : Build) : Build :=
  let fillFor (b : Build) (i : Nat) (key : CString) : Build :=
    if type = new then b.fill i 's' (some key) (constant (text "add"))
    else if type = del then b.fill i 's' (some key) (constant (text "del"))
    else b
  let (b, i) := b.alloc
  let b := fillFor b i (text "type")
  let (b, i) := b.alloc
  fillFor b i (text "action")

/-- A macro like `IFA_FLAG`, for one flag after the other. -/
def addFlags (flags : Nat) (key : CString → Option CString) (names : List (Nat × CString)) (d : Dict) : Dict :=
  names.foldl (fun d (mask, name) =>
    if flags &&& mask ≠ 0 then (crtx_dict_new_item d (some 's') (key name) (constant name)).1 else d) d

/-! ## The code -/

def RTM_NEWADDR : Nat := 20
def RTM_DELADDR : Nat := 21

def IFA_ADDRESS : Nat := 1
def IFA_LOCAL : Nat := 2
def IFA_LABEL : Nat := 3
def IFA_BROADCAST : Nat := 4
def IFA_ANYCAST : Nat := 5
def IFA_CACHEINFO : Nat := 6
def IFA_MULTICAST : Nat := 7

def AF_INET : Nat := 2
def AF_INET6 : Nat := 10

/-- `struct ifaddrmsg` -/
structure IfAddrMsg where
  ifa_family : UInt8
  ifa_prefixlen : UInt8
  ifa_flags : UInt8
  ifa_scope : UInt8
  ifa_index : BitVec 32
deriving DecidableEq, Repr

/-- `sizeof(struct ifaddrmsg)` -/
def ifaddrmsgSize : Nat := 8

/-- `none`: the message is too short for it. -/
def ifaddrmsg : List UInt8 → Option IfAddrMsg
  | ifa_family :: ifa_prefixlen :: ifa_flags :: ifa_scope :: mem =>
    if 4 ≤ mem.length then some { ifa_family, ifa_prefixlen, ifa_flags, ifa_scope, ifa_index := word mem } else none
  | _ => none

/-- `RT_SCOPE_UNIVERSE` and so on -/
def scopeName (scope : Nat) : Option CString :=
  if scope = 0 then some (text "global")
  else if scope = 200 then some (text "site")
  else if scope = 253 then some (text "link")
  else if scope = 254 then some (text "host")
  else if scope = 255 then some (text "nowhere")
  else none

/-- `IFA_F_TEMPORARY` and so on. Those from `IFA_F_MANAGETEMPADDR` on are not in the eight bits of `ifa_flags`. -/
def ifaFlags : List (Nat × CString) :=
  [(0x01, text "TEMPORARY"), (0x02, text "NODAD"), (0x04, text "OPTIMISTIC"), (0x08, text "DADFAILED"),
    (0x10, text "HOMEADDRESS"), (0x20, text "DEPRECATED"), (0x40, text "TENTATIVE"), (0x80, text "PERMANENT"),
    (0x100, text "MANAGETEMPADDR"), (0x200, text "NOPREFIXROUTE"), (0x400, text "MCAUTOJOIN"),
    (0x800, text "STABLE_PRIVACY")]

/-- The last item is marked if there is one. -/
def ifaFlagDict (ifa : IfAddrMsg) : Dict :=
  let d := addFlags ifa.ifa_flags.toNat (fun _ => none) ifaFlags (crtx_init_dict none 0)
  if d.items = [] then d else endAt d (d.items.length - 1)

def addScope (ifa : IfAddrMsg) (b : Build) : Build :=
  let (b, i) := b.alloc
  match scopeName ifa.ifa_scope.toNat with
  | some name => b.fill i 's' (some (text "scope")) (constant name)
  | none => b

/-- `struct ifa_cacheinfo`, of which the second word is `ifa_valid`. -/
def cacheWords (cinfo : List UInt8) : List (CString × BitVec 32) :=
  [(text "valid_lft", word (cinfo.drop 4)), (text "preferred_lft", word cinfo), (text "cstamp", word (cinfo.drop 8)),
    (text "tstamp", word (cinfo.drop 12))]

def cacheDict (cinfo : List UInt8) : Option Dict :=
  let d := crtx_init_dict (some (text "uuuu")) 4
  (fillFrom d (crtx_get_first_item d) (cacheWords cinfo)).map fun d => endAt d 3

/-- The loop's variables: `family` is not NULL any more, and `got_ifname`. -/
structure AddrState where
  b : Build
  family : Bool
  got_ifname : Bool

/-- The keys for the types of addresses. -/
def addressKey (type : Nat) : Option CString :=
  if type = IFA_ANYCAST then some (text "anycast")
  else if type = IFA_BROADCAST then some (text "broadcast")
  else if type = IFA_MULTICAST then some (text "multicast")
  else if type = IFA_ADDRESS then some (text "address")
  else if type = IFA_LOCAL then some (text "local")
  else none

/-- The size of an address, and what its family is called. -/
def familyOf (ifa_family : Nat) : Option (Nat × CString) :=
  if ifa_family = AF_INET then some (4, text "ipv4")
  else if ifa_family = AF_INET6 then some (16, text "ipv6")
  else none

/-- The second part of the case for addresses, with the text `s` and the item `di`. -/
def addAddress (ifa : IfAddrMsg) (type : Nat) (key s : CString) (b : Build) (di : Nat) : Build :=
  if type = IFA_ADDRESS then
    let b := b.fill di 'u' (some (text "prefixlen")) (number (BitVec.ofNat 32 ifa.ifa_prefixlen.toNat) 1)
    b.add 's' (some key) (copied s)
  else b.fill di 's' (some key) (copied s)

/-- The body of the loop. `none`: it reads beyond the end of the message. -/
def addrAttr (env : Env) (ifa : IfAddrMsg) (all_fields : Bool) (s : AddrState) (p : Placed) : Option AddrState :=
  if p.type = IFA_LABEL then
    (stringAt p.mem).map fun label =>
      { s with b := s.b.add 's' (some (text "interface")) (copied label), got_ifname := true }
  else
    match addressKey p.type with
    | some key =>
      let (b, di) := s.b.alloc
      match familyOf ifa.ifa_family.toNat with
      | some (size, family) =>
        if p.mem.length < size then none
        else
          let (b, di) :=
            if s.family then (b, di) else (b.fill di 's' (some (text "family")) (constant family)).alloc
          match env.inet_ntop ifa.ifa_family.toNat (p.mem.take size) with
          | some addr => some { s with b := addAddress ifa p.type key addr b di, family := true }
          | none => some { s with b, family := true }
      | none => some { s with b }
    | none =>
      if p.type = IFA_CACHEINFO ∧ all_fields = true then
        if p.mem.length < 16 then none
        else (cacheDict p.mem).map fun d => { s with b := s.b.addDict (text "cache") d }
      else some s

/-- What follows the loop. `none`: the name of the interface isn't known, and memory is read that nobody has set. -/
def addrEnd (env : Env) (ifa : IfAddrMsg) (s : AddrState) : Option Build :=
  let (b, di) := s.b.alloc
  let b := b.fill di 'i' (some (text "interface_index")) (number ifa.ifa_index 4)
  if s.got_ifname then some { b with dict := endAt b.dict di }
  else
    let (b, di) := b.alloc
    (env.if_indextoname ifa.ifa_index).map fun ifname =>
      let b := b.fill di 's' (some (text "interface")) (copied ifname)
      { b with dict := endAt b.dict di }

/-- What comes before the loop. -/
def addrHead (ifa : IfAddrMsg) (all_fields : Bool) (type : Nat) : Build :=
  let b := addAction RTM_NEWADDR RTM_DELADDR type .empty
  if all_fields then (addScope ifa b).addDict (text "flags") (ifaFlagDict ifa) else b

/-- `nlh` points to a message of the length that its header has. -/
def crtx_nl_route_raw2dict_addr (env : Env) (nlh : List UInt8) (all_fields : Bool) : Option Build :=
  (ifaddrmsg (nlh.drop headerLen)).bind fun ifa =>
    let rth := nlh.drop (NLMSG_SPACE ifaddrmsgSize)
    (attrLoop (addrAttr env ifa all_fields) (nlh.length + 1) rth (nlmsg_len nlh - NLMSG_SPACE ifaddrmsgSize)
      ⟨addrHead ifa all_fields (typeAt nlh), false, false⟩).bind (addrEnd env ifa)

/-! ## What has to hold -/

def constantField (key s : CString) : Field :=
  .item ⟨some 's', CRTX_DIF_DONT_FREE_DATA, some key, 0, .string (some s)⟩

def copiedField (key s : CString) : Field := .item ⟨some 's', 0, some key, BitVec.ofNat 64 s.1.length, .string (some s)⟩

def wordField (c : Char) (key : CString) (w : BitVec 32) (size : BitVec 64) : Field :=
  .item ⟨some c, 0, some key, size, .word (w.setWidth 64)⟩

/-- The names of the flags that are set. -/
def flagItems (flags : Nat) (key : CString → Option CString) (names : List (Nat × CString)) : List Item :=
  (names.filter fun x => flags &&& x.1 ≠ 0).map fun x =>
    ⟨some 's', CRTX_DIF_DONT_FREE_DATA, key x.2, 0, .string (some x.2)⟩

/-- Is the message about a new object or about a deleted one? -/
def actionName (new del type : Nat) : Option CString :=
  if type = new then some (text "add") else if type = del then some (text "del") else none

def actionFields (action : CString) : List Field :=
  [constantField (text "type") action, constantField (text "action") action]

/-- The attribute is an address of a family that is known. -/
def Addresses (ifa : IfAddrMsg) (p : Placed) : Prop :=
  p.type ≠ IFA_LABEL ∧ addressKey p.type ≠ none ∧ familyOf ifa.ifa_family.toNat ≠ none

instance (ifa : IfAddrMsg) (p : Placed) : Decidable (Addresses ifa p) := inferInstanceAs (Decidable (_ ∧ _ ∧ _))

/-- What is read of the attribute is inside the message. -/
def Readable (ifa : IfAddrMsg) (all_fields : Bool) (p : Placed) : Prop :=
  if p.type = IFA_LABEL then 0 ∈ p.mem
  else if addressKey p.type ≠ none then ∀ x ∈ familyOf ifa.ifa_family.toNat, x.1 ≤ p.mem.length
  else p.type = IFA_CACHEINFO ∧ all_fields = true → 16 ≤ p.mem.length

/-- The fields of one address. -/
def addressFields (env : Env) (ifa : IfAddrMsg) (type : Nat) (key : CString) (addr : List UInt8) : List Field :=
  match env.inet_ntop ifa.ifa_family.toNat addr with
  | some s =>
    (if type = IFA_ADDRESS then [wordField 'u' (text "prefixlen") (BitVec.ofNat 32 ifa.ifa_prefixlen.toNat) 1] else [])
      ++ [copiedField key s]
  | none => []

/-- The fields of an attribute. The first address comes with its family. -/
def attrFields (env : Env) (ifa : IfAddrMsg) (all_fields family : Bool) (p : Placed) : List Field :=
  if p.type = IFA_LABEL then [copiedField (text "interface") (cstring p.mem)]
  else
    match addressKey p.type, familyOf ifa.ifa_family.toNat with
    | some key, some (size, name) =>
      (if family then [] else [constantField (text "family") name]) ++
        addressFields env ifa p.type key (p.mem.take size)
    | some _, none => []
    | none, _ =>
      if p.type = IFA_CACHEINFO ∧ all_fields = true then [.dict (text "cache") ((cacheWords p.mem).map numberField)]
      else []

def attrsFields (env : Env) (ifa : IfAddrMsg) (all_fields : Bool) : Bool → List Placed → List Field
  | _, [] => []
  | family, p :: ps =>
    attrFields env ifa all_fields family p ++ attrsFields env ifa all_fields (family || Addresses ifa p) ps

/-! ## The parts of a message -/

variable {fields : List Field} {b : Build}

theorem addAction_spec {new del type : Nat} {action : CString} (h : actionName new del type = some action) :
    Filled (actionFields action) (addAction new del type .empty) := by
  have hadd : addAction new del type .empty =
      (Build.empty.add 's' (some (text "type")) (constant action)).add 's' (some (text "action")) (constant action) := by
    unfold addAction actionName at *
    by_cases hn : type = new
    · obtain rfl : text "add" = action := by simpa [hn] using h
      simp [Build.add, hn]
    · by_cases hd : type = del
      · have hne : ¬ del = new := fun heq => hn (hd.trans heq)
        obtain rfl : text "del" = action := by simpa [hd, hne] using h
        simp [Build.add, hd, hne]
      · simp [hn, hd] at h
  have h1 := Ready.add (.inl empty_filled) (by decide) (constant_plain action) (some (text "type"))
  have h2 := Ready.add (.inl h1) (by simp) (constant_plain action) (some (text "action"))
  rw [fresh_constant, fresh_constant] at h2
  rw [hadd]
  exact h2

theorem addFlags_spec (flags : Nat) (key : CString → Option CString) (names : List (Nat × CString)) :
    ∀ {items : List Item} {d : Dict}, Listed items d → items.length + names.length < 2 ^ 32 →
      Listed (items ++ flagItems flags key names) (addFlags flags key names d) := by
  induction names with
  | nil =>
    intro items d h _
    simpa [flagItems, addFlags] using h
  | cons x names ih =>
    intro items d h hlt
    rw [List.length_cons] at hlt
    by_cases hset : flags &&& x.1 ≠ 0
    · obtain ⟨d', hd', h'⟩ := h.append (by omega) (constant_plain x.2) (key x.2)
      have hrest := ih h' (by rw [List.length_append, List.length_singleton]; omega)
      rw [fresh_constant] at hrest
      simpa [flagItems, addFlags, hset, hd'] using hrest
    · have hzero : flags &&& x.1 = 0 := not_not.mp hset
      have hrest := ih h (by omega)
      simpa [flagItems, addFlags, hzero] using hrest

theorem ifaFlagDict_spec (ifa : IfAddrMsg) :
    Contains (ifaFlagDict ifa) (flagItems ifa.ifa_flags.toNat (fun _ => none) ifaFlags) := by
  have h := addFlags_spec ifa.ifa_flags.toNat (fun _ => none) ifaFlags listed_init (by decide)
  rw [List.nil_append] at h
  unfold ifaFlagDict
  dsimp only
  split
  · exact .of_listed h
  · exact (Contains.of_listed h).endAt (by omega)

theorem cacheDict_spec (cinfo : List UInt8) :
    ∃ d, cacheDict cinfo = some d ∧ Contains d ((cacheWords cinfo).map numberField) := by
  obtain ⟨d, hd, hlisted⟩ := fillFrom_init (some (text "uuuu")) (l := cacheWords cinfo) (by simp [cacheWords])
    (by simp [cacheWords])
  refine ⟨endAt d 3, ?_, (Contains.of_listed hlisted).endAt (by rw [hlisted.eq]; simp [cacheWords])⟩
  exact congrArg (Option.map fun d => endAt d 3) hd

theorem addScope_spec (h : Ready fields b) (hlt : fields.length + 1 < 2 ^ 32) (ifa : IfAddrMsg) :
    Ready (fields ++ ((scopeName ifa.ifa_scope.toNat).map (constantField (text "scope"))).toList) (addScope ifa b) := by
  obtain ⟨b', halloc, hspare⟩ := h.alloc hlt
  unfold addScope
  rw [halloc]
  cases scopeName ifa.ifa_scope.toNat with
  | none =>
    rw [Option.map_none, Option.toList_none, List.append_nil]
    exact .inr hspare
  | some name =>
    have hfill := hspare.fill (constant_plain name) (some (text "scope"))
    rw [fresh_constant] at hfill
    exact .inl hfill

theorem stringAt_some {mem : List UInt8} (h : 0 ∈ mem) : stringAt mem = some (cstring mem) := if_pos h

theorem stringAt_none {mem : List UInt8} (h : 0 ∉ mem) : stringAt mem = none := if_neg h

theorem addAddress_spec (h : Spare fields b) (hlt : fields.length + 2 < 2 ^ 32) (ifa : IfAddrMsg) (type : Nat)
    (key s : CString) :
    Filled (fields ++ (if type = IFA_ADDRESS then
        [wordField 'u' (text "prefixlen") (BitVec.ofNat 32 ifa.ifa_prefixlen.toNat) 1] else []) ++ [copiedField key s])
      (addAddress ifa type key s b fields.length) := by
  unfold addAddress
  split
  · have hfill := h.fill (number_plain (.inr rfl) (BitVec.ofNat 32 ifa.ifa_prefixlen.toNat) 1 (by decide))
      (some (text "prefixlen"))
    have hadd := Ready.add (.inl hfill) (by simp; omega) (copied_plain s) (some key)
    rw [fresh_number (.inr rfl), fresh_copied] at hadd
    exact hadd
  · have hfill := h.fill (copied_plain s) (some key)
    rw [fresh_copied] at hfill
    simpa [copiedField] using hfill

theorem family_spec (h : Spare fields b) (hlt : fields.length + 2 < 2 ^ 32) (got : Bool) (name : CString) :
    ∃ b', (if got then (b, fields.length) else (b.fill fields.length 's' (some (text "family")) (constant name)).alloc) =
        (b', (fields ++ if got then [] else [constantField (text "family") name]).length) ∧
      Spare (fields ++ if got then [] else [constantField (text "family") name]) b' := by
  cases got with
  | true =>
    refine ⟨b, by simp, ?_⟩
    simpa using h
  | false =>
    have hfill := h.fill (constant_plain name) (some (text "family"))
    rw [fresh_constant] at hfill
    exact hfill.alloc (by simp; omega)

/-- The state after some attributes. -/
structure AddrState.Has (s : AddrState) (fields : List Field) (family got_ifname : Bool) : Prop where
  ready : Ready fields s.b
  family : s.family = family
  got_ifname : s.got_ifname = got_ifname

theorem addrAttr_label {s : AddrState} {family got : Bool} (h : s.Has fields family got) (hlt : fields.length + 3 < 2 ^ 32)
    (env : Env) (ifa : IfAddrMsg) (all_fields : Bool) {p : Placed} (hp : p.type = IFA_LABEL) (hr : 0 ∈ p.mem) :
    ∃ s', addrAttr env ifa all_fields s p = some s' ∧
      s'.Has (fields ++ [copiedField (text "interface") (cstring p.mem)]) family true := by
  have hadd := h.ready.add (by omega) (copied_plain (cstring p.mem)) (some (text "interface"))
  rw [fresh_copied] at hadd
  refine ⟨{ s with b := s.b.add 's' (some (text "interface")) (copied (cstring p.mem)), got_ifname := true }, ?_,
    .inl hadd, h.family, rfl⟩
  rw [addrAttr, if_pos hp, stringAt_some hr, Option.map_some]

theorem addrAttr_address {s : AddrState} {family got : Bool} (h : s.Has fields family got)
    (hlt : fields.length + 3 < 2 ^ 32) (env : Env) (ifa : IfAddrMsg) (all_fields : Bool) {p : Placed}
    (hl : p.type ≠ IFA_LABEL) {key : CString} (hkey : addressKey p.type = some key) {size : Nat} {name : CString}
    (hfam : familyOf ifa.ifa_family.toNat = some (size, name)) (hr : size ≤ p.mem.length) :
    ∃ s', addrAttr env ifa all_fields s p = some s' ∧
      s'.Has (fields ++ ((if family then [] else [constantField (text "family") name]) ++
        addressFields env ifa p.type key (p.mem.take size))) true got := by
  obtain ⟨hready, rfl, rfl⟩ := h
  obtain ⟨b₁, halloc, hspare⟩ := hready.alloc (by omega)
  obtain ⟨b₂, hb₂, hspare₂⟩ := family_spec hspare (by omega) s.family name
  have hlen : (fields ++ if s.family then [] else [constantField (text "family") name]).length + 2 < 2 ^ 32 := by
    cases s.family <;> simp <;> omega
  rw [addrAttr, if_neg hl, hkey, halloc]
  dsimp only
  rw [hfam]
  dsimp only
  rw [if_neg (by omega), hb₂, ← List.append_assoc]
  unfold addressFields
  cases env.inet_ntop ifa.ifa_family.toNat (p.mem.take size) with
  | none =>
    refine ⟨_, rfl, .inr ?_, rfl, rfl⟩
    simpa using hspare₂
  | some addr =>
    have hfill := addAddress_spec hspare₂ hlen ifa p.type key addr
    refine ⟨_, rfl, .inl ?_, rfl, rfl⟩
    rwa [← List.append_assoc]

theorem addrAttr_spec {s : AddrState} {family got : Bool} (h : s.Has fields family got) (hlt : fields.length + 3 < 2 ^ 32)
    (env : Env) (ifa : IfAddrMsg) (all_fields : Bool) (p : Placed) :
    (Readable ifa all_fields p → ∃ s', addrAttr env ifa all_fields s p = some s' ∧
      s'.Has (fields ++ attrFields env ifa all_fields family p) (family || Addresses ifa p)
        (got || p.type = IFA_LABEL)) ∧
    (¬ Readable ifa all_fields p → addrAttr env ifa all_fields s p = none) := by
  by_cases hl : p.type = IFA_LABEL
  · have hno : ¬ Addresses ifa p := fun ha => ha.1 hl
    rw [Readable, if_pos hl, attrFields, if_pos hl]
    refine ⟨fun hr => by simpa [hl, hno] using addrAttr_label h hlt env ifa all_fields hl hr, fun hr => ?_⟩
    rw [addrAttr, if_pos hl, stringAt_none hr, Option.map_none]
  rw [Readable, if_neg hl, attrFields, if_neg hl]
  cases hkey : addressKey p.type with
  | some key =>
    rw [if_pos (Option.some_ne_none key)]
    cases hfam : familyOf ifa.ifa_family.toNat with
    | some x =>
      obtain ⟨size, name⟩ := x
      have hyes : Addresses ifa p := ⟨hl, by simp [hkey], by simp [hfam]⟩
      refine ⟨fun hr => ?_, fun hr => ?_⟩
      · have hr : size ≤ p.mem.length := by simpa using hr
        simpa [hl, hyes] using addrAttr_address h hlt env ifa all_fields hl hkey hfam hr
      · have hr : p.mem.length < size := by simpa using hr
        rw [addrAttr, if_neg hl, hkey]
        dsimp only
        rw [hfam]
        exact if_pos hr
    | none =>
      have hno : ¬ Addresses ifa p := fun ha => ha.2.2 hfam
      obtain ⟨b₁, halloc, hspare⟩ := h.ready.alloc (by omega)
      refine ⟨fun _ => ⟨{ s with b := b₁ }, ?_, .inr ?_, ?_, ?_⟩, fun hr => absurd (by simp) hr⟩
      · rw [addrAttr, if_neg hl, hkey, halloc]
        dsimp only
        rw [hfam]
      · simpa using hspare
      · simpa [hno] using h.family
      · simpa [hl] using h.got_ifname
  | none =>
    have hno : ¬ Addresses ifa p := fun ha => ha.2.1 hkey
    rw [if_neg (by simp)]
    by_cases hc : p.type = IFA_CACHEINFO ∧ all_fields = true
    · obtain ⟨d, hd, hcontains⟩ := cacheDict_spec p.mem
      refine ⟨fun hr => ?_, fun hr => ?_⟩
      · have hshort : ¬ p.mem.length < 16 := Nat.not_lt.mpr (hr hc)
        refine ⟨{ s with b := s.b.addDict (text "cache") d }, ?_, .inl ?_, ?_, ?_⟩
        · rw [addrAttr, if_neg hl, hkey]
          dsimp only
          rw [if_pos hc, if_neg hshort, hd, Option.map_some]
        · simpa [hc] using h.ready.addDict (by omega) (text "cache") hcontains
        · simpa [hno] using h.family
        · simpa [hl] using h.got_ifname
      · have hshort : p.mem.length < 16 := by
          rw [Classical.not_imp] at hr
          omega
        rw [addrAttr, if_neg hl, hkey]
        dsimp only
        rw [if_pos hc, if_pos hshort]
    · refine ⟨fun _ => ⟨s, ?_, ?_, ?_, ?_⟩, fun hr => absurd (fun h => absurd h hc) hr⟩
      · rw [addrAttr, if_neg hl, hkey]
        dsimp only
        rw [if_neg hc]
      · simpa [hc] using h.ready
      · simpa [hno] using h.family
      · simpa [hl] using h.got_ifname

/-! ## The loop -/

theorem length_attrFields (env : Env) (ifa : IfAddrMsg) (all_fields family : Bool) (p : Placed) :
    (attrFields env ifa all_fields family p).length ≤ 3 := by
  have haddress : ∀ key addr, (addressFields env ifa p.type key addr).length ≤ 2 := by
    intro key addr
    unfold addressFields
    split
    · split <;> simp
    · simp
  unfold attrFields
  split
  · simp
  · split
    · rename_i key size _ _ _
      have := haddress key (p.mem.take size)
      rw [List.length_append]
      split <;> simp <;> omega
    · simp
    · split <;> simp

theorem addrLoop_spec (env : Env) (ifa : IfAddrMsg) (all_fields : Bool) (ps : List Placed) :
    ∀ {fields : List Field} {s : AddrState} {family got : Bool}, s.Has fields family got →
      fields.length + 3 * ps.length < 2 ^ 32 →
      ((∀ p ∈ ps, Readable ifa all_fields p) → ∃ s', ps.foldlM (addrAttr env ifa all_fields) s = some s' ∧
        s'.Has (fields ++ attrsFields env ifa all_fields family ps) (family || ps.any fun p => Addresses ifa p)
          (got || ps.any fun p => p.type = IFA_LABEL)) ∧
      (¬ (∀ p ∈ ps, Readable ifa all_fields p) → ps.foldlM (addrAttr env ifa all_fields) s = none) := by
  induction ps with
  | nil =>
    intro fields s family got h _
    exact ⟨fun _ => ⟨s, rfl, by simpa [attrsFields] using h⟩, fun hr => absurd (by simp) hr⟩
  | cons p ps ih =>
    intro fields s family got h hlt
    rw [List.length_cons] at hlt
    have hp := length_attrFields env ifa all_fields family p
    obtain ⟨hgood, hbad⟩ := addrAttr_spec h (by omega) env ifa all_fields p
    simp only [List.forall_mem_cons, List.foldlM_cons, attrsFields, List.any_cons]
    by_cases hr : Readable ifa all_fields p
    · obtain ⟨s₁, hs₁, h₁⟩ := hgood hr
      obtain ⟨hgood₁, hbad₁⟩ := ih h₁ (by rw [List.length_append]; omega)
      simp only [hs₁, hr, true_and, ← Bool.or_assoc, ← List.append_assoc]
      exact ⟨hgood₁, hbad₁⟩
    · simp only [hbad hr, hr, false_and]
      exact ⟨False.elim, fun _ => rfl⟩

/-- The fields behind those of the attributes. -/
def endFields (env : Env) (ifa : IfAddrMsg) (got_ifname : Bool) : List Field :=
  wordField 'i' (text "interface_index") ifa.ifa_index 4 ::
    if got_ifname then [] else ((env.if_indextoname ifa.ifa_index).map (copiedField (text "interface"))).toList

theorem addrEnd_spec {s : AddrState} {family got : Bool} (h : s.Has fields family got) (hlt : fields.length + 2 < 2 ^ 32)
    (env : Env) (ifa : IfAddrMsg) :
    ((got = false → env.if_indextoname ifa.ifa_index ≠ none) →
      ∃ b, addrEnd env ifa s = some b ∧ Filled (fields ++ endFields env ifa got) b) ∧
    (¬ (got = false → env.if_indextoname ifa.ifa_index ≠ none) → addrEnd env ifa s = none) := by
  obtain ⟨hready, rfl, rfl⟩ := h
  obtain ⟨b₁, halloc, hspare⟩ := hready.alloc (by omega)
  have hindex := hspare.fill (number_plain (.inl rfl) ifa.ifa_index 4 (by decide)) (some (text "interface_index"))
  rw [fresh_number (.inl rfl)] at hindex
  unfold addrEnd endFields
  rw [halloc]
  dsimp only
  cases s.got_ifname with
  | true =>
    refine ⟨fun _ => ⟨_, rfl, ?_⟩, fun hno => absurd (by simp) hno⟩
    exact hindex.endAt (by simp)
  | false =>
    obtain ⟨b₂, hb₂, hspare₂⟩ := hindex.alloc (by simp; omega)
    rw [if_neg (by simp), hb₂]
    dsimp only
    cases hname : env.if_indextoname ifa.ifa_index with
    | none => exact ⟨fun hno => absurd rfl (hno rfl), fun _ => rfl⟩
    | some ifname =>
      have hfill := hspare₂.fill (copied_plain ifname) (some (text "interface"))
      rw [fresh_copied] at hfill
      refine ⟨fun _ => ⟨_, rfl, ?_⟩, fun hno => absurd (by simp) hno⟩
      have hend := hfill.endAt (i := (fields ++ [wordField 'i' (text "interface_index") ifa.ifa_index 4]).length)
        (by simp [wordField])
      simpa [copiedField, wordField] using hend

/-! ## The message -/

/-- The attributes of the message, which lie behind the fixed part. -/
def addrAttrs (nlh : List UInt8) : List Placed := attributes (nlh.drop (NLMSG_SPACE ifaddrmsgSize))

/-- All that is read is inside the message, and the name of the interface is known if none of the attributes has it. -/
def AddrLegible (env : Env) (ifa : IfAddrMsg) (all_fields : Bool) (ps : List Placed) : Prop :=
  (∀ p ∈ ps, Readable ifa all_fields p) ∧
    ((∀ p ∈ ps, p.type ≠ IFA_LABEL) → env.if_indextoname ifa.ifa_index ≠ none)

/-- The fields before those of the attributes. -/
def headFields (ifa : IfAddrMsg) (all_fields : Bool) (action : CString) : List Field :=
  actionFields action ++
    if all_fields then
      ((scopeName ifa.ifa_scope.toNat).map (constantField (text "scope"))).toList ++
        [.dict (text "flags") (flagItems ifa.ifa_flags.toNat (fun _ => none) ifaFlags)]
    else []

def addrFields (env : Env) (ifa : IfAddrMsg) (all_fields : Bool) (action : CString) (ps : List Placed) : List Field :=
  headFields ifa all_fields action ++ attrsFields env ifa all_fields false ps ++
    endFields env ifa (ps.any fun p => p.type = IFA_LABEL)

/-- A dictionary with these fields, unless it can't be read. -/
def Gives (r : Option Build) (legible : Prop) (fields : List Field) : Prop :=
  (r ≠ none ↔ legible) ∧ ∀ b ∈ r, Shows b fields

theorem length_headFields (ifa : IfAddrMsg) (all_fields : Bool) (action : CString) :
    (headFields ifa all_fields action).length ≤ 4 := by
  unfold headFields actionFields
  cases all_fields <;> cases scopeName ifa.ifa_scope.toNat <;> simp

theorem addrHead_spec (ifa : IfAddrMsg) (all_fields : Bool) {type : Nat} {action : CString}
    (h : actionName RTM_NEWADDR RTM_DELADDR type = some action) :
    Ready (headFields ifa all_fields action) (addrHead ifa all_fields type) := by
  have haction := addAction_spec h
  unfold headFields addrHead
  cases all_fields with
  | false => exact .inl (by simpa using haction)
  | true =>
    have hscope := addScope_spec (.inl haction) (by simp [actionFields]) ifa
    have hlen : (actionFields action ++
        ((scopeName ifa.ifa_scope.toNat).map (constantField (text "scope"))).toList).length + 1 < 2 ^ 32 := by
      unfold actionFields
      cases scopeName ifa.ifa_scope.toNat <;> simp
    have hflags := hscope.addDict hlen (text "flags") (ifaFlagDict_spec ifa)
    exact .inl (by simpa using hflags)

theorem ifaddrmsg_length {mem : List UInt8} {ifa : IfAddrMsg} (h : ifaddrmsg mem = some ifa) : 8 ≤ mem.length := by
  unfold ifaddrmsg at h
  split at h
  · split at h
    · simp
      omega
    · cases h
  · cases h

theorem length_attrsFields (env : Env) (ifa : IfAddrMsg) (all_fields : Bool) (ps : List Placed) :
    ∀ family, (attrsFields env ifa all_fields family ps).length ≤ 3 * ps.length := by
  induction ps with
  | nil => simp [attrsFields]
  | cons p ps ih =>
    intro family
    have hp := length_attrFields env ifa all_fields family p
    have := ih (family || Addresses ifa p)
    rw [attrsFields, List.length_append, List.length_cons]
    omega

theorem rtaLoop_eq {σ : Type} (body : σ → Placed → Option σ) {nlh : List UInt8} (hlen : nlh.length = nlmsg_len nlh)
    (space : Nat) (s : σ) :
    attrLoop body (nlh.length + 1) (nlh.drop space) (nlmsg_len nlh - space) s =
      (attributes (nlh.drop space)).foldlM body s := by
  rcases Nat.lt_or_ge nlh.length space with hlt | hle
  · rw [attrLoop_done (by omega), List.drop_of_length_le (by omega), attributes_nil]
    rfl
  · have hrest : (nlmsg_len nlh : Int) - space = (nlh.drop space).length := by
      rw [List.length_drop]
      omega
    rw [hrest, attrLoop_eq _ _ _ (by rw [List.length_drop]; omega)]

theorem raw2dict_addr_gives (env : Env) {nlh : List UInt8} (hlen : nlh.length = nlmsg_len nlh)
    (hmax : nlh.length < 2 ^ 30) (all_fields : Bool) {action : CString}
    (haction : actionName RTM_NEWADDR RTM_DELADDR (typeAt nlh) = some action) {ifa : IfAddrMsg}
    (hifa : ifaddrmsg (nlh.drop headerLen) = some ifa) :
    Gives (crtx_nl_route_raw2dict_addr env nlh all_fields) (AddrLegible env ifa all_fields (addrAttrs nlh))
      (addrFields env ifa all_fields action (addrAttrs nlh)) := by
  have hshort := ifaddrmsg_length hifa
  rw [List.length_drop, headerLen] at hshort
  have hspace : NLMSG_SPACE ifaddrmsgSize = 24 := rfl
  have hcount := attributes_length (nlh.drop (NLMSG_SPACE ifaddrmsgSize))
  rw [List.length_drop, hspace] at hcount
  have hhead := length_headFields ifa all_fields action
  have hinit : AddrState.Has ⟨addrHead ifa all_fields (typeAt nlh), false, false⟩ (headFields ifa all_fields action)
      false false := ⟨addrHead_spec ifa all_fields haction, rfl, rfl⟩
  obtain ⟨hgood, hbad⟩ := addrLoop_spec env ifa all_fields (addrAttrs nlh) hinit (by unfold addrAttrs; rw [hspace]; omega)
  rw [crtx_nl_route_raw2dict_addr, hifa, Option.bind_some]
  dsimp only
  rw [rtaLoop_eq _ hlen, ← addrAttrs]
  by_cases hr : ∀ p ∈ addrAttrs nlh, Readable ifa all_fields p
  · obtain ⟨s, hs, hhas⟩ := hgood hr
    have hfields := length_attrsFields env ifa all_fields (addrAttrs nlh) false
    obtain ⟨hend, hno⟩ := addrEnd_spec hhas (by
      rw [List.length_append]
      unfold addrAttrs at *
      rw [hspace] at *
      omega) env ifa
    have hany : (false || (addrAttrs nlh).any fun p => p.type = IFA_LABEL) = false ↔
        ∀ p ∈ addrAttrs nlh, p.type ≠ IFA_LABEL := by simp
    rw [hany, Bool.false_or] at hend
    rw [hany] at hno
    rw [hs, Option.bind_some]
    by_cases hname : (∀ p ∈ addrAttrs nlh, p.type ≠ IFA_LABEL) → env.if_indextoname ifa.ifa_index ≠ none
    · obtain ⟨b, hb, hfilled⟩ := hend hname
      rw [hb]
      refine ⟨iff_of_true (Option.some_ne_none b) ⟨hr, hname⟩, fun b' hb' => ?_⟩
      obtain rfl := Option.some.inj hb'
      exact hfilled.shows
    · rw [hno hname]
      exact ⟨iff_of_false (fun h => h rfl) fun h => hname h.2, fun b hb => by cases hb⟩
  · rw [hbad hr]
    exact ⟨iff_of_false (fun h => h rfl) fun h => hr h.1, fun b hb => by cases hb⟩

end Libcortex.Route
