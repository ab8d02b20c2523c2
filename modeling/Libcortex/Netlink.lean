import Mathlib.Data.List.Forall2
import Libcortex.Lib.Bytes

/-!
# Datagrams of netlink

`nl_route_raw.c` and `netlink_raw.c` receive a datagram into a buffer of 4096 bytes and go over its messages. The loop
ends at a message of the type `NLMSG_DONE`, at a header that isn't well-formed, or behind the last message. Whichever it
was, the type of the header at that place is read, which may not have been received.
-/

open Libcortex.Lib

namespace Libcortex.Netlink

/-! ## Headers -/

/-- `sizeof(buffer)` -/
def bufferSize : Nat := 4096

/-- `sizeof(struct nlmsghdr)` -/
def headerLen : Nat := 16

def NLMSG_DONE : Nat := 3

def NLMSG_ALIGN (len : Nat) : Nat := (len + 3) / 4 * 4

/-- `nlh->nlmsg_len`, of the memory that `nlh` points to. -/
def nlmsg_len (nlh : List UInt8) : Nat := leNat (nlh.take 4)

/-- The bytes of `nlh->nlmsg_type` that are there. -/
def typeBytes (nlh : List UInt8) : List UInt8 := (nlh.drop 4).take 2

/-- `none`: the buffer ends before. -/
def nlmsg_type (nlh : List UInt8) : Option Nat := if 6 ≤ nlh.length then some (leNat (typeBytes nlh)) else none

def NLMSG_OK (nlh : List UInt8) (len : Int) : Prop := headerLen ≤ len ∧ headerLen ≤ nlmsg_len nlh ∧ nlmsg_len nlh ≤ len

instance (nlh : List UInt8) (len : Int) : Decidable (NLMSG_OK nlh len) := inferInstanceAs (Decidable (_ ∧ _))

/-! ## The code -/

/-- What a listener does. `δ` is what `raw2dict` returns. -/
inductive Call (δ : Type) where
  | messageCallback (type : Nat) (message : List UInt8) (len : Int)
  | dictEvent (dict : δ)
  | rawEvent (block : List UInt8)
  | doneCallback
  | doneEvent

/-- The call reports `NLMSG_DONE`. -/
def Call.reports {δ : Type} : Call δ → Prop
  | .messageCallback type _ _ => type = NLMSG_DONE
  | .dictEvent _ => False
  | .rawEvent _ => False
  | .doneCallback => True
  | .doneEvent => True

section

variable {δ : Type} (onMessage : List UInt8 → Int → Option (List (Call δ))) (onDone : List UInt8 → Int → Call δ)

/-- The loop, which both functions have. `onMessage` is its body without `NLMSG_NEXT`. The result is what was called, and
`nlh` and `len` at the end. `none`: memory outside of the buffer is read. -/
def readLoop : Nat → List UInt8 → Int → Option (List (Call δ) × List UInt8 × Int)
  | 0, _, _ => none
  | fuel + 1, nlh, len =>
    if NLMSG_OK nlh len ∧ nlmsg_type nlh ≠ some NLMSG_DONE then
      (onMessage nlh len).bind fun now =>
        (readLoop fuel (nlh.drop (NLMSG_ALIGN (nlmsg_len nlh))) (len - NLMSG_ALIGN (nlmsg_len nlh))).map
          fun (calls, nlh, len) => (now ++ calls, nlh, len)
    else some ([], nlh, len)

/-- `buffer` holds what was received, and `len` is how much that is. -/
def receive (len : Nat) (buffer : List UInt8) : Option (List (Call δ)) :=
  if len = 0 then some []
  else
    (readLoop onMessage (len + 1) buffer len).bind fun (calls, nlh, len) =>
      (nlmsg_type nlh).map fun type => if type = NLMSG_DONE then calls ++ [onDone nlh len] else calls

end

/-- The search in a list of types, which ends with a 0, and the comparison with what it has found. -/
def wanted (type : Nat) : List Nat → Bool
  | [] => type = 0
  | it :: types => if it = 0 then type = 0 else if it = type then true else wanted type types

def typeAt (nlh : List UInt8) : Nat := leNat (typeBytes nlh)

def callMessage (nlh : List UInt8) (len : Int) : Call Unit :=
  .messageCallback (typeAt nlh) (nlh.take (nlmsg_len nlh)) len

def genericMessage (message_types : Option (List Nat)) (nlh : List UInt8) (len : Int) : Option (List (Call Unit)) :=
  if message_types.all (wanted (typeAt nlh)) then some [callMessage nlh len] else some []

def netlink_raw_generic_read (message_types : Option (List Nat)) (len : Nat) (buffer : List UInt8) :
    Option (List (Call Unit)) :=
  receive (genericMessage message_types) callMessage len buffer

/-- `struct crtx_nl_route_raw_listener`. `raw2dict` reads no more than the message. -/
structure RouteListener (δ : Type) where
  nlmsg_types : List Nat
  raw2dict : Option (List UInt8 → δ)
  msg_done_cb : Bool

/-- Without `raw2dict`, 4096 bytes are copied. -/
def routeMessage {δ : Type} (l : RouteListener δ) (nlh : List UInt8) (_len : Int) : Option (List (Call δ)) :=
  if wanted (typeAt nlh) l.nlmsg_types then
    match l.raw2dict with
    | some raw2dict => some [.dictEvent (raw2dict (nlh.take (nlmsg_len nlh)))]
    | none => if bufferSize ≤ nlh.length then some [.rawEvent (nlh.take bufferSize)] else none
  else some []

def routeDone {δ : Type} (l : RouteListener δ) (_nlh : List UInt8) (_len : Int) : Call δ :=
  if l.msg_done_cb then .doneCallback else .doneEvent

def nl_route_read_cb {δ : Type} (l : RouteListener δ) (len : Nat) (buffer : List UInt8) : Option (List (Call δ)) :=
  receive (routeMessage l) (routeDone l) len buffer

/-! ## What has to hold -/

/-- What `recv` puts into the buffer. -/
abbrev Datagram := { bytes : List UInt8 // bytes.length ≤ bufferSize }

/-- The messages that the loop handles, each with all that follows it in the datagram, and where it ends. -/
def walk : Nat → List UInt8 → List (List UInt8) × List UInt8
  | 0, d => ([], d)
  | fuel + 1, d =>
    if NLMSG_OK d d.length ∧ nlmsg_type d ≠ some NLMSG_DONE then
      let (messages, stop) := walk fuel (d.drop (NLMSG_ALIGN (nlmsg_len d)))
      (d :: messages, stop)
    else ([], d)

def messages (d : Datagram) : List (List UInt8) := (walk (d.1.length + 1) d.1).1

/-- What is left of the datagram behind these messages. -/
def stop (d : Datagram) : List UInt8 := (walk (d.1.length + 1) d.1).2

/-- There is a well-formed header with the type `NLMSG_DONE` before anything that isn't well-formed. -/
def ContainsDone (d : Datagram) : Prop := NLMSG_OK (stop d) (stop d).length

/-- Whatever the rest of the buffer holds, the calls are the same, and they report `NLMSG_DONE` if they should. -/
def DependsOnDatagram {δ : Type} (read : Nat → List UInt8 → Option (List (Call δ))) (d : Datagram) : Prop :=
  ∃ calls, (∀ rest : List UInt8, d.1.length + rest.length = bufferSize → read d.1.length (d.1 ++ rest) = some calls) ∧
    ((∃ c ∈ calls, c.reports) ↔ ContainsDone d)

/-- The header at the end is of the type `NLMSG_DONE`, or it's known from the bytes that were received that it isn't. -/
def Definite (d : Datagram) : Prop :=
  ContainsDone d ∨ 5 ≤ (stop d).length ∧ leNat (typeBytes (stop d)) ≠ NLMSG_DONE

/-! ## Reading headers -/

theorem nlmsg_len_append {d : List UInt8} (h : 4 ≤ d.length) (rest : List UInt8) :
    nlmsg_len (d ++ rest) = nlmsg_len d := by
  rw [nlmsg_len, List.take_append_of_le_length h, nlmsg_len]

theorem typeBytes_append {d : List UInt8} (h : 6 ≤ d.length) (rest : List UInt8) :
    typeBytes (d ++ rest) = typeBytes d := by
  rw [typeBytes, List.drop_append_of_le_length (by omega), List.take_append_of_le_length (by simp; omega), typeBytes]

theorem nlmsg_type_append {d : List UInt8} (h : 6 ≤ d.length) (rest : List UInt8) :
    nlmsg_type (d ++ rest) = nlmsg_type d := by
  rw [nlmsg_type, nlmsg_type, typeBytes_append h, if_pos h, if_pos (by simp; omega)]

theorem ok_append {d : List UInt8} (rest : List UInt8) : NLMSG_OK (d ++ rest) d.length ↔ NLMSG_OK d d.length := by
  unfold NLMSG_OK headerLen
  refine and_congr_right fun h => ?_
  rw [nlmsg_len_append (by omega)]

theorem align_le (n : Nat) : NLMSG_ALIGN n ≤ n + 3 ∧ n ≤ NLMSG_ALIGN n := by
  unfold NLMSG_ALIGN
  omega

theorem goes_on_append {d : List UInt8} (rest : List UInt8) :
    NLMSG_OK (d ++ rest) d.length ∧ nlmsg_type (d ++ rest) ≠ some NLMSG_DONE ↔
      NLMSG_OK d d.length ∧ nlmsg_type d ≠ some NLMSG_DONE := by
  rw [ok_append]
  refine and_congr_right fun h => ?_
  have := h.1
  unfold headerLen at this
  rw [nlmsg_type_append (by omega)]

/-! ## The loop -/

/-- All the calls, in order. -/
def gather {α : Type} : List (Option (List α)) → Option (List α)
  | [] => some []
  | x :: xs => x.bind fun now => (gather xs).map fun calls => now ++ calls

section

variable {δ : Type} {onMessage : List UInt8 → Int → Option (List (Call δ))} {onDone : List UInt8 → Int → Call δ}

theorem walk_nil (fuel : Nat) : walk fuel [] = ([], []) := by
  cases fuel with
  | zero => rfl
  | succ fuel => rw [walk, if_neg fun h => absurd h.1.1 (by decide)]

theorem readLoop_message {d : List UInt8} (hgo : NLMSG_OK d d.length ∧ nlmsg_type d ≠ some NLMSG_DONE) (fuel : Nat)
    (rest : List UInt8) :
    readLoop onMessage (fuel + 1) (d ++ rest) d.length =
      (onMessage (d ++ rest) d.length).bind fun now =>
        (readLoop onMessage fuel ((d ++ rest).drop (NLMSG_ALIGN (nlmsg_len d)))
          (d.length - NLMSG_ALIGN (nlmsg_len d))).map fun (calls, nlh, len) => (now ++ calls, nlh, len) := by
  have hmin := hgo.1.1
  unfold headerLen at hmin
  rw [readLoop, if_pos ((goes_on_append rest).mpr hgo), nlmsg_len_append (by omega)]

theorem readLoop_short {len : Int} (h : len ≤ 0) (fuel : Nat) (mem : List UInt8) :
    readLoop onMessage (fuel + 1) mem len = some ([], mem, len) := by
  have hshort : ¬ NLMSG_OK mem len := by
    rintro ⟨hlen, -⟩
    unfold headerLen at hlen
    omega
  rw [readLoop, if_neg fun h => hshort h.1]

theorem readLoop_walk (fuel : Nat) :
    ∀ d : List UInt8, d.length < fuel → ∃ k, (k = 0 ∨ (walk fuel d).2 = []) ∧ ∀ rest,
      readLoop onMessage fuel (d ++ rest) d.length =
        (gather ((walk fuel d).1.map fun m => onMessage (m ++ rest) m.length)).map fun calls =>
          (calls, (walk fuel d).2 ++ rest.drop k, ((walk fuel d).2.length : Int) - k) := by
  induction fuel with
  | zero => exact fun d h => absurd h (Nat.not_lt_zero _)
  | succ fuel ih =>
    intro d hd
    by_cases hgo : NLMSG_OK d d.length ∧ nlmsg_type d ≠ some NLMSG_DONE
    · obtain ⟨hmin, hhead, hfits⟩ := hgo.1
      unfold headerLen at hmin hhead
      have halign := align_le (nlmsg_len d)
      rw [walk, if_pos hgo]
      dsimp only
      rcases Nat.lt_or_ge d.length (NLMSG_ALIGN (nlmsg_len d)) with hlt | hle
      · have hend : d.drop (NLMSG_ALIGN (nlmsg_len d)) = [] := List.drop_of_length_le (by omega)
        obtain ⟨m, rfl⟩ : ∃ m, fuel = m + 1 := ⟨fuel - 1, by omega⟩
        refine ⟨NLMSG_ALIGN (nlmsg_len d) - d.length, .inr (by rw [hend, walk_nil]), fun rest => ?_⟩
        have hlen : (d.length : Int) - NLMSG_ALIGN (nlmsg_len d) =
            (([] : List UInt8).length : Int) - ((NLMSG_ALIGN (nlmsg_len d) - d.length : Nat) : Int) := by
          rw [List.length_nil]
          omega
        rw [readLoop_message hgo, readLoop_short (by omega), hend, walk_nil, List.drop_append, hend, List.nil_append,
          hlen, List.map_cons, List.map_nil, gather, gather]
        cases onMessage (d ++ rest) d.length <;> rfl
      · obtain ⟨k, hk, hloop⟩ := ih (d.drop (NLMSG_ALIGN (nlmsg_len d))) (by rw [List.length_drop]; omega)
        refine ⟨k, hk, fun rest => ?_⟩
        have hlen : (d.length : Int) - NLMSG_ALIGN (nlmsg_len d) = (d.drop (NLMSG_ALIGN (nlmsg_len d))).length := by
          rw [List.length_drop]
          omega
        rw [readLoop_message hgo, List.drop_append_of_le_length hle, hlen, hloop, List.map_cons, gather]
        cases onMessage (d ++ rest) d.length with
        | none => rfl
        | some now =>
          rw [Option.bind_some, Option.bind_some, Option.map_map, Option.map_map]
          rfl
    · refine ⟨0, .inl rfl, fun rest => ?_⟩
      rw [walk, if_neg hgo, readLoop, if_neg fun h => hgo ((goes_on_append rest).mp h)]
      simp [gather]

/-! ### Where it ends -/

theorem walk_stop (fuel : Nat) : ∀ d : List UInt8, d.length < fuel →
    ¬ (NLMSG_OK (walk fuel d).2 (walk fuel d).2.length ∧ nlmsg_type (walk fuel d).2 ≠ some NLMSG_DONE) := by
  induction fuel with
  | zero => exact fun d h => absurd h (Nat.not_lt_zero _)
  | succ fuel ih =>
    intro d hd
    by_cases hgo : NLMSG_OK d d.length ∧ nlmsg_type d ≠ some NLMSG_DONE
    · obtain ⟨hmin, hhead, -⟩ := hgo.1
      have halign := align_le (nlmsg_len d)
      unfold headerLen at hmin hhead
      rw [walk, if_pos hgo]
      exact ih _ (by rw [List.length_drop]; omega)
    · rw [walk, if_neg hgo]
      exact hgo

theorem walk_aligned (fuel : Nat) : ∀ d : List UInt8,
    (walk fuel d).2 = [] ∨ (walk fuel d).2.length ≤ d.length ∧ (d.length - (walk fuel d).2.length) % 4 = 0 := by
  induction fuel with
  | zero => exact fun d => .inr ⟨Nat.le_refl _, by simp [walk]⟩
  | succ fuel ih =>
    intro d
    rw [walk]
    split
    · dsimp only
      rcases ih (d.drop (NLMSG_ALIGN (nlmsg_len d))) with h | ⟨hle, hmod⟩
      · exact .inl h
      · rw [List.length_drop] at hle hmod
        by_cases hempty : (walk fuel (d.drop (NLMSG_ALIGN (nlmsg_len d)))).2 = []
        · exact .inl hempty
        · have hpos := List.length_pos_iff.mpr hempty
          refine .inr ⟨by omega, ?_⟩
          unfold NLMSG_ALIGN at *
          omega
    · exact .inr ⟨Nat.le_refl _, by simp⟩

theorem stop_type {d : Datagram} (h : ContainsDone d) : nlmsg_type (stop d) = some NLMSG_DONE := by
  by_contra hne
  exact walk_stop (d.1.length + 1) d.1 (Nat.lt_succ_self _) ⟨h, hne⟩

theorem receive_walk {d : Datagram} (hne : d.1 ≠ []) :
    ∃ k, (k = 0 ∨ stop d = []) ∧ ∀ rest, receive onMessage onDone d.1.length (d.1 ++ rest) =
      (gather ((messages d).map fun m => onMessage (m ++ rest) m.length)).bind fun calls =>
        (nlmsg_type (stop d ++ rest.drop k)).map fun type =>
          if type = NLMSG_DONE then calls ++ [onDone (stop d ++ rest.drop k) ((stop d).length - k)] else calls := by
  obtain ⟨k, hk, hloop⟩ := @readLoop_walk _ onMessage (d.1.length + 1) d.1 (Nat.lt_succ_self _)
  refine ⟨k, hk, fun rest => ?_⟩
  have hlen := List.length_pos_iff.mpr hne
  rw [receive, if_neg (by omega), hloop, Option.bind_map]
  rfl

theorem typeBytes_five {d : List UInt8} (h : d.length = 5) :
    ∃ x, ∀ rest, typeBytes d = [x] ∧ typeBytes (d ++ rest) = x :: rest.take 1 := by
  obtain ⟨x, hx⟩ := List.length_eq_one_iff.mp (show (d.drop 4).length = 1 by rw [List.length_drop, h])
  refine ⟨x, fun rest => ⟨by rw [typeBytes, hx]; rfl, ?_⟩⟩
  rw [typeBytes, List.drop_append_of_le_length (by omega), hx]
  rfl

theorem stop_length_ne {d : Datagram} (h5 : (stop d).length = 5) : d.1.length ≠ bufferSize := by
  intro h
  unfold bufferSize at h
  rcases walk_aligned (d.1.length + 1) d.1 with he | ⟨-, hmod⟩
  · unfold stop at h5
    rw [he] at h5
    cases h5
  · unfold stop at h5
    omega

/-- The type isn't `NLMSG_DONE`, whatever comes behind the datagram. -/
theorem type_of_definite {d : Datagram} (h5 : 5 ≤ (stop d).length) (hne : leNat (typeBytes (stop d)) ≠ NLMSG_DONE)
    {rest : List UInt8} (hrest : d.1.length + rest.length = bufferSize) :
    ∃ type, nlmsg_type (stop d ++ rest) = some type ∧ type ≠ NLMSG_DONE := by
  rcases Nat.lt_or_ge (stop d).length 6 with hlt | hge
  · -- Its lower byte was received.
    have hlen : (stop d).length = 5 := by omega
    have hroom := stop_length_ne hlen
    obtain ⟨x, hx⟩ := typeBytes_five hlen
    obtain ⟨y, rest, rfl⟩ := List.exists_cons_of_length_pos (l := rest) (by omega)
    refine ⟨_, if_pos (by simp; omega), ?_⟩
    have hlt := x.toNat_lt
    rw [(hx []).1, leNat, leNat, NLMSG_DONE] at hne
    rw [(hx _).2, List.take_succ_cons, leNat, leNat, NLMSG_DONE]
    omega
  · refine ⟨leNat (typeBytes (stop d)), ?_, hne⟩
    rw [nlmsg_type_append hge, nlmsg_type, if_pos hge]

theorem type_of_ambiguous {d : Datagram} (h : ¬ Definite d) {k : Nat} (hk : k = 0 ∨ stop d = []) :
    ∃ rest : List UInt8, d.1.length + rest.length = bufferSize ∧
      ∀ type ∈ nlmsg_type (stop d ++ rest.drop k), type = NLMSG_DONE := by
  have hsize := Nat.add_sub_cancel' d.2
  generalize bufferSize - d.1.length = r at hsize
  rw [Definite, not_or, not_and, not_not] at h
  rcases Nat.lt_or_ge (stop d).length 5 with hlt | h5
  · -- A 3 comes where the lower byte is read from, and a 0 behind it.
    obtain ⟨j, hj⟩ : ∃ j, j = k + (4 - (stop d).length) := ⟨_, rfl⟩
    obtain ⟨rest, heq⟩ : ∃ rest, rest = (List.replicate j (0 : UInt8) ++ 3 :: List.replicate r 0).take r := ⟨_, rfl⟩
    have hrest : rest.length = r := by
      rw [heq, List.length_take_of_le (by simp; omega)]
    refine ⟨rest, by rw [hrest, hsize], ?_⟩
    intro type htype
    rw [nlmsg_type, Option.mem_def, Option.ite_none_right_eq_some, List.length_append, List.length_drop, hrest] at htype
    obtain ⟨hroom, htype⟩ := htype
    obtain ⟨n, hn⟩ : ∃ n, r - j = n + 2 := ⟨r - j - 2, by omega⟩
    obtain ⟨m, rfl⟩ : ∃ m, r = m + 1 := ⟨r - 1, by omega⟩
    have hbytes : typeBytes (stop d ++ rest.drop k) = [3, 0] := by
      rw [typeBytes, List.drop_append, List.drop_of_length_le (by omega), List.nil_append, List.drop_drop, ← hj, heq,
        List.drop_take, hn, List.drop_left' List.length_replicate, List.replicate_succ, List.take_succ_cons,
        List.take_succ_cons, List.take_succ_cons, List.take_succ_cons, List.take_zero]
    rw [hbytes] at htype
    exact (Option.some.inj htype).symm
  · have hk0 : k = 0 := hk.resolve_right fun he => by rw [he] at h5; simp at h5
    refine ⟨List.replicate r 0, by rw [List.length_replicate, hsize], ?_⟩
    intro type htype
    rw [hk0, List.drop_zero, nlmsg_type, Option.mem_def, Option.ite_none_right_eq_some] at htype
    obtain ⟨hroom, htype⟩ := htype
    rw [← Option.some.inj htype, ← h.2 h5]
    rcases Nat.lt_or_ge (stop d).length 6 with hlt | hge
    · rw [List.length_append, List.length_replicate] at hroom
      obtain ⟨x, hx⟩ := typeBytes_five (d := stop d) (by omega)
      obtain ⟨m, rfl⟩ : ∃ m, r = m + 1 := ⟨r - 1, by omega⟩
      rw [(hx _).2, (hx []).1, List.replicate_succ, List.take_succ_cons, List.take_zero]
      rfl
    · rw [typeBytes_append hge]

/-! ## What is called -/

/-- What is called for the messages doesn't depend on the rest of the buffer, and doesn't report `NLMSG_DONE`. -/
def Settled (onMessage : List UInt8 → Int → Option (List (Call δ))) (d : Datagram) : Prop :=
  ∃ calls, (∀ rest : List UInt8, d.1.length + rest.length = bufferSize →
      gather ((messages d).map fun m => onMessage (m ++ rest) m.length) = some calls) ∧ ∀ c ∈ calls, ¬ c.reports

theorem Definite.stop_ne_nil {d : Datagram} (h : Definite d) : stop d ≠ [] := by
  rintro he
  rcases h with hok | ⟨h5, -⟩
  · have := hok.1
    rw [he] at this
    exact absurd this (by decide)
  · rw [he] at h5
    exact absurd h5 (by decide)

theorem not_containsDone {d : Datagram} (htype : leNat (typeBytes (stop d)) ≠ NLMSG_DONE) : ¬ ContainsDone d := by
  intro hok
  have hlong := hok.1
  unfold headerLen at hlong
  have hsome := stop_type hok
  rw [nlmsg_type, if_pos (by omega), Option.some.injEq] at hsome
  exact htype hsome

theorem receive_depends_iff {d : Datagram} (hne : d.1 ≠ []) (hsettled : Settled onMessage d)
    (hreports : ∀ nlh len, nlmsg_type nlh = some NLMSG_DONE → (onDone nlh len).reports)
    (hdone : ∀ m rest, NLMSG_OK m m.length → onDone (m ++ rest) m.length = onDone m m.length) :
    DependsOnDatagram (receive onMessage onDone) d ↔ Definite d := by
  obtain ⟨calls, hcalls, hquiet⟩ := hsettled
  obtain ⟨k, hk, hreceive⟩ := @receive_walk _ onMessage onDone _ hne
  constructor
  · rintro ⟨all, hall, hiff⟩
    by_contra hdef
    obtain ⟨rest, hrest, htype⟩ := type_of_ambiguous hdef hk
    have heq := hall rest hrest
    rw [hreceive, hcalls rest hrest, Option.bind_some, Option.map_eq_some_iff] at heq
    obtain ⟨type, hsome, heq⟩ := heq
    obtain rfl := htype type hsome
    rw [if_pos rfl] at heq
    refine hdef (.inl (hiff.mp ⟨_, ?_, hreports _ ((stop d).length - k) hsome⟩))
    rw [← heq]
    exact List.mem_append_right _ (List.mem_singleton.mpr rfl)
  · intro hdef
    obtain rfl : k = 0 := hk.resolve_right hdef.stop_ne_nil
    rcases hdef with hok | ⟨h5, htype⟩
    · have hlong := hok.1
      unfold headerLen at hlong
      refine ⟨calls ++ [onDone (stop d) (stop d).length], fun rest hrest => ?_, iff_of_true ?_ hok⟩
      · rw [hreceive, hcalls rest hrest, Option.bind_some, List.drop_zero, nlmsg_type_append (by omega), stop_type hok,
          Option.map_some, if_pos rfl, Int.natCast_zero, Int.sub_zero, hdone _ _ hok]
      · exact ⟨_, List.mem_append_right _ (List.mem_singleton.mpr rfl), hreports _ _ (stop_type hok)⟩
    · refine ⟨calls, fun rest hrest => ?_, iff_of_false ?_ (not_containsDone htype)⟩
      · obtain ⟨type, hsome, hne'⟩ := type_of_definite h5 htype hrest
        rw [hreceive, hcalls rest hrest, Option.bind_some, List.drop_zero, hsome, Option.map_some, if_neg hne']
      · rintro ⟨c, hc, hr⟩
        exact hquiet c hc hr

/-! ## The messages -/

theorem walk_messages (fuel : Nat) : ∀ d : List UInt8, ∀ m ∈ (walk fuel d).1,
    NLMSG_OK m m.length ∧ nlmsg_type m ≠ some NLMSG_DONE ∧ m.length ≤ d.length := by
  induction fuel with
  | zero => exact fun d m hm => absurd hm List.not_mem_nil
  | succ fuel ih =>
    intro d m hm
    rw [walk] at hm
    split at hm
    · rename_i hgo
      rcases List.mem_cons.mp hm with rfl | hm
      · exact ⟨hgo.1, hgo.2, Nat.le_refl _⟩
      · obtain ⟨hok, htype, hle⟩ := ih _ m hm
        rw [List.length_drop] at hle
        exact ⟨hok, htype, by omega⟩
    · cases hm

theorem messages_head {d : Datagram} {m : List UInt8} (hm : m ∈ messages d) (hlen : d.1.length ≤ m.length) :
    m = d.1 ∧ ∃ ms, messages d = d.1 :: ms := by
  unfold messages at hm ⊢
  rw [walk] at hm ⊢
  split at hm
  · rename_i hgo
    rw [if_pos hgo]
    obtain ⟨hmin, hhead, -⟩ := hgo.1
    unfold headerLen at hmin hhead
    have halign := align_le (nlmsg_len d.1)
    rcases List.mem_cons.mp hm with rfl | hm
    · exact ⟨rfl, _, rfl⟩
    · have hle := (walk_messages _ _ m hm).2.2
      rw [List.length_drop] at hle
      omega
  · cases hm

theorem gather_map {α β : Type} {f : β → Option (List α)} {g : β → List α} {xs : List β}
    (h : ∀ x ∈ xs, f x = some (g x)) : gather (xs.map f) = some (xs.flatMap g) := by
  induction xs with
  | nil => rfl
  | cons x xs ih =>
    rw [List.forall_mem_cons] at h
    rw [List.map_cons, gather, h.1, ih h.2, List.flatMap_cons]
    rfl

theorem gather_some {α : Type} {xs : List (Option (List α))} {calls : List α} (h : gather xs = some calls) :
    ∀ x ∈ xs, x ≠ none := by
  induction xs generalizing calls with
  | nil => exact fun x hx => by cases hx
  | cons x xs ih =>
    obtain ⟨now, rfl, h⟩ := Option.bind_eq_some_iff.mp h
    obtain ⟨rest, hrest, -⟩ := Option.map_eq_some_iff.mp h
    exact List.forall_mem_cons.mpr ⟨Option.some_ne_none now, ih hrest⟩

theorem settled_of {d : Datagram} {f : List UInt8 → List (Call δ)}
    (hcalls : ∀ m ∈ messages d, ∀ rest, onMessage (m ++ rest) m.length = some (f m))
    (hquiet : ∀ m ∈ messages d, ∀ c ∈ f m, ¬ c.reports) : Settled onMessage d := by
  refine ⟨(messages d).flatMap f, fun rest _ => gather_map fun m hm => hcalls m hm rest, ?_⟩
  intro c hc
  obtain ⟨m, hm, hc⟩ := List.mem_flatMap.mp hc
  exact hquiet m hm c hc

end

theorem typeAt_append {m : List UInt8} (h : NLMSG_OK m m.length) (rest : List UInt8) :
    typeAt (m ++ rest) = typeAt m := by
  have hmin := h.1
  unfold headerLen at hmin
  rw [typeAt, typeBytes_append (by omega), typeAt]

theorem take_message {m : List UInt8} (h : NLMSG_OK m m.length) (rest : List UInt8) :
    (m ++ rest).take (nlmsg_len (m ++ rest)) = m.take (nlmsg_len m) := by
  obtain ⟨hmin, -, hle⟩ := h
  unfold headerLen at hmin
  rw [nlmsg_len_append (by omega), List.take_append_of_le_length (by omega)]

theorem callMessage_append {m : List UInt8} (h : NLMSG_OK m m.length) (rest : List UInt8) :
    callMessage (m ++ rest) m.length = callMessage m m.length := by
  rw [callMessage, typeAt_append h, take_message h, callMessage]

theorem callMessage_reports {m : List UInt8} {len : Int} (h : 6 ≤ m.length) :
    (callMessage m len).reports ↔ nlmsg_type m = some NLMSG_DONE := by
  rw [nlmsg_type, if_pos h, Option.some.injEq]
  exact Iff.rfl

/-! ## Both functions -/

theorem generic_depends_iff (message_types : Option (List Nat)) {d : Datagram} (hne : d.1 ≠ []) :
    DependsOnDatagram (netlink_raw_generic_read message_types) d ↔ Definite d := by
  apply receive_depends_iff hne
  · apply settled_of (f := fun m =>
      if message_types.all (wanted (typeAt m)) then [callMessage m m.length] else [])
    · intro m hm rest
      have hok := (walk_messages _ _ m hm).1
      rw [genericMessage, typeAt_append hok, callMessage_append hok]
      exact (apply_ite some _ _ _).symm
    · intro m hm c hc
      obtain ⟨hok, htype, -⟩ := walk_messages _ _ m hm
      have hmin := hok.1
      unfold headerLen at hmin
      split at hc
      · rw [List.mem_singleton.mp hc, callMessage_reports (by omega)]
        exact htype
      · cases hc
  · intro nlh len htype
    refine (callMessage_reports ?_).mpr htype
    by_contra h
    rw [nlmsg_type, if_neg h] at htype
    cases htype
  · exact fun m rest hok => callMessage_append hok rest

section

variable {δ : Type} (l : RouteListener δ)

/-- Copying 4096 bytes from a message on takes no more than the datagram. -/
def CopiesDatagram (d : Datagram) : Prop :=
  l.raw2dict = none → ∀ m ∈ messages d, wanted (typeAt m) l.nlmsg_types → m.length = bufferSize

theorem route_settled {d : Datagram} (h : CopiesDatagram l d) : Settled (routeMessage l) d := by
  cases hraw : l.raw2dict with
  | none =>
    apply settled_of (f := fun m => if wanted (typeAt m) l.nlmsg_types then [.rawEvent m] else [])
    · intro m hm rest
      have hok := (walk_messages _ _ m hm).1
      rw [routeMessage, typeAt_append hok, hraw]
      split
      · rename_i hwanted
        have hlen := h hraw m hm hwanted
        dsimp only
        rw [if_pos (by rw [List.length_append]; omega), ← hlen, List.take_left]
      · rfl
    · intro m hm c hc
      split at hc
      · rw [List.mem_singleton.mp hc]
        exact id
      · cases hc
  | some raw2dict =>
    apply settled_of (f := fun m =>
      if wanted (typeAt m) l.nlmsg_types then [.dictEvent (raw2dict (m.take (nlmsg_len m)))] else [])
    · intro m hm rest
      have hok := (walk_messages _ _ m hm).1
      rw [routeMessage, typeAt_append hok, hraw]
      dsimp only
      rw [take_message hok]
      exact (apply_ite some _ _ _).symm
    · intro m hm c hc
      split at hc
      · rw [List.mem_singleton.mp hc]
        exact id
      · cases hc

theorem routeDone_reports (nlh : List UInt8) (len : Int) : (routeDone l nlh len).reports := by
  unfold routeDone
  split <;> trivial

theorem route_copies_buffer {d : Datagram} (hne : d.1 ≠ []) (hraw : l.raw2dict = none)
    (hwanted : wanted (typeAt d.1) l.nlmsg_types) {ms : List (List UInt8)} (hms : messages d = d.1 :: ms)
    {rest : List UInt8} (hrest : d.1.length + rest.length = bufferSize) {calls : List (Call δ)}
    (h : nl_route_read_cb l d.1.length (d.1 ++ rest) = some calls) : calls.head? = some (.rawEvent (d.1 ++ rest)) := by
  obtain ⟨k, -, hreceive⟩ := @receive_walk _ (routeMessage l) (routeDone l) _ hne
  have hok := (walk_messages _ _ d.1 (show d.1 ∈ messages d by rw [hms]; exact List.mem_cons_self)).1
  have hlen : (d.1 ++ rest).length = bufferSize := by rw [List.length_append, hrest]
  have hmessage : routeMessage l (d.1 ++ rest) d.1.length = some [.rawEvent (d.1 ++ rest)] := by
    rw [routeMessage, typeAt_append hok, if_pos hwanted, hraw]
    dsimp only
    rw [if_pos (by omega), List.take_of_length_le (by omega)]
  rw [nl_route_read_cb, hreceive, hms, List.map_cons, gather, hmessage, Option.bind_some, Option.bind_map] at h
  obtain ⟨later, -, h⟩ := Option.bind_eq_some_iff.mp h
  obtain ⟨type, -, h⟩ := Option.map_eq_some_iff.mp h
  rw [← h]
  split <;> rfl

theorem copiesDatagram_of_depends {d : Datagram} (hne : d.1 ≠ [])
    (h : DependsOnDatagram (nl_route_read_cb l) d) : CopiesDatagram l d := by
  obtain ⟨calls, hcalls, -⟩ := h
  intro hraw m hm hwanted
  by_contra hlen
  have hsize := Nat.add_sub_cancel' d.2
  generalize bufferSize - d.1.length = r at hsize
  have hfill : ∀ b : UInt8, d.1.length + (List.replicate r b).length = bufferSize := fun b => by
    rw [List.length_replicate, hsize]
  obtain ⟨hok, -, hle⟩ := walk_messages _ _ m hm
  -- The copy stays inside the buffer, so it is of the first message.
  have hfirst : d.1.length ≤ m.length := by
    obtain ⟨k, -, hreceive⟩ := @receive_walk _ (routeMessage l) (routeDone l) _ hne
    have hzeros := hcalls _ (hfill 0)
    rw [nl_route_read_cb, hreceive] at hzeros
    obtain ⟨all, hall, -⟩ := Option.bind_eq_some_iff.mp hzeros
    have hsome := gather_some hall _ (List.mem_map_of_mem hm)
    rw [routeMessage, typeAt_append hok, if_pos hwanted, hraw] at hsome
    by_contra hlt
    refine hsome (if_neg ?_)
    rw [List.length_append, List.length_replicate]
    omega
  obtain ⟨rfl, ms, hms⟩ := messages_head hm hfirst
  have hzeros := route_copies_buffer l hne hraw hwanted hms (hfill 0) (hcalls _ (hfill 0))
  have hones := route_copies_buffer l hne hraw hwanted hms (hfill 1) (hcalls _ (hfill 1))
  rw [hzeros, Option.some.injEq, Call.rawEvent.injEq, List.append_cancel_left_eq] at hones
  obtain ⟨n, rfl⟩ : ∃ n, r = n + 1 := ⟨r - 1, by omega⟩
  rw [List.replicate_succ, List.replicate_succ, List.cons.injEq] at hones
  exact absurd hones.1 (by decide)

theorem route_depends_iff {d : Datagram} (hne : d.1 ≠ []) :
    DependsOnDatagram (nl_route_read_cb l) d ↔ Definite d ∧ CopiesDatagram l d := by
  have hiff (h : CopiesDatagram l d) : DependsOnDatagram (nl_route_read_cb l) d ↔ Definite d :=
    receive_depends_iff hne (route_settled l h) (fun nlh len _ => routeDone_reports l nlh len) fun _ _ _ => rfl
  constructor
  · intro h
    have hcopies := copiesDatagram_of_depends l hne h
    exact ⟨(hiff hcopies).mp h, hcopies⟩
  · exact fun h => (hiff h.2).mpr h.1

theorem depends_of_empty {d : Datagram} (h : d.1 = []) {read : Nat → List UInt8 → Option (List (Call δ))}
    (hread : ∀ buffer, read 0 buffer = some []) : DependsOnDatagram read d := by
  refine ⟨[], fun rest _ => by rw [h]; exact hread _, iff_of_false (by simp) ?_⟩
  rw [ContainsDone, stop, h, walk_nil]
  exact fun hok => absurd hok.1 (by decide)

end

/-- What is called depends on nothing but the datagram if and only if the end of it is definite: there is a message of
the type `NLMSG_DONE`, or a header that isn't well-formed and hasn't that type. If the buffer is copied without
`raw2dict`, the datagram has to fill it. -/
theorem reads_depend_iff {δ : Type} (message_types : Option (List Nat)) (l : RouteListener δ) (d : Datagram) :
    (DependsOnDatagram (netlink_raw_generic_read message_types) d ↔ d.1 = [] ∨ Definite d) ∧
      (DependsOnDatagram (nl_route_read_cb l) d ↔ d.1 = [] ∨ Definite d ∧ CopiesDatagram l d) := by
  by_cases h : d.1 = []
  · exact ⟨iff_of_true (depends_of_empty h fun _ => rfl) (.inl h), iff_of_true (depends_of_empty h fun _ => rfl) (.inl h)⟩
  · rw [generic_depends_iff message_types h, route_depends_iff l h]
    exact ⟨(or_iff_right h).symm, (or_iff_right h).symm⟩

/-- One message of 16 bytes, which is all. -/
def oneMessage : Datagram := ⟨[16, 0, 0, 0, 20, 0, 0, 0, 0, 0, 0, 0, 0, 0, 0, 0], by decide⟩

/-- Behind it, the type is read from what was in the buffer before. -/
theorem reads_depend_on_rest :
    ¬ (DependsOnDatagram (netlink_raw_generic_read none) oneMessage ∧
      DependsOnDatagram (nl_route_read_cb ⟨[20], some List.length, true⟩) oneMessage) := by
  rintro ⟨h, -⟩
  have hdefinite := (generic_depends_iff none (by decide)).mp h
  have hstop : stop oneMessage = [] := by decide
  rw [Definite, ContainsDone, hstop] at hdefinite
  rcases hdefinite with hok | hlong
  · exact absurd hok.1 (by decide)
  · exact absurd hlong.1 (by decide)

end Libcortex.Netlink
