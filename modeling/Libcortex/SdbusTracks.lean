import Libcortex.DictBuild
import Libcortex.Lib.Edges
import Libcortex.Lib.Memory
import Libcortex.Lib.Run

/-!
# Peers that come and go on the bus

A track of `sdbus.c` asks the bus for the signal `NameOwnerChanged` of one name, with a match whose rule it writes
itself, and calls back when the name gets an owner or loses it. The messages wait in a queue until the event loop
gives each of them to all the matches, and meanwhile the name may change its owner again and other tracks are added
and removed.
-/

open Libcortex.Lib

namespace Libcortex.SdbusTracks

open Dicts DictBuild

abbrev TrackId := Nat

/-! ## The code -/

/-- `TRACK_TEMPLATE`, up to `%s`. -/
def trackTemplate : List UInt8 :=
  (text "type='signal',sender='org.freedesktop.DBus',path='/org/freedesktop/DBus',").1 ++
    (text "interface='org.freedesktop.DBus',member='NameOwnerChanged',arg0='").1

/-- The `'` behind `%s`. -/
def QUOTE : UInt8 := 39

/-- What `TRACK_TEMPLATE` makes of a name. -/
def trackRule (peer : CString) : List UInt8 := trackTemplate ++ peer.1 ++ [QUOTE]

/-- `strlen(TRACK_TEMPLATE) + strlen(track->peer)` -/
def matchLen (peer : CString) : Nat := trackTemplate.length + 3 + peer.1.length

/-- The signal `NameOwnerChanged`. A name without an owner has the empty one. -/
structure Message where
  name : CString
  old : CString
  new : CString
deriving DecidableEq

inductive Call where
  | appear (new : CString)
  | disappear (old : CString)
deriving DecidableEq

def callsFor (old new : CString) : List Call :=
  (if 0 < new.1.length ∧ old.1.length = 0 then [.appear new] else []) ++
    (if 0 < old.1.length ∧ new.1.length = 0 then [.disappear old] else [])

/-- The calls of the track, unless the message is about another peer. -/
def match_event_cb_track (peer : CString) (m : Message) : Except Int (List Call) :=
  if m.name ≠ peer then .error (-1) else .ok (callsFor m.old m.new)

/-- `peer` is the name that a track watches. `accepts` is how the bus understands the text of a rule. -/
structure Config where
  peer : TrackId → CString
  accepts : List UInt8 → Message → Bool

/-- The rule of a track, as the bus documents it. -/
def Config.Documented (c : Config) : Prop := ∀ peer m, c.accepts (trackRule peer) m = true ↔ m.name = peer

/-- `owner` is on the bus, and `queue` are the messages that the connection holds, of which `called` have been given
the first one already. `matches` are those of the listener, and `slots` those of the connection. The last three
fields are about the time since a track was added: its calls, the owner at the start, and those that followed. -/
structure Sys where
  owner : CString → CString
  queue : List Message
  called : List TrackId
  matches_ : List TrackId
  slots : List (TrackId × List UInt8)
  calls : TrackId → List Call
  atStart : TrackId → CString
  since : TrackId → List CString

/-- `change`: a name gets a new owner, and the bus sends a message or not. `add`: `fresh` is the memory from `malloc`,
and `ok` whether the bus takes the match. `call`: the first message is given to a match. -/
inductive Action where
  | change (name new : CString) (sent : Bool)
  | add (t : TrackId) (fresh : List UInt8) (ok : Bool)
  | remove (t : TrackId)
  | call (t : TrackId)
  | drop
deriving DecidableEq

/-- The match is in the list before the bus is asked, and leaves it if the bus refuses. -/
def crtx_sdbus_match_add (c : Config) (s : Sys) (t : TrackId) (match_str : List UInt8) (ok : Bool) : Sys :=
  let s' := { s with matches_ := s.matches_ ++ [t] }
  if ok then
    { s' with
      slots := s'.slots ++ [(t, match_str)]
      calls := Function.update s'.calls t []
      atStart := Function.update s'.atStart t (s'.owner (c.peer t))
      since := Function.update s'.since t [] }
  else { s' with matches_ := s'.matches_.dropLast }

/-- `none`: `snprintf` would write beyond the memory, or leaves no end. -/
def crtx_sdbus_track_add (c : Config) (s : Sys) (t : TrackId) (fresh : List UInt8) (ok : Bool) : Option Sys :=
  (snprintf fresh 0 (matchLen (c.peer t)) (trackRule (c.peer t))).bind fun mem =>
    (cstr mem).map fun match_str => crtx_sdbus_match_add c s t match_str ok

def crtx_sdbus_match_remove (s : Sys) (t : TrackId) : Sys :=
  if t ∈ s.matches_ then
    { s with matches_ := s.matches_.erase t, slots := s.slots.filter fun slot => slot.1 ≠ t }
  else s

/-- The matches whose rule takes the message. -/
def takers (c : Config) (s : Sys) (m : Message) : List TrackId :=
  (s.slots.filter fun slot => c.accepts slot.2 m).map Prod.fst

/-- The bus sends a message if a match takes it, and may send it too if none does, as a rule is taken back later than
its match. A track is added once until it is removed. -/
def enabled (c : Config) (s : Sys) : Action → Prop
  | .change name new sent =>
    new ≠ s.owner name ∧ (takers c s ⟨name, s.owner name, new⟩ ≠ [] → sent = true)
  | .add t fresh _ =>
    t ∉ s.matches_ ∧ fresh.length = matchLen (c.peer t)
  | .remove t => t ∈ s.matches_
  | .call t => ∃ m ∈ s.queue.head?, t ∈ takers c s m ∧ t ∉ s.called
  | .drop => ∃ m ∈ s.queue.head?, ∀ t ∈ takers c s m, t ∈ s.called

instance (c : Config) (s : Sys) : ∀ a, Decidable (enabled c s a)
  | .change name new sent =>
    inferInstanceAs (Decidable (new ≠ s.owner name ∧ (takers c s ⟨name, s.owner name, new⟩ ≠ [] → sent = true)))
  | .add _ _ _ => inferInstanceAs (Decidable (_ ∧ _))
  | .remove t => inferInstanceAs (Decidable (t ∈ s.matches_))
  | .call t => inferInstanceAs (Decidable (∃ m ∈ s.queue.head?, t ∈ takers c s m ∧ t ∉ s.called))
  | .drop => inferInstanceAs (Decidable (∃ m ∈ s.queue.head?, ∀ t ∈ takers c s m, t ∈ s.called))

def apply (c : Config) (s : Sys) : Action → Option Sys
  | .change name new sent =>
    some { s with
      owner := Function.update s.owner name new
      queue := if sent then s.queue ++ [⟨name, s.owner name, new⟩] else s.queue
      since := fun t => if c.peer t = name then s.since t ++ [new] else s.since t }
  | .add t fresh ok => crtx_sdbus_track_add c s t fresh ok
  | .remove t => some (crtx_sdbus_match_remove s t)
  | .call t =>
    s.queue.head?.map fun m =>
      match match_event_cb_track (c.peer t) m with
      | .ok calls => { s with calls := Function.update s.calls t (s.calls t ++ calls), called := s.called ++ [t] }
      | .error _ => { s with called := s.called ++ [t] }
  | .drop => some { s with queue := s.queue.tail, called := [] }

def step (c : Config) (s : Sys) (a : Action) : Option Sys := if enabled c s a then apply c s a else none

def init (owner : CString → CString) : Sys where
  owner := owner
  queue := []
  called := []
  matches_ := []
  slots := []
  calls _ := []
  atStart _ := text ""
  since _ := []

/-! ## The rule -/

theorem zero_notMem_trackRule (peer : CString) : 0 ∉ trackRule peer := by
  simp only [trackRule, trackTemplate, List.mem_append, List.mem_singleton, not_or]
  exact ⟨⟨⟨(text _).2, (text _).2⟩, peer.2⟩, by simp [QUOTE]⟩

theorem trackRule_written {peer : CString} {fresh : List UInt8} (h : fresh.length = matchLen peer) :
    ∃ mem, snprintf fresh 0 (matchLen peer) (trackRule peer) = some mem ∧ cstr mem = some (trackRule peer) := by
  have hlen : (trackRule peer).length + 2 = matchLen peer := by
    simp [trackRule, matchLen]
    omega
  have htake : (trackRule peer).take (matchLen peer - 1) = trackRule peer := List.take_of_length_le (by omega)
  refine ⟨trackRule peer ++ 0 :: fresh.drop ((trackRule peer).length + 1), ?_, cstr_append (zero_notMem_trackRule peer) _⟩
  unfold snprintf overwrite
  rw [htake, if_neg (by omega), if_pos (by simp; omega)]
  simp

theorem track_add_eq (c : Config) (s : Sys) (t : TrackId) {fresh : List UInt8} (h : fresh.length = matchLen (c.peer t))
    (ok : Bool) :
    crtx_sdbus_track_add c s t fresh ok = some (crtx_sdbus_match_add c s t (trackRule (c.peer t)) ok) := by
  obtain ⟨mem, hmem, hstr⟩ := trackRule_written h
  simp [crtx_sdbus_track_add, hmem, hstr]

/-! ## The list and the slots -/

/-- The connection has one slot for each match of the list, with the whole rule. -/
structure Listed (c : Config) (s : Sys) : Prop where
  slots : s.slots = s.matches_.map fun t => (t, trackRule (c.peer t))
  nodup : s.matches_.Nodup

theorem init_listed (c : Config) (owner : CString → CString) : Listed c (init owner) := ⟨rfl, List.nodup_nil⟩

theorem Listed.add {c : Config} {s : Sys} (h : Listed c s) {t : TrackId} (ht : t ∉ s.matches_) (ok : Bool) :
    Listed c (crtx_sdbus_match_add c s t (trackRule (c.peer t)) ok) := by
  unfold crtx_sdbus_match_add
  split
  · refine ⟨by simp [h.slots], ?_⟩
    rw [← List.concat_eq_append]
    exact h.nodup.concat ht
  · exact ⟨by simp [h.slots], by simpa using h.nodup⟩

theorem Listed.remove {c : Config} {s : Sys} (h : Listed c s) (t : TrackId) :
    Listed c (crtx_sdbus_match_remove s t) := by
  unfold crtx_sdbus_match_remove
  split
  · refine ⟨?_, h.nodup.erase t⟩
    simp only [h.slots, h.nodup.erase_eq_filter, List.filter_map]
    congr 1
    apply List.filter_congr
    intro t' _
    rw [Bool.eq_iff_iff]
    simp
  · exact h

theorem step_listed (c : Config) (s : Sys) (a : Action) (s' : Sys) (h : Listed c s) (hs : step c s a = some s') :
    Listed c s' := by
  unfold step at hs
  rw [Option.ite_none_right_eq_some] at hs
  obtain ⟨he, hs⟩ := hs
  unfold apply at hs
  split at hs
  · simp only [Option.some.injEq] at hs
    subst hs
    exact ⟨h.slots, h.nodup⟩
  · rw [track_add_eq c s _ he.2, Option.some.injEq] at hs
    subst hs
    exact h.add he.1 _
  · simp only [Option.some.injEq] at hs
    subst hs
    exact h.remove _
  · rw [Option.map_eq_some_iff] at hs
    obtain ⟨m, _, rfl⟩ := hs
    split <;> exact ⟨h.slots, h.nodup⟩
  · simp only [Option.some.injEq] at hs
    subst hs
    exact ⟨h.slots, h.nodup⟩

theorem mem_takers {c : Config} (hc : c.Documented) {s : Sys} (h : Listed c s) {m : Message} {t : TrackId} :
    t ∈ takers c s m ↔ t ∈ s.matches_ ∧ m.name = c.peer t := by
  unfold takers
  simp [h.slots, hc (c.peer t) m]

/-! ## What a track is told -/

/-- The messages about a peer that are left, if the first one of the queue was given already or not. -/
def left (peer : CString) (given : Bool) (queue : List Message) : List Message :=
  (if given then queue.tail else queue).filter fun m => m.name = peer

/-- The messages that a track is still to be given. -/
def awaited (c : Config) (s : Sys) (t : TrackId) : List Message := left (c.peer t) (decide (t ∈ s.called)) s.queue

/-- The calls that they will make. -/
def due (c : Config) (s : Sys) (t : TrackId) : List Call := (awaited c s t).flatMap fun m => callsFor m.old m.new

/-- The owners of the name since the track was added, and what the track has been told. -/
structure Told (c : Config) (s : Sys) (t : TrackId) : Prop where
  owner : (s.since t).getLastD (s.atStart t) = s.owner (c.peer t)
  calls : s.calls t ++ due c s t = edges callsFor (s.atStart t) (s.since t)

structure Inv (c : Config) (s : Sys) : Prop where
  listed : Listed c s
  called : ∀ t ∈ s.called, ∃ m ∈ s.queue.head?, m.name = c.peer t
  told : ∀ t ∈ s.matches_, Told c s t

/-- A track is added while no message about its peer waits. -/
def AddedFresh (c : Config) (s : Sys) : Action → Prop
  | .add t _ _ => ∀ m ∈ s.queue, m.name ≠ c.peer t
  | _ => True

instance (c : Config) (s : Sys) : ∀ a, Decidable (AddedFresh c s a)
  | .add t _ _ => inferInstanceAs (Decidable (∀ m ∈ s.queue, m.name ≠ c.peer t))
  | .change _ _ _ | .remove _ | .call _ | .drop => inferInstanceAs (Decidable True)

theorem init_inv (c : Config) (owner : CString → CString) : Inv c (init owner) :=
  ⟨init_listed c owner, by simp [init], by simp [init]⟩

section Step

variable {c : Config} {s : Sys}

theorem told_congr {s' : Sys} {t : TrackId} (h : Told c s t) (howner : s'.owner (c.peer t) = s.owner (c.peer t))
    (hcalls : s'.calls t = s.calls t) (hstart : s'.atStart t = s.atStart t) (hsince : s'.since t = s.since t)
    (hawaited : awaited c s' t = awaited c s t) : Told c s' t := by
  refine ⟨?_, ?_⟩
  · rw [hsince, hstart, howner]
    exact h.owner
  · unfold due
    rw [hcalls, hstart, hsince, hawaited]
    exact h.calls

theorem left_snoc {peer : CString} {given : Bool} {queue : List Message} (h : given = true → queue ≠ []) (m : Message) :
    left peer given (queue ++ [m]) = left peer given queue ++ if m.name = peer then [m] else [] := by
  unfold left
  split
  · rename_i hg
    rw [List.tail_append_of_ne_nil (h hg), List.filter_append]
    simp [List.filter_cons]
  · rw [List.filter_append]
    simp [List.filter_cons]

theorem awaited_snoc (hi : Inv c s) (t : TrackId) (m : Message) :
    left (c.peer t) (decide (t ∈ s.called)) (s.queue ++ [m]) = awaited c s t ++ if m.name = c.peer t then [m] else [] := by
  apply left_snoc
  intro ht hnil
  obtain ⟨m', hm', -⟩ := hi.called t (of_decide_eq_true ht)
  simp [hnil] at hm'

theorem change_told (hc : c.Documented) (hi : Inv c s) {name new : CString} {sent : Bool}
    (he : enabled c s (.change name new sent)) {s' : Sys} (hs : apply c s (.change name new sent) = some s')
    {t : TrackId} (ht : t ∈ s.matches_) : Told c s' t := by
  have h := hi.told t ht
  simp only [apply, Option.some.injEq] at hs
  subst hs
  have hawaited := awaited_snoc hi t ⟨name, s.owner name, new⟩
  rcases eq_or_ne (c.peer t) name with rfl | hne
  · have hsent : sent = true := he.2 (List.ne_nil_of_mem ((mem_takers hc hi.listed).mpr ⟨ht, rfl⟩))
    subst hsent
    rw [if_pos rfl] at hawaited
    refine ⟨by simp, ?_⟩
    simp only [due, awaited, if_true, edges_snoc, h.owner]
    rw [hawaited, ← h.calls, List.flatMap_append, due]
    simp
  · rw [if_neg hne.symm, List.append_nil] at hawaited
    apply told_congr h
    · simp [Function.update_of_ne hne]
    · rfl
    · rfl
    · simp [hne]
    · rcases sent with _ | _
      · rfl
      · exact hawaited

theorem add_told (hi : Inv c s) {t₀ : TrackId} {fresh : List UInt8} (hnew : t₀ ∉ s.matches_)
    (hfresh : AddedFresh c s (.add t₀ fresh true)) {t : TrackId} (ht : t ∈ s.matches_ ++ [t₀]) :
    Told c (crtx_sdbus_match_add c s t₀ (trackRule (c.peer t₀)) true) t := by
  rcases List.mem_append.mp ht with ht | ht
  · have hne : t ≠ t₀ := fun he => hnew (he ▸ ht)
    apply told_congr (hi.told t ht) <;> simp [crtx_sdbus_match_add, hne, awaited]
  · obtain rfl := List.mem_singleton.mp ht
    have hnil : awaited c s t = [] := by
      unfold awaited left
      rw [List.filter_eq_nil_iff]
      intro m hm
      have hmem : m ∈ s.queue := by
        split at hm
        · exact List.mem_of_mem_tail hm
        · exact hm
      simpa using hfresh m hmem
    have hdue : due c (crtx_sdbus_match_add c s t (trackRule (c.peer t)) true) t = [] := by
      have hsame : awaited c (crtx_sdbus_match_add c s t (trackRule (c.peer t)) true) t = awaited c s t := rfl
      rw [due, hsame, hnil, List.flatMap_nil]
    refine ⟨by simp [crtx_sdbus_match_add], ?_⟩
    rw [hdue]
    simp [crtx_sdbus_match_add]

theorem call_told (hi : Inv c s) {m : Message} (hm : m ∈ s.queue.head?) {t₀ : TrackId} (hname : m.name = c.peer t₀)
    (hnot : t₀ ∉ s.called) {t : TrackId} (ht : t ∈ s.matches_) :
    Told c { s with
      calls := Function.update s.calls t₀ (s.calls t₀ ++ callsFor m.old m.new)
      called := s.called ++ [t₀] } t := by
  have h := hi.told t ht
  rcases eq_or_ne t t₀ with rfl | hne
  · refine ⟨h.owner, ?_⟩
    have hqueue : s.queue = m :: s.queue.tail := (List.cons_head?_tail hm).symm
    have hcalls := h.calls
    simp only [due, awaited, left, hnot, decide_false, Bool.false_eq_true, if_false] at hcalls
    rw [hqueue, List.filter_cons_of_pos (by simpa using hname), List.flatMap_cons] at hcalls
    simpa [due, awaited, left] using hcalls
  · apply told_congr h <;> simp [hne, awaited]

theorem drop_told (hc : c.Documented) (hi : Inv c s) {m : Message} (hm : m ∈ s.queue.head?)
    (hall : ∀ t ∈ takers c s m, t ∈ s.called) {t : TrackId} (ht : t ∈ s.matches_) :
    Told c { s with queue := s.queue.tail, called := [] } t := by
  refine told_congr (hi.told t ht) rfl rfl rfl rfl ?_
  have hqueue : s.queue = m :: s.queue.tail := (List.cons_head?_tail hm).symm
  by_cases hcalled : t ∈ s.called
  · simp [awaited, left, hcalled]
  · have hname : m.name ≠ c.peer t := by
      intro hname
      exact hcalled (hall t ((mem_takers hc hi.listed).mpr ⟨ht, hname⟩))
    simp only [awaited, left, hcalled, decide_false, Bool.false_eq_true, if_false, List.not_mem_nil]
    rw [hqueue, List.tail_cons, List.filter_cons_of_neg (by simpa using hname)]

theorem step_inv (hc : c.Documented) (s : Sys) (a : Action) (s' : Sys) (hi : Inv c s) (hok : AddedFresh c s a)
    (hs : step c s a = some s') : Inv c s' := by
  have hlisted := step_listed c s a s' hi.listed hs
  unfold step at hs
  rw [Option.ite_none_right_eq_some] at hs
  obtain ⟨he, hs⟩ := hs
  cases a with
  | change name new sent =>
    refine ⟨hlisted, ?_, ?_⟩
    · simp only [apply, Option.some.injEq] at hs
      subst hs
      intro t ht
      obtain ⟨m, hm, hname⟩ := hi.called t ht
      refine ⟨m, ?_, hname⟩
      rcases sent with _ | _
      · exact hm
      · simp only [Option.mem_def] at hm
        simp [List.head?_append, hm]
    · intro t ht
      apply change_told hc hi he hs
      simp only [apply, Option.some.injEq] at hs
      subst hs
      exact ht
  | add t fresh ok =>
    simp only [apply] at hs
    rw [track_add_eq c s _ he.2, Option.some.injEq] at hs
    subst hs
    rcases ok with _ | _
    · have hsame : crtx_sdbus_match_add c s t (trackRule (c.peer t)) false = s := by
        simp [crtx_sdbus_match_add]
      rw [hsame]
      exact hi
    · exact ⟨hlisted, hi.called, fun t' ht' => add_told hi he.1 hok ht'⟩
  | remove t =>
    simp only [apply, Option.some.injEq] at hs
    subst hs
    have ht : t ∈ s.matches_ := he
    simp only [crtx_sdbus_match_remove, if_pos ht] at hlisted ⊢
    refine ⟨hlisted, hi.called, ?_⟩
    intro t' ht'
    exact told_congr (hi.told t' (List.mem_of_mem_erase ht')) rfl rfl rfl rfl rfl
  | call t =>
    obtain ⟨m, hm, htaker, hnot⟩ := he
    have hname := ((mem_takers hc hi.listed).mp htaker).2
    have hhead : s.queue.head? = some m := hm
    simp only [apply, hhead, match_event_cb_track, hname, Option.map_some, Option.some.injEq, ne_eq, not_true_eq_false,
      if_false] at hs
    subst hs
    refine ⟨hlisted, ?_, fun t' ht' => call_told hi hm hname hnot ht'⟩
    intro t' ht'
    rcases List.mem_append.mp ht' with ht' | ht'
    · exact hi.called t' ht'
    · obtain rfl := List.mem_singleton.mp ht'
      exact ⟨m, hm, hname⟩
  | drop =>
    obtain ⟨m, hm, hall⟩ := he
    simp only [apply, Option.some.injEq] at hs
    subst hs
    exact ⟨hlisted, by simp, fun t ht => drop_told hc hi hm hall ht⟩

end Step

/-! ## The result -/

def Call.appears : Call → Bool
  | .appear _ => true
  | .disappear _ => false

/-- The name has an owner. -/
def present (owner : CString) : Bool := 0 < owner.1.length

theorem callsFor_tells : Tells present callsFor Call.appears := by
  intro old new
  unfold present callsFor
  rcases Nat.eq_zero_or_pos old.1.length with hold | hold <;> rcases Nat.eq_zero_or_pos new.1.length with hnew | hnew
  · simp [hold, hnew]
  · simp [hold, hnew, Call.appears]
  · simp [hold, hnew, Call.appears]
  · have hold' : old.1.length ≠ 0 := by omega
    have hnew' : new.1.length ≠ 0 := by omega
    simp [hold, hnew, hold', hnew']

/-- What a track has been told, and is still to be told by the messages that wait, are the comings and goings of its
peer since it was added, in their order. So the calls alternate, and when no message waits, the last one tells whether
the peer is there. -/
theorem track_follows_owner (c : Config) (hc : c.Documented) (owner : CString → CString) (as : List Action) (s : Sys)
    (hm : Meets (step c) (AddedFresh c) as (init owner)) (hr : run (step c) as (init owner) = some s) (t : TrackId)
    (ht : t ∈ s.matches_) :
    s.calls t ++ due c s t = edges callsFor (s.atStart t) (s.since t) ∧
      (s.since t).getLastD (s.atStart t) = s.owner (c.peer t) ∧
      (s.calls t).IsChain (fun a b => a.appears ≠ b.appears) ∧
      (awaited c s t = [] →
        ((s.calls t).getLast?.map Call.appears).getD (present (s.atStart t)) = present (s.owner (c.peer t))) := by
  have hi := run_keeps (step_inv hc) as _ s (init_inv c owner) hm hr
  obtain ⟨howner, hcalls⟩ := hi.told t ht
  refine ⟨hcalls, howner, ?_, ?_⟩
  · have hchain := (callsFor_tells.alternate (s.atStart t) (s.since t)).1
    rw [← hcalls] at hchain
    exact hchain.left_of_append
  · intro hnone
    rw [due, hnone, List.flatMap_nil, List.append_nil] at hcalls
    rw [hcalls, callsFor_tells.last, howner]

/-- A bus that understands rules as it should. -/
def someBus : Config where
  peer t := if t = 0 then text "p" else text "q"
  accepts rule m := rule == trackRule m.name

theorem someBus_documented : someBus.Documented := by
  intro peer m
  simp only [someBus, trackRule, beq_iff_eq, List.append_cancel_right_eq, List.append_cancel_left_eq]
  rw [eq_comm, Subtype.ext_iff]

/-- The peer comes while another name is taken, goes again, and the second message still waits. -/
def comesAndGoes : List Action :=
  [.add 0 (List.replicate (matchLen (text "p")) 7) true, .change (text "q") (text "1") false,
    .change (text "p") (text "2") true, .change (text "p") (text "") true, .call 0, .drop]

set_option maxRecDepth 4000 in
theorem track_follows_owner_comes_and_goes :
    ∃ s, run (step someBus) comesAndGoes (init fun _ => text "") = some s ∧ s.calls 0 = [.appear (text "2")] ∧
      s.calls 0 ++ due someBus s 0 = edges callsFor (s.atStart 0) (s.since 0) := by
  have hrun : (run (step someBus) comesAndGoes (init fun _ => text "")).map (fun s => (s.calls 0, s.matches_)) =
      some ([.appear (text "2")], [0]) := by decide
  obtain ⟨s, hs, hsome⟩ := Option.map_eq_some_iff.mp hrun
  simp only [Prod.mk.injEq] at hsome
  exact ⟨s, hs, hsome.1, (track_follows_owner someBus someBus_documented _ comesAndGoes s (by decide) hs 0
    (by simp [hsome.2])).1⟩

end Libcortex.SdbusTracks
