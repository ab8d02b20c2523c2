import Mathlib.Data.BitVec
import Libcortex.Types
import Libcortex.Lib.Run
import Libcortex.Lib.Bytes

/-!
# Inotify

All inotify listeners share one descriptor and one table. A listener that is shut down leaves a hole in the table,
which the next one that is set up fills. For every event that is read the table is searched for the listener with
the watch descriptor of the event.
-/

open Libcortex.Lib

namespace Libcortex.Inotify

/-! ## The table -/

/-- The static variables of `inotify.c` and, in `wd`, that field of every `struct crtx_inotify_listener`. A slot of
`listeners` that is `none` holds a null pointer, and the table has no slots before it is allocated. `live` is history:
the listeners that were set up and haven't been shut down since. -/
structure Table where
  inotify_fd : Int
  listeners : List (Option ListenerId)
  stop : Bool
  wd : ListenerId → BitVec 32
  live : List ListenerId

/-- The first slot that is null holds `l` now, or else a new one at the end. -/
def place (l : ListenerId) : List (Option ListenerId) → List (Option ListenerId)
  | [] => [some l]
  | none :: rest => some l :: rest
  | some l' :: rest => some l' :: place l rest

def crtx_setup_inotify_listener (s : Table) (l : ListenerId) : Table :=
  { s with listeners := place l s.listeners, live := l :: s.live }

/-- `fd` is what `inotify_init` returns, if it is called, and `wd` what `inotify_add_watch` returns. -/
def start_listener (s : Table) (l : ListenerId) (fd : Int) (wd : BitVec 32) : Table :=
  let s := if s.inotify_fd = -1 then { s with inotify_fd := fd } else s
  if s.inotify_fd = -1 then s else { s with wd := Function.update s.wd l wd }

def clearSlot (l : ListenerId) (slot : Option ListenerId) : Option ListenerId := if slot = some l then none else slot

/-- The descriptor is closed if the loop has found no other listener. -/
def shutdown_inotify_listener (s : Table) (l : ListenerId) : Table :=
  let listeners := s.listeners.map (clearSlot l)
  let closefd := listeners.all Option.isNone
  { s with
    inotify_fd := if closefd ∧ 0 ≤ s.inotify_fd then -1 else s.inotify_fd
    listeners := listeners
    live := s.live.filter (· ≠ l) }

inductive Action where
  | setup (l : ListenerId)
  | start (l : ListenerId) (fd : Int) (wd : BitVec 32)
  | shutdown (l : ListenerId)

def step (s : Table) : Action → Option Table
  | .setup l => some (crtx_setup_inotify_listener s l)
  | .start l fd wd => some (start_listener s l fd wd)
  | .shutdown l => some (shutdown_inotify_listener s l)

/-- Nothing is set up. What the listeners' memory holds is unknown. -/
def init (wd : ListenerId → BitVec 32) : Table where
  inotify_fd := -1
  listeners := []
  stop := false
  wd := wd
  live := []

/-! ## Events -/

/-- `sizeof(struct inotify_event)` -/
def headerLen : Nat := 16

/-- `struct inotify_event`, with the bytes of its name. -/
structure InotifyEvent where
  wd : BitVec 32
  mask : BitVec 32
  cookie : BitVec 32
  name : List UInt8
  len_lt : name.length < 2 ^ 32

/-- The bytes before the name. -/
def InotifyEvent.header (ev : InotifyEvent) : List UInt8 :=
  leBytes 4 ev.wd.toNat ++ leBytes 4 ev.mask.toNat ++ leBytes 4 ev.cookie.toNat ++ leBytes 4 ev.name.length

def InotifyEvent.bytes (ev : InotifyEvent) : List UInt8 := ev.header ++ ev.name

/-- `in_event->wd`, of the bytes that `in_event` points to. -/
def headerWd (header : List UInt8) : BitVec 32 := BitVec.ofNat 32 (leNat (header.take 4))

/-- `in_event->len` -/
def headerNameLen (header : List UInt8) : Nat := leNat (header.drop 12)

/-- What becomes of the events of a buffer: the bytes of each, with the listener that it is sent to, if there is one.
The walk comes to the end of the buffer, dereferences a null slot or reads beyond what was read. -/
inductive Walk where
  | done (sent : List (List UInt8 × Option ListenerId))
  | nullSlot (sent : List (List UInt8 × Option ListenerId))
  | overrun (sent : List (List UInt8 × Option ListenerId))
deriving DecidableEq, Repr

def Walk.after (sent : List UInt8 × Option ListenerId) : Walk → Walk
  | .done rest => .done (sent :: rest)
  | .nullSlot rest => .nullSlot (sent :: rest)
  | .overrun rest => .overrun (sent :: rest)

/-- The search. `none` if it comes to a slot that is null: `listeners[j]->wd` is read without a check. -/
def findListener (wd : ListenerId → BitVec 32) (x : BitVec 32) : List (Option ListenerId) → Option (Option ListenerId)
  | [] => some none
  | none :: _ => none
  | some l :: rest => if wd l = x then some (some l) else findListener wd x rest

/-- The loop of `inotify_process`. Only the event of a listener is copied with its name. -/
def walk (s : Table) : Nat → List UInt8 → Walk
  | 0, _ => .done []
  | _ + 1, [] => .done []
  | fuel + 1, b :: bs =>
    match splitBlock headerLen (b :: bs) with
    | none => .overrun []
    | some (header, rest) =>
      match findListener s.wd (headerWd header) s.listeners with
      | none => .nullSlot []
      | some none =>
        (walk s fuel (rest.drop (headerNameLen header))).after (header ++ rest.take (headerNameLen header), none)
      | some (some fal) =>
        match splitBlock (headerNameLen header) rest with
        | none => .overrun []
        | some (name, rest) => (walk s fuel rest).after (header ++ name, some fal)

/-- `buffer` is what `read` has read. There is nothing if it fails. -/
def inotify_process (s : Table) (buffer : Option (List UInt8)) : Walk :=
  if s.stop then .done []
  else buffer.elim (.done []) fun bytes => walk s bytes.length bytes

/-! ## What has to hold -/

/-- The event is sent to a live listener with its watch descriptor, or to none if there is no such listener. -/
def Right (s : Table) (ev : InotifyEvent) (sent : List UInt8 × Option ListenerId) : Prop :=
  sent.1 = ev.bytes ∧
    sent.2.elim (∀ l ∈ s.live, s.wd l ≠ ev.wd) fun fal => fal ∈ s.live ∧ s.wd fal = ev.wd

/-- The walk goes event by event to the end of the buffer. -/
def Dispatched (s : Table) (evs : List InotifyEvent) : Walk → Prop
  | .done sent => List.Forall₂ (Right s) evs sent
  | .nullSlot _ => False
  | .overrun _ => False

/-- Before every null slot there is a listener with the watch descriptor. -/
def Covered (wd : ListenerId → BitVec 32) (x : BitVec 32) (listeners : List (Option ListenerId)) : Prop :=
  ∀ before after, listeners = before ++ none :: after → ∃ l, some l ∈ before ∧ wd l = x

/-! ## The invariant -/

theorem mem_place {l l' : ListenerId} {listeners : List (Option ListenerId)} :
    some l' ∈ place l listeners ↔ l' = l ∨ some l' ∈ listeners := by
  induction listeners with
  | nil => simp [place]
  | cons slot rest ih =>
    cases slot with
    | none => simp [place]
    | some first => simp [place, ih, or_left_comm]

theorem mem_clearSlot {l l' : ListenerId} {listeners : List (Option ListenerId)} :
    some l' ∈ listeners.map (clearSlot l) ↔ some l' ∈ listeners ∧ l' ≠ l := by
  rw [List.mem_map]
  constructor
  · rintro ⟨slot, hslot, h⟩
    unfold clearSlot at h
    split at h
    · cases h
    · rename_i hne
      subst h
      exact ⟨hslot, fun heq => hne (congrArg some heq)⟩
  · rintro ⟨hslot, hne⟩
    refine ⟨some l', hslot, if_neg ?_⟩
    rwa [Option.some_inj]

/-- The table holds the live listeners, and the walk isn't stopped. -/
structure Inv (s : Table) : Prop where
  goes : s.stop = false
  live : ∀ l, l ∈ s.live ↔ some l ∈ s.listeners

theorem init_inv (wd : ListenerId → BitVec 32) : Inv (init wd) where
  goes := rfl
  live _ := by simp [init]

theorem step_inv (s : Table) (a : Action) (s' : Table) (hi : Inv s) (h : step s a = some s') : Inv s' := by
  cases a with
  | setup l =>
    cases h
    refine ⟨hi.goes, fun l' => ?_⟩
    simp only [crtx_setup_inotify_listener, List.mem_cons, mem_place, hi.live]
  | start l fd wd =>
    cases h
    unfold start_listener
    dsimp only
    split
    · split <;> exact ⟨hi.goes, hi.live⟩
    · exact ⟨hi.goes, hi.live⟩
  | shutdown l =>
    cases h
    refine ⟨hi.goes, fun l' => ?_⟩
    simp only [shutdown_inotify_listener, List.mem_filter, mem_clearSlot, hi.live, decide_eq_true_eq]

/-! ## The search -/

theorem covered_cons {wd : ListenerId → BitVec 32} {x : BitVec 32} {l : ListenerId}
    {rest : List (Option ListenerId)} (h : wd l ≠ x) : Covered wd x (some l :: rest) ↔ Covered wd x rest := by
  constructor
  · intro hc before after heq
    obtain ⟨l', hl', hwd⟩ := hc (some l :: before) after (congrArg _ heq)
    rcases List.mem_cons.mp hl' with hl' | hl'
    · cases hl'
      exact absurd hwd h
    · exact ⟨l', hl', hwd⟩
  · intro hc before after heq
    cases before with
    | nil => cases heq
    | cons slot before =>
      rw [List.cons_append, List.cons.injEq] at heq
      obtain ⟨rfl, hrest⟩ := heq
      obtain ⟨l', hl', hwd⟩ := hc before after hrest
      exact ⟨l', List.mem_cons_of_mem _ hl', hwd⟩

theorem findListener_isSome (wd : ListenerId → BitVec 32) (x : BitVec 32) (listeners : List (Option ListenerId)) :
    (findListener wd x listeners).isSome ↔ Covered wd x listeners := by
  induction listeners with
  | nil =>
    refine iff_of_true rfl fun before after h => ?_
    simp at h
  | cons slot rest ih =>
    cases slot with
    | none =>
      refine iff_of_false Bool.false_ne_true fun hc => ?_
      obtain ⟨l, hl, -⟩ := hc [] rest rfl
      cases hl
    | some l =>
      rw [findListener]
      split
      · rename_i hwd
        refine iff_of_true rfl fun before after h => ?_
        cases before with
        | nil => cases h
        | cons slot before =>
          rw [List.cons_append, List.cons.injEq] at h
          obtain ⟨rfl, -⟩ := h
          exact ⟨l, List.mem_cons_self, hwd⟩
      · rename_i hwd
        rw [ih, covered_cons hwd]

theorem findListener_hit {wd : ListenerId → BitVec 32} {x : BitVec 32} {listeners : List (Option ListenerId)}
    {fal : ListenerId} (h : findListener wd x listeners = some (some fal)) : some fal ∈ listeners ∧ wd fal = x := by
  induction listeners with
  | nil => cases h
  | cons slot rest ih =>
    cases slot with
    | none => cases h
    | some l =>
      rw [findListener] at h
      split at h
      · cases h
        exact ⟨List.mem_cons_self, ‹_›⟩
      · exact ⟨List.mem_cons_of_mem _ (ih h).1, (ih h).2⟩

theorem findListener_miss {wd : ListenerId → BitVec 32} {x : BitVec 32} {listeners : List (Option ListenerId)}
    (h : findListener wd x listeners = some none) (l : ListenerId) (hl : some l ∈ listeners) : wd l ≠ x := by
  induction listeners with
  | nil => cases hl
  | cons slot rest ih =>
    cases slot with
    | none => cases h
    | some first =>
      rw [findListener] at h
      split at h
      · cases h
      · rename_i hwd
        rcases List.mem_cons.mp hl with heq | hl
        · cases heq
          exact hwd
        · exact ih h hl

/-! ## The walk -/

@[simp] theorem header_length (ev : InotifyEvent) : ev.header.length = headerLen := by
  simp [InotifyEvent.header, headerLen]

@[simp] theorem headerWd_header (ev : InotifyEvent) : headerWd ev.header = ev.wd := by
  have htake : ev.header.take 4 = leBytes 4 ev.wd.toNat := by
    simp [InotifyEvent.header]
  rw [headerWd, htake, leNat_leBytes 4 _ ev.wd.isLt, BitVec.ofNat_toNat, BitVec.setWidth_eq]

@[simp] theorem headerNameLen_header (ev : InotifyEvent) : headerNameLen ev.header = ev.name.length := by
  have hdrop : ev.header.drop 12 = leBytes 4 ev.name.length := by
    rw [InotifyEvent.header, List.drop_left' (by simp)]
  rw [headerNameLen, hdrop, leNat_leBytes 4 _ ev.len_lt]

theorem bytes_cons (ev : InotifyEvent) : ∃ b bs, ev.bytes = b :: bs := ⟨_, _, rfl⟩

theorem walk_event (s : Table) (fuel : Nat) (ev : InotifyEvent) (rest : List UInt8) :
    walk s (fuel + 1) (ev.bytes ++ rest) =
      (findListener s.wd ev.wd s.listeners).elim (.nullSlot [])
        fun fal => (walk s fuel rest).after (ev.bytes, fal) := by
  have hsplit : splitBlock headerLen (ev.bytes ++ rest) = some (ev.header, ev.name ++ rest) := by
    rw [InotifyEvent.bytes, List.append_assoc]
    exact splitBlock_append (header_length ev) _
  obtain ⟨b, bs, hb⟩ := bytes_cons ev
  rw [hb, List.cons_append] at hsplit
  rw [hb, List.cons_append, walk, hsplit, ← hb]
  dsimp only
  rw [headerWd_header, headerNameLen_header, splitBlock_append rfl, List.drop_left, List.take_left]
  rcases findListener s.wd ev.wd s.listeners with - | - | fal <;> rfl

theorem dispatched_after {s : Table} {ev : InotifyEvent} {evs : List InotifyEvent}
    {sent : List UInt8 × Option ListenerId} (hright : Right s ev sent) (w : Walk) :
    Dispatched s (ev :: evs) (w.after sent) ↔ Dispatched s evs w := by
  cases w with
  | done rest => exact List.forall₂_cons.trans (and_iff_right hright)
  | nullSlot rest => exact Iff.rfl
  | overrun rest => exact Iff.rfl

theorem right_of_find {s : Table} (hi : Inv s) {ev : InotifyEvent} {fal : Option ListenerId}
    (h : findListener s.wd ev.wd s.listeners = some fal) : Right s ev (ev.bytes, fal) := by
  refine ⟨rfl, ?_⟩
  cases fal with
  | none => exact fun l hl => findListener_miss h l ((hi.live l).mp hl)
  | some fal =>
    obtain ⟨hmem, hwd⟩ := findListener_hit h
    exact ⟨(hi.live fal).mpr hmem, hwd⟩

theorem walk_dispatched_iff {s : Table} (hi : Inv s) (evs : List InotifyEvent) :
    ∀ fuel, (evs.flatMap InotifyEvent.bytes).length ≤ fuel →
      (Dispatched s evs (walk s fuel (evs.flatMap InotifyEvent.bytes)) ↔
        ∀ ev ∈ evs, Covered s.wd ev.wd s.listeners) := by
  induction evs with
  | nil =>
    intro fuel _
    refine iff_of_true ?_ (by simp)
    cases fuel with
    | zero => exact .nil
    | succ fuel => exact .nil
  | cons ev evs ih =>
    intro fuel hfuel
    have hlen : headerLen ≤ ev.bytes.length := by
      rw [InotifyEvent.bytes, List.length_append, header_length]
      exact Nat.le_add_right _ _
    rw [List.flatMap_cons] at hfuel ⊢
    rw [List.length_append] at hfuel
    rw [headerLen] at hlen
    obtain ⟨fuel, rfl⟩ : ∃ n, fuel = n + 1 := ⟨fuel - 1, by omega⟩
    rw [walk_event, List.forall_mem_cons, ← findListener_isSome]
    cases hfind : findListener s.wd ev.wd s.listeners with
    | none => exact iff_of_false id fun h => Bool.false_ne_true h.1
    | some fal =>
      rw [Option.elim_some, dispatched_after (right_of_find hi hfind), ih fuel (by omega)]
      exact (and_iff_right rfl).symm

/-- After any number of set-ups and shutdowns, a buffer of events is dispatched as it should be if and only if, for
each of them, every cleared slot comes behind one that holds a listener with the watch descriptor of the event. -/
theorem dispatched_iff_covered (wd : ListenerId → BitVec 32) (as : List Action) (s : Table)
    (hr : run step as (init wd) = some s) (evs : List InotifyEvent) :
    Dispatched s evs (inotify_process s (some (evs.flatMap InotifyEvent.bytes))) ↔
      ∀ ev ∈ evs, Covered s.wd ev.wd s.listeners := by
  have hi : Inv s := run_invariant step_inv as _ s (init_inv wd) hr
  rw [inotify_process, hi.goes]
  exact walk_dispatched_iff hi evs _ (Nat.le_refl _)

/-- A file was created in the second of two directories that are watched. -/
def created : InotifyEvent where
  wd := 2
  mask := 0x100
  cookie := 0
  name := List.replicate 16 0x61
  len_lt := by decide

/-- Two listeners are set up and started. The second watches with the descriptor 2. -/
def two_started : List Action := [.setup 1, .setup 2, .start 1 5 1, .start 2 5 2]

/-- The hole that the first listener left is filled, and the event gets to the second. -/
theorem dispatched_iff_covered_filled :
    ∃ s, run step (two_started ++ [.shutdown 1, .setup 3]) (init fun _ => 0) = some s ∧
      Dispatched s [created] (inotify_process s (some ([created].flatMap InotifyEvent.bytes))) := by
  refine ⟨_, rfl, ?_⟩
  refine (dispatched_iff_covered (fun _ => 0) (two_started ++ [.shutdown 1, .setup 3]) _ rfl [created]).mpr ?_
  rintro ev hev
  rw [← findListener_isSome, List.mem_singleton.mp hev]
  decide

/-- The first of the two is shut down. The next event makes the search read its slot. -/
theorem shutdown_slot_dereferenced :
    ∃ s, run step (two_started ++ [.shutdown 1]) (init fun _ => 0) = some s ∧ 2 ∈ s.live ∧ s.wd 2 = created.wd ∧
      inotify_process s (some created.bytes) = .nullSlot [] :=
  ⟨_, rfl, by decide, by decide, by decide⟩

end Libcortex.Inotify
