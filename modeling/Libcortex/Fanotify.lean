import Mathlib.Data.BitVec
import Libcortex.Lib.Bytes

/-!
# Fanotify

One read returns a sequence of records, each with its own length. The loop makes an event of every record and steps to
the next one, but it doesn't step over a record that reports an overflow of the queue.
-/

open Libcortex.Lib

namespace Libcortex.Fanotify

/-! ## Records -/

/-- `sizeof(struct fanotify_event_metadata)` -/
def FAN_EVENT_METADATA_LEN : Nat := 24

def FAN_Q_OVERFLOW : BitVec 64 := 0x4000

/-- `metadata->event_len`, of the bytes that `metadata` points to. -/
def event_len (metadata : List UInt8) : Nat := leNat (metadata.take 4)

def mask (metadata : List UInt8) : BitVec 64 := BitVec.ofNat 64 (leNat ((metadata.drop 8).take 8))

/-- `metadata` is what is left of the buffer. -/
def FAN_EVENT_OK (metadata : List UInt8) : Bool :=
  FAN_EVENT_METADATA_LEN ≤ metadata.length ∧ FAN_EVENT_METADATA_LEN ≤ event_len metadata ∧
    event_len metadata ≤ metadata.length

def FAN_EVENT_NEXT (metadata : List UInt8) : List UInt8 := metadata.drop (event_len metadata)

/-! ## The code -/

/-- `stop` and `base.graph->descriptions[0]`, if there are descriptions. -/
structure Listener where
  stop : Bool
  description : Option String
deriving DecidableEq, Repr

/-- What is added to the graph: an event with raw data of type `p`. -/
structure Event where
  description : Option String
  pointer : List UInt8
  size : Nat
deriving DecidableEq, Repr

/-- The body of the loop, for a record that is no overflow. -/
def makeEvent (fal : Listener) (metadata : List UInt8) : Event where
  description := fal.description
  pointer := metadata.take (event_len metadata)
  size := event_len metadata

/-- The loop. `none` if it still goes on after that many turns. -/
def loop (fal : Listener) : Nat → List UInt8 → Option (List Event)
  | 0, _ => none
  | fuel + 1, metadata =>
    if FAN_EVENT_OK metadata then
      -- The source `continue`s, and the next turn finds the same record.
      if mask metadata &&& FAN_Q_OVERFLOW ≠ 0 then loop fal fuel metadata
      else (loop fal fuel (FAN_EVENT_NEXT metadata)).map (makeEvent fal metadata :: ·)
    else some []

/-- `buf` is what `read` has read. There is nothing if it fails. -/
def process_fanotify (fal : Listener) (fuel : Nat) (buf : Option (List UInt8)) : Option (List Event) :=
  if fal.stop then some [] else buf.elim (some []) (loop fal fuel)

/-! ## Well-formed records -/

/-- `struct fanotify_event_metadata`, with the information records behind it. -/
structure Metadata where
  vers : UInt8
  reserved : UInt8
  metadata_len : BitVec 16
  mask : BitVec 64
  fd : BitVec 32
  pid : BitVec 32
  info : List UInt8
  len_lt : FAN_EVENT_METADATA_LEN + info.length < 2 ^ 32

namespace Metadata

def event_len (r : Metadata) : Nat := FAN_EVENT_METADATA_LEN + r.info.length

def bytes (r : Metadata) : List UInt8 :=
  leBytes 4 r.event_len ++ ([r.vers, r.reserved] ++ leBytes 2 r.metadata_len.toNat) ++ leBytes 8 r.mask.toNat ++
    (leBytes 4 r.fd.toNat ++ leBytes 4 r.pid.toNat ++ r.info)

def overflow (r : Metadata) : Bool := r.mask &&& FAN_Q_OVERFLOW ≠ 0

/-- The event of a record, with a copy of all of its bytes. -/
def event (fal : Listener) (r : Metadata) : Event := ⟨fal.description, r.bytes, r.event_len⟩

theorem bytes_length (r : Metadata) : r.bytes.length = r.event_len := by
  simp [bytes, event_len, FAN_EVENT_METADATA_LEN]
  omega

theorem event_len_bytes (r : Metadata) (rest : List UInt8) :
    Fanotify.event_len (r.bytes ++ rest) = r.event_len := by
  have htake : (r.bytes ++ rest).take 4 = leBytes 4 r.event_len := by simp [bytes]
  rw [Fanotify.event_len, htake]
  exact leNat_leBytes 4 _ r.len_lt

theorem mask_bytes (r : Metadata) (rest : List UInt8) : Fanotify.mask (r.bytes ++ rest) = r.mask := by
  have htake : ((r.bytes ++ rest).drop 8).take 8 = leBytes 8 r.mask.toNat := by
    simp only [bytes, List.append_assoc]
    rw [← List.append_assoc, ← List.append_assoc, List.drop_left' (by simp), List.take_left' (by simp)]
  rw [Fanotify.mask, htake, leNat_leBytes 8 _ r.mask.isLt, BitVec.ofNat_toNat, BitVec.setWidth_eq]

theorem ok_bytes (r : Metadata) (rest : List UInt8) : FAN_EVENT_OK (r.bytes ++ rest) = true := by
  have hlen := r.bytes_length
  have hmin : FAN_EVENT_METADATA_LEN ≤ r.event_len := Nat.le_add_right _ _
  unfold FAN_EVENT_OK
  rw [r.event_len_bytes, List.length_append, decide_eq_true_eq]
  omega

theorem next_bytes (r : Metadata) (rest : List UInt8) : FAN_EVENT_NEXT (r.bytes ++ rest) = rest := by
  rw [FAN_EVENT_NEXT, r.event_len_bytes, ← r.bytes_length, List.drop_left]

theorem makeEvent_bytes (fal : Listener) (r : Metadata) (rest : List UInt8) :
    makeEvent fal (r.bytes ++ rest) = r.event fal := by
  rw [makeEvent, r.event_len_bytes, ← r.bytes_length, List.take_left, event, r.bytes_length]

end Metadata

/-! ## The loop -/

theorem loop_overflow (fal : Listener) (fuel : Nat) {r : Metadata} (h : r.overflow) (rest : List UInt8) :
    loop fal (fuel + 1) (r.bytes ++ rest) = loop fal fuel (r.bytes ++ rest) := by
  rw [loop, if_pos (r.ok_bytes rest), r.mask_bytes, if_pos (of_decide_eq_true h)]

theorem loop_record (fal : Listener) (fuel : Nat) {r : Metadata} (h : ¬ r.overflow) (rest : List UInt8) :
    loop fal (fuel + 1) (r.bytes ++ rest) = (loop fal fuel rest).map (r.event fal :: ·) := by
  have hmask : ¬ r.mask &&& FAN_Q_OVERFLOW ≠ 0 := fun hne => h (decide_eq_true hne)
  rw [loop, if_pos (r.ok_bytes rest), r.mask_bytes, if_neg hmask, r.next_bytes, r.makeEvent_bytes]

theorem loop_stuck (fal : Listener) (fuel : Nat) {r : Metadata} (h : r.overflow) (rest : List UInt8) :
    loop fal fuel (r.bytes ++ rest) = none := by
  induction fuel with
  | zero => rfl
  | succ fuel ih => rw [loop_overflow fal fuel h, ih]

theorem loop_events (fal : Listener) (records : List Metadata) (h : ∀ r ∈ records, ¬ r.overflow) :
    loop fal (records.length + 1) (records.flatMap Metadata.bytes) = some (records.map (Metadata.event fal)) := by
  induction records with
  | nil => rfl
  | cons r records ih =>
    rw [List.forall_mem_cons] at h
    rw [List.length_cons, List.flatMap_cons, loop_record fal _ h.1, ih h.2]
    rfl

theorem loop_ends (fal : Listener) (records : List Metadata) :
    ∀ fuel events, loop fal fuel (records.flatMap Metadata.bytes) = some events → ∀ r ∈ records, ¬ r.overflow := by
  induction records with
  | nil => exact fun _ _ _ r hr => by cases hr
  | cons r records ih =>
    intro fuel events hloop
    have hr : ¬ r.overflow := by
      intro hover
      rw [List.flatMap_cons, loop_stuck fal fuel hover] at hloop
      cases hloop
    cases fuel with
    | zero => cases hloop
    | succ fuel =>
      rw [List.flatMap_cons, loop_record fal fuel hr, Option.map_eq_some_iff] at hloop
      obtain ⟨events', hrest, -⟩ := hloop
      exact List.forall_mem_cons.mpr ⟨hr, ih fuel events' hrest⟩

/-- A buffer is consumed, with one event for each record that is no overflow, if and only if no record is one. -/
theorem process_fanotify_consumes_iff (fal : Listener) (hgo : fal.stop = false) (records : List Metadata) :
    (∃ fuel, process_fanotify fal fuel (some (records.flatMap Metadata.bytes)) =
        some ((records.filter fun r => ¬ r.overflow).map (Metadata.event fal))) ↔
      ∀ r ∈ records, ¬ r.overflow := by
  unfold process_fanotify
  rw [hgo]
  constructor
  · rintro ⟨fuel, hloop⟩
    exact loop_ends fal records fuel _ hloop
  · intro h
    refine ⟨records.length + 1, (loop_events fal records h).trans ?_⟩
    rw [List.filter_eq_self.mpr fun r hr => decide_eq_true (h r hr)]

/-- A file was opened. -/
def opened : Metadata := ⟨3, 0, 24, 0x20, 7, 1000, [], by decide⟩

/-- The queue has overflown. There is no file. -/
def overflown : Metadata := ⟨3, 0, 24, 0x4000, -1, 0, [], by decide⟩

theorem process_fanotify_consumes_opened :
    ∃ fuel, process_fanotify ⟨false, none⟩ fuel (some ([opened, opened].flatMap Metadata.bytes)) =
      some (([opened, opened].filter fun r => ¬ r.overflow).map (Metadata.event ⟨false, none⟩)) :=
  (process_fanotify_consumes_iff ⟨false, none⟩ rfl [opened, opened]).mpr (by decide)

/-- The kernel reports an overflow, and the loop doesn't end. -/
theorem process_fanotify_overflow_hangs :
    ¬ ∃ fuel, process_fanotify ⟨false, none⟩ fuel (some ([overflown].flatMap Metadata.bytes)) =
      some (([overflown].filter fun r => ¬ r.overflow).map (Metadata.event ⟨false, none⟩)) := by
  rintro ⟨fuel, hloop⟩
  exact loop_ends ⟨false, none⟩ [overflown] fuel _ hloop overflown (List.mem_singleton.mpr rfl) (by decide)

end Libcortex.Fanotify
