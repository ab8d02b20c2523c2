import Mathlib.Data.Int.ModEq
import Libcortex.Registration

/-!
# Write queues

`writequeue.c`: payloads wait in a queue until a descriptor accepts them. The default callback writes one after
the other, and decides from the last result whether the event loop is to watch for the next chance to write.
-/

open Libcortex.Lib Libcortex.Epoll

namespace Libcortex.WriteQueue

variable {β : Type}

/-! ## The code -/

/-- The file descriptor is not ready. Linux has one number for this and `EAGAIN`. -/
def EWOULDBLOCK : Int := EAGAIN

/-- What `write` returns: -1 and an error number, or how many bytes were accepted. -/
inductive WriteRet where
  | error (errno : Int)
  | count (n : Nat)
deriving DecidableEq, Repr

def WriteRet.accepted : WriteRet → Nat
  | .error _ => 0
  | .count n => n

/-- `struct crtx_writequeue_listener` with its queue of payloads, the event loop that has its callback, and the
messages in the control pipe that name a callback. The fields after `errno` are history: all payloads that were
added, those that were removed, how much of the first payload was accepted without the payload being removed, and
what the descriptor has accepted. -/
structure Wq (β : Type) where
  queue : List (List β)
  el : Evloop
  entry : EntryId
  default_el_cb : CallbackId
  pipe : List CallbackId
  errno : Int
  queued : List (List β)
  removed : List (List β)
  started : Nat
  wire : List β

/-- The `int` that a `ssize_t` becomes. -/
def toInt (n : Int) : Int := n.bmod (2 ^ 32)

/-- `(unsigned) err == it->size` -/
def Whole (p : List β) (n : Nat) : Prop := n % 2 ^ 32 = p.length

instance (p : List β) (n : Nat) : Decidable (Whole p n) := inferInstanceAs (Decidable (_ = _))

def crtx_trigger_event_processing (w : Wq β) : Wq β := { w with pipe := w.pipe ++ [w.default_el_cb] }

def setErrno (w : Wq β) (errno : Int) : Wq β := { w with errno }

/-- The descriptor accepts the first `n` bytes of `p`. -/
def accept (w : Wq β) (p : List β) (n : Nat) : Wq β :=
  { w with wire := w.wire ++ p.take n, started := if n = 0 then w.started else n }

/-- The payload is freed. -/
def drop (w : Wq β) (p : List β) : Wq β := { w with removed := w.removed ++ [p], started := 0 }

/-- What the loop does with a payload that was not written as a whole. -/
def suspend (w : Wq β) (err : Int) : Wq β × Int :=
  if w.errno = EAGAIN ∨ w.errno = EWOULDBLOCK then (w, w.errno)
  else if w.errno = ENOBUFS then (crtx_trigger_event_processing w, err)
  else (w, err)

/-- The loop over the queue, which is at `it`. `write` returns what comes first in the last argument, and never more
than it was asked to write. The second result is what is left of the queue. -/
def writeLoop (w : Wq β) (err : Int) : List (List β) → List WriteRet → Option (Wq β × List (List β) × Int)
  | [], _ => some (w, [], err)
  | _ :: _, [] => none
  | p :: it, .error errno :: _ =>
    let (w, err) := suspend (setErrno w errno) (-1)
    some (w, p :: it, err)
  | p :: it, .count n :: rets =>
    if p.length < n then none
    else if Whole p n then writeLoop (drop (accept w p n) p) n it rets
    else
      let (w, err) := suspend (accept w p n) n
      some (w, p :: it, err)

def crtx_writequeue_default_write_callback (w : Wq β) (rets : List WriteRet) : Option (Wq β × Int) :=
  (writeLoop (setErrno w 0) 0 w.queue rets).map fun (w, it, err) => ({ w with queue := it }, toInt err)

def active (w : Wq β) : Bool := (w.el.cbs w.default_el_cb).active

def crtx_writequeue_start (w : Wq β) : Wq β := { w with el := crtx_evloop_enable_cb w.el w.entry w.default_el_cb }

def crtx_writequeue_stop (w : Wq β) : Wq β := { w with el := crtx_evloop_disable_cb w.el w.entry w.default_el_cb }

/-- `fd_event_handler`, when the callback has returned `r`. -/
def afterWrite (w : Wq β) (r : Int) : Wq β :=
  if r ≠ EAGAIN ∧ r ≠ ENOBUFS then crtx_writequeue_stop w
  else if active w then w
  else crtx_writequeue_start w

def fd_event_handler (w : Wq β) (rets : List WriteRet) : Option (Wq β) :=
  (crtx_writequeue_default_write_callback w rets).map fun (w, r) => afterWrite w r

/-! ## What has to hold -/

/-- What the descriptor has accepted is the beginning of the payloads in their order. Only payloads are gone that were
accepted as a whole. -/
structure InOrder (w : Wq β) : Prop where
  stream : w.wire <+: w.queued.flatten
  queue : w.queued = w.removed ++ w.queue
  removed : w.removed.flatten <+: w.wire

/-- If payloads are left, the handler will be called again. -/
structure Settled (w : Wq β) : Prop where
  waits : w.queue ≠ [] → active w = true ∨ w.errno = ENOBUFS ∧ w.default_el_cb ∈ w.pipe
  rests : w.queue = [] → active w = false

/-- Payloads are added between the calls of the default callback. -/
inductive Action (β : Type) where
  | append (p : List β)
  | write (rets : List WriteRet)

def step (w : Wq β) : Action β → Option (Wq β)
  | .append p => some { w with queue := w.queue ++ [p], queued := w.queued ++ [p] }
  | .write rets => (crtx_writequeue_default_write_callback w rets).map Prod.fst

/-- A call writes nothing, if a part of the first payload has been written before. -/
def NotTwice (w : Wq β) : Action β → Prop
  | .append _ => True
  | .write rets => w.started ≠ 0 → ∀ r ∈ rets.head?, r.accepted = 0

instance (w : Wq β) : ∀ a, Decidable (NotTwice w a)
  | .append _ => inferInstanceAs (Decidable True)
  | .write rets => inferInstanceAs (Decidable (_ → ∀ r ∈ rets.head?, _))

/-- The handler takes the result for a reason to wait. -/
def Retry (r : Int) : Prop := r = EAGAIN ∨ r = ENOBUFS

instance (r : Int) : Decidable (Retry r) := inferInstanceAs (Decidable (_ ∨ _))

/-- The result that ends the loop is not taken for another one: a part of a payload was accepted only if its length
looks like a reason to wait, and the length of the last payload does not. -/
def Conclusive (last : Nat) : List (List β) → List WriteRet → Prop
  | [], _ => ¬ Retry (toInt last)
  | _ :: _, [] | _ :: _, .error _ :: _ => True
  | p :: it, .count n :: rets => if Whole p n then Conclusive n it rets else Retry (toInt n)

instance Conclusive.decidable (last : Nat) : ∀ (it : List (List β)) rets, Decidable (Conclusive last it rets)
  | [], _ => inferInstanceAs (Decidable (¬ _))
  | _ :: _, [] | _ :: _, .error _ :: _ => .isTrue trivial
  | p :: it, .count n :: rets =>
    have := Conclusive.decidable n it rets
    inferInstanceAs (Decidable (if Whole p n then Conclusive n it rets else Retry (toInt n)))

/-! ## One round of the loop -/

/-- How a round of the loop ends: the write failed, it took the payload, or it took a part of it. -/
inductive Round (w : Wq β) (p : List β) (it : List (List β)) : List WriteRet → Wq β × List (List β) × Int → Prop where
  | failed (errno : Int) (rets : List WriteRet) :
    Round w p it (.error errno :: rets)
      ((suspend (setErrno w errno) (-1)).1, p :: it, (suspend (setErrno w errno) (-1)).2)
  | whole {n : Nat} {rets : List WriteRet} {r : Wq β × List (List β) × Int} (hn : n ≤ p.length) (hwhole : Whole p n)
    (hloop : writeLoop (drop (accept w p n) p) n it rets = some r) : Round w p it (.count n :: rets) r
  | short {n : Nat} (rets : List WriteRet) (hn : n ≤ p.length) (hshort : ¬ Whole p n) :
    Round w p it (.count n :: rets) ((suspend (accept w p n) n).1, p :: it, (suspend (accept w p n) n).2)

theorem writeLoop_round {w : Wq β} {p : List β} {it : List (List β)} {rets : List WriteRet} {err : Int}
    {r : Wq β × List (List β) × Int} (h : writeLoop w err (p :: it) rets = some r) : Round w p it rets r := by
  cases rets with
  | nil => cases h
  | cons ret rets =>
    cases ret with
    | error errno =>
      obtain rfl := Option.some_inj.mp h
      exact .failed errno rets
    | count n =>
      unfold writeLoop at h
      split at h
      · cases h
      · rename_i hle
        split at h
        · rename_i hwhole
          exact .whole (Nat.le_of_not_lt hle) hwhole h
        · rename_i hshort
          obtain rfl := Option.some_inj.mp h
          exact .short rets (Nat.le_of_not_lt hle) hshort

/-! ## Waiting for the descriptor -/

theorem afterWrite_spec (w : Wq β) (r : Int) :
    ∃ el, afterWrite w r = { w with el } ∧ ((el.cbs w.default_el_cb).active = true ↔ Retry r) := by
  unfold afterWrite
  by_cases hr : Retry r
  · rw [if_neg fun h => hr.elim h.1 h.2]
    split
    · rename_i hactive
      exact ⟨w.el, rfl, iff_of_true hactive hr⟩
    · refine ⟨_, rfl, iff_of_true ?_ hr⟩
      unfold crtx_evloop_enable_cb
      rw [manage_cbs]
      unfold Evloop.modEntry Evloop.modCb
      dsimp only
      rw [Function.update_self]
  · rw [if_pos (not_or.mp hr)]
    refine ⟨_, rfl, iff_of_false ?_ hr⟩
    rw [disable_inactive]
    simp

theorem settled_afterWrite {w : Wq β} {r : Int} :
    Settled (afterWrite w r) ↔
      (w.queue ≠ [] → Retry r ∨ w.errno = ENOBUFS ∧ w.default_el_cb ∈ w.pipe) ∧ (w.queue = [] → ¬ Retry r) := by
  obtain ⟨el, h, hactive⟩ := afterWrite_spec w r
  rw [h]
  constructor
  · rintro ⟨hwaits, hrests⟩
    refine ⟨fun hq => (hwaits hq).imp hactive.mp id, fun hq hr => ?_⟩
    have := hrests hq
    rw [active, hactive.mpr hr] at this
    cases this
  · rintro ⟨hwaits, hrests⟩
    refine ⟨fun hq => (hwaits hq).imp hactive.mpr id, fun hq => ?_⟩
    exact Bool.eq_false_iff.mpr fun h => hrests hq (hactive.mp h)

theorem suspend_count {w : Wq β} (h : w.errno = 0) (err : Int) : suspend w err = (w, err) := by
  unfold suspend EWOULDBLOCK EAGAIN ENOBUFS
  rw [h, if_neg (by decide), if_neg (by decide)]

theorem writeLoop_settles {it it' : List (List β)} {rets : List WriteRet} {w w' : Wq β} {last : Nat}
    {err₀ err : Int} (hrets : ∀ errno, .error errno ∈ rets → errno = EAGAIN ∨ errno = ENOBUFS) (hlast : err₀ = last)
    (h0 : w.errno = 0) (h : writeLoop w err₀ it rets = some (w', it', err)) :
    (it' ≠ [] → Retry (toInt err) ∨ w'.errno = ENOBUFS ∧ w'.default_el_cb ∈ w'.pipe) ∧
      (it' = [] → ¬ Retry (toInt err)) ↔ Conclusive last it rets := by
  induction it generalizing rets w last err₀ with
  | nil =>
    cases h
    simp [Conclusive, hlast]
  | cons p it ih =>
    cases writeLoop_round h with
    | failed errno rets =>
      refine iff_of_true ?_ trivial
      rcases hrets errno List.mem_cons_self with rfl | rfl
      · simp [Retry, suspend, setErrno, toInt, EAGAIN]
      · simp [Retry, suspend, setErrno, toInt, EAGAIN, EWOULDBLOCK, ENOBUFS, crtx_trigger_event_processing]
    | @whole n rets _ hn hwhole hloop =>
      have herrno : (drop (accept w p n) p).errno = 0 := h0
      rw [Conclusive, if_pos hwhole]
      exact ih (fun errno he => hrets errno (List.mem_cons_of_mem _ he)) rfl herrno hloop
    | @short n rets hn hshort =>
      have herrno : (accept w p n).errno = 0 := h0
      rw [Conclusive, if_neg hshort, suspend_count herrno]
      simp [herrno, ENOBUFS]

/-- The handler waits for the descriptor if and only if payloads are left, unless it takes a length for a reason to
wait, or the rest of a payload for an error. -/
theorem settled_iff (w w' : Wq β) (rets : List WriteRet)
    (hrets : ∀ errno, .error errno ∈ rets → errno = EAGAIN ∨ errno = ENOBUFS) (h : fd_event_handler w rets = some w') :
    Settled w' ↔ Conclusive 0 w.queue rets := by
  unfold fd_event_handler crtx_writequeue_default_write_callback at h
  simp only [Option.map_eq_some_iff] at h
  obtain ⟨⟨w₂, r⟩, ⟨⟨w₁, it, err⟩, hloop, hcall⟩, rfl⟩ := h
  cases hcall
  rw [settled_afterWrite]
  have hlast : (0 : Int) = ((0 : Nat) : Int) := rfl
  have hsettles := writeLoop_settles hrets hlast rfl hloop
  exact hsettles

/-- An event loop with one descriptor, and one callback that waits for it. -/
def someLoop : Evloop :=
  { fd := fun _ => 5
    entries := fun _ => { fd_added := true, callbacks := [0], evloop := true }
    cbs := fun _ => { crtx_event_flags := CRTX_EVLOOP_WRITE, active := true, fd_entry := some 0 }
    fds := [0]
    kernel := fun _ => some EPOLLOUT
    stop := false
    after_fork_close := false }

def emptyQueue (β : Type) : Wq β :=
  { queue := [], el := someLoop, entry := 0, default_el_cb := 0, pipe := [], errno := 0, queued := [], removed := []
    started := 0, wire := [] }

/-- A queue with the payloads. -/
def someQueue (payloads : List (List Nat)) : Wq Nat := { emptyQueue Nat with queue := payloads, queued := payloads }

theorem settled_iff_eagain :
    ∃ w, fd_event_handler (someQueue [[1, 2, 3], [4, 5]]) [.count 3, .error EAGAIN] = some w ∧ w.queue = [[4, 5]] ∧
      active w = true ∧ (Settled w ↔ Conclusive 0 (someQueue [[1, 2, 3], [4, 5]]).queue [.count 3, .error EAGAIN]) :=
  ⟨_, rfl, rfl, rfl, settled_iff _ _ _ (by simp) rfl⟩

/-- After a short write, nobody waits for the descriptor. After the last payload, which has eleven bytes, somebody
does. -/
theorem short_write_stalls :
    (∃ w, fd_event_handler (someQueue [[1, 2, 3]]) [.count 1] = some w ∧ w.queue ≠ [] ∧ active w = false ∧
      w.errno = 0) ∧
    ∃ w, fd_event_handler (someQueue [List.range 11]) [.count 11] = some w ∧ w.queue = [] ∧ active w = true :=
  ⟨⟨_, rfl, by decide, rfl, rfl⟩, _, rfl, rfl, rfl⟩

/-! ## What the descriptor accepts -/

/-- The loop is at `it`: what was accepted ends in the first payload, after what was counted. -/
structure Aligned (w : Wq β) (it : List (List β)) : Prop where
  queued : w.queued = w.removed ++ it
  wire : w.wire = w.removed.flatten ++ (it.headD []).take w.started
  fits : w.started ≤ (it.headD []).length

theorem Aligned.inOrder {w : Wq β} (h : Aligned w w.queue) : InOrder w where
  stream := by
    rw [h.wire, h.queued, List.flatten_append]
    refine (List.prefix_append_right_inj _).mpr ?_
    cases w.queue with
    | nil => simp
    | cons p it => exact (List.take_prefix _ _).trans (List.prefix_append p it.flatten)
  queue := h.queued
  removed := by
    rw [h.wire]
    exact List.prefix_append ..

theorem suspend_spec (w : Wq β) (err : Int) : ∃ pipe, (suspend w err).1 = { w with pipe } := by
  unfold suspend
  split
  · exact ⟨w.pipe, rfl⟩
  · split
    · exact ⟨_, rfl⟩
    · exact ⟨w.pipe, rfl⟩

theorem Aligned.accept {w : Wq β} {p : List β} {it : List (List β)} (h : Aligned w (p :: it)) {n : Nat}
    (hn : n ≤ p.length) (hok : w.started ≠ 0 → n = 0) : Aligned (WriteQueue.accept w p n) (p :: it) := by
  by_cases h0 : n = 0
  · subst h0
    exact ⟨h.queued, by simpa [WriteQueue.accept] using h.wire, by simpa [WriteQueue.accept] using h.fits⟩
  · have hs : w.started = 0 := by
      by_contra hs
      exact h0 (hok hs)
    have hwire := h.wire
    rw [hs] at hwire
    refine ⟨h.queued, ?_, ?_⟩
    · simpa [WriteQueue.accept, h0] using hwire
    · simpa [WriteQueue.accept, h0] using hn

theorem Whole.eq {p : List β} {n : Nat} (h : Whole p n) (hn : n ≤ p.length) : n = p.length := by
  unfold Whole at h
  have := Nat.mod_le n (2 ^ 32)
  omega

theorem Aligned.drop {w : Wq β} {p : List β} {it : List (List β)} (h : Aligned w (p :: it))
    (hfull : p.take w.started = p) : Aligned (WriteQueue.drop w p) it where
  queued := by simp [WriteQueue.drop, h.queued]
  wire := by
    have hwire := h.wire
    rw [List.headD_cons, hfull] at hwire
    simp [WriteQueue.drop, hwire]
  fits := Nat.zero_le _

theorem Aligned.suspend {w : Wq β} {it : List (List β)} (h : Aligned w it) (err : Int) :
    Aligned (WriteQueue.suspend w err).1 it := by
  obtain ⟨pipe, hpipe⟩ := suspend_spec w err
  rw [hpipe]
  exact ⟨h.queued, h.wire, h.fits⟩

theorem writeLoop_aligned {it it' : List (List β)} {rets : List WriteRet} {w w' : Wq β} {err err' : Int}
    (ha : Aligned w it) (hok : w.started ≠ 0 → ∀ r ∈ rets.head?, r.accepted = 0)
    (h : writeLoop w err it rets = some (w', it', err')) : Aligned w' it' := by
  induction it generalizing rets w err with
  | nil =>
    cases h
    exact ha
  | cons p it ih =>
    cases writeLoop_round h with
    | failed errno rets =>
      have herrno : Aligned (setErrno w errno) (p :: it) := ⟨ha.queued, ha.wire, ha.fits⟩
      exact herrno.suspend (-1)
    | @whole n rets _ hn hwhole hloop =>
      have haccept := ha.accept hn fun hs => hok hs _ rfl
      refine ih (haccept.drop ?_) (fun hs => absurd rfl hs) hloop
      have hlen := hwhole.eq hn
      change p.take (if n = 0 then w.started else n) = p
      by_cases h0 : n = 0
      · rw [List.eq_nil_of_length_eq_zero (hlen.symm.trans h0), List.take_nil]
      · rw [if_neg h0, hlen, List.take_length]
    | @short n rets hn hshort => exact (ha.accept hn fun hs => hok hs _ rfl).suspend n

theorem suspend_wire (w : Wq β) (err : Int) : (suspend w err).1.wire = w.wire := by
  obtain ⟨pipe, h⟩ := suspend_spec w err
  rw [h]

theorem writeLoop_wire {it it' : List (List β)} {rets : List WriteRet} {w w' : Wq β} {err err' : Int}
    (h : writeLoop w err it rets = some (w', it', err')) : w.wire <+: w'.wire := by
  induction it generalizing rets w err with
  | nil =>
    cases h
    exact List.prefix_rfl
  | cons p it ih =>
    have haccept : ∀ n, w.wire <+: (accept w p n).wire := fun n => List.prefix_append ..
    cases writeLoop_round h with
    | failed errno rets =>
      rw [suspend_wire]
      exact List.prefix_rfl
    | @whole n rets _ hn hwhole hloop =>
      have hrest : (drop (accept w p n) p).wire <+: w'.wire := ih hloop
      exact (haccept n).trans hrest
    | @short n rets hn hshort =>
      rw [suspend_wire]
      exact haccept n

theorem writeLoop_repeats {it it' : List (List β)} {ret : WriteRet} {rets : List WriteRet} {w w' : Wq β}
    {err err' : Int} (ha : Aligned w it) (hs : w.started ≠ 0) (hret : ret.accepted ≠ 0)
    (h : writeLoop w err it (ret :: rets) = some (w', it', err')) : ¬ w'.wire.Nodup := by
  obtain ⟨n, rfl, hn⟩ : ∃ n, ret = .count n ∧ n ≠ 0 := by
    cases ret with
    | error errno => exact absurd rfl hret
    | count n => exact ⟨n, rfl, hret⟩
  have hfits := ha.fits
  cases it with
  | nil => exact absurd (Nat.le_zero.mp hfits) hs
  | cons p it =>
    have hgrows : (accept w p n).wire <+: w'.wire := by
      cases writeLoop_round h with
      | whole hn hwhole hloop =>
        have hrest : (drop (accept w p n) p).wire <+: w'.wire := writeLoop_wire hloop
        exact hrest
      | short rets hn hshort => rw [suspend_wire]
    intro hnodup
    have hnodup := hnodup.sublist hgrows.sublist
    rw [accept, ha.wire, List.append_assoc] at hnodup
    have hdisjoint := List.disjoint_of_nodup_append (List.nodup_append.mp hnodup).2.1
    cases p with
    | nil => exact hs (Nat.le_zero.mp hfits)
    | cons b p =>
      have hb : ∀ k, k ≠ 0 → b ∈ (b :: p).take k := by
        intro k hk
        obtain ⟨k, rfl⟩ := Nat.exists_eq_succ_of_ne_zero hk
        exact List.mem_cons_self
      exact hdisjoint (hb w.started hs) (hb n hn)

theorem call_eq_some {w w' : Wq β} {rets : List WriteRet} (h : step w (.write rets) = some w') :
    ∃ w₁ err, writeLoop (setErrno w 0) 0 w.queue rets = some (w₁, w'.queue, err) ∧
      w' = { w₁ with queue := w'.queue } := by
  simp only [step, crtx_writequeue_default_write_callback, Option.map_eq_some_iff] at h
  obtain ⟨⟨w₂, r⟩, ⟨⟨w₁, it, err⟩, hloop, hcall⟩, rfl⟩ := h
  cases hcall
  exact ⟨w₁, err, hloop, rfl⟩

theorem step_aligned (w : Wq β) (a : Action β) (w' : Wq β) (ha : Aligned w w.queue) (hok : NotTwice w a)
    (h : step w a = some w') : Aligned w' w'.queue := by
  cases a with
  | append p =>
    cases h
    refine ⟨by simp [ha.queued], ?_, ?_⟩
    · rw [ha.wire]
      cases hq : w.queue with
      | nil =>
        have hfits := ha.fits
        rw [hq] at hfits
        simp [Nat.le_zero.mp hfits]
      | cons q it => rfl
    · have hfits := ha.fits
      cases hq : w.queue with
      | nil =>
        rw [hq] at hfits
        exact Nat.le_trans hfits (Nat.zero_le _)
      | cons q it =>
        rw [hq] at hfits
        exact hfits
  | write rets =>
    obtain ⟨w₁, err, hloop, hw⟩ := call_eq_some h
    have hstart : Aligned (setErrno w 0) w.queue := ⟨ha.queued, ha.wire, ha.fits⟩
    have hend := writeLoop_aligned hstart hok hloop
    rw [hw]
    exact ⟨hend.queued, hend.wire, hend.fits⟩

theorem step_repeats (w : Wq β) (a : Action β) (w' : Wq β) (ha : Aligned w w.queue) (hok : ¬ NotTwice w a)
    (h : step w a = some w') : ¬ w'.wire.Nodup := by
  cases a with
  | append p => exact absurd trivial hok
  | write rets =>
    simp only [NotTwice, not_forall] at hok
    obtain ⟨hs, r, hr, hn⟩ := hok
    obtain ⟨w₁, err, hloop, hw⟩ := call_eq_some h
    have hstart : Aligned (setErrno w 0) w.queue := ⟨ha.queued, ha.wire, ha.fits⟩
    cases rets with
    | nil => cases hr
    | cons ret rets =>
      cases hr
      have hrepeats := writeLoop_repeats hstart hs hn hloop
      rw [hw]
      exact hrepeats

theorem step_wire (w : Wq β) (a : Action β) (w' : Wq β) (hw : ¬ w.wire.Nodup) (h : step w a = some w') :
    ¬ w'.wire.Nodup := by
  cases a with
  | append p =>
    cases h
    exact hw
  | write rets =>
    obtain ⟨w₁, err, hloop, hw'⟩ := call_eq_some h
    intro hnodup
    rw [hw'] at hnodup
    exact hw (hnodup.sublist (writeLoop_wire hloop).sublist)

/-- What is accepted stays in order for as long as no part of a payload is written again. If no byte occurs twice in
the payloads, only so long. -/
theorem stream_in_order (as : List (Action β)) (w : Wq β) (hr : run step as (emptyQueue β) = some w) :
    (Meets step NotTwice as (emptyQueue β) → InOrder w) ∧
      (w.queued.flatten.Nodup → InOrder w → Meets step NotTwice as (emptyQueue β)) := by
  have hempty : Aligned (emptyQueue β) (emptyQueue β).queue := ⟨rfl, rfl, Nat.le_refl 0⟩
  refine ⟨fun hm => (run_keeps step_aligned as _ w hempty hm hr).inOrder, fun hnodup hok => ?_⟩
  refine (run_meets_or step_aligned step_repeats step_wire as _ w hempty hr).resolve_right ?_
  exact fun h => h (hnodup.sublist hok.stream.sublist)

/-- A payload that is not ready is written later, and another one is added in between. -/
def someWrites : List (Action Nat) :=
  [.append [1, 2, 3], .append [4, 5], .write [.count 3, .error EAGAIN], .append [6], .write [.count 2, .count 0]]

theorem stream_in_order_added :
    ∃ w, run step someWrites (emptyQueue Nat) = some w ∧ w.wire = [1, 2, 3, 4, 5] ∧ w.queue = [[6]] ∧
      Meets step NotTwice someWrites (emptyQueue Nat) ∧ (Meets step NotTwice someWrites (emptyQueue Nat) → InOrder w) ∧
      (w.queued.flatten.Nodup → InOrder w → Meets step NotTwice someWrites (emptyQueue Nat)) :=
  ⟨_, rfl, rfl, rfl, by decide, stream_in_order someWrites _ rfl⟩

/-- A payload is written after a part of it has been written. -/
theorem short_write_repeats :
    ∃ w, run step [.append [1, 2], .write [.count 1], .write [.count 2]] (emptyQueue Nat) = some w ∧
      w.wire = [1, 1, 2] ∧ w.queued.flatten = [1, 2] ∧ ¬ InOrder w := by
  refine ⟨_, rfl, rfl, rfl, fun h => ?_⟩
  exact absurd h.stream.length_le (by decide)

end Libcortex.WriteQueue
