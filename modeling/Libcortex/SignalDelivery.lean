import Mathlib.Algebra.Group.Int.Defs
import Libcortex.SignalTable
import Libcortex.Lib.Bytes

/-!
# From a signal to the listeners

With the main listener in the mode with the pipe, the handler of a signal writes its number into the pipe, and the
event loop reads it there and adds an event to the graph of each listener that the table has for the number. In
between, listeners start and stop in the thread of the event loop. `FanOut` has the life of the event, here it stands
for the number it carries.
-/

open Libcortex.Lib Libcortex.SignalTable

namespace Libcortex.SignalDelivery

/-! ## The machine -/

/-- The bytes of an `int`. -/
def signalBytes (signum : Signum) : List UInt8 := leBytes 4 (signum.1 % 2 ^ 32).toNat

def int32 (bytes : List UInt8) : Int := (BitVec.ofNat 32 (leNat bytes)).toInt

/-- `raised` are the signals that the kernel has still to deliver, `handlers` those whose handler was entered and did
not write yet: there are several if handlers interrupt each other or run in several threads. `got` are the numbers of
the events that `crtx_add_event` was called with for the graph of a listener. -/
structure Sys where
  table : SignalTable.St
  raised : List Signum
  handlers : List Signum
  pipe : List UInt8
  got : ListenerId → List Int

/-- `queued`: the kernel keeps a signal beside another one with its number, as it does with those from `SIGRTMIN` on.
`ok`: the write into the pipe succeeds. -/
inductive Action where
  | sub (a : SignalTable.Action)
  | raise (signum : Signum) (queued : Bool)
  | deliver (signum : Signum)
  | write (signum : Signum) (ok : Bool)
  | read
deriving DecidableEq

/-- The kernel drops a signal that is ignored. -/
def raise (s : Sys) (signum : Signum) (queued : Bool) : Sys :=
  if s.table.kernel signum = .ign ∨ signum ∈ s.raised ∧ queued = false then s
  else { s with raised := s.raised ++ [signum] }

/-- What the kernel does with a signal follows from the handler at that time. -/
def deliver (s : Sys) (signum : Signum) : Sys :=
  { s with
    raised := s.raised.erase signum
    handlers := if s.table.kernel signum = .selfpipe_signal_handler then s.handlers ++ [signum] else s.handlers }

/-- The rest of the handler. A number of four bytes is written as a whole or not at all. -/
def selfpipe_signal_handler (s : Sys) (signum : Signum) (ok : Bool) : Sys :=
  { s with
    handlers := s.handlers.erase signum
    pipe := if ok then s.pipe ++ signalBytes signum else s.pipe }

/-- The loop over the table. -/
def lstnrsOf (signals : List SignalTable.Entry) (signal_num : Int) : List ListenerId :=
  (signals.find? fun sig => sig.signum.1 = signal_num).elim [] SignalTable.Entry.lstnrs

/-- The loop over the listeners of the signal. -/
def addEvents (signal_num : Int) (lstnrs : List ListenerId) (got : ListenerId → List Int) : ListenerId → List Int :=
  lstnrs.foldl (fun got l => Function.update got l (got l ++ [signal_num])) got

def selfpipe_event_handler (s : Sys) : Sys × Int :=
  let bytes := s.pipe.take 4
  let s := { s with pipe := s.pipe.drop 4 }
  if bytes.length ≠ 4 then (s, -EBADE)
  else
    let signal_num := int32 bytes
    ({ s with got := addEvents signal_num (lstnrsOf s.table.signals signal_num) s.got }, 0)

/-- The kernel knows the numbers up to 64. -/
def step (signums : ListenerId → List Signum) (s : Sys) : Action → Option Sys
  | .sub a => (SignalTable.step signums s.table a).map fun table => { s with table }
  | .raise signum queued => if 0 < signum.1 ∧ signum.1 ≤ 64 then some (raise s signum queued) else none
  | .deliver signum => if signum ∈ s.raised then some (deliver s signum) else none
  | .write signum ok => if signum ∈ s.handlers then some (selfpipe_signal_handler s signum ok) else none
  | .read => if s.pipe = [] then none else some (selfpipe_event_handler s).1

def init (kernel : Signum → Handler) : Sys where
  table := SignalTable.init kernel
  raised := []
  handlers := []
  pipe := []
  got _ := []

/-! ## The numbers in the pipe -/

def numbers : List UInt8 → List Int
  | a :: b :: c :: d :: rest => int32 [a, b, c, d] :: numbers rest
  | _ => []

def Known (signum : Signum) : Prop := 0 < signum.1 ∧ signum.1 ≤ 64

@[simp] theorem signalBytes_length (k : Signum) : (signalBytes k).length = 4 := by
  simp [signalBytes]

theorem int32_signalBytes {k : Signum} (h : Known k) : int32 (signalBytes k) = k.1 := by
  obtain ⟨hpos, hle⟩ := h
  have hmod : (k.1 % 2 ^ 32).toNat = k.1.toNat := by omega
  unfold int32 signalBytes
  rw [hmod, leNat_leBytes 4 _ (by omega), BitVec.toInt_eq_toNat_of_lt] <;> rw [BitVec.toNat_ofNat] <;> omega

theorem numbers_append {k : Signum} (h : Known k) (rest : List UInt8) :
    numbers (signalBytes k ++ rest) = k.1 :: numbers rest := by
  have hint := int32_signalBytes h
  have hlen := signalBytes_length k
  match hb : signalBytes k, hlen with
  | [a, b, c, d], _ =>
    rw [hb] at hint
    simp [numbers, hint]

theorem numbers_flatMap {ks : List Signum} (h : ∀ k ∈ ks, Known k) :
    numbers (ks.flatMap signalBytes) = ks.map (·.1) := by
  induction ks with
  | nil => rfl
  | cons k ks ih =>
    rw [List.flatMap_cons, numbers_append (h k List.mem_cons_self),
      ih fun k' hk => h k' (List.mem_cons_of_mem k hk), List.map_cons]

/-- What the pipe holds is whole numbers of signals. -/
def Framed (pipe : List UInt8) : Prop := ∃ ks : List Signum, pipe = ks.flatMap signalBytes ∧ ∀ k ∈ ks, Known k

theorem Framed.nil : Framed [] := ⟨[], rfl, by simp⟩

theorem Framed.snoc {pipe : List UInt8} (h : Framed pipe) {k : Signum} (hk : Known k) :
    Framed (pipe ++ signalBytes k) ∧ numbers (pipe ++ signalBytes k) = numbers pipe ++ [k.1] := by
  obtain ⟨ks, rfl, hks⟩ := h
  have hall : ∀ k' ∈ ks ++ [k], Known k' := by
    intro k' hm
    rcases List.mem_append.mp hm with hm | hm
    · exact hks k' hm
    · exact List.mem_singleton.mp hm ▸ hk
  have heq : ks.flatMap signalBytes ++ signalBytes k = (ks ++ [k]).flatMap signalBytes := by simp
  exact ⟨⟨ks ++ [k], heq, hall⟩, by rw [heq, numbers_flatMap hall, numbers_flatMap hks, List.map_append]; rfl⟩

theorem Framed.read {pipe : List UInt8} (h : Framed pipe) (hne : pipe ≠ []) :
    (pipe.take 4).length = 4 ∧ Framed (pipe.drop 4) ∧
      numbers pipe = int32 (pipe.take 4) :: numbers (pipe.drop 4) ∧ ∃ k, Known k ∧ int32 (pipe.take 4) = k.1 := by
  obtain ⟨ks, rfl, hks⟩ := h
  match ks with
  | [] => exact absurd rfl hne
  | k :: ks =>
    have hk := hks k List.mem_cons_self
    have hrest : ∀ k' ∈ ks, Known k' := fun k' hm => hks k' (List.mem_cons_of_mem k hm)
    have htake : ((k :: ks).flatMap signalBytes).take 4 = signalBytes k := by
      rw [List.flatMap_cons, List.take_append_of_le_length (by simp), List.take_of_length_le (by simp)]
    have hdrop : ((k :: ks).flatMap signalBytes).drop 4 = ks.flatMap signalBytes := by
      rw [List.flatMap_cons, List.drop_append_of_le_length (by simp), List.drop_of_length_le (by simp), List.nil_append]
    rw [htake, hdrop]
    refine ⟨by simp, ⟨ks, rfl, hrest⟩, ?_, k, hk, int32_signalBytes hk⟩
    rw [List.flatMap_cons, numbers_append hk, int32_signalBytes hk]

/-! ## Who gets a number -/

/-- How often a listener that lists `n` gets an event for it, if it was started once. -/
def lists (signums : List Signum) (n : Int) : Nat := signums.countP (·.1 = n)

/-- How often a listener gets an event for the number. -/
def times (signums : ListenerId → List Signum) (started : List ListenerId) (l : ListenerId) (n : Int) : Nat :=
  started.count l * lists (signums l) n

theorem lists_eq (signums : List Signum) (k : Signum) : lists signums k.1 = signums.count k := by
  unfold lists List.count
  apply List.countP_congr
  intro k' _
  simp

theorem wanted_count (signums : ListenerId → List Signum) (started : List ListenerId) (l : ListenerId) (k : Signum) :
    (wanted signums started k).count l = times signums started l k.1 := by
  unfold wanted times
  rw [lists_eq]
  induction started with
  | nil => simp
  | cons a started ih =>
    rw [List.flatMap_cons, List.count_append, ih, List.count_cons, List.count_replicate]
    rcases eq_or_ne a l with rfl | hne
    · simp [Nat.add_mul, Nat.add_comm]
    · simp [hne]

theorem addEvents_eq (n : Int) (lstnrs : List ListenerId) (got : ListenerId → List Int) (l : ListenerId) :
    addEvents n lstnrs got l = got l ++ List.replicate (lstnrs.count l) n := by
  unfold addEvents
  induction lstnrs generalizing got with
  | nil => simp
  | cons a lstnrs ih =>
    rw [List.foldl_cons, ih]
    rcases eq_or_ne l a with rfl | hne
    · rw [Function.update_self, List.count_cons_self, List.replicate_succ, List.append_assoc, List.singleton_append]
    · rw [Function.update_of_ne hne, List.count_cons_of_ne hne.symm]

theorem lstnrsOf_eq (signals : List SignalTable.Entry) (k : Signum) : lstnrsOf signals k.1 = lstnrsAt signals k := by
  unfold lstnrsOf lstnrsAt lookup
  congr 2
  funext sig
  simp [Subtype.ext_iff]

/-! ## The invariant -/

structure Inv (signums : ListenerId → List Signum) (kernel₀ : Signum → Handler) (s : Sys) : Prop where
  table : SignalTable.Inv signums kernel₀ s.table
  framed : Framed s.pipe
  raised : ∀ k ∈ s.raised, Known k
  handlers : ∀ k ∈ s.handlers, Known k

theorem init_inv (signums : ListenerId → List Signum) (kernel₀ : Signum → Handler) :
    Inv signums kernel₀ (init kernel₀) :=
  ⟨SignalTable.init_inv signums kernel₀, Framed.nil, by simp [init], by simp [init]⟩

/-- The numbers that are written into the pipe. -/
def written : Action → List Int
  | .write k true => [k.1]
  | _ => []

section Step

variable {signums : ListenerId → List Signum} {kernel₀ : Signum → Handler} {s s' : Sys} {a : Action}

theorem Inv.installed (hi : Inv signums kernel₀ s) {l : ListenerId} {k : Signum}
    (ht : times signums s.table.started l k.1 ≠ 0) (hign : kernel₀ k ≠ .ign) :
    s.table.kernel k = .selfpipe_signal_handler := by
  have hw : wanted signums s.table.started k ≠ [] := by
    intro hnil
    rw [← wanted_count, hnil] at ht
    exact ht rfl
  have hl : lstnrsAt s.table.signals k ≠ [] := by rwa [hi.table.table.lstnrs]
  have hk : k ∈ s.table.signals.map SignalTable.Entry.signum := by
    by_contra hn
    rw [lstnrsAt, lookup_eq_none.mpr hn] at hl
    exact hl rfl
  obtain ⟨sig, hsig⟩ : ∃ sig, lookup s.table.signals k = some sig := by
    rw [← Option.ne_none_iff_exists']
    exact fun hn => lookup_eq_none.mp hn hk
  rw [hi.table.synced.installed k sig.sa_handler (by simp [handlerAt, hsig]) hign,
    hi.table.table.handler k sig hsig, if_neg hw]

theorem raise_eq (k : Signum) (queued : Bool) : ∃ raised, raise s k queued = { s with raised } ∧
    (raised = s.raised ++ [k] ∨ raised = s.raised ∧ (k ∈ s.raised ∨ s.table.kernel k = .ign)) := by
  unfold raise
  split
  · rename_i h
    exact ⟨_, rfl, .inr ⟨rfl, h.elim .inr fun h => .inl h.1⟩⟩
  · exact ⟨_, rfl, .inl rfl⟩

theorem step_numbers (hi : Inv signums kernel₀ s) (h : step signums s a = some s') (l : ListenerId) :
    Framed s'.pipe ∧
      ((s'.table = s.table ∨ ∃ b, a = .sub b ∧ SignalTable.step signums s.table b = some s'.table) ∧
          s'.got = s.got ∧ numbers s'.pipe = numbers s.pipe ++ written a ∨
        ∃ n, s'.table = s.table ∧ written a = [] ∧ numbers s.pipe = n :: numbers s'.pipe ∧
          s'.got l = s.got l ++ List.replicate (times signums s.table.started l n) n) := by
  unfold step at h
  split at h
  · simp only [Option.map_eq_some_iff] at h
    obtain ⟨table, hb, rfl⟩ := h
    exact ⟨hi.framed, .inl ⟨.inr ⟨_, rfl, hb⟩, rfl, by simp [written]⟩⟩
  · rename_i k queued
    simp only [Option.ite_none_right_eq_some, Option.some.injEq] at h
    obtain ⟨raised, hs, -⟩ := raise_eq (s := s) k queued
    rw [← h.2, hs]
    exact ⟨hi.framed, .inl ⟨.inl rfl, rfl, by simp [written]⟩⟩
  · simp only [Option.ite_none_right_eq_some, Option.some.injEq] at h
    rw [← h.2]
    exact ⟨hi.framed, .inl ⟨.inl rfl, rfl, by simp [written, deliver]⟩⟩
  · rename_i k ok
    simp only [Option.ite_none_right_eq_some, Option.some.injEq] at h
    obtain ⟨hk, rfl⟩ := h
    cases ok with
    | false => exact ⟨hi.framed, .inl ⟨.inl rfl, rfl, by simp [written, selfpipe_signal_handler]⟩⟩
    | true =>
      obtain ⟨hframed, hnumbers⟩ := hi.framed.snoc (hi.handlers k hk)
      exact ⟨hframed, .inl ⟨.inl rfl, rfl, hnumbers⟩⟩
  · split at h
    · simp at h
    · rename_i hne
      obtain ⟨hlen, hframed, hnumbers, k, hk, hint⟩ := hi.framed.read hne
      simp only [selfpipe_event_handler, hlen, ne_eq, not_true_eq_false, if_false, Option.some.injEq] at h
      subst h
      refine ⟨hframed, .inr ⟨int32 (s.pipe.take 4), rfl, rfl, hnumbers, ?_⟩⟩
      simp only [addEvents_eq, hint, lstnrsOf_eq, hi.table.table.lstnrs, wanted_count]

theorem step_signals (h : step signums s a = some s') (k : Signum) :
    (∃ queued, a = .raise k queued ∧ Known k ∧ s'.handlers = s.handlers ∧
        (s'.raised = s.raised ++ [k] ∨ s'.raised = s.raised ∧ (k ∈ s.raised ∨ s.table.kernel k = .ign))) ∨
      (a = .deliver k ∧ k ∈ s.raised ∧ s'.raised = s.raised.erase k ∧
        (s.table.kernel k = .selfpipe_signal_handler ∧ s'.handlers = s.handlers ++ [k] ∨
          s.table.kernel k ≠ .selfpipe_signal_handler ∧ s'.handlers = s.handlers)) ∨
      (∃ ok, a = .write k ok ∧ k ∈ s.handlers ∧ s'.raised = s.raised ∧ s'.handlers = s.handlers.erase k) ∨
      ((∀ b, a ≠ .raise k b) ∧ a ≠ .deliver k ∧ (∀ b, a ≠ .write k b) ∧ s'.raised.count k = s.raised.count k ∧
        s'.handlers.count k = s.handlers.count k) := by
  unfold step at h
  split at h
  · simp only [Option.map_eq_some_iff] at h
    obtain ⟨table, -, rfl⟩ := h
    simp
  · rename_i k' queued
    simp only [Option.ite_none_right_eq_some, Option.some.injEq] at h
    obtain ⟨raised, hs, hraised⟩ := raise_eq (s := s) k' queued
    rw [hs] at h
    obtain ⟨hk, rfl⟩ := h
    rcases eq_or_ne k' k with rfl | hne
    · exact .inl ⟨queued, rfl, hk, rfl, hraised⟩
    · right; right; right
      rcases hraised with rfl | ⟨rfl, -⟩ <;> simp [hne]
  · rename_i k'
    simp only [Option.ite_none_right_eq_some, Option.some.injEq] at h
    obtain ⟨hk, rfl⟩ := h
    rcases eq_or_ne k' k with rfl | hne
    · refine .inr (.inl ⟨rfl, hk, rfl, ?_⟩)
      unfold deliver
      split <;> simp [*]
    · right; right; right
      unfold deliver
      split <;> simp [hne, List.count_erase_of_ne hne.symm]
  · rename_i k' ok
    simp only [Option.ite_none_right_eq_some, Option.some.injEq] at h
    obtain ⟨hk, rfl⟩ := h
    rcases eq_or_ne k' k with rfl | hne
    · exact .inr (.inr (.inl ⟨ok, rfl, hk, rfl, rfl⟩))
    · right; right; right
      simp [selfpipe_signal_handler, hne, List.count_erase_of_ne hne.symm]
  · split at h
    · simp at h
    · simp only [Option.some.injEq, selfpipe_event_handler] at h
      rw [← h]
      split <;> simp

theorem step_inv (s : Sys) (a : Action) (s' : Sys) (hi : Inv signums kernel₀ s) (h : step signums s a = some s') :
    Inv signums kernel₀ s' := by
  obtain ⟨hframed, hnumbers⟩ := step_numbers hi h 0
  refine ⟨?_, hframed, fun k hk => ?_, fun k hk => ?_⟩
  · rcases hnumbers with ⟨ht | ⟨b, -, hb⟩, -⟩ | ⟨n, ht, -⟩
    · exact ht ▸ hi.table
    · exact SignalTable.step_inv _ b _ hi.table hb
    · exact ht ▸ hi.table
  · rcases step_signals h k with ⟨queued, -, hknown, -⟩ | ⟨-, hmem, -⟩ | ⟨ok, -, -, hr, -⟩ | ⟨-, -, -, hr, -⟩
    · exact hknown
    · exact hi.raised k hmem
    · exact hi.raised k (hr ▸ hk)
    · apply hi.raised k
      rw [← List.count_pos_iff] at hk ⊢
      omega
  · rcases step_signals h k with ⟨queued, -, hknown, -⟩ | ⟨-, hmem, -⟩ | ⟨ok, -, hmem, -⟩ | ⟨-, -, -, -, hh⟩
    · exact hknown
    · exact hi.raised k hmem
    · exact hi.handlers k hmem
    · apply hi.handlers k
      rw [← List.count_pos_iff] at hk ⊢
      omega

end Step

/-! ## Nothing is lost -/

theorem startMain_started (t : St) : (startMain t).started = t.started := by
  unfold startMain
  split <;> rfl

theorem started_count {signums : ListenerId → List Signum} {t t' : St} {b : SignalTable.Action} {l : ListenerId}
    (hstart : b ≠ .start l) (hstop : b ≠ .stop l) (h : SignalTable.step signums t b = some t') :
    t'.started.count l = t.started.count l := by
  unfold SignalTable.step at h
  split at h
  · rename_i l'
    have hne : l' ≠ l := fun he => hstart (he ▸ rfl)
    simp only [Option.some.injEq] at h
    subst h
    simp [start_sub_listener, startMain_started, List.count_append, hne]
  · rename_i l'
    have hne : l ≠ l' := fun he => hstop (he ▸ rfl)
    simp only [Option.ite_none_right_eq_some, Option.some.injEq] at h
    obtain ⟨_, rfl⟩ := h
    simp [stop_sub_listener, List.count_erase_of_ne hne]

/-- What a listener gets for numbers that are read: each as often as it was started and lists it. -/
def eventsFor (signums : ListenerId → List Signum) (started : List ListenerId) (l : ListenerId) (ns : List Int) :
    List Int := ns.flatMap fun n => List.replicate (times signums started l n) n

/-- What a listener gets for the numbers in the pipe, if they are read now. -/
def Sys.pending (signums : ListenerId → List Signum) (s : Sys) (l : ListenerId) : List Int :=
  eventsFor signums s.table.started l (numbers s.pipe)

/-- The listener itself is neither started nor stopped. -/
def Stays (l : ListenerId) (a : Action) : Prop := a ≠ .sub (.start l) ∧ a ≠ .sub (.stop l)

/-- The kernel hands every `k` to the handler: a listener wants it, and it was not ignored when the program started. -/
structure Caught (signums : ListenerId → List Signum) (kernel₀ : Signum → Handler) (s : Sys) (l : ListenerId)
    (k : Signum) : Prop where
  wanted : times signums s.table.started l k.1 ≠ 0
  kept : kernel₀ k ≠ .ign

section Delivery

variable {signums : ListenerId → List Signum} {kernel₀ : Signum → Handler} {s s' : Sys} {l : ListenerId}

theorem step_started {a : Action} (hi : Inv signums kernel₀ s) (hl : Stays l a) (h : step signums s a = some s') :
    s'.table.started.count l = s.table.started.count l := by
  obtain ⟨-, ⟨ht | ⟨b, rfl, hb⟩, -⟩ | ⟨n, ht, -⟩⟩ := step_numbers hi h l
  · rw [ht]
  · exact started_count (fun he => hl.1 (he ▸ rfl)) (fun he => hl.2 (he ▸ rfl)) hb
  · rw [ht]

theorem step_delivered {a : Action} (hi : Inv signums kernel₀ s) (hl : Stays l a) (h : step signums s a = some s') :
    s'.got l ++ s'.pending signums l =
      s.got l ++ s.pending signums l ++ eventsFor signums s.table.started l (written a) := by
  have hcount := step_started hi hl h
  unfold Sys.pending eventsFor times
  rw [hcount]
  obtain ⟨-, ⟨-, hgot, hnumbers⟩ | ⟨n, -, hwritten, hnumbers, hgot⟩⟩ := step_numbers hi h l
  · simp [hgot, hnumbers]
  · simp [hgot, hnumbers, hwritten, times]

theorem Caught.step {a : Action} {k : Signum} (hc : Caught signums kernel₀ s l k) (hi : Inv signums kernel₀ s)
    (hl : Stays l a) (h : step signums s a = some s') : Caught signums kernel₀ s' l k := by
  refine ⟨?_, hc.kept⟩
  unfold times
  rw [step_started hi hl h]
  exact hc.wanted

theorem step_waits {a : Action} {k : Signum} (h : step signums s a = some s') (hk : k ∈ s.raised) :
    k ∈ s'.raised ∨ a = .deliver k := by
  rcases step_signals h k with ⟨_, -, -, -, hr⟩ | ⟨ha, -⟩ | ⟨_, -, -, hr, -⟩ | ⟨-, -, -, hr, -⟩
  · rcases hr with hr | ⟨hr, -⟩ <;> simp [hr, hk]
  · exact .inr ha
  · exact .inl (hr ▸ hk)
  · left
    rw [← List.count_pos_iff] at hk ⊢
    omega

theorem step_raise {k : Signum} {queued : Bool} (hi : Inv signums kernel₀ s) (hc : Caught signums kernel₀ s l k)
    (h : step signums s (.raise k queued) = some s') : k ∈ s'.raised := by
  have hh := hi.installed hc.wanted hc.kept
  rcases step_signals h k with ⟨_, -, -, -, hr⟩ | ⟨ha, -⟩ | ⟨_, ha, -⟩ | ⟨ha, -⟩
  · rcases hr with hr | ⟨hr, hk | hk⟩
    · simp [hr]
    · exact hr ▸ hk
    · simp [hh] at hk
  · simp at ha
  · simp at ha
  · exact absurd rfl (ha queued)

theorem step_handlers {a : Action} {k : Signum} (hi : Inv signums kernel₀ s) (hc : Caught signums kernel₀ s l k)
    (h : step signums s a = some s') :
    s.handlers.count k + [a].count (.deliver k) =
      s'.handlers.count k + [a].count (.write k true) + [a].count (.write k false) := by
  have hh := hi.installed hc.wanted hc.kept
  rcases step_signals h k with ⟨_, rfl, -, hs, -⟩ | ⟨rfl, -, -, hs⟩ | ⟨ok, rfl, hk, -, hs⟩ | ⟨-, hd, hw, -, hs⟩
  · simp [hs]
  · simp [hh] at hs
    simp [hs]
  · have hpos := List.count_pos_iff.mpr hk
    cases ok <;> simp [hs, List.count_erase_self] <;> omega
  · simp [hs, hd, hw]

theorem run_waits {bs : List Action} {k : Signum} (hr : run (step signums) bs s = some s') (hk : k ∈ s.raised) :
    k ∈ s'.raised ∨ .deliver k ∈ bs := by
  induction bs generalizing s with
  | nil =>
    cases hr
    exact .inl hk
  | cons b bs ih =>
    rw [run_cons, Option.bind_eq_some_iff] at hr
    obtain ⟨t, ht, hr⟩ := hr
    rcases step_waits ht hk with hk | rfl
    · exact (ih hr hk).imp_right (List.mem_cons_of_mem b)
    · exact .inr List.mem_cons_self

theorem run_caught {bs : List Action} {k : Signum} (hi : Inv signums kernel₀ s) (hc : Caught signums kernel₀ s l k)
    (hl : ∀ b ∈ bs, Stays l b) (hr : run (step signums) bs s = some s') :
    Inv signums kernel₀ s' ∧ Caught signums kernel₀ s' l k := by
  induction bs generalizing s with
  | nil =>
    cases hr
    exact ⟨hi, hc⟩
  | cons b bs ih =>
    rw [run_cons, Option.bind_eq_some_iff] at hr
    obtain ⟨t, ht, hr⟩ := hr
    exact ih (step_inv s b t hi ht) (hc.step hi (hl b List.mem_cons_self) ht)
      (fun b' hb => hl b' (List.mem_cons_of_mem b hb)) hr

theorem run_raise {bs bs' : List Action} {k : Signum} {queued : Bool} (hi : Inv signums kernel₀ s)
    (hc : Caught signums kernel₀ s l k) (hl : ∀ b ∈ bs ++ .raise k queued :: bs', Stays l b)
    (hr : run (step signums) (bs ++ .raise k queued :: bs') s = some s') : k ∈ s'.raised ∨ .deliver k ∈ bs' := by
  rw [run_append, Option.bind_eq_some_iff] at hr
  obtain ⟨t, ht, hr⟩ := hr
  rw [run_cons, Option.bind_eq_some_iff] at hr
  obtain ⟨u, hu, hr⟩ := hr
  obtain ⟨hit, hct⟩ := run_caught hi hc (fun b hb => hl b (List.mem_append_left _ hb)) ht
  exact run_waits hr (step_raise hit hct hu)

theorem run_handlers {bs : List Action} {k : Signum} (hi : Inv signums kernel₀ s) (hc : Caught signums kernel₀ s l k)
    (hl : ∀ b ∈ bs, Stays l b) (hr : run (step signums) bs s = some s') :
    s.handlers.count k + bs.count (.deliver k) =
      s'.handlers.count k + bs.count (.write k true) + bs.count (.write k false) := by
  induction bs generalizing s with
  | nil =>
    cases hr
    simp
  | cons b bs ih =>
    rw [run_cons, Option.bind_eq_some_iff] at hr
    obtain ⟨t, ht, hr⟩ := hr
    have hstep := step_handlers hi hc ht
    have hrest := ih (step_inv s b t hi ht) (hc.step hi (hl b List.mem_cons_self) ht)
      (fun b' hb => hl b' (List.mem_cons_of_mem b hb)) hr
    rw [← List.singleton_append, List.count_append, List.count_append, List.count_append]
    omega

theorem run_delivered {bs : List Action} (hi : Inv signums kernel₀ s) (hl : ∀ b ∈ bs, Stays l b)
    (hr : run (step signums) bs s = some s') :
    s'.got l ++ s'.pending signums l =
      s.got l ++ s.pending signums l ++ eventsFor signums s.table.started l (bs.flatMap written) := by
  induction bs generalizing s with
  | nil =>
    cases hr
    simp [eventsFor]
  | cons b bs ih =>
    rw [run_cons, Option.bind_eq_some_iff] at hr
    obtain ⟨t, ht, hr⟩ := hr
    have hcount := step_started hi (hl b List.mem_cons_self) ht
    have hstep := step_delivered hi (hl b List.mem_cons_self) ht
    have hrest := ih (step_inv s b t hi ht) (fun b' hb => hl b' (List.mem_cons_of_mem b hb)) hr
    rw [hrest, hstep]
    simp [eventsFor, times, hcount]

end Delivery

/-- While a listener is neither started nor stopped, whatever others do, no signal that it lists is lost on the way:
one that is raised waits until it is delivered, each delivery enters the handler, and each handler writes once or has
still to write. The listener gets what the handlers write, in that order. -/
theorem signals_delivered (signums : ListenerId → List Signum) (kernel₀ : Signum → Handler) (as bs : List Action)
    (s s' : Sys) (l : ListenerId) (hr : run (step signums) as (init kernel₀) = some s)
    (hr' : run (step signums) bs s = some s') (hl : ∀ b ∈ bs, Stays l b) :
    (∀ k, Caught signums kernel₀ s l k →
        (∀ bs₁ bs₂ queued, bs = bs₁ ++ .raise k queued :: bs₂ → k ∈ s'.raised ∨ .deliver k ∈ bs₂) ∧
          s.handlers.count k + bs.count (.deliver k) =
            s'.handlers.count k + bs.count (.write k true) + bs.count (.write k false)) ∧
      s'.got l ++ s'.pending signums l =
        s.got l ++ s.pending signums l ++ eventsFor signums s.table.started l (bs.flatMap written) := by
  have hi : Inv signums kernel₀ s := run_invariant step_inv as _ s (init_inv signums kernel₀) hr
  refine ⟨fun k hc => ⟨fun bs₁ bs₂ queued hbs => ?_, run_handlers hi hc hl hr'⟩, run_delivered hi hl hr'⟩
  subst hbs
  exact run_raise hi hc hl hr'

/-- While the other listener comes and goes, two signals are raised after the start of listener 1. The second one is
delivered before the handler of the first one writes. -/
def besideAnother : List Action :=
  [.sub (.start 0), .raise SIGTERM false, .raise SIGINT false, .deliver SIGTERM, .deliver SIGINT, .write SIGINT true,
    .sub (.stop 0), .write SIGTERM true, .read, .read]

theorem signals_delivered_beside_another :
    ∃ s s', run (step someSignums) [.sub (.start 1)] (init someKernel) = some s ∧
      run (step someSignums) besideAnother s = some s' ∧ s'.got 1 = [2, 15] ∧
      (SIGTERM ∈ s'.raised ∨ .deliver SIGTERM ∈ besideAnother.drop 2) ∧
      s'.got 1 ++ s'.pending someSignums 1 =
        s.got 1 ++ s.pending someSignums 1 ++
          eventsFor someSignums s.table.started 1 (besideAnother.flatMap written) := by
  have hrun : (run (step someSignums) [.sub (.start 1)] (init someKernel)).map
      (fun s => times someSignums s.table.started 1 15) = some 1 := by decide
  obtain ⟨s, hs, htimes⟩ := Option.map_eq_some_iff.mp hrun
  have hcaught : Caught someSignums someKernel s 1 SIGTERM :=
    ⟨fun hzero => absurd (htimes.symm.trans hzero) (by decide), by decide⟩
  have hrest : ((run (step someSignums) [.sub (.start 1)] (init someKernel)).bind
      (run (step someSignums) besideAnother)).map (fun s => s.got 1) = some [2, 15] := by decide
  rw [hs, Option.bind_some] at hrest
  obtain ⟨s', hs', hgot⟩ := Option.map_eq_some_iff.mp hrest
  have hall := signals_delivered someSignums someKernel _ _ s s' 1 hs hs' (by simp [Stays, besideAnother])
  exact ⟨s, s', hs, hs', hgot, (hall.1 SIGTERM hcaught).1 [.sub (.start 0)] _ false rfl, hall.2⟩

/-! ## Nothing is invented -/

/-- `crtx_start_listener` starts a listener only if it isn't started. -/
def StartsOnce (s : Sys) : Action → Prop
  | .sub (.start l) => l ∉ s.table.started
  | _ => True

instance (s : Sys) : ∀ a, Decidable (StartsOnce s a)
  | .sub (.start l) => inferInstanceAs (Decidable (l ∉ s.table.started))
  | .sub (.stop _) | .raise _ _ | .deliver _ | .write _ _ | .read => inferInstanceAs (Decidable True)

theorem lists_le_one {signums : List Signum} (h : signums.Nodup) (n : Int) : lists signums n ≤ 1 := by
  rcases eq_or_ne n 0 with rfl | hn
  · have hzero : lists signums 0 = 0 := by
      unfold lists
      rw [List.countP_eq_zero]
      intro k _
      simpa using k.2
    omega
  · rw [lists_eq signums ⟨n, hn⟩]
    exact List.nodup_iff_count_le_one.mp h _

theorem started_nodup {signums : ListenerId → List Signum} {s s' : Sys} {b : SignalTable.Action}
    (hnd : s.table.started.Nodup) (hok : StartsOnce s (.sub b))
    (h : SignalTable.step signums s.table b = some s'.table) : s'.table.started.Nodup := by
  unfold SignalTable.step at h
  split at h
  · simp only [Option.some.injEq] at h
    rw [← h]
    simp only [start_sub_listener, startMain_started, updateIf_started]
    rw [← List.concat_eq_append]
    exact hnd.concat hok
  · simp only [Option.ite_none_right_eq_some, Option.some.injEq] at h
    rw [← h.2]
    simp only [stop_sub_listener, updateIf_started]
    exact hnd.erase _

/-- The numbers that the listener lists. -/
def listed (signums : ListenerId → List Signum) (l : ListenerId) (ns : List Int) : List Int :=
  ns.filter fun n => lists (signums l) n ≠ 0

theorem listed_append (signums : ListenerId → List Signum) (l : ListenerId) (ns ms : List Int) :
    listed signums l (ns ++ ms) = listed signums l ns ++ listed signums l ms := List.filter_append ..

section Order

variable {signums : ListenerId → List Signum} {kernel₀ : Signum → Handler} {s s' : Sys} {l : ListenerId}

theorem step_in_order {a : Action} (hs : (signums l).Nodup) (hi : Inv signums kernel₀ s)
    (hnd : s.table.started.Nodup) (hok : StartsOnce s a) (h : step signums s a = some s') :
    s'.table.started.Nodup ∧
      (s'.got l ++ listed signums l (numbers s'.pipe)).Sublist
        (s.got l ++ listed signums l (numbers s.pipe ++ written a)) := by
  obtain ⟨-, ⟨htable, hgot, hnumbers⟩ | ⟨n, htable, hwritten, hnumbers, hgot⟩⟩ := step_numbers hi h l
  · refine ⟨?_, by rw [hgot, hnumbers]⟩
    rcases htable with htable | ⟨b, rfl, hb⟩
    · exact htable ▸ hnd
    · exact started_nodup hnd hok hb
  · refine ⟨htable ▸ hnd, ?_⟩
    rw [hgot, hnumbers, hwritten, List.append_assoc]
    apply List.Sublist.append_left
    have hcount := List.nodup_iff_count_le_one.mp hnd l
    have hlists := lists_le_one hs n
    have hone : times signums s.table.started l n ≤ 1 := Nat.mul_le_mul hcount hlists
    simp only [List.append_nil, listed, List.filter_cons]
    rcases Nat.le_one_iff_eq_zero_or_eq_one.mp hone with hc | hc <;> rw [hc]
    · split
      · exact List.sublist_cons_self ..
      · exact List.Sublist.refl _
    · have hne : lists (signums l) n ≠ 0 := by
        intro hzero
        simp [times, hzero] at hc
      simp [hne]

theorem run_in_order {as : List Action} (hs : (signums l).Nodup) (hi : Inv signums kernel₀ s)
    (hnd : s.table.started.Nodup) (hm : Meets (step signums) StartsOnce as s)
    (hr : run (step signums) as s = some s') :
    (s'.got l ++ listed signums l (numbers s'.pipe)).Sublist
      (s.got l ++ listed signums l (numbers s.pipe ++ as.flatMap written)) := by
  induction as generalizing s with
  | nil =>
    cases hr
    simp
  | cons a as ih =>
    rw [run_cons, Option.bind_eq_some_iff] at hr
    obtain ⟨t, ht, hr⟩ := hr
    rw [meets_cons ht] at hm
    obtain ⟨hndt, hstep⟩ := step_in_order hs hi hnd hm.1 ht
    have hrest := ih (step_inv s a t hi ht) hndt hm.2 hr
    rw [listed_append, ← List.append_assoc] at hrest
    rw [List.flatMap_cons, ← List.append_assoc, listed_append, ← List.append_assoc]
    exact hrest.trans (hstep.append_right _)

theorem step_count {a : Action} (h : step signums s a = some s') (k : Signum) :
    s'.raised.count k + s'.handlers.count k + (written a).count k.1 ≤
      s.raised.count k + s.handlers.count k + ([a].count (.raise k true) + [a].count (.raise k false)) := by
  rcases step_signals h k with ⟨queued, rfl, -, hs, hr⟩ | ⟨rfl, hk, hr, hs⟩ | ⟨ok, rfl, hk, hr, hs⟩ |
    ⟨ha, -, hw, hr, hs⟩
  · have hone : [Action.raise k queued].count (.raise k true) + [Action.raise k queued].count (.raise k false) = 1 := by
      cases queued <;> simp
    rcases hr with hr | ⟨hr, -⟩
    · simp [hr, hs, written, hone]
      omega
    · simp [hr, hs, written]
  · have hpos := List.count_pos_iff.mpr hk
    rcases hs with ⟨-, hs⟩ | ⟨-, hs⟩
    · simp [hr, hs, written, List.count_erase_self]
      omega
    · simp [hr, hs, written, List.count_erase_self]
  · have hpos := List.count_pos_iff.mpr hk
    cases ok
    · simp [hr, hs, written, List.count_erase_self]
    · simp [hr, hs, written, List.count_erase_self]
      omega
  · have hzero : (written a).count k.1 = 0 := by
      unfold written
      split
      · rename_i k'
        have hne : k' ≠ k := fun he => hw true (he ▸ rfl)
        simp [Subtype.ext_iff] at hne
        simp [hne]
      · rfl
    omega

theorem run_count {as : List Action} (hr : run (step signums) as s = some s') (k : Signum) :
    s'.raised.count k + s'.handlers.count k + (as.flatMap written).count k.1 ≤
      s.raised.count k + s.handlers.count k + (as.count (.raise k true) + as.count (.raise k false)) := by
  induction as generalizing s with
  | nil =>
    cases hr
    simp
  | cons a as ih =>
    rw [run_cons, Option.bind_eq_some_iff] at hr
    obtain ⟨t, ht, hr⟩ := hr
    have hstep := step_count ht k
    have hrest := ih hr
    rw [← List.singleton_append, List.count_append, List.count_append, List.flatMap_append, List.count_append,
      List.flatMap_singleton]
    omega

end Order

/-- However listeners start and stop, what a listener gets are signals that it lists, in the order in which their
handlers wrote them, and none more often than it was raised. -/
theorem signals_in_order (signums : ListenerId → List Signum) (kernel₀ : Signum → Handler) (as : List Action) (s : Sys)
    (l : ListenerId) (hs : (signums l).Nodup) (hm : Meets (step signums) StartsOnce as (init kernel₀))
    (hr : run (step signums) as (init kernel₀) = some s) :
    (s.got l).Sublist (listed signums l (as.flatMap written)) ∧
      ∀ k : Signum, (s.got l).count k.1 ≤ as.count (.raise k true) + as.count (.raise k false) := by
  have hall := run_in_order hs (init_inv signums kernel₀) List.nodup_nil hm hr
  simp only [init, numbers, List.nil_append] at hall
  have hgot := (List.sublist_append_left ..).trans hall
  refine ⟨hgot, fun k => ?_⟩
  have hlisted : (s.got l).count k.1 ≤ (as.flatMap written).count k.1 := (hgot.trans List.filter_sublist).count_le _
  have hcount := run_count hr k
  simp [init] at hcount
  omega

/-- Listener 1 stops before the second of its signals is read. `SIGINT` is raised again while it waits. -/
def stopsEarly : List Action :=
  [.sub (.start 0), .sub (.start 1), .raise SIGINT false, .raise SIGINT false, .deliver SIGINT, .write SIGINT true,
    .raise SIGTERM false, .deliver SIGTERM, .write SIGTERM true, .sub (.stop 0), .read, .sub (.stop 1), .read]

theorem signals_in_order_stops_early :
    ∃ s, run (step someSignums) stopsEarly (init someKernel) = some s ∧ s.got 1 = [2] ∧
      (s.got 1).Sublist (listed someSignums 1 (stopsEarly.flatMap written)) := by
  have hrun : (run (step someSignums) stopsEarly (init someKernel)).map (fun s => s.got 1) = some [2] := by decide
  obtain ⟨s, hs, hgot⟩ := Option.map_eq_some_iff.mp hrun
  exact ⟨s, hs, hgot, (signals_in_order someSignums someKernel stopsEarly s 1 (by decide) (by decide) hs).1⟩

end Libcortex.SignalDelivery
