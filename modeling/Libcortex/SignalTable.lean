import Mathlib.Data.List.Induction
import Mathlib.Data.List.Nodup
import Mathlib.Logic.Function.Iterate
import Libcortex.Types
import Libcortex.Lib.Run

/-!
# The table of signals

`signals.c`: one main listener has a table of all signals that somebody wants, each with the list of the
listeners that want it. A listener that starts or stops changes the lists, and the handlers are
installed anew if a list was empty before or is empty now. The lists are those of `LList`.
-/

open Libcortex.Lib

namespace Libcortex.SignalTable

/-! ## The machine -/

/-- The number of a signal. An array of signals ends with a zero. -/
abbrev Signum := { n : Int // n ≠ 0 }

/-- A `sa_handler`: `SIG_DFL`, `SIG_IGN`, the two handlers of `signals.c`, and those of others. -/
inductive Handler where
  | dfl
  | ign
  | selfpipe_signal_handler
  | default_signal_handler
  | other (n : Nat)
deriving DecidableEq, Repr

/-- `struct crtx_signal` -/
structure Entry where
  signum : Signum
  lstnrs : List ListenerId
  sa_handler : Handler
deriving DecidableEq

/-- `signals` are those of the main listener. `kernel` is what `sigaction` reads and writes, and `started` is history:
the listeners that were started and not yet stopped, in the order of their starts. -/
structure St where
  main_started : Bool
  signal_handler : Option Handler
  signals : List Entry
  kernel : Signum → Handler
  started : List ListenerId

/-- The loop of `update_signals` over the table. -/
def installHandlers (signals : List Entry) (kernel : Signum → Handler) : Signum → Handler :=
  signals.foldl (fun kernel sig =>
    let old_action := kernel sig.signum
    if old_action ≠ .ign ∧ old_action ≠ sig.sa_handler then Function.update kernel sig.signum sig.sa_handler
    else kernel) kernel

def update_signals (s : St) : St := { s with kernel := installHandlers s.signals s.kernel }

/-- `crtx_start_listener` for the main listener, in the mode with the pipe. It does nothing the second time. -/
def startMain (s : St) : St :=
  if s.main_started then s
  else update_signals { s with main_started := true, signal_handler := some .selfpipe_signal_handler }

/-- One signal of a listener that starts: the loop over the table, and what follows if it finds nothing. The flag says
whether the handlers have to be updated. -/
def addSignal (handler : Handler) (l : ListenerId) (signum : Signum) : List Entry → List Entry × Bool
  | [] => ([⟨signum, [l], handler⟩], true)
  | sig :: signals =>
    if sig.signum = signum then
      ({ sig with lstnrs := sig.lstnrs ++ [l], sa_handler := handler } :: signals, sig.lstnrs.isEmpty)
    else
      let (signals, changed) := addSignal handler l signum signals
      (sig :: signals, changed)

/-- The listener is taken off the list, and the handler with the last listener. -/
def dropListener (l : ListenerId) (sig : Entry) : Entry :=
  let lstnrs := sig.lstnrs.erase l
  { sig with lstnrs, sa_handler := if lstnrs = [] then .dfl else sig.sa_handler }

/-- One signal of a listener that stops. -/
def removeSignal (l : ListenerId) (signum : Signum) : List Entry → List Entry × Bool
  | [] => ([], false)
  | sig :: signals =>
    if sig.signum = signum then (dropListener l sig :: signals, (dropListener l sig).lstnrs.isEmpty)
    else
      let (signals, changed) := removeSignal l signum signals
      (sig :: signals, changed)

/-- The loop over the signals of a listener. -/
def eachSignal (f : Signum → List Entry → List Entry × Bool) (signums : List Signum) (signals : List Entry) :
    List Entry × Bool :=
  signums.foldl (fun p signum => ((f signum p.1).1, p.2 || (f signum p.1).2)) (signals, false)

def updateIf (changed : Bool) (s : St) : St := if changed then update_signals s else s

/-- `signums` are the signals of the listener `l`. -/
def start_sub_listener (signums : List Signum) (s : St) (l : ListenerId) : St :=
  let s := startMain s
  let (signals, changed) := eachSignal (addSignal (s.signal_handler.getD .default_signal_handler) l) signums s.signals
  updateIf changed { s with signals, started := s.started ++ [l] }

def stop_sub_listener (signums : List Signum) (s : St) (l : ListenerId) : St :=
  let (signals, changed) := eachSignal (removeSignal l) signums s.signals
  updateIf changed { s with signals, started := s.started.erase l }

inductive Action where
  | start (l : ListenerId)
  | stop (l : ListenerId)
deriving DecidableEq

/-- The signals of a listener do not change. -/
def step (signums : ListenerId → List Signum) (s : St) : Action → Option St
  | .start l => some (start_sub_listener (signums l) s l)
  | .stop l => if l ∈ s.started then some (stop_sub_listener (signums l) s l) else none

def init (kernel : Signum → Handler) : St where
  main_started := false
  signal_handler := none
  signals := []
  kernel := kernel
  started := []

/-! ## What the table has for a signal -/

def lookup (signals : List Entry) (signum : Signum) : Option Entry := signals.find? fun sig => sig.signum = signum

def lstnrsAt (signals : List Entry) (signum : Signum) : List ListenerId := (lookup signals signum).elim [] Entry.lstnrs

def handlerAt (signals : List Entry) (signum : Signum) : Option Handler := (lookup signals signum).map Entry.sa_handler

theorem lookup_cons (sig : Entry) (signals : List Entry) (k : Signum) :
    lookup (sig :: signals) k = if sig.signum = k then some sig else lookup signals k := by
  unfold lookup
  rw [List.find?_cons]
  by_cases h : sig.signum = k <;> simp [h]

theorem lookup_behind {sig : Entry} {signals signals' : List Entry} {signum k : Signum}
    (change : Option Entry → Option Entry) (hs : sig.signum ≠ signum)
    (h : lookup signals' k = if k = signum then change (lookup signals k) else lookup signals k) :
    lookup (sig :: signals') k =
      if k = signum then change (lookup (sig :: signals) k) else lookup (sig :: signals) k := by
  rw [lookup_cons, lookup_cons, h]
  by_cases hk : sig.signum = k
  · rw [if_pos hk, if_pos hk, if_neg (fun h => hs (hk.trans h))]
  · rw [if_neg hk, if_neg hk]

theorem lookup_eq_none {signals : List Entry} {k : Signum} :
    lookup signals k = none ↔ k ∉ signals.map Entry.signum := by
  simp [lookup]

theorem lookup_mem {signals : List Entry} (hnd : (signals.map Entry.signum).Nodup) {sig : Entry} (h : sig ∈ signals) :
    lookup signals sig.signum = some sig := by
  induction signals with
  | nil => simp at h
  | cons e signals ih =>
    rw [List.map_cons, List.nodup_cons] at hnd
    rw [lookup_cons]
    rcases List.mem_cons.mp h with rfl | h
    · rw [if_pos rfl]
    · rw [if_neg, ih hnd.2 h]
      intro he
      exact hnd.1 (he ▸ List.mem_map_of_mem h)

theorem addSignal_spec (handler : Handler) (l : ListenerId) (signum : Signum) (signals : List Entry) :
    (∀ k, lookup (addSignal handler l signum signals).1 k =
      if k = signum then some ⟨signum, lstnrsAt signals signum ++ [l], handler⟩ else lookup signals k) ∧
    (addSignal handler l signum signals).2 = (lstnrsAt signals signum).isEmpty := by
  induction signals with
  | nil =>
    refine ⟨fun k => ?_, rfl⟩
    rw [addSignal, lookup_cons]
    by_cases hk : k = signum
    · simp [hk, lstnrsAt, lookup]
    · simp [hk, Ne.symm hk, lookup]
  | cons sig signals ih =>
    unfold addSignal
    by_cases hs : sig.signum = signum
    · subst hs
      have hl : lstnrsAt (sig :: signals) sig.signum = sig.lstnrs := by simp [lstnrsAt, lookup_cons]
      rw [if_pos rfl, hl]
      refine ⟨fun k => ?_, rfl⟩
      rw [lookup_cons, lookup_cons]
      by_cases hk : k = sig.signum
      · simp [hk]
      · simp [hk, Ne.symm hk]
    · have hl : lstnrsAt (sig :: signals) signum = lstnrsAt signals signum := by simp [lstnrsAt, lookup_cons, hs]
      rw [if_neg hs, hl]
      exact ⟨fun k => lookup_behind (fun _ => some _) hs (ih.1 k), ih.2⟩

theorem removeSignal_spec (l : ListenerId) (signum : Signum) (signals : List Entry) :
    (∀ k, lookup (removeSignal l signum signals).1 k =
      if k = signum then (lookup signals k).map (dropListener l) else lookup signals k) ∧
    (removeSignal l signum signals).2 =
      (lookup signals signum).elim false fun sig => (dropListener l sig).lstnrs.isEmpty := by
  induction signals with
  | nil => exact ⟨fun k => by simp [removeSignal, lookup], rfl⟩
  | cons sig signals ih =>
    unfold removeSignal
    by_cases hs : sig.signum = signum
    · subst hs
      have hd : (dropListener l sig).signum = sig.signum := rfl
      rw [if_pos rfl, lookup_cons, if_pos rfl]
      refine ⟨fun k => ?_, rfl⟩
      rw [lookup_cons, lookup_cons, hd]
      by_cases hk : k = sig.signum
      · simp [hk]
      · simp [hk, Ne.symm hk]
    · rw [if_neg hs, lookup_cons, if_neg hs]
      exact ⟨fun k => lookup_behind (Option.map (dropListener l)) hs (ih.1 k), ih.2⟩

theorem addSignal_nodup (handler : Handler) (l : ListenerId) (signum : Signum) {signals : List Entry}
    (h : (signals.map Entry.signum).Nodup) : ((addSignal handler l signum signals).1.map Entry.signum).Nodup := by
  have hmap : (addSignal handler l signum signals).1.map Entry.signum =
      if signum ∈ signals.map Entry.signum then signals.map Entry.signum else signals.map Entry.signum ++ [signum] := by
    clear h
    induction signals with
    | nil => rfl
    | cons sig signals ih =>
      unfold addSignal
      by_cases hs : sig.signum = signum
      · simp [hs]
      · rw [if_neg hs]
        dsimp only
        rw [List.map_cons, ih, List.map_cons]
        by_cases hm : signum ∈ signals.map Entry.signum
        · rw [if_pos hm, if_pos (List.mem_cons_of_mem _ hm)]
        · rw [if_neg hm, if_neg (fun h => (List.mem_cons.mp h).elim (Ne.symm hs) hm)]
          rfl
  rw [hmap]
  split
  · exact h
  · rename_i hm
    rw [List.nodup_append]
    refine ⟨h, by simp, fun a ha b hb => ?_⟩
    rw [List.mem_singleton.mp hb]
    exact ne_of_mem_of_not_mem ha hm

theorem removeSignal_signums (l : ListenerId) (signum : Signum) (signals : List Entry) :
    (removeSignal l signum signals).1.map Entry.signum = signals.map Entry.signum := by
  induction signals with
  | nil => rfl
  | cons sig signals ih =>
    unfold removeSignal
    split
    · rfl
    · exact congrArg (sig.signum :: ·) ih

/-! ## The invariant of the table -/

/-- The list of each signal is `want`, and its handler fits the list. -/
structure TableOk (signals : List Entry) (want : Signum → List ListenerId) : Prop where
  nodup : (signals.map Entry.signum).Nodup
  lstnrs : ∀ k, lstnrsAt signals k = want k
  handler : ∀ k, ∀ sig ∈ lookup signals k, sig.sa_handler = if want k = [] then .dfl else .selfpipe_signal_handler

theorem addSignal_ok {signals : List Entry} {want : Signum → List ListenerId} (h : TableOk signals want)
    (l : ListenerId) (signum : Signum) :
    TableOk (addSignal .selfpipe_signal_handler l signum signals).1
      (Function.update want signum (want signum ++ [l])) ∧
    ((addSignal .selfpipe_signal_handler l signum signals).2 = false →
      ∀ k, handlerAt (addSignal .selfpipe_signal_handler l signum signals).1 k = handlerAt signals k) := by
  obtain ⟨hlookup, hflag⟩ := addSignal_spec .selfpipe_signal_handler l signum signals
  refine ⟨⟨addSignal_nodup _ _ _ h.nodup, fun k => ?_, fun k sig hsig => ?_⟩, fun hc k => ?_⟩
  · unfold lstnrsAt
    rw [hlookup]
    by_cases hk : k = signum
    · rw [if_pos hk, hk, Function.update_self, h.lstnrs]
      rfl
    · rw [if_neg hk, Function.update_of_ne hk, ← h.lstnrs]
      rfl
  · rw [hlookup] at hsig
    by_cases hk : k = signum
    · rw [if_pos hk] at hsig
      cases hsig
      simp [hk]
    · rw [if_neg hk] at hsig
      rw [Function.update_of_ne hk]
      exact h.handler k sig hsig
  · -- Somebody wanted the signal before, so its handler is the same.
    unfold handlerAt
    rw [hlookup]
    by_cases hk : k = signum
    · rw [if_pos hk, hk]
      rw [hc, h.lstnrs] at hflag
      have hne : want signum ≠ [] := by simpa using hflag.symm
      cases hl : lookup signals signum with
      | none => exact absurd (h.lstnrs signum).symm (by simpa [lstnrsAt, hl] using hne)
      | some sig => simp [h.handler signum sig hl, hne]
    · rw [if_neg hk]

theorem removeSignal_ok {signals : List Entry} {want : Signum → List ListenerId} (h : TableOk signals want)
    (l : ListenerId) (signum : Signum) :
    TableOk (removeSignal l signum signals).1 (Function.update want signum ((want signum).erase l)) ∧
    ((removeSignal l signum signals).2 = false →
      ∀ k, handlerAt (removeSignal l signum signals).1 k = handlerAt signals k) := by
  obtain ⟨hlookup, hflag⟩ := removeSignal_spec l signum signals
  refine ⟨⟨by rw [removeSignal_signums]; exact h.nodup, fun k => ?_, fun k sig hsig => ?_⟩, fun hc k => ?_⟩
  · unfold lstnrsAt
    rw [hlookup]
    by_cases hk : k = signum
    · rw [if_pos hk, hk, Function.update_self, ← h.lstnrs]
      unfold lstnrsAt
      cases lookup signals signum <;> rfl
    · rw [if_neg hk, Function.update_of_ne hk, ← h.lstnrs]
      rfl
  · rw [hlookup] at hsig
    by_cases hk : k = signum
    · rw [if_pos hk, hk] at hsig
      obtain ⟨old, hold, rfl⟩ := Option.map_eq_some_iff.mp hsig
      have hw : want signum = old.lstnrs := by rw [← h.lstnrs, lstnrsAt, hold]; rfl
      rw [hk, Function.update_self, hw]
      unfold dropListener
      dsimp only
      by_cases he : old.lstnrs.erase l = []
      · rw [if_pos he, if_pos he]
      · rw [if_neg he, if_neg he, h.handler signum old hold, hw, if_neg]
        intro hnil
        simp [hnil] at he
    · rw [if_neg hk] at hsig
      rw [Function.update_of_ne hk]
      exact h.handler k sig hsig
  · unfold handlerAt
    rw [hlookup]
    by_cases hk : k = signum
    · rw [if_pos hk, hk]
      cases hl : lookup signals signum with
      | none => rfl
      | some sig =>
        rw [hc, hl] at hflag
        have hne : sig.lstnrs.erase l ≠ [] := by simpa [dropListener] using hflag.symm
        simp [dropListener, hne]
    · rw [if_neg hk]

theorem eachSignal_ok {f : Signum → List Entry → List Entry × Bool} {g : List ListenerId → List ListenerId}
    (hf : ∀ signals want signum, TableOk signals want →
      TableOk (f signum signals).1 (Function.update want signum (g (want signum))) ∧
        ((f signum signals).2 = false → ∀ k, handlerAt (f signum signals).1 k = handlerAt signals k))
    (signums : List Signum) {signals : List Entry} {want : Signum → List ListenerId} (h : TableOk signals want) :
    TableOk (eachSignal f signums signals).1 (fun k => g^[signums.count k] (want k)) ∧
      ((eachSignal f signums signals).2 = false →
        ∀ k, handlerAt (eachSignal f signums signals).1 k = handlerAt signals k) := by
  induction signums using List.reverseRecOn with
  | nil => exact ⟨by simpa [eachSignal] using h, fun _ _ => rfl⟩
  | append_singleton signums signum ih =>
    have hsnoc : eachSignal f (signums ++ [signum]) signals =
        ((f signum (eachSignal f signums signals).1).1,
          (eachSignal f signums signals).2 || (f signum (eachSignal f signums signals).1).2) := by
      simp [eachSignal]
    rw [hsnoc]
    obtain ⟨hok, hsame⟩ := hf _ _ signum ih.1
    have hwant :
        Function.update (fun k => g^[signums.count k] (want k)) signum (g (g^[signums.count signum] (want signum))) =
        fun k => g^[(signums ++ [signum]).count k] (want k) := by
      funext k
      by_cases hk : k = signum
      · subst hk
        rw [Function.update_self, List.count_append, List.count_singleton_self, Function.iterate_succ_apply']
      · have hne : (signum == k) = false := beq_eq_false_iff_ne.mpr (Ne.symm hk)
        simp [Function.update_of_ne hk, List.count_singleton, hne]
    rw [hwant] at hok
    refine ⟨hok, fun hc k => ?_⟩
    obtain ⟨h₁, h₂⟩ := Bool.or_eq_false_iff.mp hc
    exact (hsame h₂ k).trans (ih.2 h₁ k)

/-! ## The handlers that are installed -/

/-- What is ignored stays so, and every other signal of the table has the handler of the table. -/
structure Synced (kernel₀ kernel : Signum → Handler) (signals : List Entry) : Prop where
  ignored : ∀ k, kernel k = .ign ↔ kernel₀ k = .ign
  installed : ∀ k, ∀ h ∈ handlerAt signals k, kernel₀ k ≠ .ign → kernel k = h

theorem installHandlers_other {signals : List Entry} {k : Signum} (hk : k ∉ signals.map Entry.signum)
    (kernel : Signum → Handler) : installHandlers signals kernel k = kernel k := by
  unfold installHandlers
  induction signals generalizing kernel with
  | nil => rfl
  | cons sig signals ih =>
    rw [List.map_cons, List.mem_cons, not_or] at hk
    rw [List.foldl_cons, ih hk.2]
    split
    · exact Function.update_of_ne hk.1 ..
    · rfl

theorem installHandlers_eq {signals : List Entry} (hnd : (signals.map Entry.signum).Nodup) {k : Signum} {h : Handler}
    (hk : handlerAt signals k = some h) (kernel : Signum → Handler) :
    installHandlers signals kernel k = if kernel k = .ign then .ign else h := by
  induction signals generalizing kernel with
  | nil => simp [handlerAt, lookup] at hk
  | cons sig signals ih =>
    rw [List.map_cons, List.nodup_cons] at hnd
    have hcons : installHandlers (sig :: signals) kernel = installHandlers signals
        (if kernel sig.signum ≠ .ign ∧ kernel sig.signum ≠ sig.sa_handler then
          Function.update kernel sig.signum sig.sa_handler else kernel) := rfl
    rw [hcons]
    by_cases hs : sig.signum = k
    · subst hs
      obtain rfl : sig.sa_handler = h := by simpa [handlerAt, lookup_cons] using hk
      rw [installHandlers_other hnd.1]
      by_cases hi : kernel sig.signum = .ign
      · simp [hi]
      · by_cases hh : kernel sig.signum = sig.sa_handler
        · simp [hh]
        · simp [hi, hh]
    · have hk' : handlerAt signals k = some h := by simpa [handlerAt, lookup_cons, hs] using hk
      rw [ih hnd.2 hk']
      split
      · rw [Function.update_of_ne (Ne.symm hs)]
      · rfl

theorem installHandlers_synced {kernel₀ kernel : Signum → Handler} {signals : List Entry}
    {want : Signum → List ListenerId} (h : TableOk signals want) (hi : ∀ k, kernel k = .ign ↔ kernel₀ k = .ign) :
    Synced kernel₀ (installHandlers signals kernel) signals := by
  constructor
  · intro k
    cases hk : handlerAt signals k with
    | none =>
      rw [installHandlers_other, hi]
      exact lookup_eq_none.mp (Option.map_eq_none_iff.mp hk)
    | some hd =>
      rw [installHandlers_eq h.nodup hk]
      obtain ⟨sig, hsig, rfl⟩ := Option.map_eq_some_iff.mp hk
      have hne : sig.sa_handler ≠ .ign := by
        rw [h.handler k sig hsig]
        split <;> simp
      rw [← hi]
      by_cases hign : kernel k = .ign <;> simp [hign, hne]
  · intro k hd hk hign
    rw [installHandlers_eq h.nodup hk, if_neg (fun he => hign ((hi k).mp he))]

theorem Synced.updateIf {kernel₀ : Signum → Handler} (s : St) {old : List Entry} {want : Signum → List ListenerId}
    (h : TableOk s.signals want) (hs : Synced kernel₀ s.kernel old) {changed : Bool}
    (hsame : changed = false → ∀ k, handlerAt s.signals k = handlerAt old k) :
    Synced kernel₀ (updateIf changed s).kernel s.signals := by
  cases changed with
  | true => exact installHandlers_synced h hs.ignored
  | false => exact ⟨hs.ignored, fun k hd hk => hs.installed k hd (hsame rfl k ▸ hk)⟩

/-! ## Runs -/

/-- The listeners that want a signal, in the order of their starts, each as often as it lists the signal. -/
def wanted (signums : ListenerId → List Signum) (started : List ListenerId) (k : Signum) : List ListenerId :=
  started.flatMap fun l => List.replicate ((signums l).count k) l

structure Inv (signums : ListenerId → List Signum) (kernel₀ : Signum → Handler) (s : St) : Prop where
  table : TableOk s.signals (wanted signums s.started)
  synced : Synced kernel₀ s.kernel s.signals
  handler : s.main_started = true → s.signal_handler = some .selfpipe_signal_handler

theorem iterate_snoc (l : ListenerId) (n : Nat) (ls : List ListenerId) :
    (· ++ [l])^[n] ls = ls ++ List.replicate n l := by
  induction n with
  | zero => simp
  | succ n ih => rw [Function.iterate_succ_apply', ih, List.replicate_succ', List.append_assoc]

theorem iterate_erase_replicate (l : ListenerId) (n : Nat) (ls : List ListenerId) :
    (·.erase l)^[n] (List.replicate n l ++ ls) = ls := by
  induction n with
  | zero => rfl
  | succ n ih => rw [Function.iterate_succ_apply, List.replicate_succ, List.cons_append, List.erase_cons_head, ih]

theorem iterate_erase_append {l : ListenerId} {xs : List ListenerId} (h : l ∉ xs) (n : Nat) (ls : List ListenerId) :
    (·.erase l)^[n] (xs ++ ls) = xs ++ (·.erase l)^[n] ls := by
  induction n generalizing ls with
  | zero => rfl
  | succ n ih => rw [Function.iterate_succ_apply, List.erase_append_right _ h, ih, Function.iterate_succ_apply]

theorem wanted_erase (signums : ListenerId → List Signum) {started : List ListenerId} {l : ListenerId}
    (h : l ∈ started) (k : Signum) :
    (·.erase l)^[(signums l).count k] (wanted signums started k) = wanted signums (started.erase l) k := by
  unfold wanted
  induction started with
  | nil => simp at h
  | cons a started ih =>
    rw [List.flatMap_cons]
    by_cases ha : a = l
    · subst ha
      rw [iterate_erase_replicate, List.erase_cons_head]
    · have hmem : l ∈ started := (List.mem_cons.mp h).resolve_left (Ne.symm ha)
      have hnot : l ∉ List.replicate ((signums a).count k) a := fun hm => ha (List.eq_of_mem_replicate hm).symm
      rw [iterate_erase_append hnot, ih hmem, List.erase_cons_tail (by simpa using ha), List.flatMap_cons]

theorem startMain_inv {signums : ListenerId → List Signum} {kernel₀ : Signum → Handler} {s : St}
    (hi : Inv signums kernel₀ s) :
    Inv signums kernel₀ (startMain s) ∧ (startMain s).signal_handler = some .selfpipe_signal_handler ∧
      (startMain s).started = s.started := by
  unfold startMain
  split
  · rename_i hm
    exact ⟨hi, hi.handler hm, rfl⟩
  · exact ⟨⟨hi.table, installHandlers_synced hi.table hi.synced.ignored, fun _ => rfl⟩, rfl, rfl⟩

@[simp] theorem updateIf_signals (c : Bool) (s : St) : (updateIf c s).signals = s.signals := by
  cases c <;> rfl

@[simp] theorem updateIf_started (c : Bool) (s : St) : (updateIf c s).started = s.started := by
  cases c <;> rfl

@[simp] theorem updateIf_signal_handler (c : Bool) (s : St) : (updateIf c s).signal_handler = s.signal_handler := by
  cases c <;> rfl

@[simp] theorem updateIf_main_started (c : Bool) (s : St) : (updateIf c s).main_started = s.main_started := by
  cases c <;> rfl

theorem start_inv {signums : ListenerId → List Signum} {kernel₀ : Signum → Handler} {s : St}
    (hi : Inv signums kernel₀ s) (l : ListenerId) : Inv signums kernel₀ (start_sub_listener (signums l) s l) := by
  obtain ⟨hm, hh, hst⟩ := startMain_inv hi
  unfold start_sub_listener
  generalize startMain s = m at hm hh hst
  dsimp only
  rw [hh, Option.getD_some]
  obtain ⟨hok, hsame⟩ := eachSignal_ok (g := (· ++ [l])) (fun _ _ signum h => addSignal_ok h l signum) (signums l) hm.table
  have hwant : (fun k => (· ++ [l])^[(signums l).count k] (wanted signums m.started k)) =
      wanted signums (m.started ++ [l]) := by
    funext k
    rw [iterate_snoc]
    simp [wanted]
  rw [hwant] at hok
  refine ⟨by simpa using hok, ?_, fun _ => by simp⟩
  rw [updateIf_signals]
  exact Synced.updateIf { m with signal_handler := _, signals := _, started := _ } hok hm.synced hsame

theorem stop_inv {signums : ListenerId → List Signum} {kernel₀ : Signum → Handler} {s : St}
    (hi : Inv signums kernel₀ s) {l : ListenerId} (hl : l ∈ s.started) :
    Inv signums kernel₀ (stop_sub_listener (signums l) s l) := by
  unfold stop_sub_listener
  dsimp only
  obtain ⟨hok, hsame⟩ :=
    eachSignal_ok (g := (·.erase l)) (fun _ _ signum h => removeSignal_ok h l signum) (signums l) hi.table
  have hwant : (fun k => (·.erase l)^[(signums l).count k] (wanted signums s.started k)) =
      wanted signums (s.started.erase l) := funext fun k => wanted_erase signums hl k
  rw [hwant] at hok
  refine ⟨by simpa using hok, ?_, by simpa using hi.handler⟩
  rw [updateIf_signals]
  exact Synced.updateIf { s with signals := _, started := _ } hok hi.synced hsame

theorem step_inv {signums : ListenerId → List Signum} {kernel₀ : Signum → Handler} (s : St) (a : Action) (s' : St)
    (hi : Inv signums kernel₀ s) (h : step signums s a = some s') : Inv signums kernel₀ s' := by
  cases a with
  | start l =>
    cases h
    exact start_inv hi l
  | stop l =>
    simp only [step, Option.ite_none_right_eq_some, Option.some.injEq] at h
    obtain ⟨hl, rfl⟩ := h
    exact stop_inv hi hl

theorem init_inv (signums : ListenerId → List Signum) (kernel₀ : Signum → Handler) :
    Inv signums kernel₀ (init kernel₀) where
  table := ⟨List.nodup_nil, fun _ => rfl, by simp [init, lookup]⟩
  synced := ⟨fun _ => Iff.rfl, by simp [init, handlerAt, lookup]⟩
  handler := by simp [init]

/-- The table, the lists and the handlers that are installed, for those signals that were not ignored at the start. -/
theorem signal_table (signums : ListenerId → List Signum) (kernel₀ : Signum → Handler) (as : List Action) (s : St)
    (hr : run (step signums) as (init kernel₀) = some s) :
    (s.signals.map Entry.signum).Nodup ∧
      (∀ k, wanted signums s.started k ≠ [] → k ∈ s.signals.map Entry.signum) ∧
      ∀ sig ∈ s.signals, sig.lstnrs = wanted signums s.started sig.signum ∧
        (kernel₀ sig.signum ≠ .ign →
          s.kernel sig.signum = if sig.lstnrs = [] then .dfl else .selfpipe_signal_handler) := by
  have hi := run_invariant step_inv as _ s (init_inv signums kernel₀) hr
  refine ⟨hi.table.nodup, fun k hk => ?_, fun sig hsig => ?_⟩
  · by_contra hn
    apply hk
    rw [← hi.table.lstnrs, lstnrsAt, lookup_eq_none.mpr hn]
    rfl
  · have hl := lookup_mem hi.table.nodup hsig
    have hw : sig.lstnrs = wanted signums s.started sig.signum := by
      rw [← hi.table.lstnrs, lstnrsAt, hl]
      rfl
    refine ⟨hw, fun hign => ?_⟩
    rw [hi.synced.installed sig.signum sig.sa_handler (by simp [handlerAt, hl]) hign, hw]
    exact hi.table.handler sig.signum sig hl

def SIGHUP : Signum := ⟨1, by decide⟩

def SIGINT : Signum := ⟨2, by decide⟩

def SIGTERM : Signum := ⟨15, by decide⟩

/-- Two listeners share `SIGINT`, one of them lists it twice, and `SIGHUP` was ignored at the start. -/
def someSignums (l : ListenerId) : List Signum := if l = 0 then [SIGHUP, SIGINT, SIGINT] else [SIGINT, SIGTERM]

def someKernel (k : Signum) : Handler := if k.1 = 1 then .ign else .other 0

theorem signal_table_shared :
    ∃ s, run (step someSignums) [.start 0, .start 1, .stop 0, .start 0, .stop 1] (init someKernel) = some s ∧
      s.signals.map (fun sig => (sig.signum.1, sig.lstnrs)) = [(1, [0]), (2, [0, 0]), (15, [])] ∧
      s.kernel SIGHUP = .ign ∧
      (s.signals.map Entry.signum).Nodup ∧
      (∀ k, wanted someSignums s.started k ≠ [] → k ∈ s.signals.map Entry.signum) ∧
      ∀ sig ∈ s.signals, sig.lstnrs = wanted someSignums s.started sig.signum ∧
        (someKernel sig.signum ≠ .ign →
          s.kernel sig.signum = if sig.lstnrs = [] then .dfl else .selfpipe_signal_handler) :=
  ⟨_, rfl, by decide, by decide, signal_table someSignums someKernel
    [.start 0, .start 1, .stop 0, .start 0, .stop 1] _ rfl⟩

end Libcortex.SignalTable
