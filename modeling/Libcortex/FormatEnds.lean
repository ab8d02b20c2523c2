import Libcortex.DictPrintf

/-!
# How formatting ends

The loops that look for the end of a key and of a group don't stop at the end of the format. A call returns, unless it
comes to a group that is not closed, or to an item or a string that is not there.
-/

namespace Libcortex.DictPrintf

open Dicts

/-! ## What has to hold -/

/-- Where a reader of the format is: in the text, or behind the percent sign, the bracket or the key of a specifier. -/
inductive Mode where
  | text
  | percent
  | key
  | specifier

/-- Is a bracket or a group still open at the end? `depth` is the number of open groups. -/
def unterminated : Mode → Nat → List UInt8 → Bool
  | .key, _, [] => true
  | _, depth, [] => 0 < depth
  | .text, depth, c :: f =>
    if c = PERCENT then unterminated .percent depth f
    else unterminated .text (if c = CLOSE_GROUP then depth - 1 else depth) f
  | .percent, depth, c :: f => unterminated (if c = OPEN_BRACKET then .key else .text) depth f
  | .key, depth, c :: f => unterminated (if c = CLOSE_BRACKET then .specifier else .key) depth f
  | .specifier, depth, c :: f => unterminated .text (if c = OPEN_GROUP then depth + 1 else depth) f

def Unterminated (format : CString) : Prop := unterminated .text 0 format.1

/-- The call returns, and returns 0 if a bracket or a group is not closed. -/
def Total (format : CString) (t : Trace) : Prop :=
  (∃ rc, t.last = .returned rc) ∧ (Unterminated format → t.last = .returned 0)

/-- `f` begins with a specifier for a dictionary, an item or a string that is not there. -/
def Faults (heap : DictId → Dict) (ds : DictPtr) (f : List UInt8) : Prop :=
  Nowhere heap ds f ∨
    ∃ key d di g, CLOSE_BRACKET ∉ key ∧ picked heap ds (cut key) = .item d di ∧ f = keyed key ('s'.toUInt8 :: g) ∧
      ∃ t, blocker (targets d (cut key) di) = some t ∧ ∀ x ∈ t, x.type = some 's'

/-- No group is cut: each has a format of less than 256 bytes. -/
def ShortGroups (f : List UInt8) : Prop :=
  ∀ pre key sub g, f = pre ++ grouped key sub g → CLOSE_GROUP ∉ sub → sub.length < 256

/-- The call, or one for the format of a group, comes to such a place. -/
def ReachesOne (place : (DictId → Dict) → DictPtr → List UInt8 → Prop) (heap : DictId → Dict) (ds : DictPtr)
    (f : List UInt8) : Prop :=
  ∃ w ds' f', Reaches heap ds f w ds' f' ∧ place heap ds' f'

/-! ## The ends of a call -/

/-- What a call does, and why. -/
inductive Outcome (heap : DictId → Dict) (ds : DictPtr) (f : List UInt8) : Trace → Prop where
  | printed {w} (h : Prints heap ds f w []) : Outcome heap ds f ⟨w ++ [.terminator], .returned 1⟩
  | refused (w) : Outcome heap ds f ⟨w, .returned 0⟩
  | overread (w) (h : ReachesOne Opens heap ds f) : Outcome heap ds f ⟨w, .overread⟩
  | crash (w) (h : ReachesOne Faults heap ds f) : Outcome heap ds f ⟨w, .crash⟩

section

variable {malloc : Nat → UInt8} {heap : DictId → Dict} {ds : DictPtr} {f : List UInt8}

theorem ReachesOne.here {place : (DictId → Dict) → DictPtr → List UInt8 → Prop} (h : place heap ds f) :
    ReachesOne place heap ds f := ⟨_, ds, f, .loop (.here ds f), h⟩

theorem ReachesOne.after {place : (DictId → Dict) → DictPtr → List UInt8 → Prop} {w : List Op} {f' : List UInt8}
    (h : Prints heap ds f w f') (hr : ReachesOne place heap ds f') : ReachesOne place heap ds f := by
  obtain ⟨v, ds', f'', hr, hp⟩ := hr
  exact ⟨_, ds', f'', h.reaches hr, hp⟩

theorem Outcome.after {w : List Op} {f' : List UInt8} {t : Trace} (h : Prints heap ds f w f')
    (ho : Outcome heap ds f' t) : Outcome heap ds f (Trace.andThen ⟨w, .returned 1⟩ t) := by
  rw [andThen_done]
  cases ho with
  | printed h' =>
    rw [← List.append_assoc]
    exact .printed (h.trans h')
  | refused v => exact .refused _
  | overread v hr => exact .overread _ (hr.after h)
  | crash v hr => exact .crash _ (hr.after h)

theorem ReachesOne.inside {place : (DictId → Dict) → DictPtr → List UInt8 → Prop} {key sub : List UInt8} {d : Dict}
    {di : Item} (hk : CLOSE_BRACKET ∉ key) (hs : CLOSE_GROUP ∉ sub) (hp : picked heap ds (cut key) = .item d (some di))
    (hr : ReachesOne place heap (dictPtr di) (cut sub)) : ReachesOne place heap ds (grouped key sub f) := by
  obtain ⟨w, ds', f', hr, hplace⟩ := hr
  exact ⟨_, ds', f', .group (.here ds _) hk hs hp hr, hplace⟩

theorem Outcome.inside {key sub : List UInt8} {d : Dict} {di : Item} {t u : Trace} (hk : CLOSE_BRACKET ∉ key)
    (hs : CLOSE_GROUP ∉ sub) (hp : picked heap ds (cut key) = .item d (some di))
    (ht : Outcome heap (dictPtr di) (cut sub) t) (hu : Outcome heap ds f u) :
    Outcome heap ds (grouped key sub f) (t.andThen u) := by
  cases ht with
  | printed h =>
    have hgroup := Prints.group hk hs hp h (.here ds f)
    exact .after hgroup hu
  | refused w => exact .refused w
  | overread w hr => exact .overread w (hr.inside hk hs hp)
  | crash w hr => exact .crash w (hr.inside hk hs hp)

theorem stringEnd_crash {ts : List (Option Item)} :
    stringEnd ts = .crash ↔ ∃ t, blocker ts = some t ∧ ∀ x ∈ t, x.type = some 's' := by
  unfold stringEnd
  cases blocker ts with
  | none => simp
  | some t => cases t <;> simp

theorem stringEnd_one {ts : List (Option Item)} : stringEnd ts = .returned 1 ↔ blocker ts = none := by
  unfold stringEnd
  cases blocker ts with
  | none => simp
  | some t =>
    cases t with
    | none => simp
    | some x =>
      dsimp only
      split <;> simp

theorem Outcome.strings {key g : List UInt8} {d : Dict} {di : Option Item} {t : Trace} (hk : CLOSE_BRACKET ∉ key)
    (hp : picked heap ds (cut key) = .item d di) (ho : Outcome heap ds g t) :
    Outcome heap ds (keyed key ('s'.toUInt8 :: g))
      (Trace.andThen ⟨stringOps d (cut key) di, stringEnd (targets d (cut key) di)⟩ t) := by
  by_cases hcrash : stringEnd (targets d (cut key) di) = .crash
  · rw [hcrash]
    exact .crash _ (.here (.inr ⟨key, d, di, g, hk, hp, rfl, stringEnd_crash.mp hcrash⟩))
  · cases hblock : blocker (targets d (cut key) di) with
    | none =>
      have h := Prints.strings hk hp hblock (.here ds g)
      rw [List.append_nil] at h
      rw [stringEnd, hblock]
      exact .after h ho
    | some t =>
      have hzero : stringEnd (targets d (cut key) di) = .returned 0 := by
        rw [stringEnd, hblock] at hcrash ⊢
        cases t <;> simp_all
      rw [hzero]
      exact .refused _

theorem Call.outcome {t : Trace} (h : Call heap ds f t) : Outcome heap ds f t := by
  induction h with
  | nil ds => exact .printed (.here ds [])
  | char hc h ih => exact .after (.char hc (.here _ _)) ih
  | percent h ih => exact .after (.percent (.here _ _)) ih
  | refuses h => exact .refused _
  | opens h => exact .overread _ (.here h)
  | nowhere h => exact .crash _ (.here (.inl h))
  | @number ds key d di c f t hk hp hc h ih =>
    have h' := Outcome.after (.number hk hp hc (.here ds f)) ih
    rwa [andThen_done] at h'
  | strings hk hp h ih => exact .strings hk hp ih
  | group hk hs hp hsub h ihsub ih => exact .inside hk hs hp ihsub ih

theorem Call.prints {t : Trace} (h : Call heap ds f t) (hlast : t.last = .returned 1) :
    ∃ w, Prints heap ds f w [] ∧ t.ops = w ++ [.terminator] := by
  cases h.outcome with
  | printed h' => exact ⟨_, h', rfl⟩
  | refused w => cases hlast
  | overread w h' => cases hlast
  | crash w h' => cases hlast

theorem faults_crash (h : Faults heap ds f) : (dict_printf malloc heap ds f).last = .crash := by
  rcases h with h | ⟨key, d, di, g, hk, hp, rfl, ht⟩
  · rw [dict_printf_nowhere h]
  · have hend := stringEnd_crash.mpr ht
    rw [dict_printf_strings hk hp, hend, Trace.andThen_last (by simp)]

/-! ## Groups that are not closed -/

theorem keyed_append (key e g : List UInt8) : keyed key e ++ g = keyed key (e ++ g) := by simp [keyed]

theorem grouped_append (key sub f g : List UInt8) : grouped key sub f ++ g = grouped key sub (f ++ g) := by
  simp [grouped, keyed_append]

theorem keyed_suffix (key e : List UInt8) : e <:+ keyed key e :=
  ⟨PERCENT :: OPEN_BRACKET :: (key ++ [CLOSE_BRACKET]), by simp [keyed]⟩

theorem grouped_parts (key sub f : List UInt8) :
    CLOSE_GROUP ∈ grouped key sub f ∧ sub <:+: grouped key sub f ∧ f <:+ grouped key sub f := by
  have hopen : OPEN_GROUP :: (sub ++ CLOSE_GROUP :: f) <:+ grouped key sub f := keyed_suffix _ _
  refine ⟨hopen.mem (by simp), ?_, ?_⟩
  · exact List.IsInfix.trans ⟨[OPEN_GROUP], CLOSE_GROUP :: f, by simp⟩ hopen.isInfix
  · exact (List.suffix_append (OPEN_GROUP :: (sub ++ [CLOSE_GROUP])) f).trans (by simpa using hopen)

theorem cut_of_short {s : List UInt8} (h : s.length < 256) : cut s = s := by
  rw [cut, Nat.mod_eq_of_lt h, List.take_length]

theorem ShortGroups.of_infix {f g : List UInt8} (h : ShortGroups f) (hg : g <:+: f) : ShortGroups g := by
  obtain ⟨a, b, rfl⟩ := hg
  intro pre key sub g' hsplit hs
  exact h (a ++ pre) key sub (g' ++ b) (by rw [hsplit, ← grouped_append]; simp) hs

theorem ShortGroups.rest {f g : List UInt8} {depth : Nat} (h : ShortGroups f) (hd : depth = 0 ∨ CLOSE_GROUP ∉ f)
    (hg : g <:+ f) : ShortGroups g ∧ (depth = 0 ∨ CLOSE_GROUP ∉ g) :=
  ⟨h.of_infix hg.isInfix, hd.imp_right fun hn hm => hn (hg.mem hm)⟩

theorem unterminated_keyed {key : List UInt8} (hk : CLOSE_BRACKET ∉ key) (depth : Nat) (e : List UInt8) :
    unterminated .text depth (keyed key e) = unterminated .specifier depth e := by
  have hkey : unterminated .key depth (key ++ CLOSE_BRACKET :: e) = unterminated .specifier depth e := by
    induction key with
    | nil => simp [unterminated]
    | cons c key ih =>
      have hc : c ≠ CLOSE_BRACKET := fun h => hk (h ▸ List.mem_cons_self)
      rw [List.cons_append, unterminated, if_neg hc]
      exact ih fun h => hk (List.mem_cons_of_mem _ h)
  rw [← hkey, keyed, unterminated, if_pos rfl, unterminated, if_pos rfl]

theorem Prints.unterminated {w : List Op} {f' : List UInt8} (h : Prints heap ds f w f') (hshort : ShortGroups f)
    (depth : Nat) (hdepth : depth = 0 ∨ CLOSE_GROUP ∉ f) (rest : List UInt8) :
    DictPrintf.unterminated .text depth (f ++ rest) = DictPrintf.unterminated .text depth (f' ++ rest) := by
  induction h generalizing depth rest with
  | here ds f => rfl
  | @char ds c f w f' hc h ih =>
    have hsuf := List.suffix_cons c f
    have hstay : (if c = CLOSE_GROUP then depth - 1 else depth) = depth := by
      split
      · rename_i hclose
        rcases hdepth with rfl | hn
        · rfl
        · exact absurd (hclose ▸ List.mem_cons_self) hn
      · rfl
    rw [List.cons_append, DictPrintf.unterminated, if_neg hc, hstay]
    obtain ⟨hshort, hdepth⟩ := hshort.rest hdepth hsuf
    exact ih hshort depth hdepth rest
  | @percent ds f w f' h ih =>
    have hsuf : f <:+ PERCENT :: PERCENT :: f := (List.suffix_cons _ _).trans (List.suffix_cons _ _)
    rw [List.cons_append, List.cons_append, DictPrintf.unterminated, if_pos rfl, DictPrintf.unterminated,
      if_neg bracket_ne_percent.symm]
    obtain ⟨hshort, hdepth⟩ := hshort.rest hdepth hsuf
    exact ih hshort depth hdepth rest
  | @number ds key d di c f w f' hk hp hc h ih =>
    have hsuf : f <:+ keyed key (c :: f) := (List.suffix_cons _ _).trans (keyed_suffix _ _)
    have hne : c ≠ OPEN_GROUP := by rcases hc with rfl | rfl <;> decide
    rw [keyed_append, unterminated_keyed hk, List.cons_append, DictPrintf.unterminated, if_neg hne]
    obtain ⟨hshort, hdepth⟩ := hshort.rest hdepth hsuf
    exact ih hshort depth hdepth rest
  | @strings ds key d di f w f' hk hp hall h ih =>
    have hsuf : f <:+ keyed key ('s'.toUInt8 :: f) := (List.suffix_cons _ _).trans (keyed_suffix _ _)
    have hne : 's'.toUInt8 ≠ OPEN_GROUP := by decide
    rw [keyed_append, unterminated_keyed hk, List.cons_append, DictPrintf.unterminated, if_neg hne]
    obtain ⟨hshort, hdepth⟩ := hshort.rest hdepth hsuf
    exact ih hshort depth hdepth rest
  | @group ds key sub d di v f w f' hk hs hp hsub h ihsub ih =>
    obtain ⟨hclose, hsubin, hsuf⟩ := grouped_parts key sub f
    obtain rfl : depth = 0 := hdepth.resolve_right fun hn => hn hclose
    rw [cut_of_short (hshort [] key sub f rfl hs)] at ihsub
    have hin := ihsub (hshort.of_infix hsubin) 1 (.inr hs) (CLOSE_GROUP :: (f ++ rest))
    have hne : CLOSE_GROUP ≠ PERCENT := by decide
    rw [List.nil_append, DictPrintf.unterminated, if_neg hne, if_pos rfl] at hin
    rw [grouped_append, grouped, unterminated_keyed hk, DictPrintf.unterminated, if_pos rfl, hin]
    exact ih (hshort.of_infix hsuf.isInfix) 0 (.inl rfl) rest

/-! ## The result -/

/-- Formatting is total on just those formats that lead to no group that is left open, and to nothing that is not there,
and that are not printed in full with something left open, which takes a group that is cut. -/
theorem format_total_iff (malloc : Nat → UInt8) (heap : DictId → Dict) (ds : DictPtr) (format : CString) :
    Total format (dict_printf malloc heap ds format.1) ↔
      ¬ ReachesOne Opens heap ds format.1 ∧ ¬ ReachesOne Faults heap ds format.1 ∧
        (Unterminated format → ShortGroups format.1 ∨ ¬ ∃ w, Prints heap ds format.1 w []) := by
  constructor
  · rintro ⟨⟨rc, hrc⟩, hzero⟩
    refine ⟨?_, ?_, ?_⟩
    · rintro ⟨w, ds', f', hr, hopen⟩
      have hlast : (dict_printf malloc heap ds' f').last = .overread := by rw [dict_printf_opens hopen]
      rw [hr.last (by rw [hlast]; simp), hlast] at hrc
      cases hrc
    · rintro ⟨w, ds', f', hr, hfault⟩
      have hlast : (dict_printf malloc heap ds' f').last = .crash := faults_crash hfault
      rw [hr.last (by rw [hlast]; simp), hlast] at hrc
      cases hrc
    · intro hun
      refine .inr ?_
      rintro ⟨w, hp⟩
      have hlast := hzero hun
      rw [hp.trace malloc, andThen_done, dict_printf_nil] at hlast
      cases hlast
  · rintro ⟨hopen, hfault, hprint⟩
    have hout := (dict_printf_call malloc heap ds format.1).outcome
    generalize dict_printf malloc heap ds format.1 = t at hout
    cases hout with
    | printed h =>
      refine ⟨⟨1, rfl⟩, fun hun => ?_⟩
      rcases hprint hun with hshort | hnot
      · have hclosed := h.unterminated hshort 0 (.inl rfl) []
        rw [List.append_nil, List.append_nil] at hclosed
        rw [Unterminated, hclosed] at hun
        cases hun
      · exact absurd ⟨_, h⟩ hnot
    | refused w => exact ⟨⟨0, rfl⟩, fun _ => rfl⟩
    | overread w h => exact absurd h hopen
    | crash w h => exact absurd h hfault

end

def stringX : CString := ⟨literal "x", by decide⟩

/-- A dictionary with the string "x" under the key "a". -/
def oneString : Dict :=
  { signature := some ⟨literal "s", by decide⟩
    signature_length := 1
    items := [⟨some 's', CRTX_DIF_LAST_ITEM, some keyA, 2, .string (some stringX)⟩] }

def openBracket : CString := ⟨literal "%[", by decide⟩

theorem open_bracket_overread :
    ¬ Total openBracket (dict_printf (fun _ => 0) (fun _ => oneString) (.dict 0) openBracket.1) := by
  have hlast : (dict_printf (fun _ => 0) (fun _ => oneString) (.dict 0) openBracket.1).last = .overread := by decide
  rintro ⟨⟨rc, hrc⟩, _⟩
  rw [hlast] at hrc
  cases hrc

end Libcortex.DictPrintf
