import Libcortex.FormatEnds

/-!
# Formatting and its buffer

Characters and terminators make the buffer larger before they are written, and a string brings its own room. A separator
takes what is left.
-/

open Libcortex.Lib

namespace Libcortex.DictPrintf

open Dicts

/-! ## What has to hold -/

/-- How much room a write leaves. -/
def Op.after (room : Nat) : Op → Nat
  | .char _ => if room ≤ 1 then room + 23 else room - 1
  | .string _ => room + 1
  | .separator s => room - s.length
  | .terminator => max 2 room - 1

def roomAfter (room : Nat) (w : List Op) : Nat := w.foldl Op.after room

/-- There is room for every separator and the zero behind it. -/
def Fits : Nat → List Op → Prop
  | _, [] => True
  | room, op :: w => (∀ s, op = .separator s → s.length < room) ∧ Fits (op.after room) w

/-- `f` begins with a specifier for all items that writes `n` separators, and they don't fit. The string before each of
them leaves one more byte of room, and the zero behind the last one takes one. -/
def Crowded (heap : DictId → Dict) (room : Nat) (ds : DictPtr) (f : List UInt8) : Prop :=
  ∃ key d di g, CLOSE_BRACKET ∉ key ∧ picked heap ds (cut key) = .item d di ∧ f = keyed key ('s'.toUInt8 :: g) ∧
    let n := min (separators d (cut key)) (leading (targets d (cut key) di)).length
    0 < n ∧ room ≤ n * ((cut key).tail.length - 1)

/-- The call, or one for the format of a group, comes to such a specifier. -/
def Overflows (heap : DictId → Dict) (room : Nat) (ds : DictPtr) (f : List UInt8) : Prop :=
  ∃ w ds' f', Reaches heap ds f w ds' f' ∧ Crowded heap (roomAfter room w) ds' f'

/-! ## One write -/

section

variable {malloc : Nat → UInt8} {heap : DictId → Dict} {ds : DictPtr} {f : List UInt8}

@[simp] theorem fresh_length (malloc : Nat → UInt8) (n : Nat) : (fresh malloc n).length = n := by simp [fresh]

theorem write_isSome {b : Buffer UInt8} {op : Op} :
    (write malloc b op).isSome ↔ ∀ s, op = .separator s → s.length < b.room := by
  cases op with
  | char c =>
    have hlen : 1 < (fresh malloc 24).length := by simp
    have hroom := Buffer.room_reserve hlen 1 b
    simp only [write, Buffer.store_isSome, hroom, fresh_length]
    simp
    split <;> omega
  | string s =>
    simp [write, Buffer.store_isSome]
  | separator s =>
    simp only [write, Buffer.store_isSome, Op.separator.injEq, forall_eq']
    exact Iff.rfl
  | terminator =>
    have hroom := Buffer.room_reserve_one (fresh_length malloc 1) 0 b
    simp only [write, Buffer.store_isSome, hroom]
    simp

theorem write_room {b b' : Buffer UInt8} {op : Op} (h : write malloc b op = some b') : b'.room = op.after b.room := by
  cases op with
  | char c =>
    rw [Buffer.room_store h, Buffer.room_reserve (by simp) 1 b]
    simp [Op.after]
    split <;> omega
  | string s =>
    rw [Buffer.room_store h]
    simp [Op.after]
    omega
  | separator s =>
    rw [Buffer.room_store h]
    rfl
  | terminator =>
    rw [Buffer.room_store h, Buffer.room_reserve_one (by simp) 0 b]
    rfl

theorem run_isSome {b : Buffer UInt8} {w : List Op} : (run (write malloc) w b).isSome ↔ Fits b.room w := by
  induction w generalizing b with
  | nil => simp [Fits]
  | cons op w ih =>
    rw [run_cons, Fits]
    cases hw : write malloc b op with
    | none =>
      have hnot : ¬ (write malloc b op).isSome := by simp [hw]
      rw [write_isSome] at hnot
      simp [hnot]
    | some b' =>
      have hfit : (write malloc b op).isSome := by simp [hw]
      rw [Option.bind_some, ih, write_room hw, and_iff_right (write_isSome.mp hfit)]

/-! ## All writes -/

theorem fits_append {room : Nat} {v w : List Op} : Fits room (v ++ w) ↔ Fits room v ∧ Fits (roomAfter room v) w := by
  induction v generalizing room with
  | nil => simp [Fits, roomAfter]
  | cons op v ih =>
    rw [List.cons_append, Fits, Fits, ih, and_assoc]
    rfl

theorem fits_joined {sep : List UInt8} (hsep : 0 < sep.length) {room n : Nat} {ss : List CString} :
    Fits room (joined sep n ss) ↔ (0 < min n ss.length → min n ss.length * (sep.length - 1) < room) := by
  induction ss generalizing room n with
  | nil => simp [joined, Fits]
  | cons s ss ih =>
    cases n with
    | zero => simp [joined, Fits, Op.after, ih]
    | succ n =>
      have hmin : min (n + 1) (s :: ss).length = min n ss.length + 1 := by simp
      rw [hmin, Nat.succ_mul]
      simp only [joined, Fits, Op.after, ih, reduceCtorEq, false_implies, implies_true, true_and, Op.separator.injEq,
        forall_eq']
      rcases Nat.eq_zero_or_pos (min n ss.length) with hzero | hpos
      · rw [hzero]
        omega
      · omega

theorem fits_strings {room : Nat} {d : Dict} {key : List UInt8} {di : Option Item} :
    Fits room (stringOps d key di) ↔
      ¬ (0 < min (separators d key) (leading (targets d key di)).length ∧
        room ≤ min (separators d key) (leading (targets d key di)).length * (key.tail.length - 1)) := by
  rw [stringOps, not_and, not_le]
  by_cases hlen : 1 < key.length
  · exact fits_joined (by simp; omega)
  · have hzero : separators d key = 0 := if_neg fun h => hlen h.2
    rw [hzero, Nat.zero_min]
    refine iff_of_true ?_ fun h => absurd h (Nat.lt_irrefl 0)
    induction leading (targets d key di) generalizing room with
    | nil => trivial
    | cons s ss ih => exact ⟨by simp, ih⟩

theorem fits_start {room : Nat} {v w : List Op} (h : v <+: w) (hw : Fits room w) : Fits room v := by
  obtain ⟨u, rfl⟩ := h
  exact (fits_append.mp hw).1

theorem crowded_not_fits {room : Nat} (h : Crowded heap room ds f) :
    ¬ Fits room (dict_printf malloc heap ds f).ops := by
  obtain ⟨key, d, di, g, hk, hp, rfl, hpos, hroom⟩ := h
  intro hfits
  rw [dict_printf_strings hk hp] at hfits
  have hpre := Trace.prefix_andThen ⟨stringOps d (cut key) di, stringEnd (targets d (cut key) di)⟩
    (dict_printf malloc heap ds g)
  exact fits_strings.mp (fits_start hpre hfits) ⟨hpos, hroom⟩

theorem overflows_not_fits {room : Nat} (h : Overflows heap room ds f) :
    ¬ Fits room (dict_printf malloc heap ds f).ops := by
  obtain ⟨w, ds', f', hr, hc⟩ := h
  intro hfits
  exact crowded_not_fits hc (fits_append.mp (fits_start hr.ops hfits)).2

theorem Overflows.after {room : Nat} {w : List Op} {f' : List UInt8} (h : Prints heap ds f w f')
    (ho : Overflows heap (roomAfter room w) ds f') : Overflows heap room ds f := by
  obtain ⟨v, ds', f'', hr, hc⟩ := ho
  refine ⟨_, ds', f'', h.reaches hr, ?_⟩
  rwa [roomAfter, List.foldl_append]

theorem fits_andThen {room : Nat} {t u : Trace} (ht : Fits room t.ops)
    (hu : t.last = .returned 1 → Fits (roomAfter room t.ops) u.ops) : Fits room (t.andThen u).ops := by
  unfold Trace.andThen
  split
  · rename_i h
    exact fits_append.mpr ⟨ht, hu h⟩
  · exact ht

theorem Overflows.inside {room : Nat} {key sub : List UInt8} {d : Dict} {di : Item} (hk : CLOSE_BRACKET ∉ key)
    (hs : CLOSE_GROUP ∉ sub) (hp : picked heap ds (cut key) = .item d (some di))
    (ho : Overflows heap room (dictPtr di) (cut sub)) : Overflows heap room ds (grouped key sub f) := by
  obtain ⟨w, ds', f', hr, hc⟩ := ho
  exact ⟨_, ds', f', .group (.here ds _) hk hs hp hr, hc⟩

theorem Call.fits {room : Nat} {t : Trace} (h : Call heap ds f t) (hno : ¬ Overflows heap room ds f) :
    Fits room t.ops := by
  induction h generalizing room with
  | nil ds => simp [Fits]
  | char hc h ih => exact fits_andThen (by simp [Fits]) fun _ => ih fun ho => hno (.after (.char hc (.here _ _)) ho)
  | percent h ih => exact fits_andThen (by simp [Fits]) fun _ => ih fun ho => hno (.after (.percent (.here _ _)) ho)
  | refuses h => trivial
  | opens h => trivial
  | nowhere h => trivial
  | number hk hp hc h ih => exact ih fun ho => hno (.after (.number hk hp hc (.here _ _)) ho)
  | @strings ds key d di f t hk hp h ih =>
    refine fits_andThen (fits_strings.mpr fun hc => ?_) fun hlast => ih fun ho => ?_
    · exact hno ⟨[], ds, _, .loop (.here ds _), ⟨key, d, di, f, hk, hp, rfl, hc⟩⟩
    · have hprint := Prints.strings hk hp (stringEnd_one.mp hlast) (.here ds f)
      rw [List.append_nil] at hprint
      exact hno (.after hprint ho)
  | @group ds key sub d di f t u hk hs hp hsub h ihsub ih =>
    refine fits_andThen (ihsub fun ho => hno (.inside hk hs hp ho)) fun hlast => ih fun ho => ?_
    obtain ⟨v, hv, hops⟩ := hsub.prints hlast
    rw [hops] at ho
    exact hno (.after (.group hk hs hp hv (.here ds f)) ho)

theorem fits_iff {room : Nat} : Fits room (dict_printf malloc heap ds f).ops ↔ ¬ Overflows heap room ds f :=
  ⟨fun h ho => overflows_not_fits ho h, (dict_printf_call malloc heap ds f).fits⟩

end

theorem store_last_isSome {malloc : Nat → UInt8} (b : Buffer UInt8) :
    ((if b.mem.length - 1 ≤ b.len then b.grow (fresh malloc 1) else b).store [] [0]).isSome := by
  have := b.len_add_room
  split
  · simp [Buffer.store_isSome]
  · rw [Buffer.store_isSome]
    simp
    omega

theorem transformItem_isSome {malloc : Nat → UInt8} {heap : DictId → Dict} {ds : DictPtr} {pit : Transformation} :
    (transformItem malloc heap ds pit).isSome ↔ (pit.type = some 's' → ¬ Overflows heap 24 ds pit.format.1) := by
  have hlast : ∀ (o : Option (Buffer UInt8)) (k : Buffer UInt8 → Item),
      ((o.bind fun b => (if b.mem.length - 1 ≤ b.len then b.grow (fresh malloc 1) else b).store [] [0]).map k).isSome =
        o.isSome := by
    intro o k
    cases o with
    | none => rfl
    | some b => rw [Option.isSome_map, Option.bind_some, store_last_isSome, Option.isSome_some]
  unfold transformItem
  dsimp only
  rw [hlast]
  split
  · rename_i ht
    rw [run_isSome, fits_iff, forall_prop_of_true ht]
    simp [Buffer.room]
  · rename_i ht
    simp [ht]

/-- All writes are inside of the buffer just where the call comes to no specifier whose separators need more than the
room that is left. -/
theorem format_in_bounds_iff (malloc : Nat → UInt8) (heap : DictId → Dict) (ds : DictPtr) (format : CString)
    (b : Buffer UInt8) (pit : Transformation) :
    ((run (write malloc) (dict_printf malloc heap ds format.1).ops b).isSome ↔
      ¬ Overflows heap b.room ds format.1) ∧
    ((transformItem malloc heap ds pit).isSome ↔
      (pit.type = some 's' → ¬ Overflows heap 24 ds pit.format.1)) :=
  ⟨run_isSome.trans fits_iff, transformItem_isSome⟩

/-- A dictionary with the strings "x" and "y". -/
def twoStrings : Dict :=
  { signature := some ⟨literal "ss", by decide⟩
    signature_length := 2
    items :=
      [⟨some 's', 0, some keyA, 2, .string (some stringX)⟩,
        ⟨some 's', CRTX_DIF_LAST_ITEM, some keyB, 2, .string (some ⟨literal "y", by decide⟩)⟩] }

/-- Strings with a space between them. -/
def withSpaces : CString := ⟨literal "%[* ]s", by decide⟩

theorem with_spaces_out_of_bounds :
    ¬ (run (write fun _ => 0) (dict_printf (fun _ => 0) (fun _ => twoStrings) (.dict 0) withSpaces.1).ops
      emptyBuffer).isSome := by
  decide

end Libcortex.DictPrintf
