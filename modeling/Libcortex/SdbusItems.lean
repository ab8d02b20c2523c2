import Libcortex.DictRefs
import Libcortex.Lib.DBus

/-!
# Items from D-Bus messages

`crtx_sdbus_next_to_dict_item` reads one value of a message and makes an item of it, with a dictionary for each
container. An entry of a dictionary of D-Bus whose value is a variant needs two dictionaries while it is read. The item
inside the variant is then moved out, gets the key, and both are given back.
-/

open Libcortex.Lib Libcortex.Lib.DBus

namespace Libcortex.SdbusItems

open Dicts DictRefs

/-! ## Reading -/

section

variable {σ : Type} (bus : Cursor σ) (no_reduce : Bool)

mutual

/-- What is returned, the item, the dictionaries and where the message was left. `none`: the fuel was not enough. -/
def crtx_sdbus_next_to_dict_item : Nat → σ → Item → St → Option (Int × Item × St × σ)
  | 0, _, _, _ => none
  | fuel + 1, msg, ditem, s =>
    let (rv, type, contents) := bus.peek_type msg
    if rv < 0 then some (rv, ditem, s, msg)
    else if rv = 0 then some (0, ditem, s, msg)
    else if type = 'e' ∨ type = 'v' ∨ type = 'a' then
      let (rv, msg) := bus.enter_container msg type contents
      if rv < 0 then some (rv, ditem, s, msg)
      else do
        let d := s.heap.next
        let (rv, ditem, s, msg) ←
          readContainer fuel contents d msg { ditem with type := some 'D', value := .dict d }
            (s.alloc ⟨0, ⟨none, 0, []⟩⟩)
        if rv < 0 then some (rv, ditem, s, msg)
        else
          let (rv, msg) := bus.exit_container msg
          if rv < 0 then some (rv, ditem, s, msg) else some (1, ditem, s, msg)
    else
      match itemType type with
      | none => some (0, ditem, s, msg)
      | some t =>
        let (rv, text, w, msg) := bus.read_basic msg type
        if rv < 0 then some (rv, { ditem with type := some t }, s, msg)
        else
          some (1, { ditem with type := some t, key := itemKey type ditem.key, value := itemValue type text w }, s, msg)

/-- The loop over the elements of a container. -/
def readContainer : Nat → CString → DictId → σ → Item → St → Option (Int × Item × St × σ)
  | 0, _, _, _, _, _ => none
  | fuel + 1, contents, d, msg, ditem, s =>
    if bus.at_end msg = 1 then some (0, ditem, s, msg)
    else do
      let (rv, subitem, s, msg) ← crtx_sdbus_next_to_dict_item fuel msg .zero s
      if rv < 0 then some (rv, ditem, s, msg)
      else if rv < 1 then some (0, ditem, s, msg)
      else if no_reduce = false ∧ contents = sv ∧ (s.dict d).signature_length = 1 then
        let (ditem, s) := reduceEntry d ditem subitem s
        some (0, ditem, s, msg)
      else readContainer fuel contents d msg ditem (s.setDict d (appendItem (s.dict d) subitem))

end

end

variable {σ : Type} {bus : Cursor σ} {no_reduce : Bool}

/-! ## What an item has to be -/

mutual

/-- An item with all that is below it. -/
inductive Tree where
  | leaf (key : Option CString) (flags : BitVec 8) (type : Char) (value : Value)
  | dict (key : Option CString) (flags : BitVec 8) (items : Trees)

inductive Trees where
  | nil
  | cons (t : Tree) (rest : Trees)

end

def Tree.flags : Tree → BitVec 8
  | .leaf _ flags _ _ | .dict _ flags _ => flags

/-- The key belongs to the item. -/
def Tree.withKey (text : CString) : Tree → Tree
  | .leaf _ _ type value => .leaf (some text) CRTX_DIF_ALLOCATED_KEY type value
  | .dict _ _ items => .dict (some text) CRTX_DIF_ALLOCATED_KEY items

def leafOf : Basic → Tree
  | .s text => .leaf none 0 's' (.string (some text))
  | .o text => .leaf (some object) 0 's' (.string (some text))
  | .h w => .leaf (some fd) 0 'u' (.word (w.setWidth 64))
  | .b v => .leaf (some bool) 0 'u' (.word (if v then 1 else 0))
  | .y w => .leaf none 0 'u' (.word (w.setWidth 64))
  | .q w => .leaf none 0 'u' (.word (w.setWidth 64))
  | .u w => .leaf none 0 'u' (.word (w.setWidth 64))
  | .n w => .leaf none 0 'i' (.word ((w.signExtend 32).setWidth 64))
  | .i w => .leaf none 0 'i' (.word (w.setWidth 64))
  | .t w => .leaf none 0 'U' (.word w)
  | .x w => .leaf none 0 'I' (.word w)
  | .d w => .leaf none 0 'd' (.word w)

/-- The number that is read from the union of an item with this type. -/
def unionNumber : Char → BitVec 64 → Option Int
  | 'u', w => some (w.setWidth 32).toNat
  | 'i', w => some (w.setWidth 32).toInt
  | 'U', w => some w.toNat
  | 'I', w => some w.toInt
  | _, _ => none

def Tree.number : Tree → Option Int
  | .leaf _ _ type (.word w) => unionNumber type w
  | _ => none

theorem leafOf_number (b : Basic) : (leafOf b).number = b.number := by
  cases b with
  | n w =>
    simp only [leafOf, Tree.number, unionNumber, Basic.number]
    rw [BitVec.setWidth_setWidth_of_le _ (by omega), BitVec.setWidth_eq, BitVec.toInt_signExtend_of_le (by omega)]
  | b v => cases v <;> rfl
  | y w => simp [leafOf, Tree.number, unionNumber, Basic.number]; omega
  | q w => simp [leafOf, Tree.number, unionNumber, Basic.number]; omega
  | _ => simp [leafOf, Tree.number, unionNumber, Basic.number]

mutual

/-- A container is a dictionary with an item for each element. Only `{sv}` is reduced to what its variant has inside. -/
def mirror (no_reduce : Bool) : Val → Tree
  | .basic b => leafOf b
  | .variant v => .dict none 0 (.cons (mirror no_reduce v) .nil)
  | .entry (.s text) (.variant v) =>
    if no_reduce then
      .dict none 0 (.cons (leafOf (.s text)) (.cons (.dict none 0 (.cons (mirror no_reduce v) .nil)) .nil))
    else (mirror no_reduce v).withKey text
  | .entry key v => .dict none 0 (.cons (leafOf key) (.cons (mirror no_reduce v) .nil))
  | .array _ l => .dict none 0 (mirrors no_reduce l)

def mirrors (no_reduce : Bool) : Vals → Trees
  | .nil => .nil
  | .cons v rest => .cons (mirror no_reduce v) (mirrors no_reduce rest)

end

mutual

/-- The item stands for the tree, and `ds` are its dictionaries. -/
def Tree.Repr (h : Heap Cell) : Tree → Item → List DictId → Prop
  | .leaf key flags type value, di, ds => di = ⟨some type, flags, key, 0, value⟩ ∧ ds = []
  | .dict key flags items, di, ds =>
    ∃ d ds' l, ds = d :: ds' ∧ di = ⟨some 'D', flags, key, 0, .dict d⟩ ∧
      h.cell d = some ⟨0, ⟨none, BitVec.ofNat 32 l.length, l⟩⟩ ∧ items.Repr h l ds'

def Trees.Repr (h : Heap Cell) : Trees → List Item → List DictId → Prop
  | .nil, l, ds => l = [] ∧ ds = []
  | .cons t rest, l, ds => ∃ di l' ds₁ ds₂, l = di :: l' ∧ ds = ds₁ ++ ds₂ ∧ t.Repr h di ds₁ ∧ rest.Repr h l' ds₂

end

/-- From `s` on, the dictionaries `ds` were made and are there, each of them once, and of the others only those in
`written` have changed. -/
structure Grown (written : List DictId) (s s' : St) (ds : List DictId) : Prop where
  fresh : s'.heap.Fresh
  le_next : s.heap.next ≤ s'.heap.next
  nodup : ds.Nodup
  there : ∀ a, a ∈ ds ↔ s.heap.next ≤ a ∧ s'.heap.cell a ≠ none
  old : ∀ a < s.heap.next, a ∉ written → s'.heap.cell a = s.heap.cell a
  pending : s'.pending = s.pending

/-- The item stands for the value, and no dictionaries are left but its own. -/
def Mirrors (no_reduce : Bool) (v : Val) (s : St) (di : Item) (s' : St) : Prop :=
  ∃ ds, (mirror no_reduce v).Repr s'.heap di ds ∧ Grown [] s s' ds

/-- One call reads the value, nothing behind it, and makes its item. -/
def Converts (bus : Cursor σ) (no_reduce : Bool) (At : σ → Vals → List Vals → Prop) (v : Val) : Prop :=
  ∀ (msg : σ) (rest : Vals) (up : List Vals) (s : St) (fuel : Nat), At msg (.cons v rest) up → s.heap.Fresh →
    v.size ≤ fuel →
    ∃ di s' msg', crtx_sdbus_next_to_dict_item bus no_reduce fuel msg .zero s = some (1, di, s', msg') ∧
      At msg' rest up ∧ Mirrors no_reduce v s di s'

/-! ## Signatures -/

theorem signature_ne_sv (ty : Ty) : ty.signature ≠ sv.1 := by
  cases ty with
  | basic type => simp [Ty.signature, sv, literal]
  | variant => decide
  | entry key value =>
    intro h
    exact absurd (List.cons.inj h).1 (by decide)
  | array elem =>
    intro h
    exact absurd (List.cons.inj h).1 (by decide)

theorem eq_variant_of_signature {v : Val} (h : v.ty.signature = [byte 'v']) : ∃ w, v = .variant w := by
  cases v with
  | basic b =>
    have hne : byte b.type.code ≠ byte 'v' := by cases b.type <;> decide
    exact absurd (List.cons.inj h).1 hne
  | variant w => exact ⟨w, rfl⟩
  | entry key w => exact absurd (List.cons.inj h).1 (by decide)
  | array elem l => exact absurd (List.cons.inj h).1 (by decide)

theorem eq_s_of_code {b : Basic} (h : byte b.type.code = byte 's') : ∃ text, b = .s text := by
  have htype : b.type = .s := by
    revert h
    cases b.type <;> decide
  cases b with
  | s text => exact ⟨text, rfl⟩
  | _ => cases htype

theorem eq_entry_of_contents {v : Val} (h : v.contents = sv) : ∃ text w, v = .entry (.s text) (.variant w) := by
  have h' := congrArg Subtype.val h
  cases v with
  | basic b => cases h'
  | variant v => exact absurd h' (signature_ne_sv v.ty)
  | array elem l => exact absurd h' (signature_ne_sv elem)
  | entry key v =>
    obtain ⟨hkey, hv⟩ := List.cons.inj h'
    obtain ⟨text, rfl⟩ := eq_s_of_code hkey
    obtain ⟨w, rfl⟩ := eq_variant_of_signature hv
    exact ⟨text, w, rfl⟩

theorem contents_entry (text : CString) (w : Val) : (Val.entry (.s text) (.variant w)).contents = sv :=
  Subtype.ext (show [byte 's', byte 'v'] = literal "sv" by decide)

theorem mirror_container {v : Val} {l : Vals} (hl : v.children = some l)
    (hno : ¬(no_reduce = false ∧ v.contents = sv)) : mirror no_reduce v = .dict none 0 (mirrors no_reduce l) := by
  cases v with
  | basic b => cases hl
  | variant v => cases hl; simp [mirror, mirrors]
  | array elem l' => cases hl; simp [mirror]
  | entry key v =>
    cases hl
    by_cases hsv : ∃ text w, key = .s text ∧ v = .variant w
    · obtain ⟨text, w, rfl, rfl⟩ := hsv
      have hreduce : no_reduce = true := by simpa [contents_entry] using hno
      simp [mirror, mirrors, hreduce]
    · rw [mirror]
      · simp [mirrors, mirror]
      · rintro text w rfl rfl
        exact hsv ⟨text, w, rfl, rfl⟩

/-! ## Trees in memory -/

mutual

theorem Tree.Repr.frame {h h' : Heap Cell} : ∀ {t : Tree} {di : Item} {ds : List DictId}, t.Repr h di ds →
    (∀ a ∈ ds, h'.cell a = h.cell a) → t.Repr h' di ds
  | .leaf .., di, ds, ht, _ => by simpa only [Tree.Repr] using ht
  | .dict key flags items, di, ds, ht, hsame => by
    simp only [Tree.Repr] at ht ⊢
    obtain ⟨d, ds', l, rfl, hdi, hd, hitems⟩ := ht
    refine ⟨d, ds', l, rfl, hdi, ?_, ?_⟩
    · rw [hsame d List.mem_cons_self, hd]
    · exact Trees.Repr.frame hitems fun a ha => hsame a (List.mem_cons_of_mem _ ha)

theorem Trees.Repr.frame {h h' : Heap Cell} : ∀ {ts : Trees} {l : List Item} {ds : List DictId}, ts.Repr h l ds →
    (∀ a ∈ ds, h'.cell a = h.cell a) → ts.Repr h' l ds
  | .nil, l, ds, ht, _ => by simpa only [Trees.Repr] using ht
  | .cons t rest, l, ds, ht, hsame => by
    simp only [Trees.Repr] at ht ⊢
    obtain ⟨di, l', ds₁, ds₂, rfl, rfl, hfirst, hrest⟩ := ht
    refine ⟨di, l', ds₁, ds₂, rfl, rfl, ?_, ?_⟩
    · exact Tree.Repr.frame hfirst fun a ha => hsame a (List.mem_append_left _ ha)
    · exact Trees.Repr.frame hrest fun a ha => hsame a (List.mem_append_right _ ha)

end

theorem Tree.Repr.flags {h : Heap Cell} {t : Tree} {di : Item} {ds : List DictId} (ht : t.Repr h di ds) :
    di.flags = t.flags := by
  cases t with
  | leaf key flags type value =>
    rw [Tree.Repr] at ht
    rw [ht.1, Tree.flags]
  | dict key flags items =>
    rw [Tree.Repr] at ht
    obtain ⟨d, ds', l, -, rfl, -⟩ := ht
    rfl

theorem Tree.Repr.withKey {h : Heap Cell} {t : Tree} {di : Item} {ds : List DictId} (ht : t.Repr h di ds)
    (text : CString) :
    (t.withKey text).Repr h { di with key := some text, flags := CRTX_DIF_ALLOCATED_KEY } ds := by
  cases t with
  | leaf key flags type value =>
    rw [Tree.Repr] at ht
    obtain ⟨rfl, rfl⟩ := ht
    simp [Tree.withKey, Tree.Repr]
  | dict key flags items =>
    rw [Tree.Repr] at ht
    obtain ⟨d, ds', l, rfl, rfl, hd, hitems⟩ := ht
    rw [Tree.withKey, Tree.Repr]
    exact ⟨d, ds', l, rfl, rfl, hd, hitems⟩

theorem withKey_flags (t : Tree) (text : CString) : (t.withKey text).flags = CRTX_DIF_ALLOCATED_KEY := by
  cases t <;> rfl

theorem mirror_flags (v : Val) :
    (mirror no_reduce v).flags = 0 ∨ (mirror no_reduce v).flags = CRTX_DIF_ALLOCATED_KEY := by
  cases v with
  | basic b =>
    left
    rw [mirror]
    cases b <;> rfl
  | variant v =>
    left
    rw [mirror, Tree.flags]
  | array elem l =>
    left
    rw [mirror, Tree.flags]
  | entry key v =>
    by_cases hc : no_reduce = false ∧ (Val.entry key v).contents = sv
    · right
      obtain ⟨rfl, hc⟩ := hc
      obtain ⟨text, w, heq⟩ := eq_entry_of_contents hc
      cases heq
      rw [mirror, if_neg (by decide), withKey_flags]
    · left
      rw [mirror_container rfl hc, Tree.flags]

theorem Tree.Repr.may_free {h : Heap Cell} {v : Val} {di : Item} {ds : List DictId}
    (ht : (mirror no_reduce v).Repr h di ds) : di.flags &&& CRTX_DIF_DONT_FREE_DATA = 0 := by
  rw [ht.flags]
  rcases @mirror_flags no_reduce v with hf | hf
  · rw [hf]
    decide
  · rw [hf]
    decide

/-! ## Making dictionaries -/

theorem grown_refl {s : St} (hf : s.heap.Fresh) (written : List DictId) : Grown written s s [] where
  fresh := hf
  le_next := Nat.le_refl _
  nodup := List.nodup_nil
  there := by
    intro a
    simpa using hf a
  old := fun _ _ _ => rfl
  pending := rfl

theorem Grown.lt {written : List DictId} {s s' : St} {ds : List DictId} (h : Grown written s s' ds) {a : DictId}
    (ha : a ∈ ds) : s.heap.next ≤ a ∧ a < s'.heap.next := by
  obtain ⟨hle, hcell⟩ := (h.there a).mp ha
  obtain ⟨c, hc⟩ := Option.ne_none_iff_exists'.mp hcell
  exact ⟨hle, Heap.lt_next h.fresh hc⟩

theorem Grown.trans {written : List DictId} {s t u : St} {ds₁ ds₂ : List DictId} (h : Grown written s t ds₁)
    (h' : Grown written t u ds₂) (hw : ∀ a ∈ written, a < s.heap.next) : Grown written s u (ds₁ ++ ds₂) where
  fresh := h'.fresh
  le_next := Nat.le_trans h.le_next h'.le_next
  nodup := by
    refine List.nodup_append.mpr ⟨h.nodup, h'.nodup, ?_⟩
    rintro a ha b hb rfl
    exact absurd (h.lt ha).2 (Nat.not_lt.mpr (h'.lt hb).1)
  there := by
    intro a
    have hkeep : s.heap.next ≤ a → a < t.heap.next → u.heap.cell a = t.heap.cell a := by
      intro hs ht
      exact h'.old a ht fun ha => absurd (hw a ha) (Nat.not_lt.mpr hs)
    rw [List.mem_append, h.there, h'.there]
    constructor
    · rintro (⟨hle, hcell⟩ | ⟨hle, hcell⟩)
      · have hlt := (h.lt ((h.there a).mpr ⟨hle, hcell⟩)).2
        exact ⟨hle, by rwa [hkeep hle hlt]⟩
      · exact ⟨Nat.le_trans h.le_next hle, hcell⟩
    · rintro ⟨hle, hcell⟩
      by_cases hlt : a < t.heap.next
      · exact .inl ⟨hle, by rwa [← hkeep hle hlt]⟩
      · exact .inr ⟨Nat.le_of_not_lt hlt, hcell⟩
  old := by
    intro a ha hout
    rw [h'.old a (Nat.lt_of_lt_of_le ha h.le_next) hout, h.old a ha hout]
  pending := by rw [h'.pending, h.pending]

theorem Grown.mono {s s' : St} {ds : List DictId} (h : Grown [] s s' ds) (written : List DictId) :
    Grown written s s' ds :=
  ⟨h.fresh, h.le_next, h.nodup, h.there, fun a ha _ => h.old a ha List.not_mem_nil, h.pending⟩

theorem grown_setDict {s : St} (hf : s.heap.Fresh) {d : DictId} {c : Cell} (hc : s.heap.cell d = some c)
    (dict : Dict) : Grown [d] s (s.setDict d dict) [] := by
  have hcell : ∀ a, a ≠ d → (s.setDict d dict).heap.cell a = s.heap.cell a := fun a => setDict_cell s d dict
  have hd := Heap.lt_next hf hc
  have hfresh : (s.setDict d dict).heap.Fresh := by
    intro a ha
    rw [setDict_next] at ha
    rw [hcell a (Nat.ne_of_gt (Nat.lt_of_lt_of_le hd ha))]
    exact hf a ha
  refine ⟨hfresh, Nat.le_refl _, List.nodup_nil, ?_, ?_, rfl⟩
  · intro a
    simpa using hfresh a
  · intro a _ ha
    exact hcell a (by simpa using ha)

theorem Grown.container {s s' : St} {c c' : Cell} {ds : List DictId} (h : Grown [s.heap.next] (s.alloc c) s' ds)
    (hc : s'.heap.cell s.heap.next = some c') : Grown [] s s' (s.heap.next :: ds) where
  fresh := h.fresh
  le_next := Nat.le_of_succ_le h.le_next
  nodup := by
    refine List.nodup_cons.mpr ⟨?_, h.nodup⟩
    intro hd
    exact absurd (h.lt hd).1 (Nat.not_succ_le_self _)
  there := by
    intro a
    rw [List.mem_cons, h.there, alloc_next]
    constructor
    · rintro (rfl | ⟨hle, hcell⟩)
      · exact ⟨Nat.le_refl _, by simp [hc]⟩
      · exact ⟨Nat.le_of_succ_le hle, hcell⟩
    · rintro ⟨hle, hcell⟩
      rcases Nat.eq_or_lt_of_le hle with rfl | hlt
      · exact .inl rfl
      · exact .inr ⟨hlt, hcell⟩
  old := by
    intro a ha _
    have hne := Nat.ne_of_lt ha
    rw [h.old a (Nat.lt_succ_of_lt ha) (by simpa using hne)]
    simp [St.alloc, Heap.alloc, hne]
  pending := h.pending

theorem Grown.free {written : List DictId} {s s' s'' : St} {d : DictId} {ds : List DictId}
    (h : Grown written s s' (d :: ds)) (hheap : s''.heap = s'.heap.put d none) (hp : s''.pending = s'.pending) :
    Grown written s s'' ds := by
  have hd := h.lt List.mem_cons_self
  have hnodup := List.nodup_cons.mp h.nodup
  have hcell : ∀ a, a ≠ d → s''.heap.cell a = s'.heap.cell a := by
    intro a ha
    rw [hheap, Heap.put_cell, Function.update_of_ne ha]
  refine ⟨?_, ?_, hnodup.2, ?_, ?_, hp.trans h.pending⟩
  · rw [hheap]
    exact h.fresh.put_none d
  · rw [hheap]
    exact h.le_next
  · intro a
    by_cases ha : a = d
    · subst ha
      simp [hheap, hnodup.1]
    · have hthere := h.there a
      rw [List.mem_cons, or_iff_right ha] at hthere
      rw [hthere, hcell a ha]
  · intro a ha hout
    rw [hcell a (Nat.ne_of_lt (Nat.lt_of_lt_of_le ha hd.1)), h.old a ha hout]

/-! ## Basic types -/

theorem leafOf_repr (h : Heap Cell) (b : Basic) :
    ∃ t, itemType b.type.code = some t ∧
      (leafOf b).Repr h { Item.zero with
        type := some t, key := itemKey b.type.code none, value := itemValue b.type.code b.text b.word } [] := by
  cases b with
  | b v => cases v <;> exact ⟨_, rfl, rfl, rfl⟩
  | n w => exact ⟨_, rfl, by simp [leafOf, Tree.Repr, Basic.type, BasicType.code, itemKey, itemValue, Basic.word,
      Item.zero]⟩
  | _ => exact ⟨_, rfl, by simp [leafOf, Tree.Repr, Basic.type, BasicType.code, itemKey, itemValue, Basic.word,
      Basic.text, Item.zero]⟩

theorem code_basic (b : Basic) : ¬(b.type.code = 'e' ∨ b.type.code = 'v' ∨ b.type.code = 'a') := by
  cases b.type <;> decide

section

variable {At : σ → Vals → List Vals → Prop} (hbus : Faithful bus At)

include hbus

theorem next_basic {msg : σ} {b : Basic} {rest : Vals} {up : List Vals} (hat : At msg (.cons (.basic b) rest) up)
    (s : St) (fuel : Nat) :
    ∃ di msg', crtx_sdbus_next_to_dict_item bus no_reduce (fuel + 1) msg .zero s = some (1, di, s, msg') ∧
      At msg' rest up ∧ (leafOf b).Repr s.heap di [] := by
  obtain ⟨rv, hrv, hpeek⟩ := hbus.peek hat
  obtain ⟨rv', msg', hrv', hread, hat'⟩ := hbus.read hat
  obtain ⟨t, htype, hrepr⟩ := leafOf_repr s.heap b
  refine ⟨_, msg', ?_, hat', hrepr⟩
  have hpos : ¬rv < 0 ∧ ¬rv = 0 ∧ ¬rv' < 0 := by omega
  simp only [crtx_sdbus_next_to_dict_item, hpeek, Val.code, hpos, code_basic b, htype, hread, if_false]
  rfl

theorem next_enclosed {P : Item → St → Prop} {msg : σ} {v : Val} {l rest : Vals} {up : List Vals}
    (hat : At msg (.cons v rest) up) (hl : v.children = some l) {s : St} {fuel : Nat}
    (hloop : ∀ msg₁, At msg₁ l (rest :: up) → ∃ di s' msg₂,
      readContainer bus no_reduce fuel v.contents s.heap.next msg₁
        { Item.zero with type := some 'D', value := .dict s.heap.next } (s.alloc ⟨0, ⟨none, 0, []⟩⟩) =
          some (0, di, s', msg₂) ∧ At msg₂ .nil (rest :: up) ∧ P di s') :
    ∃ di s' msg', crtx_sdbus_next_to_dict_item bus no_reduce (fuel + 1) msg .zero s = some (1, di, s', msg') ∧
      At msg' rest up ∧ P di s' := by
  obtain ⟨rv, hrv, hpeek⟩ := hbus.peek hat
  obtain ⟨rv₁, msg₁, hrv₁, henter, hat₁⟩ := hbus.enter hat hl
  obtain ⟨di, s', msg₂, hread, hat₂, hP⟩ := hloop msg₁ hat₁
  obtain ⟨rv₃, msg₃, hrv₃, hexit, hat₃⟩ := hbus.exit hat₂
  refine ⟨di, s', msg₃, ?_, hat₃, hP⟩
  have hpos : ¬rv < 0 ∧ ¬rv = 0 ∧ ¬rv₁ < 0 ∧ ¬rv₃ < 0 := by omega
  simp only [crtx_sdbus_next_to_dict_item, hpeek, hpos, Val.code_children hl, henter, hread, hexit,
    Option.bind_eq_bind, Option.bind_some, if_false, if_true]
  rfl

theorem readContainer_append {msg msg' : σ} {v : Val} {rest : Vals} {up : List Vals} (hat : At msg (.cons v rest) up)
    {fuel : Nat} {subitem ditem : Item} {s s' : St} {contents : CString} {d : DictId}
    (hnext : crtx_sdbus_next_to_dict_item bus no_reduce fuel msg .zero s = some (1, subitem, s', msg'))
    (hno : ¬(no_reduce = false ∧ contents = sv ∧ (s'.dict d).signature_length = 1)) :
    readContainer bus no_reduce (fuel + 1) contents d msg ditem s =
      readContainer bus no_reduce fuel contents d msg' ditem (s'.setDict d (appendItem (s'.dict d) subitem)) := by
  have hmore : bus.at_end msg ≠ 1 := by
    rw [hbus.more hat]
    decide
  simp only [readContainer, if_neg hmore, hnext, Option.bind_eq_bind, Option.bind_some]
  rw [if_neg (by decide), if_neg (by decide), if_neg hno]

theorem readContainer_reduce {msg msg' : σ} {v : Val} {rest : Vals} {up : List Vals} (hat : At msg (.cons v rest) up)
    {fuel : Nat} {subitem ditem : Item} {s s' : St} {contents : CString} {d : DictId}
    (hnext : crtx_sdbus_next_to_dict_item bus no_reduce fuel msg .zero s = some (1, subitem, s', msg'))
    (hred : no_reduce = false ∧ contents = sv ∧ (s'.dict d).signature_length = 1) :
    readContainer bus no_reduce (fuel + 1) contents d msg ditem s =
      some (0, (reduceEntry d ditem subitem s').1, (reduceEntry d ditem subitem s').2, msg') := by
  have hmore : bus.at_end msg ≠ 1 := by
    rw [hbus.more hat]
    decide
  simp only [readContainer, if_neg hmore, hnext, Option.bind_eq_bind, Option.bind_some]
  rw [if_neg (by decide), if_neg (by decide), if_pos hred]

theorem readContainer_converts {n : Nat} (ih : ∀ v : Val, v.size ≤ n → Converts bus no_reduce At v) {contents : CString}
    (hno : ¬(no_reduce = false ∧ contents = sv)) {d : DictId} {up : List Vals} {ditem : Item} :
    ∀ (l : Vals), l.size ≤ n → ∀ (msg : σ) (s : St) (fuel : Nat) (k : BitVec 32) (items : List Item), At msg l up →
      s.heap.Fresh → s.heap.cell d = some ⟨0, ⟨none, k, items⟩⟩ → l.size ≤ fuel →
      ∃ s' msg' items' ds, readContainer bus no_reduce fuel contents d msg ditem s = some (0, ditem, s', msg') ∧
        At msg' .nil up ∧ (mirrors no_reduce l).Repr s'.heap items' ds ∧
        s'.heap.cell d = some ⟨0, ⟨none, k + BitVec.ofNat 32 items'.length, items ++ items'⟩⟩ ∧ Grown [d] s s' ds
  | .nil, _, msg, s, fuel, k, items, hat, hf, hd, hfuel => by
    obtain ⟨fuel, rfl⟩ := Nat.exists_eq_add_of_lt hfuel
    refine ⟨s, msg, [], [], ?_, hat, ⟨rfl, rfl⟩, by simpa using hd, grown_refl hf [d]⟩
    rw [readContainer, if_pos (hbus.at_end hat)]
  | .cons v rest, hn, msg, s, fuel, k, items, hat, hf, hd, hfuel => by
    simp only [Vals.size] at hn hfuel
    obtain ⟨fuel, rfl⟩ : ∃ f, fuel = f + 1 := ⟨fuel - 1, by omega⟩
    obtain ⟨di, s₁, msg₁, hnext, hat₁, ds₁, hrepr₁, hgrown₁⟩ := ih v (by omega) msg rest up s fuel hat hf (by omega)
    have hlt := Heap.lt_next hf hd
    have hd₁ : s₁.heap.cell d = some ⟨0, ⟨none, k, items⟩⟩ := by rw [hgrown₁.old d hlt List.not_mem_nil, hd]
    -- `s₂` is the state with the new item.
    have hset := grown_setDict hgrown₁.fresh hd₁ (appendItem (s₁.dict d) di)
    have hd₂ := setDict_self hd₁ (appendItem (s₁.dict d) di)
    rw [dict_of_cell hd₁] at hset hd₂
    obtain ⟨s₃, msg₃, items', ds₂, hread, hat₃, hrepr₃, hd₃, hgrown₃⟩ :=
      readContainer_converts ih hno rest (by omega) msg₁ _ fuel (k + 1) (items ++ [di]) hat₁ hset.fresh hd₂ (by omega)
    have hw : ∀ a ∈ [d], a < s.heap.next := by simpa using hlt
    have hw₁ : ∀ a ∈ [d], a < s₁.heap.next := by simpa using Nat.lt_of_lt_of_le hlt hgrown₁.le_next
    have hgrown := (hgrown₁.mono [d]).trans (hset.trans hgrown₃ hw₁) hw
    refine ⟨s₃, msg₃, di :: items', ds₁ ++ ds₂, ?_, hat₃, ?_, ?_, hgrown⟩
    · rw [readContainer_append hbus hat hnext fun h => hno ⟨h.1, h.2.1⟩, dict_of_cell hd₁, hread]
    · rw [mirrors, Trees.Repr]
      refine ⟨di, items', ds₁, ds₂, rfl, rfl, hrepr₁.frame ?_, hrepr₃⟩
      intro a ha
      have hne : a ≠ d := Nat.ne_of_gt (Nat.lt_of_lt_of_le hlt (hgrown₁.lt ha).1)
      rw [hgrown₃.old a (hgrown₁.lt ha).2 (by simpa using hne), setDict_cell _ _ _ hne]
    · have hk : k + 1 + BitVec.ofNat 32 items'.length = k + BitVec.ofNat 32 (items'.length + 1) := by
        rw [BitVec.ofNat_add, BitVec.add_assoc, BitVec.add_comm 1]
        rfl
      rw [hd₃, hk, List.length_cons, List.append_assoc, List.singleton_append]

theorem converts_container {n : Nat} (ih : ∀ v : Val, v.size ≤ n → Converts bus no_reduce At v) {v : Val} {l : Vals}
    (hl : v.children = some l) (hn : v.size ≤ n + 1) (hno : ¬(no_reduce = false ∧ v.contents = sv)) :
    Converts bus no_reduce At v := by
  intro msg rest up s fuel hat hf hfuel
  have hsize := Val.size_children hl
  obtain ⟨fuel, rfl⟩ : ∃ f, fuel = f + 1 := ⟨fuel - 1, by omega⟩
  refine next_enclosed hbus hat hl ?_
  intro msg₁ hat₁
  have hd : (s.alloc ⟨0, ⟨none, 0, []⟩⟩).heap.cell s.heap.next = some ⟨0, ⟨none, 0, []⟩⟩ := by
    simp [St.alloc, Heap.alloc]
  obtain ⟨s₂, msg₂, items, ds, hread, hat₂, hrepr, hd₂, hgrown⟩ :=
    readContainer_converts hbus ih hno l (by omega) msg₁ _ fuel 0 [] hat₁ (Heap.fresh_alloc hf _) hd (by omega)
  refine ⟨_, s₂, msg₂, hread, hat₂, s.heap.next :: ds, ?_, hgrown.container hd₂⟩
  rw [mirror_container hl hno, Tree.Repr]
  exact ⟨s.heap.next, ds, items, rfl, rfl, by simpa using hd₂, hrepr⟩

end

/-! ## Reducing an entry -/

/-- The item of a key that was read, and the dictionary that it is in then. -/
def keyItem (text : CString) : Item := ⟨some 's', 0, none, 0, .string (some text)⟩

def keyDict (text : CString) : Dict := ⟨none, 1, [keyItem text]⟩

theorem visit_single (signature : Option CString) (di : Item) : visit ⟨signature, 1, [di]⟩ = [0] := by
  simp [visit, visitFrom, crtx_get_first_item]

theorem crtx_dict_unref_single {s : St} {d : DictId} {di : Item} (hd : s.heap.cell d = some ⟨0, ⟨none, 1, [di]⟩⟩)
    (hdi : nestedDict di = none) :
    (crtx_dict_unref d s).heap = s.heap.put d none ∧ (crtx_dict_unref d s).pending = s.pending := by
  have hzero : (Cell.unref ⟨0, ⟨none, 1, [di]⟩⟩).ref_count = 0#32 := by simp [Cell.unref]
  unfold crtx_dict_unref
  dsimp only
  rw [hd]
  dsimp only
  rw [if_pos hzero, crtx_free_dict]
  have hdict : St.dict { s with unrefs := Function.update s.unrefs d (s.unrefs d + 1) } d = ⟨none, 1, [di]⟩ :=
    dict_of_cell hd
  rw [hdict, visit_single]
  refine ⟨rfl, ?_⟩
  simp [Dict.item, hdi]

theorem reduceEntry_collapses {s : St} {d v : DictId} {text : CString} {e : Item} (hne : v ≠ d)
    (hd : s.heap.cell d = some ⟨0, keyDict text⟩) (hv : s.heap.cell v = some ⟨0, ⟨none, 1, [e]⟩⟩)
    (he : e.flags &&& CRTX_DIF_DONT_FREE_DATA = 0) :
    ∃ s', reduceEntry d { Item.zero with type := some 'D', value := .dict d } ⟨some 'D', 0, none, 0, .dict v⟩ s =
        ({ e with key := some text, flags := CRTX_DIF_ALLOCATED_KEY }, s') ∧
      s'.heap = (s.heap.put d none).put v none ∧ s'.pending = s.pending := by
  have hsingle : singleEntry s ⟨some 'D', 0, none, 0, .dict v⟩ = some v := by
    simp [singleEntry, nestedDict, dict_of_cell hv]
  have hkey := setDict_self hd ⟨none, 1, [{ keyItem text with value := .string none }]⟩
  generalize hs₁ : s.setDict d ⟨none, 1, [{ keyItem text with value := .string none }]⟩ = s₁ at hkey
  have hv₁ : s₁.heap.cell v = some ⟨0, ⟨none, 1, [e]⟩⟩ := by rw [← hs₁, setDict_cell _ _ _ hne, hv]
  have hentry := setDict_self hv₁ ⟨none, 1, [{ e with value := .word 0 }]⟩
  generalize hs₂ : s₁.setDict v ⟨none, 1, [{ e with value := .word 0 }]⟩ = s₂ at hentry
  -- In `s₂` the two have nothing left that would be given back with them.
  have hkey₂ : s₂.heap.cell d = some ⟨0, ⟨none, 1, [{ keyItem text with value := .string none }]⟩⟩ := by
    rw [← hs₂, setDict_cell _ _ _ hne.symm, hkey]
  have hempty : nestedDict { e with value := .word 0 } = none := by
    unfold nestedDict
    split
    · rename_i h
      cases h
    · rfl
  obtain ⟨hheap₃, hpending₃⟩ := crtx_dict_unref_single hkey₂ rfl
  have hentry₃ : (crtx_dict_unref d s₂).heap.cell v = some ⟨0, ⟨none, 1, [{ e with value := .word 0 }]⟩⟩ := by
    rw [crtx_dict_unref_cell _ _ hne, hentry]
  obtain ⟨hheap₄, hpending₄⟩ := crtx_dict_unref_single hentry₃ hempty
  refine ⟨crtx_dict_unref v (crtx_dict_unref d s₂), ?_, ?_, ?_⟩
  · unfold reduceEntry
    rw [hsingle]
    dsimp only
    rw [dict_of_cell hd, dict_of_cell hv]
    simp only [Dict.item, keyDict, setItem, List.getElem?_cons_zero, Option.getD_some, List.set_cons_zero, he, if_true,
      hs₁, dict_of_cell hv₁, hs₂]
    rfl
  · rw [hheap₄, hheap₃, ← hs₂, ← hs₁]
    simp [St.setDict, Heap.put, Function.update_comm hne]
  · rw [hpending₄, hpending₃, ← hs₂, ← hs₁]
    rfl

theorem mirrors_collapsed {s s' s'' : St} {d v : DictId} {ds : List DictId} {text : CString} {w : Val} {e : Item}
    (he : (mirror false w).Repr s'.heap e ds) (hgrown : Grown [] s s' (d :: v :: ds))
    (hheap : s''.heap = (s'.heap.put d none).put v none) (hpending : s''.pending = s'.pending) :
    Mirrors false (.entry (.s text) (.variant w)) s { e with key := some text, flags := CRTX_DIF_ALLOCATED_KEY } s'' := by
  refine ⟨ds, ?_, ?_⟩
  · rw [mirror, if_neg (by decide)]
    refine (he.frame ?_).withKey text
    intro a ha
    have hnodup := hgrown.nodup
    simp only [List.nodup_cons, List.mem_cons, not_or] at hnodup
    have hav : a ≠ v := ne_of_mem_of_not_mem ha hnodup.2.1
    have had : a ≠ d := ne_of_mem_of_not_mem ha hnodup.1.2
    rw [hheap, Heap.put_cell, Function.update_of_ne hav, Heap.put_cell, Function.update_of_ne had]
  · have hone : Grown [] s { s' with heap := s'.heap.put d none } (v :: ds) := hgrown.free rfl rfl
    exact hone.free hheap hpending

theorem converts_reduced {At : σ → Vals → List Vals → Prop} (hbus : Faithful bus At) {text : CString} {w : Val}
    (hw : Converts bus false At (.variant w)) : Converts bus false At (.entry (.s text) (.variant w)) := by
  intro msg rest up s fuel hat hf hfuel
  simp only [Val.size] at hfuel
  obtain ⟨fuel, rfl⟩ : ∃ f, fuel = f + 3 := ⟨fuel - 3, by omega⟩
  refine next_enclosed hbus hat rfl ?_
  intro msg₁ hat₁
  generalize hs₁ : s.alloc ⟨0, ⟨none, 0, []⟩⟩ = s₁
  have hf₁ : s₁.heap.Fresh := by
    rw [← hs₁]
    exact Heap.fresh_alloc hf _
  have hd₁ : s₁.heap.cell s.heap.next = some ⟨0, ⟨none, 0, []⟩⟩ := by simp [← hs₁, St.alloc, Heap.alloc]
  -- the key
  obtain ⟨key, msg₂, hnext₁, hat₂, hkey⟩ := @next_basic _ _ false _ hbus _ _ _ _ hat₁ s₁ fuel
  rw [leafOf, Tree.Repr] at hkey
  obtain rfl : key = keyItem text := hkey.1
  have happend : appendItem (s₁.dict s.heap.next) (keyItem text) = keyDict text := by
    rw [dict_of_cell hd₁]
    rfl
  have hset := grown_setDict hf₁ hd₁ (keyDict text)
  have hd₂ := setDict_self hd₁ (keyDict text)
  generalize hs₂ : s₁.setDict s.heap.next (keyDict text) = s₂ at hset hd₂
  -- the variant
  obtain ⟨sub, s₃, msg₃, hnext₂, hat₃, ds, hrepr, hgrown⟩ :=
    hw msg₂ .nil (rest :: up) s₂ fuel hat₂ hset.fresh (by simp only [Val.size]; omega)
  have hlt := Heap.lt_next hset.fresh hd₂
  have hd₃ : s₃.heap.cell s.heap.next = some ⟨0, keyDict text⟩ := by rw [hgrown.old _ hlt List.not_mem_nil, hd₂]
  simp only [mirror, Tree.Repr, Trees.Repr] at hrepr
  obtain ⟨v, ds', l, rfl, rfl, hv, e, l', ds₁, ds₂, rfl, rfl, he, rfl, rfl⟩ := hrepr
  rw [List.append_nil] at hgrown
  have hvd : v ≠ s.heap.next := Nat.ne_of_gt (Nat.lt_of_lt_of_le hlt (hgrown.lt List.mem_cons_self).1)
  obtain ⟨s₄, hreduce, hheap, hpending⟩ := reduceEntry_collapses hvd hd₃ hv he.may_free
  refine ⟨_, s₄, msg₃, ?_, hat₃, mirrors_collapsed he ?_ hheap hpending⟩
  · rw [readContainer_append hbus hat₁ hnext₁ (by simp [dict_of_cell hd₁]), happend, hs₂,
      readContainer_reduce hbus hat₂ hnext₂ ⟨rfl, contents_entry text w, by rw [dict_of_cell hd₃]; rfl⟩, hreduce]
  · have hall := hset.trans (hgrown.mono [s.heap.next]) (by simpa using Heap.lt_next hf₁ hd₁)
    rw [← hs₁] at hall
    exact hall.container hd₃

/-! ## All values -/

theorem converts_of_size_le {At : σ → Vals → List Vals → Prop} (hbus : Faithful bus At) (n : Nat) :
    ∀ v : Val, v.size ≤ n → Converts bus no_reduce At v := by
  induction n with
  | zero =>
    intro v hn
    have := v.size_pos
    omega
  | succ n ih =>
    intro v hn
    cases hl : v.children with
    | none =>
      obtain ⟨b, rfl⟩ := Val.eq_basic hl
      intro msg rest up s fuel hat hf hfuel
      obtain ⟨fuel, rfl⟩ : ∃ f, fuel = f + 1 := ⟨fuel - 1, by simp only [Val.size] at hfuel; omega⟩
      obtain ⟨di, msg', hnext, hat', hrepr⟩ := @next_basic _ _ no_reduce _ hbus _ _ _ _ hat s fuel
      exact ⟨di, s, msg', hnext, hat', [], by rwa [mirror], grown_refl hf []⟩
    | some l =>
      by_cases hred : no_reduce = false ∧ v.contents = sv
      · obtain ⟨rfl, hcontents⟩ := hred
        obtain ⟨text, w, rfl⟩ := eq_entry_of_contents hcontents
        simp only [Val.size] at hn
        exact converts_reduced hbus (ih _ (by simp only [Val.size]; omega))
      · exact converts_container hbus ih hl hn hred

/-- For every value that is left in the message, the function returns 1, the message is behind the value, and the item
has what the value has. -/
theorem crtx_sdbus_next_to_dict_item_mirrors (bus : Cursor σ) (At : σ → Vals → List Vals → Prop) (hbus : Faithful bus At)
    (no_reduce : Bool) (v : Val) (msg : σ) (rest : Vals) (up : List Vals) (hat : At msg (.cons v rest) up) (s : St)
    (hf : s.heap.Fresh) (fuel : Nat) (hfuel : v.size ≤ fuel) :
    ∃ di s' msg', crtx_sdbus_next_to_dict_item bus no_reduce fuel msg .zero s = some (1, di, s', msg') ∧
      At msg' rest up ∧ Mirrors no_reduce v s di s' :=
  converts_of_size_le hbus v.size v (Nat.le_refl _) msg rest up s fuel hat hf hfuel

/-- `a{sv}` with a negative number and an array of two paths. -/
def properties : Val :=
  .array (.entry .s .variant)
    (.cons (.entry (.s keyA) (.variant (.basic (.n 0xfffe))))
      (.cons
        (.entry (.s keyB) (.variant (.array (.basic .o) (.cons (.basic (.o keyA)) (.cons (.basic (.o keyB)) .nil)))))
        .nil))

theorem crtx_sdbus_next_to_dict_item_mirrors_properties :
    ∃ di s' msg', crtx_sdbus_next_to_dict_item treeCursor false 40 (.cons properties .nil, []) .zero St.init =
        some (1, di, s', msg') ∧
      msg' = (.nil, []) ∧ Mirrors false properties St.init di s' :=
  crtx_sdbus_next_to_dict_item_mirrors treeCursor _ treeCursor_faithful false properties (.cons properties .nil, []) .nil
    [] rfl St.init Heap.fresh_empty 40 (by decide)

end Libcortex.SdbusItems
