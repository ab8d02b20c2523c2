import Libcortex.DictInvariant
import Libcortex.Lib.Lex

/-!
# Comparing items

`crtx_cmp_item` of `dict.c` compares the types of two items first and then their values. Nested dictionaries are
compared item by item, and one that ends earlier is the smaller one.
-/

open Libcortex.Lib

namespace Libcortex.Dicts

/-! ## The code -/

/-- The type as `memcmp` sees it. -/
def typeByte (di : Item) : Nat := (di.type.map Char.toNat).getD 0

def memcmp (a b : Nat) : Int := a - b

/-- The terminating zero is less than any other byte. -/
def strcmp : List UInt8 → List UInt8 → Int
  | [], [] => 0
  | [], b :: _ => -b.toNat
  | a :: _, [] => a.toNat
  | a :: as, b :: bs => if a = b then strcmp as bs else (a.toNat : Int) - b.toNat

def MY_CMP (a b : Int) : Int := if a < b then -1 else if b < a then 1 else 0

def uint32Of (di : Item) : Int := ((wordOf di).setWidth 32).toNat
def int32Of (di : Item) : Int := ((wordOf di).setWidth 32).toInt
def uint64Of (di : Item) : Int := (wordOf di).toNat
def int64Of (di : Item) : Int := (wordOf di).toInt

/-- `a->dict`. NULL has no first item, nor has a dictionary without items. -/
def nested (heap : DictId → Dict) (di : Item) : Dict :=
  match dictOf di with
  | some d => heap d
  | none => { signature := none, signature_length := 0, items := [] }

/-- The loop over two dictionaries. `none`: it was not done in time. -/
def cmpLoop (cmp : Item → Item → Option Int) (da db : Dict) : Nat → Option Nat → Option Nat → Option Int
  | 0, _, _ => none
  | fuel + 1, some ia, some ib =>
    match cmp (da.item ia) (db.item ib) with
    | none => none
    | some res =>
      if res ≠ 0 then some res
      else cmpLoop cmp da db fuel (crtx_get_next_item da ia) (crtx_get_next_item db ib)
  | _ + 1, none, none => some 0
  | _ + 1, none, some _ => some (-1)
  | _ + 1, some _, none => some 1

def cmpString (a b : Option CString) : Int :=
  match a, b with
  | none, _ => -1
  | some _, none => 1
  | some s, some t => strcmp s.1 t.1

/-- The `switch` over the type of both. -/
def cmpValue (heap : DictId → Dict) (cmp : Item → Item → Option Int) (a b : Item) : Option Int :=
  match a.type with
  | some 's' => some (cmpString (stringOf a) (stringOf b))
  | some 'u' => some (MY_CMP (uint32Of a) (uint32Of b))
  | some 'i' => some (MY_CMP (int32Of a) (int32Of b))
  | some 'U' => some (MY_CMP (uint64Of a) (uint64Of b))
  | some 'I' => some (MY_CMP (int64Of a) (int64Of b))
  | some 'D' =>
    let da := nested heap a
    let db := nested heap b
    -- The loop takes a step for each item, and one to see the end.
    cmpLoop cmp da db (da.signature_length.toNat + 2) (crtx_get_first_item da) (crtx_get_first_item db)
  | _ => some 1

/-- The number bounds how deep the dictionaries are nested. -/
def crtx_cmp_item (heap : DictId → Dict) : Nat → Item → Item → Option Int
  | 0, _, _ => none
  | fuel + 1, a, b =>
    let res := memcmp (typeByte a) (typeByte b)
    if res ≠ 0 then some res else cmpValue heap (crtx_cmp_item heap fuel) a b

/-! ## What has to hold -/

/-- A string that is not NULL, a number, or a well-formed dictionary of such items. At most `n` dictionaries are nested
in each other. -/
inductive Nests (heap : DictId → Dict) : Nat → Item → Prop where
  | string {n : Nat} {di : Item} {s : CString} (ht : di.type = some 's') (hv : di.value = .string (some s)) :
      Nests heap n di
  | number {n : Nat} {di : Item} {w : BitVec 64} (ht : di.type ∈ [some 'u', some 'i', some 'U', some 'I'])
      (hv : di.value = .word w) : Nests heap n di
  | dict {n : Nat} {di : Item} (ht : di.type = some 'D') (hr : Rep (nested heap di))
      (hall : ∀ x ∈ (nested heap di).items, Nests heap n x) : Nests heap (n + 1) di

def Comparable (heap : DictId → Dict) (di : Item) : Prop := ∃ n, Nests heap n di

abbrev ComparableItem (heap : DictId → Dict) := { di // Comparable heap di }

/-- What the call returns. -/
def Returns (heap : DictId → Dict) (a b : Item) (r : Int) : Prop :=
  ∃ n, ∀ fuel, n ≤ fuel → crtx_cmp_item heap fuel a b = some r

/-! ## Codes -/

def payload (heap : DictId → Dict) (c : Item → List Int) (di : Item) : List Int :=
  match di.type with
  | some 's' => ((stringOf di).elim [] fun s => s.1.map fun b => (b.toNat : Int)) ++ [0]
  | some 'u' => [uint32Of di]
  | some 'i' => [int32Of di]
  | some 'U' => [uint64Of di]
  | some 'I' => [int64Of di]
  | some 'D' => (nested heap di).items.flatMap c ++ [0]
  | _ => []

/-- The numbers that a comparison looks at, down to a depth of `n`. -/
def code (heap : DictId → Dict) : Nat → Item → List Int
  | 0, di => typeByte di :: payload heap (fun _ => []) di
  | n + 1, di => typeByte di :: payload heap (code heap n) di

/-- The codes of the items in a dictionary. -/
def inner (heap : DictId → Dict) : Nat → Item → List Int
  | 0 => fun _ => []
  | n + 1 => code heap n

theorem code_eq (heap : DictId → Dict) (n : Nat) (di : Item) :
    code heap n di = (typeByte di : Int) :: payload heap (inner heap n) di := by
  cases n <;> rfl

theorem memcmp_orders (a b : Item) (u : List Int) (h : memcmp (typeByte a) (typeByte b) ≠ 0) (v : List Int) :
    Orders (memcmp (typeByte a) (typeByte b)) ((typeByte a : Int) :: u) (typeByte b :: v) := by
  unfold memcmp at *
  rcases lt_or_gt_of_ne h with hn | hp
  · exact orders_of_lt hn (by omega) u v
  · exact orders_of_gt hp (by omega) u v

theorem my_cmp_orders (a b : Int) : Orders (MY_CMP a b) [a] [b] := by
  unfold MY_CMP
  rcases lt_trichotomy a b with hlt | heq | hgt
  · rw [if_pos hlt]
    exact orders_of_lt (by decide) hlt [] []
  · subst heq
    rw [if_neg (lt_irrefl a), if_neg (lt_irrefl a)]
    exact orders_refl [a]
  · rw [if_neg (lt_asymm hgt), if_pos hgt]
    exact orders_of_gt (by decide) hgt [] []

theorem strcmp_orders {s t : List UInt8} (hs : 0 ∉ s) (ht : 0 ∉ t) :
    Orders (strcmp s t) (s.map (fun b => (b.toNat : Int)) ++ [0]) (t.map (fun b => (b.toNat : Int)) ++ [0]) := by
  have hpos : ∀ b : UInt8, b ≠ 0 → (0 : Int) < b.toNat := by
    intro b hb
    have : b.toNat ≠ 0 := fun h => hb (UInt8.toNat_inj.mp h)
    omega
  induction s generalizing t with
  | nil =>
    cases t with
    | nil => exact orders_refl [0]
    | cons b t =>
      have hb := hpos b (List.ne_of_not_mem_cons ht).symm
      exact orders_of_lt (by unfold strcmp; omega) hb [] _
  | cons a s ih =>
    have ha := hpos a (List.ne_of_not_mem_cons hs).symm
    cases t with
    | nil => exact orders_of_gt (by unfold strcmp; omega) ha _ []
    | cons b t =>
      unfold strcmp
      split
      next hab =>
        subst hab
        exact (ih (List.not_mem_of_not_mem_cons hs) (List.not_mem_of_not_mem_cons ht)).cons _
      next hab =>
        have hne : a.toNat ≠ b.toNat := fun h => hab (UInt8.toNat_inj.mp h)
        rcases lt_or_gt_of_ne hne with hlt | hgt
        · exact orders_of_lt (by omega) (Int.ofNat_lt.mpr hlt) _ _
        · exact orders_of_gt (by omega) (Int.ofNat_lt.mpr hgt) _ _

/-! ## Items -/

section Depth

variable {heap : DictId → Dict} {n : Nat} {di : Item}

theorem Nests.mono {m : Nat} (h : Nests heap n di) (hnm : n ≤ m) : Nests heap m di := by
  induction h generalizing m with
  | string ht hv => exact .string ht hv
  | number ht hv => exact .number ht hv
  | dict ht hr _ ih =>
    obtain ⟨k, rfl⟩ : ∃ k, m = k + 1 := ⟨m - 1, by omega⟩
    exact .dict ht hr fun x hx => ih x hx (by omega)

theorem Nests.typeByte_pos (h : Nests heap n di) : 0 < typeByte di := by
  unfold typeByte
  cases h with
  | string ht | dict ht => simp [ht]
  | number ht =>
    simp only [List.mem_cons, List.not_mem_nil, or_false] at ht
    rcases ht with ht | ht | ht | ht <;> simp [ht]

theorem type_eq_of_byte {a b : Item} (h : typeByte a = typeByte b) (hpos : 0 < typeByte a) : a.type = b.type := by
  unfold typeByte at *
  cases ha : a.type with
  | none => simp [ha] at hpos
  | some c =>
    cases hb : b.type with
    | none =>
      rw [ha, hb] at h
      rw [ha] at hpos
      simp at h hpos
      omega
    | some c' =>
      rw [ha, hb] at h
      exact congrArg some (Char.toNat_inj.mp h)

end Depth

/-! ## The loop -/

/-- The pointer to the `k`-th item, or NULL behind the last. -/
def itemAt (d : Dict) (k : Nat) : Option Nat := if k < d.items.length then some k else none

theorem next_itemAt {d : Dict} (hr : Rep d) (k : Nat) : crtx_get_next_item d k = itemAt d (k + 1) := next_item hr k

theorem first_itemAt (d : Dict) : crtx_get_first_item d = itemAt d 0 := by
  unfold crtx_get_first_item itemAt
  cases h : d.items <;> simp

theorem drop_item {d : Dict} {k : Nat} (h : k < d.items.length) :
    d.items.drop k = d.item k :: d.items.drop (k + 1) := by
  rw [item_getElem h, List.drop_eq_getElem_cons h]

theorem item_mem {d : Dict} {k : Nat} (h : k < d.items.length) : d.item k ∈ d.items := by
  rw [item_getElem h]
  exact List.getElem_mem h

/-- The items from the `k`-th on, and the end. -/
def codeFrom (c : Item → List Int) (d : Dict) (k : Nat) : List Int := (d.items.drop k).flatMap c ++ [0]

theorem codeFrom_item (c : Item → List Int) {d : Dict} {k : Nat} (h : k < d.items.length) :
    codeFrom c d k = c (d.item k) ++ codeFrom c d (k + 1) := by
  unfold codeFrom
  rw [drop_item h, List.flatMap_cons, List.append_assoc]

theorem codeFrom_end (c : Item → List Int) {d : Dict} {k : Nat} (h : ¬ k < d.items.length) :
    codeFrom c d k = [0] := by
  unfold codeFrom
  rw [List.drop_eq_nil_of_le (Nat.le_of_not_lt h)]
  rfl

/-- No code starts like the end. -/
def Starts (u : List Int) : Prop := ∃ a v, u = a :: v ∧ 0 < a

theorem codeFrom_starts {c : Item → List Int} {d : Dict} (hc : ∀ x ∈ d.items, Starts (c x)) {k : Nat}
    (h : k < d.items.length) : Starts (codeFrom c d k) := by
  obtain ⟨a, u, hu, ha⟩ := hc _ (item_mem h)
  exact ⟨a, u ++ codeFrom c d (k + 1), by rw [codeFrom_item c h, hu, List.cons_append], ha⟩

theorem end_orders {u : List Int} (h : Starts u) : Orders (-1) [0] u := by
  obtain ⟨a, v, rfl, ha⟩ := h
  exact orders_of_lt (by decide) ha [] v

theorem cmpLoop_orders {cmp : Item → Item → Option Int} {c : Item → List Int} {da db : Dict} (ha : Rep da) (hb : Rep db)
    (hcmp : ∀ x ∈ da.items, ∀ y ∈ db.items, ∃ r, cmp x y = some r ∧ Orders r (c x) (c y))
    (hca : ∀ x ∈ da.items, Starts (c x)) (hcb : ∀ y ∈ db.items, Starts (c y)) (fuel k : Nat)
    (hk : k ≤ da.items.length) (hfuel : da.items.length < k + fuel) :
    ∃ r, cmpLoop cmp da db fuel (itemAt da k) (itemAt db k) = some r ∧
      Orders r (codeFrom c da k) (codeFrom c db k) := by
  induction fuel generalizing k with
  | zero => omega
  | succ fuel ih =>
    by_cases hka : k < da.items.length <;> by_cases hkb : k < db.items.length
    · obtain ⟨r, hr, hord⟩ := hcmp _ (item_mem hka) _ (item_mem hkb)
      rw [itemAt, itemAt, if_pos hka, if_pos hkb, cmpLoop, hr, codeFrom_item c hka, codeFrom_item c hkb]
      by_cases hz : r = 0
      · obtain ⟨r', hr', hord'⟩ := ih (k + 1) hka (by omega)
        refine ⟨r', ?_, ?_⟩
        · dsimp only
          rw [if_neg (not_not.mpr hz), next_itemAt ha, next_itemAt hb]
          exact hr'
        · rw [hord.eq hz]
          exact hord'.append_left _
      · exact ⟨r, if_pos hz, hord.append hz _ _⟩
    · rw [itemAt, itemAt, if_pos hka, if_neg hkb, codeFrom_end c hkb]
      exact ⟨1, rfl, (end_orders (codeFrom_starts hca hka)).swap⟩
    · rw [itemAt, itemAt, if_neg hka, if_pos hkb, codeFrom_end c hka]
      exact ⟨-1, rfl, end_orders (codeFrom_starts hcb hkb)⟩
    · rw [itemAt, itemAt, if_neg hka, if_neg hkb, codeFrom_end c hka, codeFrom_end c hkb]
      exact ⟨0, rfl, orders_refl [0]⟩

/-! ## Any two items -/

section Laws

variable {heap : DictId → Dict}

theorem Nests.starts {n : Nat} {di : Item} (h : Nests heap n di) : Starts (code heap n di) :=
  ⟨typeByte di, _, code_eq heap n di, Int.natCast_pos.mpr h.typeByte_pos⟩

theorem Nests.string_value {n : Nat} {di : Item} (h : Nests heap n di) (ht : di.type = some 's') :
    ∃ s, di.value = .string (some s) := by
  cases h with
  | string _ hv => exact ⟨_, hv⟩
  | number ht' => simp [ht] at ht'
  | dict ht' => simp [ht] at ht'

theorem Nests.dict_items {n : Nat} {di : Item} (h : Nests heap (n + 1) di) (ht : di.type = some 'D') :
    Rep (nested heap di) ∧ ∀ x ∈ (nested heap di).items, Nests heap n x := by
  cases h with
  | string ht' => simp [ht] at ht'
  | number ht' => simp [ht] at ht'
  | dict _ hr hall => exact ⟨hr, hall⟩

theorem string_orders {cmp : Item → Item → Option Int} {a b : Item} {s t : CString} (hta : a.type = some 's')
    (htb : b.type = some 's') (hva : a.value = .string (some s)) (hvb : b.value = .string (some t))
    (c : Item → List Int) :
    ∃ r, cmpValue heap cmp a b = some r ∧ Orders r (payload heap c a) (payload heap c b) := by
  simp only [cmpValue, payload, hta, htb, stringOf, hva, hvb]
  exact ⟨_, rfl, strcmp_orders s.2 t.2⟩

theorem number_orders {cmp : Item → Item → Option Int} {a b : Item}
    (hta : a.type ∈ [some 'u', some 'i', some 'U', some 'I']) (htb : b.type = a.type) (c : Item → List Int) :
    ∃ r, cmpValue heap cmp a b = some r ∧ Orders r (payload heap c a) (payload heap c b) := by
  simp only [List.mem_cons, List.not_mem_nil, or_false] at hta
  rcases hta with h | h | h | h
  all_goals
    simp only [cmpValue, payload, htb, h]
    exact ⟨_, rfl, my_cmp_orders _ _⟩

theorem dict_orders {cmp : Item → Item → Option Int} {c : Item → List Int} {a b : Item} (hta : a.type = some 'D')
    (htb : b.type = some 'D') (ha : Rep (nested heap a)) (hb : Rep (nested heap b))
    (hcmp : ∀ x ∈ (nested heap a).items, ∀ y ∈ (nested heap b).items, ∃ r, cmp x y = some r ∧ Orders r (c x) (c y))
    (hca : ∀ x ∈ (nested heap a).items, Starts (c x)) (hcb : ∀ y ∈ (nested heap b).items, Starts (c y)) :
    ∃ r, cmpValue heap cmp a b = some r ∧ Orders r (payload heap c a) (payload heap c b) := by
  simp only [cmpValue, payload, hta, htb]
  rw [first_itemAt, first_itemAt]
  have hlen := ha.length
  exact cmpLoop_orders ha hb hcmp hca hcb _ 0 (Nat.zero_le _) (by omega)

theorem value_orders {cmp : Item → Item → Option Int} {n : Nat} {a b : Item} (ha : Nests heap n a)
    (hb : Nests heap n b) (htype : b.type = a.type)
    (hcmp : ∀ m < n, ∀ x y, Nests heap m x → Nests heap m y →
      ∃ r, cmp x y = some r ∧ Orders r (code heap m x) (code heap m y)) :
    ∃ r, cmpValue heap cmp a b = some r ∧
      Orders r (payload heap (inner heap n) a) (payload heap (inner heap n) b) := by
  cases ha with
  | string ht hva =>
    obtain ⟨t, hvb⟩ := hb.string_value (htype.trans ht)
    exact string_orders ht (htype.trans ht) hva hvb _
  | number ht => exact number_orders ht htype _
  | @dict m _ ht hra halla =>
    obtain ⟨hrb, hallb⟩ := hb.dict_items (htype.trans ht)
    exact dict_orders ht (htype.trans ht) hra hrb
      (fun x hx y hy => hcmp m (Nat.lt_succ_self m) x y (halla x hx) (hallb y hy))
      (fun x hx => (halla x hx).starts) (fun y hy => (hallb y hy).starts)

theorem cmp_item_orders {fuel n : Nat} {a b : Item} (ha : Nests heap n a) (hb : Nests heap n b) (hfuel : n < fuel) :
    ∃ r, crtx_cmp_item heap fuel a b = some r ∧ Orders r (code heap n a) (code heap n b) := by
  induction fuel generalizing n a b with
  | zero => omega
  | succ fuel ih =>
    rw [crtx_cmp_item, code_eq, code_eq]
    by_cases hbyte : memcmp (typeByte a) (typeByte b) = 0
    · have heq : typeByte a = typeByte b := by
        unfold memcmp at hbyte
        omega
      have htype := type_eq_of_byte heq ha.typeByte_pos
      obtain ⟨r, hr, hord⟩ := value_orders ha hb htype.symm fun m hm x y hx hy => ih hx hy (by omega)
      refine ⟨r, ?_, ?_⟩
      · rw [if_neg (not_not.mpr hbyte)]
        exact hr
      · rw [heq]
        exact hord.cons _
    · exact ⟨_, if_pos hbyte, memcmp_orders a b _ hbyte _⟩

end Laws

/-! ## Any depth -/

section Fuel

variable {heap : DictId → Dict}

theorem cmpLoop_mono {cmp cmp' : Item → Item → Option Int} (h : ∀ x y r, cmp x y = some r → cmp' x y = some r)
    (da db : Dict) {fuel : Nat} {ia ib : Option Nat} {r : Int} (hr : cmpLoop cmp da db fuel ia ib = some r) :
    cmpLoop cmp' da db fuel ia ib = some r := by
  induction fuel generalizing ia ib with
  | zero => exact absurd hr (by simp [cmpLoop])
  | succ fuel ih =>
    cases ia with
    | none => cases ib <;> exact hr
    | some i =>
      cases ib with
      | none => exact hr
      | some j =>
        rw [cmpLoop] at hr ⊢
        cases hc : cmp (da.item i) (db.item j) with
        | none => simp [hc] at hr
        | some res =>
          rw [hc] at hr
          rw [h _ _ _ hc]
          dsimp only at hr ⊢
          split at hr
          next hz => rw [if_pos hz, hr]
          next hz => rw [if_neg hz, ih hr]

theorem cmpValue_mono {cmp cmp' : Item → Item → Option Int} (h : ∀ x y r, cmp x y = some r → cmp' x y = some r)
    {a b : Item} {r : Int} (hr : cmpValue heap cmp a b = some r) : cmpValue heap cmp' a b = some r := by
  unfold cmpValue at hr ⊢
  split at hr
  case h_6 => exact cmpLoop_mono h _ _ hr
  all_goals exact hr

theorem cmp_item_mono {n fuel : Nat} (hfuel : n ≤ fuel) {a b : Item} {r : Int}
    (hr : crtx_cmp_item heap n a b = some r) : crtx_cmp_item heap fuel a b = some r := by
  induction n generalizing fuel a b r with
  | zero => exact absurd hr (by simp [crtx_cmp_item])
  | succ n ih =>
    obtain ⟨fuel, rfl⟩ : ∃ k, fuel = k + 1 := ⟨fuel - 1, by omega⟩
    rw [crtx_cmp_item] at hr ⊢
    split at hr
    next hz => rw [if_pos hz, hr]
    next hz =>
      rw [if_neg hz]
      exact cmpValue_mono (fun x y r => ih (by omega)) hr

theorem Returns.orders {n : Nat} {a b : Item} {r : Int} (h : Returns heap a b r) (ha : Nests heap n a)
    (hb : Nests heap n b) : Orders r (code heap n a) (code heap n b) := by
  obtain ⟨m, hm⟩ := h
  obtain ⟨r', hr', hord⟩ := cmp_item_orders ha hb (show n < max m (n + 1) by omega)
  rw [hm _ (le_max_left _ _)] at hr'
  exact Option.some.inj hr' ▸ hord

theorem Comparable.common {a b : Item} (ha : Comparable heap a) (hb : Comparable heap b) :
    ∃ n, Nests heap n a ∧ Nests heap n b := by
  obtain ⟨n, hn⟩ := ha
  obtain ⟨m, hm⟩ := hb
  exact ⟨max n m, hn.mono (le_max_left _ _), hm.mono (le_max_right _ _)⟩

theorem cmp_item_returns {a b : Item} (ha : Comparable heap a) (hb : Comparable heap b) :
    ∃ r, Returns heap a b r := by
  obtain ⟨n, hna, hnb⟩ := ha.common hb
  obtain ⟨r, hr, -⟩ := cmp_item_orders hna hnb (Nat.lt_succ_self n)
  exact ⟨r, n + 1, fun fuel hfuel => cmp_item_mono hfuel hr⟩

end Fuel

theorem cmp_item_preorder (heap : DictId → Dict) :
    ∃ cmp : ComparableItem heap → ComparableItem heap → Int,
      (∀ a b : ComparableItem heap, Returns heap a b (cmp a b)) ∧
        (∀ a, cmp a a = 0) ∧
        (∀ a b, (cmp b a).sign = -(cmp a b).sign) ∧
        ∀ a b c, cmp a b ≤ 0 → cmp b c ≤ 0 → cmp a c ≤ 0 := by
  choose cmp hcmp using fun a b : ComparableItem heap => cmp_item_returns a.2 b.2
  refine ⟨cmp, hcmp, fun a => ?_, fun a b => ?_, fun a b c hab hbc => ?_⟩
  · obtain ⟨n, hn⟩ := a.2
    exact ((hcmp a a).orders hn hn).eq_zero
  · obtain ⟨n, ha, hb⟩ := a.2.common b.2
    exact ((hcmp a b).orders ha hb).sign_swap ((hcmp b a).orders hb ha)
  · obtain ⟨n, ha, hb⟩ := a.2.common b.2
    obtain ⟨m, hc⟩ := c.2
    have ha' := ha.mono (le_max_left n m)
    have hb' := hb.mono (le_max_left n m)
    have hc' := hc.mono (le_max_right n m)
    exact ((hcmp a b).orders ha' hb').trans ((hcmp b c).orders hb' hc') ((hcmp a c).orders ha' hc') hab hbc

end Libcortex.Dicts
