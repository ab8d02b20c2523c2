import Mathlib.Data.Option.Basic
import Libcortex.DictBuild

/-!
# Devices as dictionaries

`udev.c` makes a dictionary of a device. A table of requests names subsystems and types, and for each of them a device
is looked for among the device itself and its parents. A device that has been found is where the search for the next
request begins.
-/

namespace Libcortex.UdevDict

open Dicts DictBuild

/-! ## The code -/

/-- A `struct udev_device`, as the functions of libudev show it. -/
structure Device where
  syspath : Option CString
  devnode : Option CString
  subsystem : Option CString
  devtype : Option CString
  action : Option CString
  sysattr : CString → Option CString
  property : CString → Option CString
  properties : List (CString × Option CString)

/-- `udev_device_get_parent_with_subsystem_devtype`, for a device and its parents. The result has its own parents. -/
structure Udev where
  parent_with : Device → List Device → Option CString → Option CString → Option (Device × List Device)

/-- `struct crtx_udev_raw2dict_attr_req` -/
structure Request where
  subsystem : Option CString
  device_type : Option CString
  attributes : List CString

/-- The last request of a table. -/
def Request.isEnd (i : Request) : Bool := i.subsystem.isNone && i.device_type.isNone

def flagsFor (make_persistent : Bool) : BitVec 8 :=
  if make_persistent then CRTX_DIF_CREATE_DATA_COPY else CRTX_DIF_DONT_FREE_DATA

def valueArgs (flags : BitVec 8) (value : CString) : Args :=
  ⟨.string (some value), BitVec.ofNat 64 value.1.length, flags.setWidth 32⟩

/-- `none`: one of the strings is NULL. -/
def strcmp (a : Option CString) (b : CString) : Option Bool := a.map (· ≠ b)

/-- The condition under which another device is looked for. -/
def differs (dev : Device) (i : Request) : Option Bool :=
  (match i.subsystem with
    | some subsystem => strcmp dev.subsystem subsystem
    | none => some false).bind fun other =>
    if other then some true
    else
      match i.device_type with
      | some device_type => strcmp dev.devtype device_type
      | none => some false

def addValue (flags : BitVec 8) (key : CString) (value : Option CString) (b : Build) : Build :=
  match value with
  | some value => b.add 's' (some key) (valueArgs flags value)
  | none => b

/-- The loop over the attributes of a request. -/
def addAttributes (flags : BitVec 8) (dev : Device) (attributes : List CString) (d : Dict) : Dict :=
  attributes.foldl (fun d a =>
    match dev.sysattr a with
    | some value => (crtx_dict_new_item d (some 's') (some a) (valueArgs flags value)).1
    | none =>
      match dev.property a with
      | some value => (crtx_dict_new_item d (some 's') (some a) (valueArgs flags value)).1
      | none => d) d

/-- `%s-%s` -/
def requestKey (i : Request) : CString :=
  ⟨(i.subsystem.elim [] (·.1)) ++ 45 :: (i.device_type.elim [] (·.1)), by
    have h : ∀ o : Option CString, 0 ∉ o.elim [] (·.1) := by
      intro o
      cases o with
      | none => simp
      | some s => exact s.2
    simp [h]⟩

/-- The loop over the requests. `none`: a NULL pointer is followed, or there is no end of it. -/
def requestLoop (u : Udev) (flags : BitVec 8) : Nat → List Request → Device → List Device → Build → Option Build
  | 0, _, _, _, _ => none
  | _ + 1, [], _, _, b => some b
  | fuel + 1, i :: requests, dev, parents, b =>
    if i.isEnd then some b
    else
      (differs dev i).bind fun other =>
        if other then
          match u.parent_with dev parents i.subsystem i.device_type with
          | some (dev, parents) => requestLoop u flags fuel (i :: requests) dev parents b
          | none => requestLoop u flags fuel requests dev parents b
        else
          let (b, di) := b.alloc
          requestLoop u flags fuel requests dev parents
            (b.assignWith di (requestKey i) CRTX_DIF_ALLOCATED_KEY
              (addAttributes flags dev i.attributes (crtx_init_dict none 0)))

/-- The loop over the properties. An item is taken for each of them. -/
def propertyLoop (flags : BitVec 8) (properties : List (CString × Option CString)) (b : Build) : Build :=
  properties.foldl (fun b (key, value) =>
    let (b, di) := b.alloc
    match value with
    | some value => b.fill di 's' (some key) (valueArgs flags value)
    | none => b) b

/-- Without requests, all properties are taken. -/
def crtx_udev_raw2dict (u : Udev) (dev : Device) (parents : List Device) (r2ds : Option (List Request))
    (make_persistent : Bool) : Option Build :=
  let flags := flagsFor make_persistent
  let b := addValue flags (text "SYSPATH") dev.syspath .empty
  let requests := r2ds.getD []
  if requests.head?.any fun i => !i.isEnd then
    let b := addValue flags (text "NODE") dev.devnode b
    let b := addValue flags (text "SUBSYSTEM") dev.subsystem b
    let b := addValue flags (text "DEVTYPE") dev.devtype b
    let b := addValue flags (text "ACTION") (some (dev.action.getD (text "initial"))) b
    requestLoop u flags (parents.length + requests.length + 1) requests dev parents b
  else
    let b := if dev.action.isNone then addValue flags (text "ACTION") (some (text "initial")) b else b
    some (propertyLoop flags dev.properties b)

/-! ## What has to hold -/

def Matches (i : Request) (dev : Device) : Prop :=
  (∀ s ∈ i.subsystem, dev.subsystem = some s) ∧ ∀ t ∈ i.device_type, dev.devtype = some t

instance (i : Request) (dev : Device) : Decidable (Matches i dev) := inferInstanceAs (Decidable (_ ∧ _))

/-- What has to be compared is there. The types are only compared if the subsystems are the same. -/
def Comparable (i : Request) (dev : Device) : Prop :=
  (i.subsystem ≠ none → dev.subsystem ≠ none) ∧
    ((∀ s ∈ i.subsystem, dev.subsystem = some s) → i.device_type ≠ none → dev.devtype ≠ none)

instance (i : Request) (dev : Device) : Decidable (Comparable i dev) := inferInstanceAs (Decidable (_ ∧ (_ → _ → _)))

/-- The nearest parent that a request is about. -/
def ancestor (i : Request) : List Device → Option (Device × List Device)
  | [] => none
  | p :: parents => if Matches i p then some (p, parents) else ancestor i parents

/-- What the documentation of libudev says, for a subsystem that is given. -/
def Documented (u : Udev) : Prop :=
  ∀ dev parents (i : Request), i.subsystem ≠ none →
    u.parent_with dev parents i.subsystem i.device_type = ancestor i parents

def valueField (persistent : Bool) (key value : CString) : Item :=
  ⟨some 's', if persistent then 0 else CRTX_DIF_DONT_FREE_DATA, some key, BitVec.ofNat 64 value.1.length,
    .string (some value)⟩

/-- A value, if there is one. -/
def valueFields (persistent : Bool) (key : CString) (value : Option CString) : List Field :=
  (value.map fun v => Field.item (valueField persistent key v)).toList

/-- The attributes of a device, or else its properties. -/
def attributeItems (persistent : Bool) (dev : Device) (attributes : List CString) : List Item :=
  attributes.filterMap fun a => ((dev.sysattr a).or (dev.property a)).map (valueField persistent a)

/-- The dictionaries for the requests. A request that no device meets has none. `none`: it can't be decided. -/
def requestFields (persistent : Bool) : List Request → Device → List Device → Option (List Field)
  | [], _, _ => some []
  | i :: requests, dev, parents =>
    if i.isEnd then some []
    else if Comparable i dev then
      match if Matches i dev then some (dev, parents) else ancestor i parents with
      | some (dev, parents) =>
        (requestFields persistent requests dev parents).map fun fields =>
          .nested CRTX_DIF_ALLOCATED_KEY (requestKey i) (attributeItems persistent dev i.attributes) :: fields
      | none => requestFields persistent requests dev parents
    else none

def deviceFields (persistent : Bool) (dev : Device) : List Field :=
  valueFields persistent (text "SYSPATH") dev.syspath ++ valueFields persistent (text "NODE") dev.devnode ++
    valueFields persistent (text "SUBSYSTEM") dev.subsystem ++ valueFields persistent (text "DEVTYPE") dev.devtype ++
    valueFields persistent (text "ACTION") (some (dev.action.getD (text "initial")))

def propertyFields (persistent : Bool) (dev : Device) : List Field :=
  valueFields persistent (text "SYSPATH") dev.syspath ++
    (if dev.action.isNone then valueFields persistent (text "ACTION") (some (text "initial")) else []) ++
    dev.properties.flatMap fun x => valueFields persistent x.1 x.2

/-- The fields of the dictionary of a device. -/
def meaning (dev : Device) (parents : List Device) (requests : List Request) (persistent : Bool) :
    Option (List Field) :=
  if requests.head?.any fun i => !i.isEnd then
    (requestFields persistent requests dev parents).map fun fields => deviceFields persistent dev ++ fields
  else some (propertyFields persistent dev)

/-- Only the end of the table has no subsystem. -/
def Named (requests : List Request) : Prop := ∀ i ∈ requests, i.subsystem = none → i.device_type = none

/-! ## Values -/

variable {fields : List Field} {b : Build}

theorem flagsFor_width (persistent : Bool) : ((flagsFor persistent).setWidth 32).setWidth 8 = flagsFor persistent := by
  cases persistent <;> decide

theorem value_plain (persistent : Bool) (value : CString) : Plain 's' (valueArgs (flagsFor persistent) value) := by
  refine ⟨rfl, rfl, ?_⟩
  show ((flagsFor persistent).setWidth 32).setWidth 8 &&& CRTX_DIF_LAST_ITEM = 0
  cases persistent <;> decide

theorem fresh_value (persistent : Bool) (key value : CString) :
    freshItem 's' (some key) (valueArgs (flagsFor persistent) value) = valueField persistent key value := by
  have hflags : (valueArgs (flagsFor persistent) value).flags.setWidth 8 = flagsFor persistent :=
    flagsFor_width persistent
  unfold freshItem
  have hitem : (valueArgs (flagsFor persistent) value).item 's' (some key) (flagsFor persistent) =
      ⟨some 's', flagsFor persistent, some key, BitVec.ofNat 64 value.1.length, .string (some value)⟩ := rfl
  rw [hflags, hitem]
  cases persistent <;> simp [copyData, copyKey, flagsFor, valueField, strlen, CRTX_DIF_DONT_FREE_DATA,
    CRTX_DIF_CREATE_DATA_COPY, CRTX_DIF_CREATE_KEY_COPY]

theorem filled_addValue (h : Filled fields b) (hlt : fields.length + 1 < 2 ^ 32) (persistent : Bool) (key : CString)
    (value : Option CString) :
    Filled (fields ++ valueFields persistent key value) (addValue (flagsFor persistent) key value b) := by
  cases value with
  | none => simpa [valueFields, addValue] using h
  | some v =>
    have hadd := Ready.add (.inl h) hlt (value_plain persistent v) (some key)
    rwa [fresh_value] at hadd

theorem length_valueFields (persistent : Bool) (key : CString) (value : Option CString) :
    (valueFields persistent key value).length ≤ 1 := by
  cases value <;> simp [valueFields]

theorem addAttributes_spec (persistent : Bool) (dev : Device) (attributes : List CString) :
    ∀ {items : List Item} {d : Dict}, Listed items d → items.length + attributes.length < 2 ^ 32 →
      Listed (items ++ attributeItems persistent dev attributes)
        (addAttributes (flagsFor persistent) dev attributes d) := by
  induction attributes with
  | nil =>
    intro items d h _
    simpa [attributeItems, addAttributes] using h
  | cons a attributes ih =>
    intro items d h hlt
    rw [List.length_cons] at hlt
    have happend : ∀ value : CString, Listed (items ++ [valueField persistent a value])
        (crtx_dict_new_item d (some 's') (some a) (valueArgs (flagsFor persistent) value)).1 := by
      intro value
      obtain ⟨d', hd', h'⟩ := h.append (by omega) (value_plain persistent value) (some a)
      rw [hd', ← fresh_value]
      exact h'
    have hmore : ∀ value : CString, (items ++ [valueField persistent a value]).length + attributes.length < 2 ^ 32 := by
      intro value
      rw [List.length_append, List.length_singleton]
      omega
    unfold addAttributes attributeItems at *
    rw [List.foldl_cons, List.filterMap_cons]
    cases hattr : dev.sysattr a with
    | some value => simpa [hattr] using ih (happend value) (hmore value)
    | none =>
      cases hprop : dev.property a with
      | some value => simpa [hattr, hprop] using ih (happend value) (hmore value)
      | none => simpa [hattr, hprop] using ih h (by omega)

/-! ## Requests -/

theorem isEnd_of_subsystem {i : Request} (h : i.subsystem ≠ none) : i.isEnd = false := by
  unfold Request.isEnd
  cases hs : i.subsystem with
  | none => exact absurd hs h
  | some s => rfl

theorem subsystem_of_named {i : Request} (h : i.subsystem = none → i.device_type = none) (hend : ¬ i.isEnd) :
    i.subsystem ≠ none := by
  intro hs
  apply hend
  simp [Request.isEnd, hs, h hs]

theorem differs_eq (i : Request) (dev : Device) :
    differs dev i = if Comparable i dev then some (decide (¬ Matches i dev)) else none := by
  obtain ⟨subsystem, device_type, attributes⟩ := i
  obtain ⟨syspath, devnode, dev_subsystem, devtype, action, sysattr, property, properties⟩ := dev
  unfold differs Comparable Matches
  cases subsystem with
  | none =>
    cases device_type with
    | none => simp
    | some t => cases devtype <;> simp [strcmp]
  | some s =>
    cases dev_subsystem with
    | none => simp [strcmp]
    | some s' =>
      by_cases heq : s' = s
      · cases device_type with
        | none => simp [strcmp, heq]
        | some t => cases devtype <;> simp [strcmp, heq]
      · simp [strcmp, heq]

theorem comparable_of_matches {i : Request} {dev : Device} (h : Matches i dev) : Comparable i dev := by
  obtain ⟨hs, ht⟩ := h
  refine ⟨fun hne => ?_, fun _ hne => ?_⟩
  · obtain ⟨s, hsome⟩ := Option.ne_none_iff_exists'.mp hne
    simp [hs s hsome]
  · obtain ⟨t, hsome⟩ := Option.ne_none_iff_exists'.mp hne
    simp [ht t hsome]

theorem ancestor_spec (i : Request) {parents : List Device} {r : Device × List Device}
    (h : ancestor i parents = some r) : Matches i r.1 ∧ r.2.length < parents.length := by
  induction parents with
  | nil => cases h
  | cons p parents ih =>
    rw [ancestor] at h
    split at h
    · obtain rfl := Option.some.inj h
      exact ⟨‹_›, by simp⟩
    · obtain ⟨hm, hlt⟩ := ih h
      exact ⟨hm, by simp; omega⟩

section

variable {u : Udev} (hu : Documented u) (persistent : Bool)

theorem requestLoop_match {i : Request} (hsub : i.subsystem ≠ none) {dev : Device} (hm : Matches i dev) (fuel : Nat)
    (requests : List Request) (parents : List Device) (h : Ready fields b) (hlt : fields.length + 1 < 2 ^ 32)
    (hattrs : i.attributes.length < 2 ^ 32) :
    ∃ b', requestLoop u (flagsFor persistent) (fuel + 1) (i :: requests) dev parents b =
        requestLoop u (flagsFor persistent) fuel requests dev parents b' ∧
      Filled (fields ++ [.nested CRTX_DIF_ALLOCATED_KEY (requestKey i) (attributeItems persistent dev i.attributes)])
        b' := by
  obtain ⟨b₁, halloc, hspare⟩ := h.alloc hlt
  have hlisted := addAttributes_spec persistent dev i.attributes listed_init (by simpa using hattrs)
  rw [List.nil_append] at hlisted
  refine ⟨_, ?_, hspare.assignWith (requestKey i) (by decide) (Contains.of_listed hlisted)⟩
  rw [requestLoop, isEnd_of_subsystem hsub, differs_eq, if_pos (comparable_of_matches hm)]
  simp [hm, halloc]

include hu

theorem requestLoop_spec (requests : List Request) (hnamed : Named requests)
    (hattrs : ∀ i ∈ requests, i.attributes.length < 2 ^ 32) :
    ∀ {fields : List Field} {b : Build} (dev : Device) (parents : List Device) (fuel : Nat), Filled fields b →
      parents.length + requests.length < fuel → fields.length + requests.length < 2 ^ 32 →
      Option.Rel (fun b more => Filled (fields ++ more) b)
        (requestLoop u (flagsFor persistent) fuel requests dev parents b)
        (requestFields persistent requests dev parents) := by
  induction requests with
  | nil =>
    intro fields b dev parents fuel h hfuel _
    obtain ⟨fuel, rfl⟩ : ∃ n, fuel = n + 1 := ⟨fuel - 1, by omega⟩
    exact .some (by simpa using h)
  | cons i requests ih =>
    intro fields b dev parents fuel h hfuel hlt
    rw [Named, List.forall_mem_cons] at hnamed
    rw [List.forall_mem_cons] at hattrs
    rw [List.length_cons] at hfuel hlt
    obtain ⟨fuel, rfl⟩ : ∃ n, fuel = n + 1 := ⟨fuel - 1, by omega⟩
    rw [requestFields]
    by_cases hend : i.isEnd
    · rw [if_pos hend, requestLoop, if_pos hend]
      exact .some (by simpa using h)
    have hsub := subsystem_of_named hnamed.1 hend
    rw [if_neg hend]
    -- What follows once a device has been found.
    have hfound : ∀ (dev : Device) (parents : List Device) (n : Nat), Matches i dev →
        parents.length + requests.length < n → Option.Rel (fun b more => Filled (fields ++ more) b)
          (requestLoop u (flagsFor persistent) (n + 1) (i :: requests) dev parents b)
          ((requestFields persistent requests dev parents).map fun more =>
            .nested CRTX_DIF_ALLOCATED_KEY (requestKey i) (attributeItems persistent dev i.attributes) :: more) := by
      intro dev parents n hm hn
      obtain ⟨b', hloop, hfilled⟩ := requestLoop_match (u := u) persistent hsub hm n requests parents (.inl h)
        (by omega) hattrs.1
      have hrest := ih hnamed.2 hattrs.2 dev parents n hfilled hn (by simp; omega)
      rw [hloop]
      generalize requestLoop u (flagsFor persistent) n requests dev parents b' = r at hrest
      generalize requestFields persistent requests dev parents = more at hrest
      cases hrest with
      | none => exact .none
      | some hmore => exact .some (by simpa using hmore)
    by_cases hm : Matches i dev
    · rw [if_pos (comparable_of_matches hm), if_pos hm]
      exact hfound dev parents fuel hm (by omega)
    by_cases hc : Comparable i dev
    · rw [if_pos hc, if_neg hm, requestLoop, isEnd_of_subsystem hsub, differs_eq, if_pos hc]
      simp only [hm, not_false_eq_true, decide_true, Option.bind_some, if_true, hu dev parents i hsub]
      cases hup : ancestor i parents with
      | none => simpa using ih hnamed.2 hattrs.2 dev parents fuel h (by omega) (by omega)
      | some r =>
        obtain ⟨hmr, hshort⟩ := ancestor_spec i hup
        obtain ⟨fuel, rfl⟩ : ∃ n, fuel = n + 1 := ⟨fuel - 1, by omega⟩
        simpa using hfound r.1 r.2 fuel hmr (by omega)
    · rw [if_neg hc, requestLoop, isEnd_of_subsystem hsub, differs_eq, if_neg hc]
      exact .none

end

/-! ## Properties -/

theorem propertyLoop_spec (persistent : Bool) (properties : List (CString × Option CString)) :
    ∀ {fields : List Field} {b : Build}, Ready fields b → fields.length + properties.length < 2 ^ 32 →
      Ready (fields ++ properties.flatMap fun x => valueFields persistent x.1 x.2)
        (propertyLoop (flagsFor persistent) properties b) := by
  induction properties with
  | nil =>
    intro fields b h _
    simpa [propertyLoop] using h
  | cons x properties ih =>
    intro fields b h hlt
    obtain ⟨key, value⟩ := x
    rw [List.length_cons] at hlt
    obtain ⟨b', halloc, hspare⟩ := h.alloc (by omega)
    unfold propertyLoop at *
    rw [List.foldl_cons, List.flatMap_cons, ← List.append_assoc]
    dsimp only
    rw [halloc]
    cases value with
    | none => simpa [valueFields] using ih (.inr hspare) (by omega)
    | some value =>
      have hfill := hspare.fill (value_plain persistent value) (some key)
      rw [fresh_value] at hfill
      exact ih (.inl hfill) (by simp [valueFields]; omega)

theorem propertyLoop_filled (persistent : Bool) {properties : List (CString × Option CString)}
    (hlast : ∀ x ∈ properties.getLast?, x.2 ≠ none) (h : Filled fields b)
    (hlt : fields.length + properties.length < 2 ^ 32) :
    Filled (fields ++ properties.flatMap fun x => valueFields persistent x.1 x.2)
      (propertyLoop (flagsFor persistent) properties b) := by
  rcases List.eq_nil_or_concat properties with rfl | ⟨before, x, rfl⟩
  · simpa [propertyLoop] using h
  · obtain ⟨key, value⟩ := x
    rw [List.concat_eq_append] at hlast hlt ⊢
    rw [List.length_append, List.length_singleton] at hlt
    have hready := propertyLoop_spec persistent before (.inl h) (by omega)
    have hcount : (before.flatMap fun x => valueFields persistent x.1 x.2).length ≤ before.length := by
      clear hready hlt hlast
      induction before with
      | nil => simp
      | cons x before ih =>
        have := length_valueFields persistent x.1 x.2
        rw [List.flatMap_cons, List.length_append, List.length_cons]
        omega
    obtain ⟨value, rfl⟩ := Option.ne_none_iff_exists'.mp (hlast (key, value) (by simp))
    obtain ⟨b', halloc, hspare⟩ := hready.alloc (by rw [List.length_append]; omega)
    have hfill := hspare.fill (value_plain persistent value) (some key)
    rw [fresh_value] at hfill
    unfold propertyLoop at *
    rw [List.foldl_append, List.foldl_cons, List.foldl_nil, halloc, List.flatMap_append, ← List.append_assoc]
    simpa [valueFields] using hfill

/-! ## The dictionary -/

theorem deviceFields_spec (persistent : Bool) (dev : Device) :
    Filled (deviceFields persistent dev)
      (addValue (flagsFor persistent) (text "ACTION") (some (dev.action.getD (text "initial")))
        (addValue (flagsFor persistent) (text "DEVTYPE") dev.devtype
          (addValue (flagsFor persistent) (text "SUBSYSTEM") dev.subsystem
            (addValue (flagsFor persistent) (text "NODE") dev.devnode
              (addValue (flagsFor persistent) (text "SYSPATH") dev.syspath .empty))))) := by
  have l1 := length_valueFields persistent (text "SYSPATH") dev.syspath
  have l2 := length_valueFields persistent (text "NODE") dev.devnode
  have l3 := length_valueFields persistent (text "SUBSYSTEM") dev.subsystem
  have l4 := length_valueFields persistent (text "DEVTYPE") dev.devtype
  have h1 := filled_addValue empty_filled (by simp) persistent (text "SYSPATH") dev.syspath
  have h2 := filled_addValue h1 (by simp; omega) persistent (text "NODE") dev.devnode
  have h3 := filled_addValue h2 (by simp; omega) persistent (text "SUBSYSTEM") dev.subsystem
  have h4 := filled_addValue h3 (by simp; omega) persistent (text "DEVTYPE") dev.devtype
  exact filled_addValue h4 (by simp; omega) persistent (text "ACTION") (some (dev.action.getD (text "initial")))

theorem length_deviceFields (persistent : Bool) (dev : Device) : (deviceFields persistent dev).length ≤ 5 := by
  have l1 := length_valueFields persistent (text "SYSPATH") dev.syspath
  have l2 := length_valueFields persistent (text "NODE") dev.devnode
  have l3 := length_valueFields persistent (text "SUBSYSTEM") dev.subsystem
  have l4 := length_valueFields persistent (text "DEVTYPE") dev.devtype
  have l5 := length_valueFields persistent (text "ACTION") (some (dev.action.getD (text "initial")))
  simp only [deviceFields, List.length_append]
  omega

/-- The dictionary of a device shows the device, and for each request the attributes of the first device that meets it,
from the one on that the request before has led to. If a table of requests isn't given, it shows the properties. It is
only made if all that has to be compared is there. -/
theorem udev_dict_shows (u : Udev) (hu : Documented u) (dev : Device) (parents : List Device)
    (r2ds : Option (List Request)) (make_persistent : Bool) (hnamed : Named (r2ds.getD []))
    (hattrs : ∀ i ∈ r2ds.getD [], i.attributes.length < 2 ^ 32) (hrequests : (r2ds.getD []).length + 5 < 2 ^ 32)
    (hproperties : dev.properties.length + 2 < 2 ^ 32) (hlast : ∀ x ∈ dev.properties.getLast?, x.2 ≠ none) :
    Option.Rel Shows (crtx_udev_raw2dict u dev parents r2ds make_persistent)
      (meaning dev parents (r2ds.getD []) make_persistent) := by
  unfold crtx_udev_raw2dict meaning
  dsimp only
  split
  · have hlen := length_deviceFields make_persistent dev
    have hloop := requestLoop_spec hu make_persistent (r2ds.getD []) hnamed hattrs dev parents
      (parents.length + (r2ds.getD []).length + 1) (deviceFields_spec make_persistent dev) (by omega) (by omega)
    generalize requestFields make_persistent (r2ds.getD []) dev parents = more at hloop
    revert hloop
    generalize requestLoop _ _ _ _ _ _ _ = r
    rintro (hfilled | -)
    · exact .some hfilled.shows
    · exact .none
  · have hpath := length_valueFields make_persistent (text "SYSPATH") dev.syspath
    have h1 := filled_addValue empty_filled (by simp) make_persistent (text "SYSPATH") dev.syspath
    refine .some (Filled.shows ?_)
    unfold propertyFields
    cases dev.action with
    | none =>
      have h2 := filled_addValue h1 (by simp; omega) make_persistent (text "ACTION") (some (text "initial"))
      have haction := length_valueFields make_persistent (text "ACTION") (some (text "initial"))
      simp only [Option.isNone_none, if_true]
      exact propertyLoop_filled make_persistent hlast h2 (by simp only [List.length_append]; omega)
    | some action => simpa using propertyLoop_filled make_persistent hlast h1 (by simp; omega)

/-- An interface of a device at a USB port, and the device. -/
def mouse : Device where
  syspath := some (text "/sys/devices/usb1/1-2/1-2:1.0")
  devnode := none
  subsystem := some (text "usb")
  devtype := some (text "usb_interface")
  action := some (text "add")
  sysattr a := if a = text "bInterfaceNumber" then some (text "00") else none
  property _ := none
  properties := []

def mouseDevice : Device :=
  { mouse with
    syspath := some (text "/sys/devices/usb1/1-2")
    devtype := some (text "usb_device")
    sysattr := fun a => if a = text "idVendor" then some (text "046d") else none }

def usbRequests : List Request :=
  [⟨some (text "usb"), some (text "usb_interface"), [text "bInterfaceNumber"]⟩,
    ⟨some (text "usb"), some (text "usb_device"), [text "idVendor", text "serial"]⟩, ⟨none, none, []⟩]

def lookUp : Udev := ⟨fun _ parents subsystem device_type => ancestor ⟨subsystem, device_type, []⟩ parents⟩

theorem ancestor_attributes (i : Request) (parents : List Device) :
    ancestor ⟨i.subsystem, i.device_type, []⟩ parents = ancestor i parents := by
  induction parents with
  | nil => rfl
  | cons p parents ih =>
    rw [ancestor, ancestor, ih]
    rfl

theorem udev_dict_shows_mouse :
    Option.Rel Shows (crtx_udev_raw2dict lookUp mouse [mouseDevice] (some usbRequests) true)
      (meaning mouse [mouseDevice] usbRequests true) :=
  udev_dict_shows lookUp (fun _ parents i _ => ancestor_attributes i parents) mouse [mouseDevice] (some usbRequests) true
    (by unfold Named; decide) (by decide) (by decide) (by decide) (by simp [mouse])

end Libcortex.UdevDict
