import Libcortex.Lib.Credentials

/-!
# The privileges of a forked child

`reinit_cb` of `fork.c` runs in the child. It changes to the configured group and user and then calls the callback of the
listener. The databases of users and groups are parameters.
-/

open Libcortex.Lib

namespace Libcortex.Fork

/-! ## The code -/

/-- `struct passwd` -/
structure Passwd where
  pw_uid : Nat
  pw_gid : Nat
deriving DecidableEq, Repr

/-- `struct group` -/
structure Group where
  gr_gid : Nat
deriving DecidableEq, Repr

/-- `none`: the lookup fails or finds nothing. -/
structure Databases where
  getpwnam_r : String → Option Passwd
  getgrnam_r : String → Option Group

/-- `struct crtx_fork_listener`, what `reinit_cb` reads of it. -/
structure ForkListener where
  user : Option String
  group : Option String
deriving DecidableEq, Repr

/-- `exit(1)` where something is missing. -/
def orExit {α : Type} (x : Option α) : Except Int α := x.elim (.error 1) .ok

/-- What `reinit_cb` does if a group is configured. -/
def changeGroup (db : Databases) (flstnr : ForkListener) (c : Creds) : Except Int Creds :=
  match flstnr.group with
  | none => pure c
  | some group => do
    let grp ← orExit (db.getgrnam_r group)
    orExit (setgid c grp.gr_gid)

/-- What it does if a user is configured. -/
def changeUser (db : Databases) (flstnr : ForkListener) (c : Creds) : Except Int Creds :=
  match flstnr.user with
  | none => pure c
  | some user => do
    let pw ← orExit (db.getpwnam_r user)
    let c ← orExit (setuid c pw.pw_uid)
    if flstnr.group.isNone then orExit (setgid c pw.pw_gid) else pure c

/-- The ids with which the callback is called. An error is the status with which the child exits. -/
def reinit_cb (db : Databases) (flstnr : ForkListener) (c : Creds) : Except Int Creds := do
  let c ← changeGroup db flstnr c
  changeUser db flstnr c

/-! ## What has to hold -/

def root : Creds := ⟨.all 0, .all 0⟩

variable {db : Databases} {flstnr : ForkListener}

def Resolvable (db : Databases) (flstnr : ForkListener) : Prop :=
  (∀ group ∈ flstnr.group, (db.getgrnam_r group).isSome) ∧ ∀ user ∈ flstnr.user, (db.getpwnam_r user).isSome

/-- The child is what it was configured to be. The group of the user is taken if no other is configured. -/
structure Dropped (db : Databases) (flstnr : ForkListener) (c : Creds) : Prop where
  uid : ∀ user ∈ flstnr.user, ∀ pw ∈ db.getpwnam_r user, c.uid = .all pw.pw_uid
  gid : ∀ group ∈ flstnr.group, ∀ grp ∈ db.getgrnam_r group, c.gid = .all grp.gr_gid
  primary : flstnr.group = none → ∀ user ∈ flstnr.user, ∀ pw ∈ db.getpwnam_r user, c.gid = .all pw.pw_gid
  noUser : flstnr.user = none → c.uid = root.uid
  neither : flstnr.group = none → flstnr.user = none → c.gid = root.gid

/-- A group is configured, or none has to be set for the user, or the user is still privileged when it is. -/
def GroupFirst (db : Databases) (flstnr : ForkListener) : Prop :=
  flstnr.group.isSome ∨ ∀ user ∈ flstnr.user, ∀ pw ∈ db.getpwnam_r user, pw.pw_uid = 0 ∨ pw.pw_gid = 0

/-! ## Each configuration -/

@[simp] theorem orExit_some {α : Type} (x : α) : orExit (some x) = .ok x := rfl

@[simp] theorem ok_bind {α β : Type} (a : α) (f : α → Except Int β) : (Except.ok a >>= f) = f a := rfl

theorem root_privileged : root.Privileged := rfl

theorem changeGroup_privileged {user : Option String} {group : String} {grp : Group}
    (hg : db.getgrnam_r group = some grp) {c : Creds} (hc : c.Privileged) :
    changeGroup db ⟨user, some group⟩ c = .ok { c with gid := .all grp.gr_gid } := by
  simp [changeGroup, hg, setgid_privileged hc]

theorem changeUser_privileged {user : String} {group : Option String} {pw : Passwd}
    (hu : db.getpwnam_r user = some pw) {c : Creds} (hc : c.Privileged) :
    changeUser db ⟨some user, group⟩ c =
      if group.isNone then orExit (setgid { c with uid := .all pw.pw_uid } pw.pw_gid)
      else .ok { c with uid := .all pw.pw_uid } := by
  simp only [changeUser, hu, orExit_some, ok_bind, setuid_privileged hc]
  rfl

theorem reinit_cb_group {group : String} {grp : Group} (hg : db.getgrnam_r group = some grp) :
    reinit_cb db ⟨none, some group⟩ root = .ok ⟨.all 0, .all grp.gr_gid⟩ := by
  rw [reinit_cb, changeGroup_privileged hg root_privileged]
  rfl

theorem reinit_cb_both {user group : String} {pw : Passwd} {grp : Group} (hu : db.getpwnam_r user = some pw)
    (hg : db.getgrnam_r group = some grp) :
    reinit_cb db ⟨some user, some group⟩ root = .ok ⟨.all pw.pw_uid, .all grp.gr_gid⟩ := by
  have hgroup : Creds.Privileged { root with gid := .all grp.gr_gid } := root_privileged
  rw [reinit_cb, changeGroup_privileged hg root_privileged, ok_bind, changeUser_privileged hu hgroup]
  rfl

theorem reinit_cb_user {user : String} {pw : Passwd} (hu : db.getpwnam_r user = some pw) :
    reinit_cb db ⟨some user, none⟩ root =
      if pw.pw_uid = 0 ∨ pw.pw_gid = 0 then .ok ⟨.all pw.pw_uid, .all pw.pw_gid⟩ else .error 1 := by
  have hgroup : changeGroup db ⟨some user, none⟩ root = .ok root := rfl
  have hgid : setgid { root with uid := .all pw.pw_uid } pw.pw_gid =
      if pw.pw_uid = 0 ∨ pw.pw_gid = 0 then some ⟨.all pw.pw_uid, .all pw.pw_gid⟩ else none := by
    by_cases huid : pw.pw_uid = 0
    · rw [if_pos (.inl huid)]
      exact setgid_privileged (c := { root with uid := .all pw.pw_uid }) huid _
    · rw [root, setgid_unprivileged huid]
      by_cases hzero : pw.pw_gid = 0
      · rw [if_pos hzero, if_pos (.inr hzero), hzero]
      · rw [if_neg hzero, if_neg (not_or.mpr ⟨huid, hzero⟩)]
  rw [reinit_cb, hgroup, ok_bind, changeUser_privileged hu root_privileged, hgid, Option.isNone_none, if_pos rfl]
  split <;> rfl

/-! ## Dropping privileges -/

theorem Resolvable.cases (h : Resolvable db flstnr) :
    flstnr = ⟨none, none⟩ ∨
    (∃ group grp, flstnr = ⟨none, some group⟩ ∧ db.getgrnam_r group = some grp) ∨
    (∃ user pw, flstnr = ⟨some user, none⟩ ∧ db.getpwnam_r user = some pw) ∨
    ∃ user pw group grp, flstnr = ⟨some user, some group⟩ ∧ db.getpwnam_r user = some pw ∧
      db.getgrnam_r group = some grp := by
  obtain ⟨hgroup, huser⟩ := h
  obtain ⟨user, group⟩ := flstnr
  cases user with
  | none =>
    cases group with
    | none => exact .inl rfl
    | some group =>
      obtain ⟨grp, hg⟩ := Option.isSome_iff_exists.mp (hgroup group rfl)
      exact .inr (.inl ⟨group, grp, rfl, hg⟩)
  | some user =>
    obtain ⟨pw, hu⟩ := Option.isSome_iff_exists.mp (huser user rfl)
    cases group with
    | none => exact .inr (.inr (.inl ⟨user, pw, rfl, hu⟩))
    | some group =>
      obtain ⟨grp, hg⟩ := Option.isSome_iff_exists.mp (hgroup group rfl)
      exact .inr (.inr (.inr ⟨user, pw, group, grp, rfl, hu, hg⟩))

theorem bind_ok {α β : Type} {x : Except Int α} {f : α → Except Int β} {b : β} (h : x >>= f = .ok b) :
    ∃ a, x = .ok a ∧ f a = .ok b := by
  cases x with
  | error status => cases h
  | ok a => exact ⟨a, rfl, h⟩

theorem isSome_of_orExit {α : Type} {x : Option α} {a : α} (h : orExit x = .ok a) : x.isSome := by
  cases x with
  | none => cases h
  | some a => rfl

theorem resolvable_of_ok {c c' : Creds} (h : reinit_cb db flstnr c = .ok c') : Resolvable db flstnr := by
  obtain ⟨user, group⟩ := flstnr
  obtain ⟨c₁, hgroup, huser⟩ := bind_ok h
  constructor
  · rintro name ⟨⟩
    obtain ⟨grp, hg, -⟩ := bind_ok hgroup
    exact isSome_of_orExit hg
  · rintro name ⟨⟩
    obtain ⟨pw, hu, -⟩ := bind_ok huser
    exact isSome_of_orExit hu

theorem dropped_of_ok {c : Creds} (h : reinit_cb db flstnr root = .ok c) : Dropped db flstnr c := by
  rcases (resolvable_of_ok h).cases with rfl | ⟨group, grp, rfl, hg⟩ | ⟨user, pw, rfl, hu⟩ |
    ⟨user, pw, group, grp, rfl, hu, hg⟩
  · cases h
    exact ⟨by simp, by simp, by simp, fun _ => rfl, fun _ _ => rfl⟩
  · rw [reinit_cb_group hg] at h
    cases h
    exact ⟨by simp, by simp [hg], by simp, fun _ => rfl, by simp⟩
  · rw [reinit_cb_user hu] at h
    split at h
    · cases h
      exact ⟨by simp [hu], by simp, by simp [hu], by simp, by simp⟩
    · cases h
  · rw [reinit_cb_both hu hg] at h
    cases h
    exact ⟨by simp [hu], by simp [hg], by simp, by simp, by simp⟩

theorem called_iff (hres : Resolvable db flstnr) : (∃ c, reinit_cb db flstnr root = .ok c) ↔ GroupFirst db flstnr := by
  unfold GroupFirst
  rcases hres.cases with rfl | ⟨group, grp, rfl, hg⟩ | ⟨user, pw, rfl, hu⟩ | ⟨user, pw, group, grp, rfl, hu, hg⟩
  · exact iff_of_true ⟨_, rfl⟩ (.inr (by simp))
  · exact iff_of_true ⟨_, reinit_cb_group hg⟩ (.inl rfl)
  · rw [reinit_cb_user hu]
    by_cases hids : pw.pw_uid = 0 ∨ pw.pw_gid = 0
    · rw [if_pos hids]
      exact iff_of_true ⟨_, rfl⟩ (.inr (by simpa [hu] using hids))
    · rw [if_neg hids]
      refine iff_of_false (by simp) ?_
      rintro (h | h)
      · cases h
      · exact hids (h user rfl pw hu)
  · exact iff_of_true ⟨_, reinit_cb_both hu hg⟩ (.inl rfl)

/-- The callback is called as whom the configuration says, and the child does not exit. -/
theorem privileges_dropped_iff (hres : Resolvable db flstnr) :
    (∃ c, reinit_cb db flstnr root = .ok c ∧ Dropped db flstnr c) ↔ GroupFirst db flstnr := by
  rw [← called_iff hres]
  exact exists_congr fun c => and_iff_left_of_imp dropped_of_ok

/-- A system with the user and the group 65534. -/
def nobodyOnly : Databases where
  getpwnam_r name := if name = "nobody" then some ⟨65534, 65534⟩ else none
  getgrnam_r name := if name = "nogroup" then some ⟨65534⟩ else none

theorem privileges_dropped_nobody :
    Resolvable nobodyOnly ⟨some "nobody", some "nogroup"⟩ ∧
      ∃ c, reinit_cb nobodyOnly ⟨some "nobody", some "nogroup"⟩ root = .ok c ∧
        Dropped nobodyOnly ⟨some "nobody", some "nogroup"⟩ c := by
  have hres : Resolvable nobodyOnly ⟨some "nobody", some "nogroup"⟩ := by
    constructor
    · rintro name ⟨⟩
      rfl
    · rintro name ⟨⟩
      rfl
  exact ⟨hres, (privileges_dropped_iff hres).mpr (.inl rfl)⟩

/-- With a user alone, the child exits though the name is found. -/
theorem user_without_group_exits :
    Resolvable nobodyOnly ⟨some "nobody", none⟩ ∧ reinit_cb nobodyOnly ⟨some "nobody", none⟩ root = .error 1 := by
  constructor
  · constructor
    · rintro name ⟨⟩
    · rintro name ⟨⟩
      rfl
  · rfl

end Libcortex.Fork
