import Libcortex.Epoll
import Libcortex.Lib.Run

/-!
# What the kernel watches for

The active callbacks of an entry, `fd_added` with the list of the event loop, and the table of the
kernel say the same about a file descriptor, after any sequence of calls.
-/

open Libcortex.Lib

namespace Libcortex.Epoll

/-! ## What has to hold -/

/-- What the active callbacks of the entry want, together. -/
def Evloop.mask (s : Evloop) (e : EntryId) : BitVec 32 :=
  (((s.entries e).callbacks.filter fun c => (s.cbs c).active).map fun c =>
    crtx_event_flags2epoll_flags (s.cbs c).crtx_event_flags).foldl (· ||| ·) 0

/-- Of an entry whose mask is zero, the kernel knows nothing. -/
structure Registered (s : Evloop) (e : EntryId) : Prop where
  kernel : s.kernel (s.fd e) = if s.mask e = 0 then none else some (s.mask e)
  added : (s.entries e).fd_added ↔ s.mask e ≠ 0
  listed : s.fds.count e = if (s.entries e).fd_added then 1 else 0

/-! ## The machine -/

/-- Every entry has a file descriptor of its own. -/
structure Descriptors where
  fd : EntryId → Int
  distinct : Function.Injective fd
  nonneg : ∀ e, 0 ≤ fd e

/-- All structures are zeroed. -/
def init (d : Descriptors) : Evloop where
  fd := d.fd
  entries _ := { fd_added := false, callbacks := [], evloop := false }
  cbs _ := { crtx_event_flags := 0, active := false, fd_entry := none }
  fds := []
  kernel _ := none
  stop := false
  after_fork_close := false

inductive Action where
  | create (e : EntryId) (c : CallbackId) (event_flags : BitVec 32)
  | enable (c : CallbackId)
  | disable (c : CallbackId)
  | remove (c : CallbackId)
  | closed (e : EntryId)
deriving DecidableEq

/-- A callback is added to an entry once. The others need the entry of the callback, but for
`crtx_evloop_disable_cb`, which returns before it looks at it. -/
def step (s : Evloop) : Action → Option Evloop
  | .create e c event_flags =>
    if (s.cbs c).fd_entry = none then some (crtx_evloop_create_fd_entry s e c event_flags) else none
  | .enable c => (s.cbs c).fd_entry.map fun e => crtx_evloop_enable_cb s e c
  | .disable c =>
    if (s.cbs c).active then (s.cbs c).fd_entry.map fun e => crtx_evloop_disable_cb s e c else some s
  | .remove c => (s.cbs c).fd_entry.map fun e => crtx_evloop_remove_cb s e c
  | .closed e => some (crtx_evloop_handle_fd_closed s e)

/-! ## The mask -/

theorem collectEvents_eq (s : Evloop) (e : EntryId) : collectEvents s.cbs (s.entries e).callbacks = s.mask e := by
  unfold collectEvents Evloop.mask
  rw [List.foldl_map, List.foldl_filter]

theorem mask_congr {s t : Evloop} {e : EntryId} (hl : (t.entries e).callbacks = (s.entries e).callbacks)
    (hc : ∀ c ∈ (s.entries e).callbacks, t.cbs c = s.cbs c) : t.mask e = s.mask e := by
  unfold Evloop.mask
  rw [hl, List.filter_congr fun c hc' => by rw [hc c hc']]
  congr 1
  apply List.map_congr_left
  intro c hc'
  rw [hc c (List.mem_filter.mp hc').1]

theorem mask_inactive {s : Evloop} {e : EntryId} (h : ∀ c ∈ (s.entries e).callbacks, (s.cbs c).active = false) :
    s.mask e = 0 := by
  unfold Evloop.mask
  rw [List.filter_eq_nil_iff.mpr fun c hc => by simp [h c hc]]
  rfl

theorem filter_erase_of_neg {α : Type} [DecidableEq α] {p : α → Bool} {a : α} (h : p a = false) (l : List α) :
    (l.erase a).filter p = l.filter p := by
  rw [← List.erase_filter, List.erase_of_not_mem]
  intro ha
  simp [h] at ha

theorem mask_filter {s t : Evloop} {e : EntryId} (hc : t.cbs = s.cbs)
    (hl : (t.entries e).callbacks.filter (fun c => (s.cbs c).active) =
      (s.entries e).callbacks.filter fun c => (s.cbs c).active) : t.mask e = s.mask e := by
  unfold Evloop.mask
  rw [hc, hl]

/-! ## One entry at a time -/

/-- What `crtx_epoll_manage_fd` starts from: the mask may be another one than the kernel has. -/
structure Tracked (s : Evloop) (e : EntryId) : Prop where
  kernel : (s.kernel (s.fd e)).isSome = (s.entries e).fd_added
  listed : s.fds.count e = if (s.entries e).fd_added then 1 else 0

theorem Registered.tracked {s : Evloop} {e : EntryId} (h : Registered s e) : Tracked s e := by
  refine ⟨?_, h.listed⟩
  have hk := h.kernel
  have ha := h.added
  split at hk <;> simp_all

theorem Registered.congr {s t : Evloop} {e : EntryId} (h : Registered s e) (hk : t.kernel (t.fd e) = s.kernel (s.fd e))
    (ha : (t.entries e).fd_added = (s.entries e).fd_added) (hm : t.mask e = s.mask e)
    (hf : t.fds.count e = s.fds.count e) : Registered t e where
  kernel := by rw [hk, hm, h.kernel]
  added := by rw [ha, hm, h.added]
  listed := by rw [hf, ha, h.listed]

/-- The event loop runs, and no two entries share a file descriptor. -/
structure Running (s : Evloop) : Prop where
  distinct : Function.Injective s.fd
  nonneg : ∀ e, 0 ≤ s.fd e
  stop : s.stop = false
  after_fork_close : s.after_fork_close = false

theorem unlink_eq (l : List EntryId) (e : EntryId) : (SList.unlink l e).1 = l.erase e := by
  unfold SList.unlink
  split
  · rfl
  · rename_i h
    exact (List.erase_of_not_mem h).symm

theorem modEntry_self {s : Evloop} {e : EntryId} {f : FdEntry → FdEntry} (h : f (s.entries e) = s.entries e) :
    s.modEntry e f = s := by
  unfold Evloop.modEntry
  rw [h, Function.update_eq_self]

/-- The kernel, the list and `fd_added` are made to follow the mask. -/
def Evloop.settle (s : Evloop) (e : EntryId) : Evloop :=
  { s.modEntry e fun en => { en with fd_added := s.mask e ≠ 0 } with
    kernel := Function.update s.kernel (s.fd e) (if s.mask e = 0 then none else some (s.mask e))
    fds := if s.mask e = 0 then s.fds.erase e else if (s.entries e).fd_added then s.fds else s.fds ++ [e] }

theorem manage_eq {s : Evloop} {e : EntryId} (hr : Running s) (ht : Tracked s e) :
    crtx_epoll_manage_fd s e = s.settle e := by
  unfold crtx_epoll_manage_fd Evloop.settle
  rw [collectEvents_eq]
  have hk := ht.kernel
  have hl := ht.listed
  by_cases hm : s.mask e = 0
  · have hd : (crtx_epoll_del_fd_intern s e).1 = Function.update s.kernel (s.fd e) none := by
      unfold crtx_epoll_del_fd_intern
      rw [hr.stop, if_neg Bool.false_ne_true, ctl_del (hr.nonneg e)]
    simp [hm, hd, hr.after_fork_close, hr.nonneg e, unlink_eq]
  · rw [if_pos hm, if_neg hm, if_neg hm]
    cases ha : (s.entries e).fd_added with
    | true =>
      rw [ha, Option.isSome_iff_exists] at hk
      obtain ⟨ev, hk⟩ := hk
      rw [modEntry_self (by rw [decide_eq_true hm, ← ha])]
      simp [crtx_epoll_mod_fd_intern, hr.stop, ctl_mod (hr.nonneg e) hk]
    | false =>
      rw [ha, Option.isSome_eq_false_iff, Option.isNone_iff_eq_none] at hk
      have hne : e ∉ s.fds := by
        rw [← List.count_eq_zero, hl, ha]
        rfl
      rw [decide_eq_true hm]
      simp [crtx_epoll_add_fd_intern, ctl_add (hr.nonneg e) hk, SList.append, hne]

/-! ## All entries -/

/-- An entry that was never enabled has no active callback, and a callback is in the list of its entry only. -/
structure Linked (s : Evloop) : Prop where
  bound : ∀ e, ∀ c ∈ (s.entries e).callbacks, (s.cbs c).active = true → (s.entries e).evloop = true
  owner : ∀ e, ∀ c ∈ (s.entries e).callbacks, (s.cbs c).fd_entry = some e
  fresh : ∀ c, (s.cbs c).fd_entry = none → (s.cbs c).active = false

structure Inv (s : Evloop) : Prop extends Running s, Linked s where
  registered : ∀ e, Registered s e

/-- The invariant, but for the mask of `e`. -/
structure InvBut (s : Evloop) (e : EntryId) : Prop extends Running s, Linked s where
  registered : ∀ e', e' ≠ e → Registered s e'
  tracked : Tracked s e

theorem Inv.but {s : Evloop} (h : Inv s) (e : EntryId) : InvBut s e where
  toRunning := h.toRunning
  toLinked := h.toLinked
  registered e' _ := h.registered e'
  tracked := (h.registered e).tracked

theorem inv_init (d : Descriptors) : Inv (init d) where
  distinct := d.distinct
  nonneg := d.nonneg
  stop := rfl
  after_fork_close := rfl
  bound _ _ hc := absurd hc List.not_mem_nil
  owner _ _ hc := absurd hc List.not_mem_nil
  fresh _ _ := rfl
  registered e := ⟨rfl, by simp [init, Evloop.mask], rfl⟩

theorem settle_self (s : Evloop) (e : EntryId) :
    (s.settle e).entries e = { s.entries e with fd_added := s.mask e ≠ 0 } := Function.update_self ..

theorem settle_other (s : Evloop) {e e' : EntryId} (hne : e' ≠ e) : (s.settle e).entries e' = s.entries e' :=
  Function.update_of_ne hne ..

@[simp] theorem settle_callbacks (s : Evloop) (e e' : EntryId) :
    ((s.settle e).entries e').callbacks = (s.entries e').callbacks := by
  by_cases he : e' = e
  · rw [he, settle_self]
  · rw [settle_other s he]

@[simp] theorem settle_evloop (s : Evloop) (e e' : EntryId) :
    ((s.settle e).entries e').evloop = (s.entries e').evloop := by
  by_cases he : e' = e
  · rw [he, settle_self]
  · rw [settle_other s he]

@[simp] theorem settle_mask (s : Evloop) (e e' : EntryId) : (s.settle e).mask e' = s.mask e' :=
  mask_congr (settle_callbacks s e e') fun _ _ => rfl

theorem settle_count_self {s : Evloop} {e : EntryId} (ht : Tracked s e) :
    (s.settle e).fds.count e = if s.mask e = 0 then 0 else 1 := by
  have hl := ht.listed
  unfold Evloop.settle
  dsimp only
  split
  · rw [List.count_erase_self, hl]
    split <;> rfl
  · split
    · rename_i ha
      rw [hl, if_pos ha]
    · rename_i ha
      rw [if_neg ha] at hl
      rw [List.count_append, hl, List.count_singleton_self]

theorem settle_count_other (s : Evloop) {e e' : EntryId} (hne : e' ≠ e) :
    (s.settle e).fds.count e' = s.fds.count e' := by
  unfold Evloop.settle
  dsimp only
  split
  · exact List.count_erase_of_ne hne
  · split
    · rfl
    · simp [List.count_append, Ne.symm hne]

theorem settle_registered_self {s : Evloop} {e : EntryId} (ht : Tracked s e) : Registered (s.settle e) e where
  kernel := by
    rw [settle_mask]
    exact Function.update_self ..
  added := by rw [settle_mask, settle_self, decide_eq_true_iff]
  listed := by
    rw [settle_self, settle_count_self ht]
    by_cases hm : s.mask e = 0
    · rw [if_pos hm, decide_eq_false (not_not.mpr hm), if_neg Bool.false_ne_true]
    · rw [if_neg hm, decide_eq_true hm, if_pos rfl]

theorem settle_registered_other {s : Evloop} {e e' : EntryId} (hr : Running s) (hne : e' ≠ e)
    (h : Registered s e') : Registered (s.settle e) e' := by
  apply h.congr
  · exact Function.update_of_ne (fun hfd => hne (hr.distinct hfd)) ..
  · rw [settle_other s hne]
  · exact settle_mask s e e'
  · exact settle_count_other s hne

theorem InvBut.manage {s : Evloop} {e : EntryId} (h : InvBut s e) : Inv (crtx_epoll_manage_fd s e) := by
  rw [manage_eq h.toRunning h.tracked]
  constructor
  · exact ⟨h.distinct, h.nonneg, h.stop, h.after_fork_close⟩
  · refine ⟨?_, ?_, h.fresh⟩
    · intro e' c hc hact
      rw [settle_callbacks] at hc
      rw [settle_evloop]
      exact h.bound e' c hc hact
    · intro e' c hc
      rw [settle_callbacks] at hc
      exact h.owner e' c hc
  · intro e'
    by_cases he : e' = e
    · rw [he]
      exact settle_registered_self h.tracked
    · exact settle_registered_other h.toRunning he (h.registered e' he)

theorem InvBut.unbound {s : Evloop} {e : EntryId} (h : InvBut s e) (hev : (s.entries e).evloop = false)
    (ha : (s.entries e).fd_added = false) : Inv s := by
  refine { h with registered := ?_ }
  intro e'
  by_cases he : e' = e
  · subst he
    have hm : s.mask e' = 0 := by
      apply mask_inactive
      intro c hc
      cases hact : (s.cbs c).active with
      | false => rfl
      | true => rw [h.bound e' c hc hact] at hev; cases hev
    have hk := h.tracked.kernel
    rw [ha, Option.isSome_eq_false_iff, Option.isNone_iff_eq_none] at hk
    refine ⟨?_, ?_, h.tracked.listed⟩
    · rw [hk, if_pos hm]
    · simp [ha, hm]
  · exact h.registered e' he

/-! ## The calls keep the invariant -/

/-- Other callbacks of an entry are active. -/
def Evloop.setActive (s : Evloop) (f : CallbackId → Bool) : Evloop :=
  { s with cbs := fun c => { s.cbs c with active := f c } }

theorem InvBut.setActive {s : Evloop} {e : EntryId} (h : InvBut s e) {f : CallbackId → Bool}
    (hf : ∀ c, f c ≠ (s.cbs c).active → (s.cbs c).fd_entry = some e)
    (hev : (s.entries e).evloop = true ∨ ∀ c, f c = true → (s.cbs c).active = true) : InvBut (s.setActive f) e := by
  have hsame : ∀ c, (s.cbs c).fd_entry ≠ some e → f c = (s.cbs c).active := fun c hc =>
    not_not.mp fun hne => hc (hf c hne)
  constructor
  · exact ⟨h.distinct, h.nonneg, h.stop, h.after_fork_close⟩
  · refine ⟨?_, h.owner, ?_⟩
    · intro e' c hc hact
      obtain hev | hev := hev
      · by_cases he : e' = e
        · rw [he]
          exact hev
        · have hne : (s.cbs c).fd_entry ≠ some e := by
            rw [h.owner e' c hc]
            simpa using he
          exact h.bound e' c hc ((hsame c hne).symm.trans hact)
      · exact h.bound e' c hc (hev c hact)
    · intro c hc
      have hne : (s.cbs c).fd_entry ≠ some e := by
        rw [show (s.cbs c).fd_entry = none from hc]
        simp
      exact (hsame c hne).trans (h.fresh c hc)
  · intro e' he
    refine (h.registered e' he).congr rfl rfl ?_ rfl
    refine mask_congr (s := s) rfl ?_
    intro c hc
    have hne : (s.cbs c).fd_entry ≠ some e := by
      rw [h.owner e' c hc]
      simpa using he
    show { s.cbs c with active := f c } = s.cbs c
    rw [hsame c hne]
  · exact ⟨h.tracked.kernel, h.tracked.listed⟩

theorem modCb_active (s : Evloop) (c : CallbackId) (b : Bool) :
    s.modCb c (fun cb => { cb with active := b }) = s.setActive (Function.update (fun c => (s.cbs c).active) c b) := by
  unfold Evloop.modCb Evloop.setActive
  congr 1
  funext c'
  by_cases hc : c' = c
  · rw [hc, Function.update_self, Function.update_self]
  · rw [Function.update_of_ne hc, Function.update_of_ne hc]

theorem update_active {s : Evloop} {c c' : CallbackId} {b : Bool}
    (h : Function.update (fun c => (s.cbs c).active) c b c' ≠ (s.cbs c').active) : c' = c :=
  not_not.mp fun hne => h (Function.update_of_ne hne ..)

theorem Inv.modEntry {s : Evloop} {e : EntryId} {f : FdEntry → FdEntry} (h : Inv s)
    (ha : (f (s.entries e)).fd_added = (s.entries e).fd_added)
    (hev : (s.entries e).evloop = true → (f (s.entries e)).evloop = true)
    (ho : ∀ c ∈ (f (s.entries e)).callbacks, (s.cbs c).fd_entry = some e)
    (hf : (f (s.entries e)).callbacks.filter (fun c => (s.cbs c).active) =
      (s.entries e).callbacks.filter fun c => (s.cbs c).active) : Inv (s.modEntry e f) := by
  have hself : (s.modEntry e f).entries e = f (s.entries e) := Function.update_self ..
  have hother : ∀ e', e' ≠ e → (s.modEntry e f).entries e' = s.entries e' := fun e' hne => Function.update_of_ne hne ..
  constructor
  · exact ⟨h.distinct, h.nonneg, h.stop, h.after_fork_close⟩
  · refine ⟨?_, ?_, h.fresh⟩
    · intro e' c hc hact
      by_cases he : e' = e
      · subst he
        rw [hself] at hc ⊢
        have hmem : c ∈ (s.entries e').callbacks := by
          have hc' : c ∈ (f (s.entries e')).callbacks.filter fun c => (s.cbs c).active := List.mem_filter.mpr ⟨hc, hact⟩
          rw [hf] at hc'
          exact (List.mem_filter.mp hc').1
        exact hev (h.bound e' c hmem hact)
      · rw [hother e' he] at hc ⊢
        exact h.bound e' c hc hact
    · intro e' c hc
      by_cases he : e' = e
      · subst he
        rw [hself] at hc
        exact ho c hc
      · rw [hother e' he] at hc
        exact h.owner e' c hc
  · intro e'
    by_cases he : e' = e
    · subst he
      refine (h.registered e').congr rfl ?_ ?_ rfl
      · rw [hself, ha]
      · refine mask_filter (s := s) rfl ?_
        rw [hself, hf]
    · refine (h.registered e').congr rfl ?_ ?_ rfl
      · rw [hother e' he]
      · refine mask_filter (s := s) rfl ?_
        rw [hother e' he]

theorem Inv.appendCallback {s : Evloop} {e : EntryId} {c : CallbackId} (h : Inv s)
    (hc : (s.cbs c).fd_entry = some e) (hact : (s.cbs c).active = false) (hnew : c ∉ (s.entries e).callbacks) :
    Inv (s.modEntry e fun en => { en with callbacks := (SList.append en.callbacks c).1 }) := by
  have happ : (SList.append (s.entries e).callbacks c).1 = (s.entries e).callbacks ++ [c] := by
    unfold SList.append
    rw [if_neg hnew]
  apply h.modEntry rfl id
  · dsimp only
    rw [happ]
    intro c' hc'
    obtain hmem | hmem := List.mem_append.mp hc'
    · exact h.owner e c' hmem
    · rw [List.mem_singleton.mp hmem, hc]
  · dsimp only
    rw [happ, List.filter_append]
    simp [hact]

theorem inv_create {s : Evloop} {e : EntryId} {c : CallbackId} {event_flags : BitVec 32} (h : Inv s)
    (hc : (s.cbs c).fd_entry = none) : Inv (crtx_evloop_create_fd_entry s e c event_flags) := by
  have hself : ∀ f, (s.modCb c f).cbs c = f (s.cbs c) := fun f => Function.update_self ..
  have hother : ∀ f c', c' ≠ c → (s.modCb c f).cbs c' = s.cbs c' := fun f c' hne => Function.update_of_ne hne ..
  -- no list has the callback yet
  have hlists : ∀ e', ∀ c' ∈ (s.entries e').callbacks, c' ≠ c := by
    intro e' c' hc' heq
    have ho := h.owner e' c' hc'
    rw [heq, hc] at ho
    cases ho
  unfold crtx_evloop_create_fd_entry
  apply Inv.appendCallback
  · constructor
    · exact ⟨h.distinct, h.nonneg, h.stop, h.after_fork_close⟩
    · refine ⟨?_, ?_, ?_⟩
      · intro e' c' hc' hact
        rw [hother _ c' (hlists e' c' hc')] at hact
        exact h.bound e' c' hc' hact
      · intro e' c' hc'
        rw [hother _ c' (hlists e' c' hc')]
        exact h.owner e' c' hc'
      · intro c' hc'
        by_cases heq : c' = c
        · rw [heq, hself]
          exact h.fresh c hc
        · rw [hother _ c' heq] at hc' ⊢
          exact h.fresh c' hc'
    · intro e'
      refine (h.registered e').congr rfl rfl ?_ rfl
      refine mask_congr (s := s) rfl ?_
      intro c' hc'
      exact hother _ c' (hlists e' c' hc')
  · rw [hself]
  · rw [hself]
    exact h.fresh c hc
  · intro hmem
    exact hlists e c hmem rfl

theorem inv_enable {s : Evloop} {e : EntryId} {c : CallbackId} (h : Inv s) (hc : (s.cbs c).fd_entry = some e) :
    Inv (crtx_evloop_enable_cb s e c) := by
  unfold crtx_evloop_enable_cb
  apply InvBut.manage
  have hcomm : ((s.modCb c fun cb => { cb with active := true }).modEntry e fun en => { en with evloop := true }) =
      (s.modEntry e fun en => { en with evloop := true }).modCb c fun cb => { cb with active := true } := rfl
  have hb : Inv (s.modEntry e fun en => { en with evloop := true }) :=
    h.modEntry rfl (fun _ => rfl) (h.owner e) rfl
  rw [hcomm, modCb_active]
  apply (hb.but e).setActive
  · intro c' hne
    rw [update_active hne]
    exact hc
  · left
    unfold Evloop.modEntry
    dsimp only
    rw [Function.update_self]

theorem inv_deactivate {s : Evloop} {e : EntryId} {f : CallbackId → Bool} (h : Inv s)
    (hf : ∀ c, f c ≠ (s.cbs c).active → (s.cbs c).fd_entry = some e)
    (hoff : ∀ c, f c = true → (s.cbs c).active = true) :
    Inv (if ((s.setActive f).entries e).evloop then crtx_epoll_manage_fd (s.setActive f) e else s.setActive f) := by
  have hb : InvBut (s.setActive f) e := (h.but e).setActive hf (.inr hoff)
  split
  · exact hb.manage
  · rename_i hev
    rw [Bool.not_eq_true] at hev
    have ha : (s.entries e).fd_added = false := by
      rw [← Bool.not_eq_true, (h.registered e).added, not_not]
      apply mask_inactive
      intro c hc
      rw [← Bool.not_eq_true]
      intro hact
      have htrue := h.bound e c hc hact
      rw [show (s.entries e).evloop = false from hev] at htrue
      cases htrue
    exact hb.unbound hev ha

theorem inv_disable {s : Evloop} {e : EntryId} {c : CallbackId} (h : Inv s) (hc : (s.cbs c).fd_entry = some e) :
    Inv (crtx_evloop_disable_cb s e c) := by
  unfold crtx_evloop_disable_cb
  split
  · exact h
  · rename_i hact
    rw [modCb_active]
    apply inv_deactivate h
    · intro c' hne
      rw [update_active hne]
      exact hc
    · intro c' hc'
      by_cases heq : c' = c
      · rw [heq, Function.update_self] at hc'
        cases hc'
      · rwa [Function.update_of_ne heq] at hc'

theorem manage_cbs (s : Evloop) (e : EntryId) : (crtx_epoll_manage_fd s e).cbs = s.cbs := by
  unfold crtx_epoll_manage_fd Evloop.modEntry
  dsimp only
  split
  · split <;> rfl
  · rfl

theorem disable_inactive (s : Evloop) (e : EntryId) (c : CallbackId) :
    ((crtx_evloop_disable_cb s e c).cbs c).active = false := by
  unfold crtx_evloop_disable_cb
  split
  · assumption
  · dsimp only
    have hc : ((s.modCb c fun cb => { cb with active := false }).cbs c).active = false := by
      unfold Evloop.modCb
      dsimp only
      rw [Function.update_self]
    split
    · rw [manage_cbs]
      exact hc
    · exact hc

theorem inv_remove {s : Evloop} {e : EntryId} {c : CallbackId} (h : Inv s) (hc : (s.cbs c).fd_entry = some e) :
    Inv (crtx_evloop_remove_cb s e c) := by
  unfold crtx_evloop_remove_cb
  have hd := inv_disable h hc
  apply hd.modEntry rfl id
  · intro c' hc'
    rw [unlink_eq] at hc'
    exact hd.owner e c' (List.mem_of_mem_erase hc')
  · rw [unlink_eq]
    exact filter_erase_of_neg (a := c) (disable_inactive s e c) _

theorem close_callbacks (l : List CallbackId) : ∀ s : Evloop,
    l.foldl (fun s c => s.modCb c fun cb => { cb with active := false }) s =
      s.setActive fun c => decide (c ∉ l) && (s.cbs c).active := by
  induction l with
  | nil =>
    intro s
    simp [Evloop.setActive]
  | cons c l ih =>
    intro s
    rw [List.foldl_cons, ih, modCb_active]
    unfold Evloop.setActive
    congr 1
    funext c'
    by_cases hc : c' = c
    · simp [hc]
    · simp [hc]

theorem inv_closed {s : Evloop} (h : Inv s) (e : EntryId) : Inv (crtx_evloop_handle_fd_closed s e) := by
  unfold crtx_evloop_handle_fd_closed
  rw [close_callbacks]
  apply inv_deactivate h
  · intro c hne
    apply h.owner e c
    by_contra hmem
    simp [hmem] at hne
  · intro c hc
    simp only [Bool.and_eq_true] at hc
    exact hc.2

theorem step_inv {s s' : Evloop} {a : Action} (h : Inv s) (hs : step s a = some s') : Inv s' := by
  cases a with
  | create e c event_flags =>
    simp only [step, Option.ite_none_right_eq_some, Option.some.injEq] at hs
    obtain ⟨hc, rfl⟩ := hs
    exact inv_create h hc
  | enable c =>
    obtain ⟨e, hc, rfl⟩ := Option.map_eq_some_iff.mp hs
    exact inv_enable h hc
  | disable c =>
    simp only [step] at hs
    split at hs
    · obtain ⟨e, hc, rfl⟩ := Option.map_eq_some_iff.mp hs
      exact inv_disable h hc
    · cases hs
      exact h
  | remove c =>
    obtain ⟨e, hc, rfl⟩ := Option.map_eq_some_iff.mp hs
    exact inv_remove h hc
  | closed e =>
    cases hs
    exact inv_closed h e

/-! ## All runs -/

theorem registration (d : Descriptors) (as : List Action) (s : Evloop) (hr : run step as (init d) = some s)
    (e : EntryId) : Registered s e :=
  (run_invariant (fun _ _ _ hi hs => step_inv hi hs) as (init d) s (inv_init d) hr).registered e

/-- Entry `e` has descriptor `e`. -/
def identity : Descriptors where
  fd e := e
  distinct _ _ h := Int.ofNat.inj h
  nonneg := Int.natCast_nonneg

def busy : List Action :=
  [.create 3 0 CRTX_EVLOOP_READ, .create 3 1 CRTX_EVLOOP_WRITE, .create 4 2 CRTX_EVLOOP_READ, .enable 0, .enable 1,
    .enable 2, .enable 2, .disable 0, .disable 0, .remove 1, .enable 0, .closed 4]

/-- Two callbacks of one entry, one of which is removed, and another entry that is closed. -/
theorem registration_busy : ∃ s, run step busy (init identity) = some s ∧ s.mask 3 = EPOLLIN ∧ s.mask 4 = 0 ∧
    Registered s 3 ∧ Registered s 4 := by
  refine ⟨_, rfl, by decide, by decide, registration identity busy _ rfl 3, registration identity busy _ rfl 4⟩

end Libcortex.Epoll
