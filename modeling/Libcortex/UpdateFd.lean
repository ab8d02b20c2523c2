import Libcortex.Registration

/-!
# Another descriptor for a listener

`crtx_evloop_update_default_fd` of `evloop.c` disables the default callback of the listener, changes the number that all
callbacks of the entry share, and enables the default callback again. The kernel knows only the numbers.
-/

open Libcortex.Lib

namespace Libcortex.Epoll

def Evloop.setFd (s : Evloop) (e : EntryId) (fd : Int) : Evloop := { s with fd := Function.update s.fd e fd }

/-- `c` is the default callback of the listener, and `e` is its entry. -/
def crtx_evloop_update_default_fd (s : Evloop) (e : EntryId) (c : CallbackId) (fd : Int) : Evloop :=
  let s := (crtx_evloop_disable_cb s e c).setFd e fd
  if 0 ≤ fd then crtx_evloop_enable_cb s e c else s

/-! ## What has to hold -/

/-- The event loop runs, and the kernel knows the descriptor of the entry if and only if `fd_added` is set. -/
structure Tied (s : Evloop) (e : EntryId) : Prop where
  stop : s.stop = false
  after_fork_close : s.after_fork_close = false
  kernel : (s.kernel (s.fd e)).isSome = (s.entries e).fd_added
  bound : (s.entries e).fd_added = true → (s.entries e).evloop = true ∧ 0 ≤ s.fd e

/-- `s'` is the state afterwards. -/
structure Moved (s s' : Evloop) (e : EntryId) (fd : Int) : Prop where
  gone : s.fd e ≠ fd → s'.kernel (s.fd e) = none
  registered : 0 ≤ fd → s'.kernel fd = some (s'.mask e)

def Evloop.withActive (s : Evloop) (c : CallbackId) (active : Bool) : Evloop := s.modCb c fun cb => { cb with active }

def Evloop.maskWith (s : Evloop) (e : EntryId) (c : CallbackId) (active : Bool) : BitVec 32 :=
  (s.withActive c active).mask e

/-- If the default callback can be disabled, no other active callback waits for anything. If not, the descriptor is not
registered. -/
def Vacates (s : Evloop) (e : EntryId) (c : CallbackId) : Prop :=
  if (s.cbs c).active = true ∧ (s.entries e).evloop = true then s.maskWith e c false = 0 ∨ s.fd e < 0
  else (s.entries e).fd_added = false

/-- No other entry has the new descriptor, unless for the same events. -/
def Movable (s : Evloop) (e : EntryId) (c : CallbackId) (fd : Int) : Prop :=
  (s.fd e = fd ∨ Vacates s e c) ∧
    (0 ≤ fd → s.maskWith e c true ≠ 0 ∧
      (s.fd e = fd ∨ s.kernel fd = none ∨ s.kernel fd = some (s.maskWith e c true)))

/-! ## What the kernel is told -/

/-- The kernel and `fd_added` after `crtx_epoll_manage_fd`. -/
def Evloop.told (s : Evloop) (e : EntryId) : Kernel × Bool :=
  if s.mask e = 0 then (if 0 ≤ s.fd e then Function.update s.kernel (s.fd e) none else s.kernel, false)
  else if (s.entries e).fd_added then ((epoll_ctl s.kernel .mod (s.fd e) (s.mask e)).1, true)
  else
    ((epoll_ctl s.kernel .add (s.fd e) (s.mask e)).1, (epoll_ctl s.kernel .add (s.fd e) (s.mask e)).2 = 0)

theorem manage_told {s : Evloop} (hstop : s.stop = false) (hclose : s.after_fork_close = false) (e : EntryId) :
    ∃ fds, crtx_epoll_manage_fd s e =
      { s.modEntry e fun en => { en with fd_added := (s.told e).2 } with kernel := (s.told e).1, fds } := by
  unfold crtx_epoll_manage_fd Evloop.told
  rw [collectEvents_eq]
  by_cases hm : s.mask e = 0
  · refine ⟨(SList.unlink s.fds e).1, ?_⟩
    rw [if_neg (not_not.mpr hm), if_pos hm]
    by_cases hfd : 0 ≤ s.fd e
    · simp [hfd, hclose, hstop, crtx_epoll_del_fd_intern, ctl_del hfd]
    · simp [hfd]
  · rw [if_pos hm, if_neg hm]
    cases ha : (s.entries e).fd_added with
    | true =>
      refine ⟨s.fds, ?_⟩
      rw [modEntry_self (by simp [← ha])]
      simp [crtx_epoll_mod_fd_intern, hstop]
    | false => exact ⟨(SList.append s.fds e).1, rfl⟩

theorem told_frame (s : Evloop) (e : EntryId) (fd : Int) (hne : fd ≠ s.fd e) : (s.told e).1 fd = s.kernel fd := by
  have hctl : ∀ op events, (epoll_ctl s.kernel op (s.fd e) events).1 fd = s.kernel fd := by
    intro op events
    unfold epoll_ctl
    split
    · rfl
    · split <;> simp [hne]
  unfold Evloop.told
  split
  · split <;> simp [hne]
  · split <;> exact hctl ..

theorem told_tied {s : Evloop} {e : EntryId} (hk : (s.kernel (s.fd e)).isSome = (s.entries e).fd_added)
    (hfd : (s.entries e).fd_added = true → 0 ≤ s.fd e) :
    ((s.told e).1 (s.fd e)).isSome = (s.told e).2 ∧ ((s.told e).2 = false ↔ s.mask e = 0 ∨ s.fd e < 0) := by
  unfold Evloop.told
  by_cases hm : s.mask e = 0
  · rw [if_pos hm]
    refine ⟨?_, iff_of_true rfl (.inl hm)⟩
    split
    · dsimp only
      rw [Function.update_self]
      rfl
    · rename_i hneg
      rw [hk, ← Bool.not_eq_true]
      exact fun ha => hneg (hfd ha)
  · rw [if_neg hm, or_iff_right hm]
    cases ha : (s.entries e).fd_added with
    | true =>
      rw [ha] at hk
      obtain ⟨old, hk⟩ := Option.isSome_iff_exists.mp hk
      have hfd := hfd ha
      rw [if_pos rfl, ctl_mod hfd hk]
      dsimp only
      rw [Function.update_self]
      exact ⟨rfl, iff_of_false Bool.noConfusion (by omega)⟩
    | false =>
      rw [if_neg Bool.false_ne_true]
      rw [ha, Option.isSome_eq_false_iff, Option.isNone_iff_eq_none] at hk
      by_cases hneg : s.fd e < 0
      · rw [ctl_negative hneg]
        dsimp only
        rw [hk]
        exact ⟨rfl, iff_of_true rfl hneg⟩
      · rw [ctl_add (Int.not_lt.mp hneg) hk]
        dsimp only
        rw [Function.update_self]
        exact ⟨rfl, iff_of_false Bool.noConfusion hneg⟩

theorem told_registered {s : Evloop} {e : EntryId} (hfd : 0 ≤ s.fd e) :
    (s.told e).1 (s.fd e) = some (s.mask e) ↔
      s.mask e ≠ 0 ∧ if (s.entries e).fd_added then (s.kernel (s.fd e)).isSome = true
        else s.kernel (s.fd e) = none ∨ s.kernel (s.fd e) = some (s.mask e) := by
  unfold Evloop.told
  by_cases hm : s.mask e = 0
  · rw [if_pos hm, if_pos hfd]
    dsimp only
    rw [Function.update_self]
    exact iff_of_false (Option.some_ne_none _).symm fun h => h.1 hm
  · rw [if_neg hm, and_iff_right hm]
    cases hk : s.kernel (s.fd e) with
    | none =>
      split
      · simp [ctl_mod_absent hk, hk]
      · simp [ctl_add hfd hk]
    | some old =>
      split
      · simp [ctl_mod hfd hk]
      · simp [ctl_add_present hk, hk]

/-! ## Disabling and enabling -/

/-- The state after the default callback was disabled. -/
structure After (s s' : Evloop) (e : EntryId) (c : CallbackId) : Prop where
  stop : s'.stop = false
  after_fork_close : s'.after_fork_close = false
  cbs : s'.cbs = (s.withActive c false).cbs
  callbacks : (s'.entries e).callbacks = (s.entries e).callbacks
  kernel : (s'.kernel (s.fd e)).isSome = (s'.entries e).fd_added
  added : (s'.entries e).fd_added = false ↔ Vacates s e c
  frame : ∀ fd, fd ≠ s.fd e → s'.kernel fd = s.kernel fd

theorem disable_after {s : Evloop} {e : EntryId} (h : Tied s e) (c : CallbackId) :
    After s (crtx_evloop_disable_cb s e c) e c := by
  unfold crtx_evloop_disable_cb
  by_cases hact : (s.cbs c).active = false
  · rw [if_pos hact]
    have hsame : s.cbs = (s.withActive c false).cbs := by
      refine (Function.update_eq_self_iff.mpr ?_).symm
      rw [← hact]
    exact ⟨h.stop, h.after_fork_close, hsame, rfl, h.kernel, by simp [Vacates, hact], fun _ _ => rfl⟩
  have hact' := Bool.eq_true_of_not_eq_false hact
  rw [if_neg hact]
  change After s (if (s.entries e).evloop then crtx_epoll_manage_fd (s.withActive c false) e else s.withActive c false)
    e c
  cases hev : (s.entries e).evloop with
  | false =>
    have hadded : (s.entries e).fd_added = false := by
      rw [← Bool.not_eq_true]
      intro ha
      exact Bool.noConfusion (hev.symm.trans (h.bound ha).1)
    exact ⟨h.stop, h.after_fork_close, rfl, rfl, h.kernel, iff_of_true hadded (by simp [Vacates, hev, hadded]),
      fun _ _ => rfl⟩
  | true =>
    obtain ⟨fds, hmanage⟩ := manage_told (s := s.withActive c false) h.stop h.after_fork_close e
    obtain ⟨hkernel, hadded⟩ := told_tied (s := s.withActive c false) h.kernel fun ha => (h.bound ha).2
    have hvacates : Vacates s e c ↔ s.maskWith e c false = 0 ∨ s.fd e < 0 := by
      unfold Vacates
      rw [if_pos ⟨hact', hev⟩]
    rw [if_pos rfl, hmanage]
    have hentry : ∀ f, ((s.withActive c false).modEntry e f).entries e = f (s.entries e) := fun f =>
      Function.update_self ..
    refine ⟨h.stop, h.after_fork_close, rfl, ?_, ?_, ?_, told_frame (s.withActive c false) e⟩
    · dsimp only
      rw [hentry]
    · dsimp only
      rw [hentry]
      exact hkernel
    · dsimp only
      rw [hentry, hvacates]
      exact hadded

theorem enable_told {s : Evloop} {e : EntryId} (c : CallbackId) (hstop : s.stop = false)
    (hclose : s.after_fork_close = false) :
    ∃ t : Evloop, t.fd = s.fd ∧ t.kernel = s.kernel ∧ (t.entries e).fd_added = (s.entries e).fd_added ∧
      t.mask e = s.maskWith e c true ∧ (crtx_evloop_enable_cb s e c).kernel = (t.told e).1 ∧
      (crtx_evloop_enable_cb s e c).mask e = t.mask e := by
  obtain ⟨fds, hmanage⟩ := manage_told (s := (s.withActive c true).modEntry e fun en => { en with evloop := true })
    hstop hclose e
  have henable : crtx_evloop_enable_cb s e c =
      crtx_epoll_manage_fd ((s.withActive c true).modEntry e fun en => { en with evloop := true }) e := rfl
  rw [henable, hmanage]
  refine ⟨(s.withActive c true).modEntry e fun en => { en with evloop := true }, rfl, rfl, ?_,
    mask_congr ?_ fun _ _ => rfl, rfl, mask_congr ?_ fun _ _ => rfl⟩
  · simp [Evloop.modEntry, Evloop.withActive, Evloop.modCb]
  · simp [Evloop.modEntry, Evloop.withActive, Evloop.modCb]
  · simp [Evloop.modEntry, Evloop.withActive, Evloop.modCb]

theorem After.maskWith {s s' : Evloop} {e : EntryId} {c : CallbackId} (h : After s s' e c) :
    s'.maskWith e c true = s.maskWith e c true := by
  have hcbs : (s'.withActive c true).cbs = (s.withActive c true).cbs := by
    change Function.update s'.cbs c _ = Function.update s.cbs c _
    rw [h.cbs]
    simp [Evloop.withActive, Evloop.modCb]
  exact mask_congr h.callbacks fun c' _ => congrFun hcbs c'

theorem moved_iff {s s' : Evloop} {e : EntryId} {fd : Int} :
    Moved s s' e fd ↔ (s.fd e ≠ fd → s'.kernel (s.fd e) = none) ∧ (0 ≤ fd → s'.kernel fd = some (s'.mask e)) :=
  ⟨fun h => ⟨h.gone, h.registered⟩, fun h => ⟨h.1, h.2⟩⟩

theorem After.enable {s s' : Evloop} {e : EntryId} {c : CallbackId} (h : After s s' e c) {fd : Int} (hfd : 0 ≤ fd) :
    Moved s (crtx_evloop_enable_cb (s'.setFd e fd) e c) e fd ↔
      (s.fd e ≠ fd → s'.kernel (s.fd e) = none) ∧ s.maskWith e c true ≠ 0 ∧
        if (s'.entries e).fd_added then (s'.kernel fd).isSome = true
        else s'.kernel fd = none ∨ s'.kernel fd = some (s.maskWith e c true) := by
  obtain ⟨t, htfd, hkernel, hadded, htm, hafter, hmask⟩ := enable_told (s := s'.setFd e fd) (e := e) c h.stop
    h.after_fork_close
  have htfd : t.fd e = fd := (congrFun htfd e).trans (Function.update_self ..)
  have htm : t.mask e = s.maskWith e c true := htm.trans h.maskWith
  have hreg := told_registered (s := t) (e := e) (by omega)
  have hframe := told_frame t e (s.fd e)
  rw [htfd, hkernel, hadded, htm] at hreg
  rw [htfd, hkernel] at hframe
  rw [moved_iff, hafter, hmask, htm, hreg]
  refine and_congr (forall_congr' fun hne => ?_) (forall_prop_of_true hfd)
  rw [hframe hne]
  rfl

/-- The old descriptor is gone and the new one registered, if and only if the entry keeps its descriptor, or the default
callback alone held the old one and the new one is free. -/
theorem update_default_fd_moved {s : Evloop} {e : EntryId} (h : Tied s e) (c : CallbackId) (fd : Int) :
    Moved s (crtx_evloop_update_default_fd s e c fd) e fd ↔ Movable s e c fd := by
  have ha := disable_after h c
  unfold crtx_evloop_update_default_fd Movable
  dsimp only
  generalize crtx_evloop_disable_cb s e c = s' at ha ⊢
  have hgone : s'.kernel (s.fd e) = none ↔ Vacates s e c := by
    rw [← ha.added, ← ha.kernel, Option.isSome_eq_false_iff, Option.isNone_iff_eq_none]
  by_cases hfd : 0 ≤ fd
  · rw [if_pos hfd, ha.enable hfd, hgone, forall_prop_of_true hfd]
    by_cases hsame : s.fd e = fd
    · subst hsame
      -- What `fd_added` says is right here, so the descriptor can be registered.
      have hfree : if (s'.entries e).fd_added then (s'.kernel (s.fd e)).isSome = true
          else s'.kernel (s.fd e) = none ∨ s'.kernel (s.fd e) = some (s.maskWith e c true) := by
        rw [← ha.kernel]
        cases s'.kernel (s.fd e) <;> simp
      simp [hfree]
    · rw [ha.frame fd (Ne.symm hsame), or_iff_right hsame, or_iff_right hsame, forall_prop_of_true hsame]
      refine and_congr_right fun hv => ?_
      rw [ha.added.mpr hv, if_neg Bool.false_ne_true]
  · rw [if_neg hfd, moved_iff, and_iff_left fun h0 => absurd h0 hfd, and_iff_left fun h0 => absurd h0 hfd]
    rw [← hgone, or_iff_not_imp_left]
    rfl

theorem Inv.tied {s : Evloop} (h : Inv s) (e : EntryId) : Tied s e := by
  refine ⟨h.stop, h.after_fork_close, (h.registered e).tracked.kernel, fun ha => ⟨?_, h.nonneg e⟩⟩
  by_contra hev
  refine (h.registered e).added.mp ha (mask_inactive fun c hc => ?_)
  rw [← Bool.not_eq_true]
  exact fun hact => hev (h.bound e c hc hact)

theorem run_tied (d : Descriptors) (as : List Action) {s : Evloop} (hr : run step as (init d) = some s)
    (e : EntryId) : Tied s e :=
  (run_invariant (fun _ _ _ hi hs => step_inv hi hs) as (init d) s (inv_init d) hr).tied e

def oneReader : List Action := [.create 5 0 CRTX_EVLOOP_READ, .enable 0]

theorem update_default_fd_moved_one : ∃ s, run step oneReader (init identity) = some s ∧
    (Moved s (crtx_evloop_update_default_fd s 5 0 7) 5 7 ↔ Movable s 5 0 7) :=
  ⟨_, rfl, update_default_fd_moved (run_tied identity oneReader rfl 5) 0 7⟩

/-- Another callback of the entry is active. The old descriptor stays, and the new one is not known to the kernel. -/
theorem update_default_fd_moved_two : ∃ s,
    run step (oneReader ++ [.create 5 1 CRTX_EVLOOP_READ, .enable 1]) (init identity) = some s ∧
      ¬ Moved s (crtx_evloop_update_default_fd s 5 0 7) 5 7 :=
  ⟨_, rfl, fun h => absurd (h.gone (by decide)) (by decide)⟩

end Libcortex.Epoll
