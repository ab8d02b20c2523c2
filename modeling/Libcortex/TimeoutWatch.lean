import Libcortex.Timeouts

/-!
# Which timeouts are watched

The two loops for timeouts visit the entries in `evloop->fds`. An entry is in that list for as long as its active
callbacks wait for an event of the file descriptor, and a timeout is no such event.
-/

open Libcortex.Lib Libcortex.Epoll Libcortex.Timeouts

namespace Libcortex.TimeoutWatch

structure St where
  loop : Evloop
  timeouts : CallbackId → Timeout

inductive Action where
  | create (e : EntryId) (c : CallbackId) (event_flags : BitVec 32)
  | enable (c : CallbackId)
  | disable (c : CallbackId)
  | timeout (c : CallbackId) (call : Call)
deriving DecidableEq

def onLoop (s : St) (a : Epoll.Action) : Option St := (Epoll.step s.loop a).map fun loop => { s with loop }

def step (s : St) : Action → Option St
  | .create e c event_flags => onLoop s (.create e c event_flags)
  | .enable c => onLoop s (.enable c)
  | .disable c => onLoop s (.disable c)
  | .timeout c call => some { s with timeouts := Function.update s.timeouts c (call.perform (s.timeouts c)) }

def init (d : Descriptors) : St where
  loop := Epoll.init d
  timeouts _ := ⟨false, .zero⟩

/-! ## What has to hold -/

/-- The loops visit every active callback whose timeout is enabled. -/
def Watched (s : St) : Prop :=
  ∀ c, (s.loop.cbs c).active = true → (s.timeouts c).timeout_enabled = true →
    ∃ e, (s.loop.cbs c).fd_entry = some e ∧ e ∈ s.loop.fds ∧ c ∈ (s.loop.entries e).callbacks

/-- A callback of the same entry, perhaps `c` itself, is active and waits for an event of the file descriptor. -/
def WaitsForFd (s : Evloop) (c : CallbackId) : Prop :=
  ∃ c', (s.cbs c').fd_entry = (s.cbs c).fd_entry ∧ (s.cbs c').active = true ∧
    (s.cbs c').crtx_event_flags &&&
      (CRTX_EVLOOP_READ ||| CRTX_EVLOOP_WRITE ||| CRTX_EVLOOP_SPECIAL ||| CRTX_EVLOOP_EDGE_TRIGGERED) ≠ 0

/-! ## The mask -/

theorem foldl_or_eq_zero {l : List (BitVec 32)} {a : BitVec 32} :
    l.foldl (· ||| ·) a = 0 ↔ a = 0 ∧ ∀ x ∈ l, x = 0 := by
  induction l generalizing a with
  | nil => simp
  | cons x l ih =>
    have hor : a ||| x = 0 ↔ a = 0 ∧ x = 0 := BitVec.or_eq_zero_iff
    rw [List.foldl_cons, ih, hor, List.forall_mem_cons, and_assoc]

theorem translate_eq_zero {pairs : List (BitVec 32 × BitVec 32)} {flags a : BitVec 32} (h : ∀ p ∈ pairs, p.2 ≠ 0) :
    pairs.foldl (fun ret p => if flags &&& p.1 ≠ 0 then ret ||| p.2 else ret) a = 0 ↔
      a = 0 ∧ ∀ p ∈ pairs, flags &&& p.1 = 0 := by
  induction pairs generalizing a with
  | nil => simp
  | cons p pairs ih =>
    obtain ⟨hp, hpairs⟩ := List.forall_mem_cons.mp h
    have hor : a ||| p.2 = 0 ↔ a = 0 ∧ p.2 = 0 := BitVec.or_eq_zero_iff
    rw [List.foldl_cons, ih hpairs, List.forall_mem_cons]
    split
    · rename_i hflag
      simp only [hor, hp, hflag, and_false, false_and]
    · rename_i hflag
      simp only [not_ne_iff.mp hflag, true_and]

theorem epoll_flags_eq_zero (flags : BitVec 32) : crtx_event_flags2epoll_flags flags = 0 ↔
    flags &&&
      (CRTX_EVLOOP_READ ||| CRTX_EVLOOP_WRITE ||| CRTX_EVLOOP_SPECIAL ||| CRTX_EVLOOP_EDGE_TRIGGERED) = 0 := by
  have hor : ∀ {a b : BitVec 32}, a ||| b = 0 ↔ a = 0 ∧ b = 0 := BitVec.or_eq_zero_iff
  unfold crtx_event_flags2epoll_flags Epoll.translate
  rw [translate_eq_zero (by simp [EPOLLIN, EPOLLOUT, EPOLLPRI, EPOLLET])]
  simp only [List.forall_mem_cons, BitVec.and_or_distrib_left, hor, and_assoc, true_and, List.not_mem_nil,
    IsEmpty.forall_iff, implies_true, and_true]

theorem mask_ne_zero {s : Evloop} {e : EntryId} :
    s.mask e ≠ 0 ↔ ∃ c ∈ (s.entries e).callbacks, (s.cbs c).active = true ∧
      (s.cbs c).crtx_event_flags &&&
        (CRTX_EVLOOP_READ ||| CRTX_EVLOOP_WRITE ||| CRTX_EVLOOP_SPECIAL ||| CRTX_EVLOOP_EDGE_TRIGGERED) ≠ 0 := by
  unfold Evloop.mask
  rw [ne_eq, foldl_or_eq_zero, eq_self, true_and]
  simp only [List.forall_mem_map, List.mem_filter, not_forall, exists_prop, and_assoc, epoll_flags_eq_zero, ne_eq]

theorem listed_iff {s : Evloop} {e : EntryId} (h : Registered s e) : e ∈ s.fds ↔ s.mask e ≠ 0 := by
  rw [← List.count_pos_iff, h.listed, ← h.added]
  split <;> simp [*]

/-! ## All runs -/

/-- A callback that was created is in the list of its entry. -/
def Linking (s : Evloop) : Prop := ∀ c e, (s.cbs c).fd_entry = some e → c ∈ (s.entries e).callbacks

theorem manage_callbacks (s : Evloop) (e e' : EntryId) :
    ((crtx_epoll_manage_fd s e).entries e').callbacks = (s.entries e').callbacks := by
  have hmod : ∀ b, ((s.modEntry e fun en => { en with fd_added := b }).entries e').callbacks =
      (s.entries e').callbacks := by
    intro b
    unfold Evloop.modEntry
    dsimp only
    by_cases he : e' = e
    · rw [he, Function.update_self]
    · rw [Function.update_of_ne he]
  unfold crtx_epoll_manage_fd
  dsimp only
  split
  · split
    · rfl
    · exact hmod _
  · exact hmod _

theorem disable_callbacks (s : Evloop) (e e' : EntryId) (c : CallbackId) :
    ((crtx_evloop_disable_cb s e c).entries e').callbacks = (s.entries e').callbacks := by
  unfold crtx_evloop_disable_cb
  split
  · rfl
  · dsimp only
    split
    · exact manage_callbacks _ e e'
    · rfl

theorem enable_callbacks (s : Evloop) (e e' : EntryId) (c : CallbackId) :
    ((crtx_evloop_enable_cb s e c).entries e').callbacks = (s.entries e').callbacks := by
  unfold crtx_evloop_enable_cb
  rw [manage_callbacks]
  unfold Evloop.modEntry Evloop.modCb
  dsimp only
  by_cases he : e' = e
  · rw [he, Function.update_self]
  · rw [Function.update_of_ne he]

theorem modCb_fd_entry (s : Evloop) (c c' : CallbackId) {f : Callback → Callback}
    (hf : ∀ cb, (f cb).fd_entry = cb.fd_entry) : ((s.modCb c f).cbs c').fd_entry = (s.cbs c').fd_entry := by
  unfold Evloop.modCb
  dsimp only
  by_cases hc : c' = c
  · rw [hc, Function.update_self, hf]
  · rw [Function.update_of_ne hc]

theorem Linking.congr {s t : Evloop} (h : Linking s) (hc : ∀ c, (t.cbs c).fd_entry = (s.cbs c).fd_entry)
    (he : ∀ e, (t.entries e).callbacks = (s.entries e).callbacks) : Linking t := by
  intro c e hfd
  rw [he]
  exact h c e ((hc c).symm.trans hfd)

theorem Linking.create {s : Evloop} (h : Linking s) (e : EntryId) (c : CallbackId) (event_flags : BitVec 32) :
    Linking (crtx_evloop_create_fd_entry s e c event_flags) := by
  have happend : ∀ l : List CallbackId, c ∈ (SList.append l c).1 ∧ l ⊆ (SList.append l c).1 := by
    intro l
    unfold SList.append
    split
    · exact ⟨‹_›, List.Subset.refl l⟩
    · exact ⟨by simp, List.subset_append_left ..⟩
  intro c' e' hfd
  unfold crtx_evloop_create_fd_entry Evloop.modCb Evloop.modEntry at *
  dsimp only at *
  by_cases hc : c' = c
  · subst hc
    rw [Function.update_self] at hfd
    cases hfd
    rw [Function.update_self]
    exact (happend _).1
  · rw [Function.update_of_ne hc] at hfd
    by_cases he : e' = e
    · subst he
      rw [Function.update_self]
      exact (happend _).2 (h c' e' hfd)
    · rw [Function.update_of_ne he]
      exact h c' e' hfd

theorem Linking.enable {s : Evloop} (h : Linking s) (e : EntryId) (c : CallbackId) :
    Linking (crtx_evloop_enable_cb s e c) := by
  refine h.congr (fun c' => ?_) (enable_callbacks s e · c)
  unfold crtx_evloop_enable_cb
  rw [manage_cbs]
  exact modCb_fd_entry (f := fun cb => { cb with active := true }) s c c' fun _ => rfl

theorem Linking.disable {s : Evloop} (h : Linking s) (e : EntryId) (c : CallbackId) :
    Linking (crtx_evloop_disable_cb s e c) := by
  refine h.congr (fun c' => ?_) (disable_callbacks s e · c)
  unfold crtx_evloop_disable_cb
  split
  · rfl
  · dsimp only
    split
    · rw [manage_cbs]
      exact modCb_fd_entry s c c' fun _ => rfl
    · exact modCb_fd_entry s c c' fun _ => rfl

structure Inv (s : St) : Prop where
  loop : Epoll.Inv s.loop
  linking : Linking s.loop

theorem step_inv {s s' : St} {a : Action} (h : Inv s) (hs : step s a = some s') : Inv s' := by
  cases a with
  | create e c event_flags =>
    obtain ⟨loop, hl, rfl⟩ := Option.map_eq_some_iff.mp hs
    refine ⟨Epoll.step_inv h.loop hl, ?_⟩
    obtain ⟨-, rfl⟩ := (Option.ite_none_right_eq_some.mp hl).imp_right Option.some.inj
    exact h.linking.create e c event_flags
  | enable c =>
    obtain ⟨loop, hl, rfl⟩ := Option.map_eq_some_iff.mp hs
    refine ⟨Epoll.step_inv h.loop hl, ?_⟩
    obtain ⟨e, -, rfl⟩ := Option.map_eq_some_iff.mp hl
    exact h.linking.enable e c
  | disable c =>
    obtain ⟨loop, hl, rfl⟩ := Option.map_eq_some_iff.mp hs
    refine ⟨Epoll.step_inv h.loop hl, ?_⟩
    unfold Epoll.step at hl
    dsimp only at hl
    split at hl
    · obtain ⟨e, -, rfl⟩ := Option.map_eq_some_iff.mp hl
      exact h.linking.disable e c
    · cases hl
      exact h.linking
  | timeout c call =>
    cases hs
    exact ⟨h.loop, h.linking⟩

theorem visited_iff {s : St} (h : Inv s) {c : CallbackId} (hact : (s.loop.cbs c).active = true) :
    (∃ e, (s.loop.cbs c).fd_entry = some e ∧ e ∈ s.loop.fds ∧ c ∈ (s.loop.entries e).callbacks) ↔
      WaitsForFd s.loop c := by
  have hmem : ∀ c e, (s.loop.cbs c).fd_entry = some e ↔ c ∈ (s.loop.entries e).callbacks :=
    fun c e => ⟨h.linking c e, h.loop.owner e c⟩
  constructor
  · rintro ⟨e, hfd, hfds, -⟩
    obtain ⟨c', hc', hw⟩ := mask_ne_zero.mp ((listed_iff (h.loop.registered e)).mp hfds)
    exact ⟨c', ((hmem c' e).mpr hc').trans hfd.symm, hw⟩
  · rintro ⟨c', hfd', hw⟩
    obtain ⟨e, hfd⟩ : ∃ e, (s.loop.cbs c).fd_entry = some e := by
      rw [← Option.ne_none_iff_exists']
      intro hnone
      rw [h.loop.fresh c hnone] at hact
      cases hact
    have hlisted : e ∈ s.loop.fds := (listed_iff (h.loop.registered e)).mpr
      (mask_ne_zero.mpr ⟨c', (hmem c' e).mp (hfd'.trans hfd), hw⟩)
    exact ⟨e, hfd, hlisted, (hmem c e).mp hfd⟩

/-- In every state of every run, the timeouts are watched of those callbacks whose entry has an active callback that
waits for the file descriptor, and of no others. -/
theorem timeouts_watched (d : Descriptors) {as : List Action} {s : St} (hr : run step as (init d) = some s) :
    Watched s ↔ ∀ c, (s.loop.cbs c).active = true → (s.timeouts c).timeout_enabled = true → WaitsForFd s.loop c := by
  have hinit : Inv (init d) := ⟨inv_init d, nofun⟩
  have h : Inv s := run_invariant (fun _ _ _ hi hs => step_inv hi hs) as (init d) s hinit hr
  exact forall_congr' fun c => forall₂_congr fun hact _ => visited_iff h hact

def timeoutOnly : List Action :=
  [.create 3 0 CRTX_EVLOOP_TIMEOUT, .enable 0, .timeout 0 (.set_rel .zero 1000000)]

theorem timeouts_watched_timeout_only :
    ∃ s, run step timeoutOnly (init identity) = some s ∧ (s.loop.cbs 0).active = true ∧
      (s.timeouts 0).timeout_enabled = true ∧ s.loop.fds = [] ∧ ¬ Watched s := by
  refine ⟨_, rfl, rfl, rfl, rfl, fun h => ?_⟩
  obtain ⟨e, -, hfds, -⟩ := h 0 rfl rfl
  cases hfds

/-- A second callback of the entry waits for input. -/
theorem timeouts_watched_shared :
    ∃ s, run step (timeoutOnly ++ [.create 3 1 CRTX_EVLOOP_READ, .enable 1]) (init identity) = some s ∧
      Watched s := by
  obtain ⟨s, hs, hfd, hw, hothers⟩ : ∃ s, run step (timeoutOnly ++ [.create 3 1 CRTX_EVLOOP_READ, .enable 1])
      (init identity) = some s ∧ (s.loop.cbs 0).fd_entry = (s.loop.cbs 1).fd_entry ∧
      ((s.loop.cbs 1).active = true ∧ (s.loop.cbs 1).crtx_event_flags = CRTX_EVLOOP_READ) ∧
      ∀ c, (s.loop.cbs (c + 2)).active = false := ⟨_, rfl, rfl, ⟨rfl, rfl⟩, fun _ => rfl⟩
  refine ⟨s, hs, (timeouts_watched identity hs).mpr fun c hact _ => ?_⟩
  rcases c with _ | _ | c
  · exact ⟨1, hfd.symm, hw.1, by rw [hw.2]; decide⟩
  · exact ⟨1, rfl, hw.1, by rw [hw.2]; decide⟩
  · rw [hothers] at hact
    cases hact

end Libcortex.TimeoutWatch
