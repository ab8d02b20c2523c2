import Libcortex.Frame
import Libcortex.SList

/-!
# Shutting down all listeners

The loop of `crtx_finish` remembers the listener behind the current one before it shuts the current
one down. If that takes the remembered listener off the list as well, because the `shutdown` callback shuts down
other listeners, the loop goes on from a listener that leads nowhere, or that is gone.
-/

open Libcortex.Lib Libcortex.SList

namespace Libcortex.Finish

/-! ## Shutdown with nested shutdowns -/

/-- The listeners with the list `crtx_root->listeners`. `called` has those that `crtx_shutdown_listener` was called
on. -/
structure Sys where
  env : Env
  listeners : Ll ListenerId
  called : List ListenerId

/-- What a `shutdown` callback does: it adds events and shuts down listeners. The callbacks of those do `inner`, if
they are called. -/
inductive Calls where
  | done
  | add (p : GraphId × EventId) (rest : Calls)
  | shutdown (l : ListenerId) (o : Outcome) (inner rest : Calls)

/-- The `shutdown` callback of the listener, if it has one, is `cb`. -/
def runShutdownCbWith (cb : Sys → Option Sys) (s : Sys) (l : ListenerId) (o : Outcome) : Option Sys :=
  if (s.env.lstnr l).shutdown_cb then cb s else some { s with env := runShutdownCb s.env l o }

/-- `crtx_shutdown_listener`, where the `shutdown` callback is `cb`. `none`: the loop over the list did not come to an
end. -/
def shutdownWith (fuel : Nat) (cb : Sys → Option Sys) (s : Sys) (l : ListenerId) (o : Outcome) : Option Sys :=
  let env := (crtx_stop_listener (s.env.emit (.callShutdown l)) l o).1.lock (.state l)
  let s := { s with env, called := l :: s.called }
  let st := (env.lstnr l).state
  if st.num < LstnrState.stopped.num ∨ st = .shuttingDown then some { s with env := env.unlock (.state l) }
  else if st = .shutdown then some { s with env := retryShutdown env l }
  else do
    let env := removeCallbacks ((env.setState l .shuttingDown).unlock (.state l)) l
    let s ← runShutdownCbWith cb { s with env } l o
    let (listeners, _) ← crtx_ll_unlink fuel s.listeners l
    return { s with env := finishShutdown s.env l, listeners }

def runCalls (fuel : Nat) : Calls → Sys → Option Sys
  | .done, s => some s
  | .add p rest, s => runCalls fuel rest { s with env := s.env.addEvent p }
  | .shutdown l o inner rest, s => (shutdownWith fuel (runCalls fuel inner) s l o).bind (runCalls fuel rest)

/-! ## The loop -/

/-- `eloop` is the listener of the event loop. When the loop shuts down a listener, its callback behaves as `beh`
says. -/
structure Setup where
  eloop : Option ListenerId
  beh : ListenerId → Outcome × Calls

/-- The body of the loop, behind `itn = it->next`. -/
def body (fuel : Nat) (u : Setup) (s : Sys) (it : ListenerId) : Option Sys :=
  if u.eloop = some it then some s else shutdownWith fuel (runCalls fuel (u.beh it).2) s it (u.beh it).1

/-- The flag says that the loop came to a listener that was freed. What it reads there could be anything, so the loop
is not followed any further. -/
def finishLoop (fuel : Nat) (u : Setup) : Nat → Option ListenerId → Sys → Option (Sys × Bool)
  | 0, _, _ => none
  | _ + 1, none, s => some (s, false)
  | n + 1, some it, s =>
    if s.env.lfreed it then some (s, true) else (body fuel u s it).bind (finishLoop fuel u n (s.listeners.next it))

/-- The loop of `crtx_finish`. -/
def crtx_finish (fuel : Nat) (u : Setup) (s : Sys) : Option (Sys × Bool) :=
  finishLoop fuel u fuel s.listeners.head s

/-! ## What has to hold -/

/-- `crtx_shutdown_listener` was called on all of `l`, and nothing was read that had been freed. -/
structure ShutsAllDown (u : Setup) (l : List ListenerId) (r : Sys × Bool) : Prop where
  called : ∀ a ∈ l, u.eloop ≠ some a → a ∈ r.1.called
  safe : r.2 = false

/-- The nodes from `h` on. -/
def nodes (next : ListenerId → Option ListenerId) : Nat → Option ListenerId → List ListenerId
  | 0, _ => []
  | _ + 1, none => []
  | n + 1, some a => a :: nodes next n (next a)

def Sys.registered (fuel : Nat) (s : Sys) : List ListenerId := nodes s.listeners.next fuel s.listeners.head

/-- A shutdown took the listener `a` off the list, which the loop comes to next and ends at. That does no harm if it
still exists and nobody in the list waits to be shut down. -/
def MayEnd (fuel : Nat) (u : Setup) (s : Sys) (a : ListenerId) : Prop :=
  s.env.lfreed a = false ∧ ∀ b ∈ s.registered fuel, u.eloop ≠ some b → b ∈ s.called

instance (fuel : Nat) (u : Setup) (s : Sys) (a : ListenerId) : Decidable (MayEnd fuel u s a) :=
  inferInstanceAs (Decidable (_ ∧ ∀ _ ∈ _, _))

/-- Whenever the loop shuts down a listener, the next one stays in the list, or the loop may end there. -/
def Careful (fuel : Nat) (u : Setup) : Nat → Option ListenerId → Sys → Prop
  | n + 1, some it, s =>
    ∀ s' ∈ body fuel u s it, ∀ a ∈ s.listeners.next it,
      if a ∈ s'.registered fuel then Careful fuel u n (some a) s' else MayEnd fuel u s' a
  | _, _, _ => True

instance Careful.decidable (fuel : Nat) (u : Setup) : ∀ n h s, Decidable (Careful fuel u n h s)
  | 0, _, _ => .isTrue trivial
  | _ + 1, none, _ => .isTrue trivial
  | n + 1, some it, s =>
    have : ∀ s' a, Decidable (if a ∈ s'.registered fuel then Careful fuel u n (some a) s' else MayEnd fuel u s' a) :=
      fun s' a =>
        have := Careful.decidable fuel u n (some a) s'
        inferInstance
    inferInstanceAs (Decidable (∀ s' ∈ body fuel u s it, ∀ a ∈ s.listeners.next it, _))

/-! ## What a shutdown does to other listeners -/

/-- Nothing but `l` is freed or changes its state. -/
structure Spares (l : ListenerId) (env env' : Env) : Prop where
  state : ∀ a, a ≠ l → (env'.lstnr a).state = (env.lstnr a).state
  lfreed : ∀ a, a ≠ l → env'.lfreed a = env.lfreed a

theorem Spares.trans {l : ListenerId} {env env' env'' : Env} (h : Spares l env env') (h' : Spares l env' env'') :
    Spares l env env'' where
  state a ha := (h'.state a ha).trans (h.state a ha)
  lfreed a ha := (h'.lfreed a ha).trans (h.lfreed a ha)

theorem Spares.does {l : ListenerId} {acts : List Act} {env env' : Env} (h : Does l acts env env') :
    Spares l env env' where
  state _ ha := h.state_other ha
  lfreed a _ := by rw [h.calm.lfreed]

theorem Spares.intern (env : Env) (l : ListenerId) : Spares l env (shutdown_listener_intern env l) where
  state a ha := by rw [intern_other env ha]
  lfreed a ha := by
    have h := intern_cases env l
    generalize shutdown_listener_intern env l = env' at h ⊢
    have hiff : env'.lfreed a = true ↔ env.lfreed a = true := by
      cases h with
      | frees _ _ _ _ hfreed => simp [hfreed, ha]
      | keeps _ _ _ _ hfreed => simp [hfreed, ha]
    exact Bool.eq_iff_iff.mpr hiff

/-- The listener has been shut down, or is about to be. -/
def Late (env : Env) (l : ListenerId) : Prop := LstnrState.shuttingDown.num ≤ (env.lstnr l).state.num

theorem late_iff {env : Env} {l : ListenerId} :
    Late env l ↔ (env.lstnr l).state = .shuttingDown ∨ (env.lstnr l).state = .shutdown := by
  unfold Late
  cases (env.lstnr l).state <;> decide

theorem Late.congr {env env' : Env} {l : ListenerId} (h : Late env l)
    (hs : (env'.lstnr l).state = (env.lstnr l).state) : Late env' l := by
  unfold Late
  rw [hs]
  exact h

theorem askedToStop_spec (env : Env) (l : ListenerId) (o : Outcome) :
    Spares l env (askedToStop env l o) ∧ (askedToStop env l o).lfreed = env.lfreed ∧
      (((askedToStop env l o).lstnr l).state = (env.lstnr l).state ∨
        (env.lstnr l).state.num < LstnrState.stopped.num ∧
          (((askedToStop env l o).lstnr l).state = .stopping ∨ ((askedToStop env l o).lstnr l).state = .stopped)) := by
  obtain ⟨-, hd⟩ | ⟨hlt, -, hd⟩ | ⟨hlt, -, hd⟩ := askedToStop_does env l o
  · exact ⟨.does hd, hd.calm.lfreed, .inl hd.state⟩
  · exact ⟨.does hd, hd.calm.lfreed, .inr ⟨hlt, .inl hd.state⟩⟩
  · refine ⟨.does hd, hd.calm.lfreed, .inr ⟨hlt, .inr ?_⟩⟩
    rw [hd.state, statesOf_append, statesOf_append, statesOf_stopActs]
    rfl

theorem askedToStop_late {env : Env} {l : ListenerId} (o : Outcome) (h : Late env l) :
    ((askedToStop env l o).lstnr l).state = (env.lstnr l).state := by
  obtain ⟨-, -, hst | ⟨hlt, -⟩⟩ := askedToStop_spec env l o
  · exact hst
  · unfold Late at h
    have : LstnrState.stopped.num < LstnrState.shuttingDown.num := by decide
    omega

theorem askedToStop_shutdown {env : Env} {l : ListenerId} {o : Outcome}
    (h : ((askedToStop env l o).lstnr l).state = .shutdown) : (env.lstnr l).state = .shutdown := by
  obtain ⟨-, -, hst | ⟨-, hst | hst⟩⟩ := askedToStop_spec env l o
  · rw [← hst, h]
  · rw [h] at hst
    cases hst
  · rw [h] at hst
    cases hst

theorem finishShutdown_spec (env : Env) (l : ListenerId) :
    Spares l env (finishShutdown env l) ∧ (Late env l → Late (finishShutdown env l) l) := by
  unfold finishShutdown
  split
  · rename_i g hg
    have hlock := (Does.refl env (l := l)).snoc (.lock (.queue g))
    dsimp only
    split
    · have hunlock := hlock.snoc (.unlock (.queue g))
      refine ⟨(Spares.does hunlock).trans (.intern _ l), fun h => h.congr ?_⟩
      exact (intern_self _ l).state
    · refine ⟨⟨fun a ha => ?_, fun _ _ => rfl⟩, fun _ => ?_⟩
      · exact congrArg Listener.state (Env.setState_other _ ha .shutdown)
      · apply late_iff.mpr
        right
        exact congrArg Listener.state (Env.setState_self _ l .shutdown)
  · exact ⟨.intern env l, fun h => h.congr (intern_self env l).state⟩

theorem retryShutdown_spec (env : Env) (l : ListenerId) :
    Spares l env (retryShutdown env l) ∧ ((retryShutdown env l).lstnr l).state = (env.lstnr l).state := by
  unfold retryShutdown
  split
  · rename_i g hg
    have hlock := (Does.refl env (l := l)).snoc (.lock (.queue g))
    dsimp only
    split
    · exact ⟨(Spares.does hlock).trans (.intern _ l), (intern_self _ l).state⟩
    · exact ⟨⟨fun _ _ => rfl, fun _ _ => rfl⟩, rfl⟩
  · exact ⟨⟨fun _ _ => rfl, fun _ _ => rfl⟩, rfl⟩

/-! ## What a shutdown does to the list -/

/-- Of the listeners `L₀`, those in `L` are still registered. The others have been shut down, and lead nowhere. -/
structure Listed (L₀ L : List ListenerId) (s : Sys) : Prop where
  chain : Chain s.listeners.next s.listeners.head L
  sub : L.Sublist L₀
  live : ∀ a ∈ L, s.env.lfreed a = false ∧ (s.env.lstnr a).state ≠ .shutdown
  gone : ∀ a ∈ L₀, a ∉ L → s.listeners.next a = none ∧ Late s.env a ∧ a ∈ s.called

/-- Listeners are taken off the list, and none is put back. -/
structure Shrinks (L₀ L : List ListenerId) (s s' : Sys) : Prop where
  listed : ∃ L', Listed L₀ L' s' ∧ L'.Sublist L
  called : s.called ⊆ s'.called
  late : ∀ a, Late s.env a → Late s'.env a

theorem Shrinks.trans {L₀ L L' : List ListenerId} {s s' s'' : Sys} (h : Shrinks L₀ L s s') (hsub : L'.Sublist L)
    (h' : Shrinks L₀ L' s' s'') : Shrinks L₀ L s s'' := by
  obtain ⟨L'', hl'', hsub''⟩ := h'.listed
  exact ⟨⟨L'', hl'', hsub''.trans hsub⟩, fun a ha => h'.called (h.called ha), fun a ha => h'.late a (h.late a ha)⟩

theorem Listed.step {L₀ L : List ListenerId} {s : Sys} (h : Listed L₀ L s) {env : Env} {called : List ListenerId}
    (hlive : ∀ a ∈ L, env.lfreed a = false ∧ (env.lstnr a).state ≠ .shutdown)
    (hlate : ∀ a, Late s.env a → Late env a) (hcalled : s.called ⊆ called) :
    Shrinks L₀ L s { s with env, called } := by
  refine ⟨⟨L, ⟨h.chain, h.sub, hlive, ?_⟩, List.Sublist.refl L⟩, hcalled, hlate⟩
  intro a ha hna
  obtain ⟨hnext, hl, hc⟩ := h.gone a ha hna
  exact ⟨hnext, hlate a hl, hcalled hc⟩

theorem Listed.spared {L₀ L : List ListenerId} {s : Sys} (h : Listed L₀ L s) {l : ListenerId} {env : Env}
    (hs : Spares l s.env env) (hl : l ∈ L → env.lfreed l = false ∧ (env.lstnr l).state ≠ .shutdown)
    (hlate : Late s.env l → Late env l) : Shrinks L₀ L s { s with env, called := l :: s.called } := by
  apply h.step
  · intro a ha
    by_cases heq : a = l
    · subst heq
      exact hl ha
    · rw [hs.lfreed a heq, hs.state a heq]
      exact h.live a ha
  · intro a ha
    by_cases heq : a = l
    · subst heq
      exact hlate ha
    · exact ha.congr (hs.state a heq)
  · exact List.subset_cons_self l s.called

theorem Listed.unlink {L₀ L : List ListenerId} {s : Sys} (h : Listed L₀ L s) {l : ListenerId} {fuel : Nat}
    (hfuel : L₀.length < fuel) (hlate : Late s.env l) (hcalled : l ∈ s.called) :
    ∃ ll r, crtx_ll_unlink fuel s.listeners l = some (ll, r) ∧
      Shrinks L₀ L s { s with env := finishShutdown s.env l, listeners := ll } := by
  have hlen := h.sub.length_le
  obtain ⟨hspares, hfinish⟩ := finishShutdown_spec s.env l
  have hlates : ∀ a, Late s.env a → Late (finishShutdown s.env l) a := by
    intro a ha
    by_cases heq : a = l
    · subst heq
      exact hfinish ha
    · exact ha.congr (hspares.state a heq)
  have hlive : ∀ a ∈ L, a ≠ l →
      (finishShutdown s.env l).lfreed a = false ∧ ((finishShutdown s.env l).lstnr a).state ≠ .shutdown := by
    intro a ha hne
    rw [hspares.lfreed a hne, hspares.state a hne]
    exact h.live a ha
  by_cases hmem : l ∈ L
  · obtain ⟨ll, hunlink, hchain, hnone, hsame⟩ := crtx_ll_unlink_present h.chain hmem (show L.length < fuel by omega)
    refine ⟨ll, 0, hunlink, ⟨L.erase l, ⟨hchain, (List.erase_sublist ..).trans h.sub, ?_, ?_⟩, List.erase_sublist ..⟩,
      List.Subset.refl _, hlates⟩
    · intro a ha
      exact hlive a (List.mem_of_mem_erase ha) ((List.Nodup.mem_erase_iff h.chain.nodup).mp ha).1
    · intro a ha hna
      by_cases heq : a = l
      · subst heq
        exact ⟨hnone, hfinish hlate, hcalled⟩
      · have hnl : a ∉ L := fun hal => hna ((List.Nodup.mem_erase_iff h.chain.nodup).mpr ⟨heq, hal⟩)
        obtain ⟨hnext, hl, hc⟩ := h.gone a ha hnl
        exact ⟨(hsame a hnl).trans hnext, hlates a hl, hc⟩
  · have hunlink := crtx_ll_unlink_absent h.chain hmem (show L.length < fuel by omega)
    refine ⟨s.listeners, -ENOENT, hunlink, h.step ?_ hlates (List.Subset.refl _)⟩
    intro a ha
    exact hlive a ha (ne_of_mem_of_not_mem ha hmem)

/-- A callback that shuts down listeners and adds events. -/
def Keeps (L₀ : List ListenerId) (cb : Sys → Option Sys) : Prop :=
  ∀ L s, Listed L₀ L s → ∃ s', cb s = some s' ∧ Shrinks L₀ L s s'

theorem runShutdownCbWith_shrinks {L₀ L : List ListenerId} {s : Sys} {cb : Sys → Option Sys} (hcb : Keeps L₀ cb)
    (h : Listed L₀ L s) (l : ListenerId) (o : Outcome) :
    ∃ s', runShutdownCbWith cb s l o = some s' ∧ Shrinks L₀ L s s' := by
  unfold runShutdownCbWith
  split
  · exact hcb L s h
  · have hd := Does.runShutdownCb (l := l) s.env l o
    have hstates : ∀ a, ((runShutdownCb s.env l o).lstnr a).state = (s.env.lstnr a).state := by
      intro a
      by_cases heq : a = l
      · subst heq
        rw [hd.state, statesOf_adds]
        rfl
      · exact hd.state_other heq
    refine ⟨_, rfl, h.step ?_ (fun a ha => ha.congr (hstates a)) (List.Subset.refl _)⟩
    intro a ha
    rw [hd.calm.lfreed, hstates]
    exact h.live a ha

theorem close_shrinks {L₀ L : List ListenerId} {s : Sys} {fuel : Nat} {cb : Sys → Option Sys} (hcb : Keeps L₀ cb)
    (hfuel : L₀.length < fuel) (h : Listed L₀ L s) {l : ListenerId} (o : Outcome) (hlate : Late s.env l)
    (hcalled : l ∈ s.called) : ∃ s₁ ll r, runShutdownCbWith cb s l o = some s₁ ∧
      crtx_ll_unlink fuel s₁.listeners l = some (ll, r) ∧
      Shrinks L₀ L s { s₁ with env := finishShutdown s₁.env l, listeners := ll } ∧ l ∈ s₁.called := by
  obtain ⟨s₁, hs₁, h₁⟩ := runShutdownCbWith_shrinks hcb h l o
  obtain ⟨L₁, hl₁, hsub₁⟩ := h₁.listed
  obtain ⟨ll, r, hunlink, h₂⟩ := hl₁.unlink hfuel (h₁.late l hlate) (h₁.called hcalled)
  exact ⟨s₁, ll, r, hs₁, hunlink, h₁.trans hsub₁ h₂, h₁.called hcalled⟩

/-- `crtx_shutdown_listener` until it calls the `shutdown` callback. -/
def closing (env : Env) (l : ListenerId) (o : Outcome) : Env :=
  removeCallbacks (((askedToStop env l o).setState l .shuttingDown).unlock (.state l)) l

theorem closing_spec (env : Env) (l : ListenerId) (o : Outcome) :
    Spares l env (closing env l o) ∧ (closing env l o).lfreed = env.lfreed ∧
      ((closing env l o).lstnr l).state = .shuttingDown := by
  obtain ⟨hspares, hlfreed, -⟩ := askedToStop_spec env l o
  have hd := (((Does.refl (askedToStop env l o) (l := l)).snoc (.set .shuttingDown)).snoc
    (.unlock (.state l))).silent (Silent.removeCallbacks _ l)
  change Does l _ _ (closing env l o) at hd
  exact ⟨hspares.trans (.does hd), hd.calm.lfreed.trans hlfreed, hd.state⟩

theorem shutdownWith_eq (fuel : Nat) (cb : Sys → Option Sys) (s : Sys) (l : ListenerId) (o : Outcome) :
    shutdownWith fuel cb s l o =
      if ((askedToStop s.env l o).lstnr l).state.num < LstnrState.stopped.num ∨
          ((askedToStop s.env l o).lstnr l).state = .shuttingDown then
        some { s with env := (askedToStop s.env l o).unlock (.state l), called := l :: s.called }
      else if ((askedToStop s.env l o).lstnr l).state = .shutdown then
        some { s with env := retryShutdown (askedToStop s.env l o) l, called := l :: s.called }
      else (runShutdownCbWith cb { s with env := closing s.env l o, called := l :: s.called } l o).bind fun s₁ =>
        (crtx_ll_unlink fuel s₁.listeners l).bind fun p =>
          some { s₁ with env := finishShutdown s₁.env l, listeners := p.1 } := rfl

theorem Listed.closing {L₀ L : List ListenerId} {s : Sys} (h : Listed L₀ L s) (l : ListenerId) (o : Outcome) :
    Shrinks L₀ L s { s with env := closing s.env l o, called := l :: s.called } := by
  obtain ⟨hspares, hlfreed, hstate⟩ := closing_spec s.env l o
  refine h.spared hspares (fun hl => ?_) fun _ => late_iff.mpr (.inl hstate)
  rw [hlfreed, hstate]
  exact ⟨(h.live l hl).1, LstnrState.noConfusion⟩

theorem shutdownWith_shrinks {L₀ : List ListenerId} {fuel : Nat} {cb : Sys → Option Sys} (hcb : Keeps L₀ cb)
    (hfuel : L₀.length < fuel) (l : ListenerId) (o : Outcome) {L : List ListenerId} {s : Sys} (h : Listed L₀ L s) :
    ∃ s', shutdownWith fuel cb s l o = some s' ∧ Shrinks L₀ L s s' ∧ l ∈ s'.called := by
  obtain ⟨hspares, hlfreed, -⟩ := askedToStop_spec s.env l o
  have hlate : Late s.env l → Late (askedToStop s.env l o) l := fun hl => hl.congr (askedToStop_late o hl)
  rw [shutdownWith_eq]
  split
  · rename_i hst
    have hunlock : Spares l s.env ((askedToStop s.env l o).unlock (.state l)) := ⟨hspares.state, hspares.lfreed⟩
    refine ⟨_, rfl, h.spared hunlock ?_ hlate, List.mem_cons_self ..⟩
    intro hl
    refine ⟨(congrFun hlfreed l).trans (h.live l hl).1, fun hs => ?_⟩
    exact (h.live l hl).2 (askedToStop_shutdown hs)
  · split
    · rename_i hst
      have hst := askedToStop_shutdown hst
      obtain ⟨hretry, hsame⟩ := retryShutdown_spec (askedToStop s.env l o) l
      refine ⟨_, rfl, h.spared (hspares.trans hretry) ?_ fun hl => (hlate hl).congr hsame, List.mem_cons_self ..⟩
      intro hl
      exact absurd hst (h.live l hl).2
    · have hstart := h.closing l o
      obtain ⟨L₁, hl₁, hsub₁⟩ := hstart.listed
      have hnow : Late (Finish.closing s.env l o) l := late_iff.mpr (.inl (closing_spec s.env l o).2.2)
      obtain ⟨s₁, ll, r, hcb₁, hunlink, h₁, hcalled⟩ := close_shrinks hcb hfuel hl₁ o hnow (List.mem_cons_self ..)
      refine ⟨{ s₁ with env := finishShutdown s₁.env l, listeners := ll }, ?_, hstart.trans hsub₁ h₁, hcalled⟩
      exact Option.bind_eq_some_iff.mpr ⟨s₁, hcb₁, Option.bind_eq_some_iff.mpr ⟨(ll, r), hunlink, rfl⟩⟩

theorem runCalls_keeps {L₀ : List ListenerId} {fuel : Nat} (hfuel : L₀.length < fuel) (cs : Calls) :
    Keeps L₀ (runCalls fuel cs) := by
  induction cs with
  | done =>
    intro L s h
    exact ⟨s, rfl, ⟨L, h, List.Sublist.refl L⟩, List.Subset.refl _, fun _ ha => ha⟩
  | add p rest ih =>
    intro L s h
    have hcalm := Calm.addEvent s.env p
    have hstates : ∀ a, ((s.env.addEvent p).lstnr a).state = (s.env.lstnr a).state := fun a =>
      Act.state_self a s.env (.add p)
    have hlive : ∀ a ∈ L, (s.env.addEvent p).lfreed a = false ∧ ((s.env.addEvent p).lstnr a).state ≠ .shutdown := by
      intro a ha
      rw [hcalm.lfreed, hstates]
      exact h.live a ha
    have hstart := h.step hlive (fun a ha => ha.congr (hstates a)) (List.Subset.refl _)
    obtain ⟨L₁, hl₁, hsub₁⟩ := hstart.listed
    obtain ⟨s', hs', h'⟩ := ih L₁ _ hl₁
    exact ⟨s', hs', hstart.trans hsub₁ h'⟩
  | shutdown l o inner rest ihinner ihrest =>
    intro L s h
    obtain ⟨s₁, hs₁, h₁, -⟩ := shutdownWith_shrinks ihinner hfuel l o h
    obtain ⟨L₁, hl₁, hsub₁⟩ := h₁.listed
    obtain ⟨s', hs', h'⟩ := ihrest L₁ s₁ hl₁
    exact ⟨s', Option.bind_eq_some_iff.mpr ⟨s₁, hs₁, hs'⟩, h₁.trans hsub₁ h'⟩

theorem shutdownWith_late {fuel : Nat} {cb : Sys → Option Sys} {s : Sys} {l : ListenerId} (o : Outcome)
    (h : Late s.env l) : ∃ env, shutdownWith fuel cb s l o = some { s with env, called := l :: s.called } := by
  have hst := askedToStop_late o h
  unfold shutdownWith
  dsimp only
  change ∃ env, (if ((askedToStop s.env l o).lstnr l).state.num < _ ∨ ((askedToStop s.env l o).lstnr l).state = _ then
    _ else if ((askedToStop s.env l o).lstnr l).state = _ then _ else _) = some _
  rw [hst]
  obtain hs | hs := late_iff.mp h
  · rw [hs]
    exact ⟨_, if_pos (.inr rfl)⟩
  · rw [hs, if_neg (by decide), if_pos rfl]
    exact ⟨_, rfl⟩

/-! ## The loop -/

theorem nodes_eq {next : ListenerId → Option ListenerId} (l : List ListenerId) :
    ∀ (n : Nat) (h : Option ListenerId), Chain next h l → l.length < n → nodes next n h = l := by
  induction l with
  | nil =>
    intro n h hc hn
    obtain ⟨m, rfl⟩ : ∃ m, n = m + 1 := ⟨n - 1, by simp at hn; omega⟩
    rw [hc.head_eq]
    rfl
  | cons a l ih =>
    intro n h hc hn
    obtain ⟨m, rfl⟩ : ∃ m, n = m + 1 := ⟨n - 1, by omega⟩
    rw [hc.head_eq, List.head?_cons, nodes, ih m (next a) hc.tail (by simp at hn; omega)]

theorem Listed.registered {L₀ L : List ListenerId} {s : Sys} (h : Listed L₀ L s) {fuel : Nat}
    (hfuel : L₀.length < fuel) : s.registered fuel = L := by
  have hlen := h.sub.length_le
  exact nodes_eq L fuel _ h.chain (by omega)

theorem sublist_around {L x y : List ListenerId} {a : ListenerId} (hsub : L.Sublist (x ++ a :: y))
    (hnd : (x ++ a :: y).Nodup) (ha : a ∈ L) : ∃ x' y', L = x' ++ a :: y' ∧ x'.Sublist x ∧ y'.Sublist y := by
  obtain ⟨x', z, rfl, hx, hz⟩ := List.sublist_append_iff.mp hsub
  rw [List.nodup_append] at hnd
  have hax : a ∉ x' := fun h => hnd.2.2 a (hx.subset h) a (List.mem_cons_self ..) rfl
  have haz : a ∈ z := (List.mem_append.mp ha).resolve_left hax
  obtain hz | ⟨y', rfl, hy⟩ := List.sublist_cons_iff.mp hz
  · exact absurd (hz.subset haz) (List.nodup_cons.mp hnd.2.1).1
  · exact ⟨x', y', rfl, hx, hy⟩

theorem body_shrinks {L₀ L : List ListenerId} {fuel : Nat} (hfuel : L₀.length < fuel) (u : Setup) {s : Sys}
    (h : Listed L₀ L s) (it : ListenerId) :
    ∃ s', body fuel u s it = some s' ∧ Shrinks L₀ L s s' ∧ (u.eloop ≠ some it → it ∈ s'.called) := by
  unfold body
  split
  · rename_i he
    refine ⟨s, rfl, ⟨⟨L, h, List.Sublist.refl L⟩, List.Subset.refl _, fun _ ha => ha⟩, fun hne => absurd he hne⟩
  · obtain ⟨s', hs', h', hcalled⟩ :=
      shutdownWith_shrinks (runCalls_keeps hfuel (u.beh it).2) hfuel it (u.beh it).1 h
    exact ⟨s', hs', h', fun _ => hcalled⟩

theorem careful_cons {fuel n : Nat} {u : Setup} {s s' : Sys} {it a : ListenerId} (hbody : body fuel u s it = some s')
    (hnext : s.listeners.next it = some a) : Careful fuel u (n + 1) (some it) s ↔
      if a ∈ s'.registered fuel then Careful fuel u n (some a) s' else MayEnd fuel u s' a := by
  rw [Careful, hbody, hnext]
  simp

theorem Listed.all_called {L₀ L : List ListenerId} {s : Sys} (h : Listed L₀ L s) (u : Setup) :
    (∀ a ∈ L₀, u.eloop ≠ some a → a ∈ s.called) ↔ ∀ a ∈ L, u.eloop ≠ some a → a ∈ s.called := by
  constructor
  · exact fun hall a ha => hall a (h.sub.subset ha)
  · intro hall a ha hne
    by_cases hmem : a ∈ L
    · exact hall a hmem hne
    · exact (h.gone a ha hmem).2.2

theorem loop_gone {L₀ L : List ListenerId} {fuel n : Nat} (hfuel : L₀.length < fuel) (u : Setup) {s : Sys}
    (h : Listed L₀ L s) {a : ListenerId} (ha : a ∈ L₀) (hna : a ∉ L) :
    ∃ r, finishLoop fuel u (n + 2) (some a) s = some r ∧ (ShutsAllDown u L₀ r ↔ MayEnd fuel u s a) := by
  obtain ⟨hnext, hlate, hcalled⟩ := h.gone a ha hna
  unfold MayEnd
  rw [h.registered hfuel, ← h.all_called u, finishLoop, hnext]
  cases hfreed : s.env.lfreed a with
  | true =>
    refine ⟨(s, true), rfl, ?_⟩
    constructor
    · intro hr
      cases hr.safe
    · rintro ⟨hf, -⟩
      cases hf
  | false =>
    obtain ⟨s', hbody, hsame⟩ : ∃ s', body fuel u s a = some s' ∧ ∀ b, b ∈ s'.called ↔ b ∈ s.called := by
      unfold body
      split
      · exact ⟨s, rfl, fun b => Iff.rfl⟩
      · obtain ⟨env, henv⟩ := shutdownWith_late (u.beh a).1 hlate
        refine ⟨_, henv, fun b => ?_⟩
        rw [List.mem_cons]
        exact ⟨fun hb => hb.elim (fun heq => heq ▸ hcalled) id, .inr⟩
    rw [if_neg Bool.false_ne_true, hbody, Option.bind_some]
    refine ⟨(s', false), rfl, ?_⟩
    constructor
    · exact fun hr => ⟨rfl, fun b hb hne => (hsame b).mp (hr.called b hb hne)⟩
    · exact fun hr => ⟨fun b hb hne => (hsame b).mpr (hr.2 b hb hne), rfl⟩

theorem loop_iff {L₀ : List ListenerId} {fuel : Nat} (hfuel : L₀.length < fuel) (u : Setup) (n : Nat) :
    ∀ (s : Sys) (x : List ListenerId) (it : ListenerId) (y : List ListenerId), Listed L₀ (x ++ it :: y) s →
      (∀ a ∈ x, u.eloop ≠ some a → a ∈ s.called) → (it :: y).length < n →
      ∃ r, finishLoop fuel u n (some it) s = some r ∧ (ShutsAllDown u L₀ r ↔ Careful fuel u n (some it) s) := by
  induction n with
  | zero =>
    intro s x it y _ _ hn
    omega
  | succ n ih =>
    intro s x it y h hx hn
    have hlive := (h.live it (by simp)).1
    have hnext : s.listeners.next it = y.head? := h.chain.next_eq
    obtain ⟨s', hbody, h', hit⟩ := body_shrinks hfuel u h it
    obtain ⟨L', hl', hsub'⟩ := h'.listed
    have hdone : ∀ a ∈ x ++ [it], u.eloop ≠ some a → a ∈ s'.called := by
      intro a ha hne
      obtain ha | ha := List.mem_append.mp ha
      · exact h'.called (hx a ha hne)
      · rw [List.mem_singleton.mp ha] at hne ⊢
        exact hit hne
    rw [finishLoop, if_neg (by rw [hlive]; exact Bool.false_ne_true), hbody, Option.bind_some, hnext]
    match y, hn with
    | [], hn =>
      obtain ⟨m, rfl⟩ : ∃ m, n = m + 1 := ⟨n - 1, by simp at hn; omega⟩
      have hcareful : Careful fuel u (m + 1 + 1) (some it) s := by
        rw [Careful, hnext]
        simp
      refine ⟨(s', false), rfl, iff_of_true ⟨?_, rfl⟩ hcareful⟩
      rw [hl'.all_called u]
      exact fun a ha => hdone a (hsub'.subset ha)
    | a :: y, hn =>
      rw [careful_cons hbody hnext, hl'.registered hfuel]
      rw [List.append_cons] at hsub'
      have hnd : ((x ++ [it]) ++ a :: y).Nodup := by
        rw [← List.append_cons]
        exact h.chain.nodup
      by_cases hmem : a ∈ L'
      · obtain ⟨x', y', rfl, hx', hy'⟩ := sublist_around hsub' hnd hmem
        rw [if_pos hmem, List.head?_cons]
        refine ih s' x' a y' hl' (fun b hb => hdone b (hx'.subset hb)) ?_
        have hlen := hy'.length_le
        simp only [List.length_cons] at hn ⊢
        omega
      · obtain ⟨m, rfl⟩ : ∃ m, n = m + 2 := ⟨n - 2, by simp at hn; omega⟩
        rw [if_neg hmem, List.head?_cons]
        exact loop_gone hfuel u hl' (h.sub.subset (by simp)) hmem

/-! ## The main result -/

/-- The listeners `L` are registered, and the loop begins. None of them was freed or has been shut down, since that is
done to listeners that are off the list. -/
structure Ready (L : List ListenerId) (s : Sys) : Prop where
  chain : Chain s.listeners.next s.listeners.head L
  called : s.called = []
  live : ∀ a ∈ L, s.env.lfreed a = false ∧ (s.env.lstnr a).state ≠ .shutdown

/-- The loop comes to an end. It shuts down all listeners that were registered, and reads nothing that was freed, if and
only if no shutdown takes the next listener off the list before its turn. -/
theorem finish_shuts_all_down_iff (L : List ListenerId) (s : Sys) (hs : Ready L s) (u : Setup) (fuel : Nat)
    (hfuel : L.length < fuel) : ∃ r, crtx_finish fuel u s = some r ∧
      (ShutsAllDown u L r ↔ Careful fuel u fuel s.listeners.head s) := by
  have h : Listed L L s := ⟨hs.chain, List.Sublist.refl L, hs.live, fun a ha hna => absurd ha hna⟩
  unfold crtx_finish
  rw [hs.chain.head_eq]
  match L, hfuel with
  | [], hfuel =>
    obtain ⟨m, rfl⟩ : ∃ m, fuel = m + 1 := ⟨fuel - 1, by simp at hfuel; omega⟩
    exact ⟨(s, false), rfl, iff_of_true ⟨fun a ha => absurd ha List.not_mem_nil, rfl⟩ trivial⟩
  | it :: y, hfuel =>
    exact loop_iff hfuel u fuel s [] it y h (fun a ha => absurd ha List.not_mem_nil) hfuel

/-- Three listeners, the first of which has a `shutdown` callback. -/
def threeListeners (free_cb : Option Bool) : Sys where
  env :=
    let env := crtx_setup_listener (crtx_setup_listener (crtx_setup_listener Env.initial 0 0) 1 1) 2 2
    (env.modify 0 fun b => { b with shutdown_cb := true }).modify 1 fun b => { b with free_cb }
  listeners := { head := some 0, next := fun l => if l < 2 then some (l + 1) else none }
  called := []

/-- The callback of listener 0 shuts down listener `l`. -/
def shutsDownOther (l : ListenerId) : Setup where
  eloop := none
  beh a := (.quiet, if a = 0 then .shutdown l .quiet .done .done else .done)

theorem threeListeners_ready (free_cb : Option Bool) : Ready [0, 1, 2] (threeListeners free_cb) where
  chain := ⟨rfl, rfl, rfl, rfl⟩
  called := rfl
  live := by
    intro a ha
    simp only [List.mem_cons, List.not_mem_nil, or_false] at ha
    obtain rfl | rfl | rfl := ha
    · exact ⟨rfl, LstnrState.noConfusion⟩
    · exact ⟨rfl, LstnrState.noConfusion⟩
    · exact ⟨rfl, LstnrState.noConfusion⟩

/-- Listener 2 is shut down by the callback of listener 0, and then its turn comes. -/
theorem finish_shuts_all_down_iff_last : ∃ r, crtx_finish 4 (shutsDownOther 2) (threeListeners none) = some r ∧
    ShutsAllDown (shutsDownOther 2) [0, 1, 2] r := by
  have hready := threeListeners_ready none
  obtain ⟨r, hr, hiff⟩ := finish_shuts_all_down_iff [0, 1, 2] _ hready (shutsDownOther 2) 4 (by decide)
  exact ⟨r, hr, hiff.mpr (by decide)⟩

/-- If it shuts down listener 1, then listener 2 is left out, or memory is read that was freed. -/
theorem finish_leaves_listener_out :
    (∃ r, crtx_finish 4 (shutsDownOther 1) (threeListeners none) = some r ∧ 2 ∉ r.1.called ∧
      ¬ ShutsAllDown (shutsDownOther 1) [0, 1, 2] r) ∧
    ∃ r, crtx_finish 4 (shutsDownOther 1) (threeListeners (some true)) = some r ∧
      ¬ ShutsAllDown (shutsDownOther 1) [0, 1, 2] r := by
  constructor
  · have hrun : (crtx_finish 4 (shutsDownOther 1) (threeListeners none)).map (fun r => r.1.called) =
        some [1, 1, 0] := by decide
    obtain ⟨r, hr, hcalled⟩ := Option.map_eq_some_iff.mp hrun
    have h2 : 2 ∉ r.1.called := by
      rw [hcalled]
      decide
    exact ⟨r, hr, h2, fun hall => h2 (hall.called 2 (by simp) (by decide))⟩
  · have hrun : (crtx_finish 4 (shutsDownOther 1) (threeListeners (some true))).map (fun r => r.2) =
        some true := by decide
    obtain ⟨r, hr, hfreed⟩ := Option.map_eq_some_iff.mp hrun
    refine ⟨r, hr, fun hall => ?_⟩
    rw [hall.safe] at hfreed
    cases hfreed

end Libcortex.Finish
