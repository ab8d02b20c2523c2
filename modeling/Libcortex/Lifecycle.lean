import Libcortex.Frame
import Libcortex.Lib.Run

/-!
# The life cycle of a listener

Once a listener was shut down it must be set up again before it can be started.
`retry_listener_task` looks at the state before it starts a listener, but `crtx_start_listener`
refuses only a listener that is started already.
-/

open Libcortex.Lib

namespace Libcortex.Lifecycle

/-! ## What the log says about one listener -/

def IsDown (st : LstnrState) : Prop := st = .shuttingDown ∨ st = .shutdown

instance (st : LstnrState) : Decidable (IsDown st) := inferInstanceAs (Decidable (_ ∨ _))

def IsUp (st : LstnrState) : Prop := st = .starting ∨ st = .started

/-- The listener was shut down, and not set up since. -/
def Down (l : ListenerId) : List Ev → Prop
  | [] => False
  | .setState l' st :: log => (l' = l ∧ IsDown st) ∨ Down l log
  | .setup l' :: log => l' ≠ l ∧ Down l log
  | _ :: log => Down l log

/-- The state never becomes `starting` or `started` while the listener is down. -/
def ForwardOnly (l : ListenerId) : List Ev → Prop
  | [] => True
  | .setState l' st :: log => (l' = l → IsUp st → ¬ Down l log) ∧ ForwardOnly l log
  | _ :: log => ForwardOnly l log

/-- An entry that says nothing about the state of `l`. -/
def Irrelevant (l : ListenerId) : Ev → Prop
  | .setState l' _ => l' ≠ l
  | .setup l' => l' ≠ l
  | _ => True

theorem down_irrelevant {l : ListenerId} {ev : Ev} (h : Irrelevant l ev) (log : List Ev) :
    Down l (ev :: log) ↔ Down l log := by
  cases ev <;> simp_all [Down, Irrelevant]

theorem forwardOnly_irrelevant {l : ListenerId} {ev : Ev} (h : Irrelevant l ev) (log : List Ev) :
    ForwardOnly l (ev :: log) ↔ ForwardOnly l log := by
  cases ev <;> simp_all [ForwardOnly, Irrelevant]

theorem forwardOnly_of_suffix {l : ListenerId} {log log' : List Ev} (hs : log <:+ log') (h : ForwardOnly l log') :
    ForwardOnly l log := by
  obtain ⟨new, rfl⟩ := hs
  induction new with
  | nil => exact h
  | cons ev new ih =>
    apply ih
    cases ev with
    | setState l' st => exact h.2
    | lock | unlock | touchGraph | touchLstnr | freeGraph | freeLstnr | setup | callShutdown | delayed | intern =>
      exact h

/-! ## Parts of the code that leave the state alone -/

/-- The state of `l` does not change, and nothing is logged about it. -/
structure Quiet (l : ListenerId) (env env' : Env) : Prop where
  state : (env'.lstnr l).state = (env.lstnr l).state
  log : ∃ new, env'.log = new ++ env.log ∧ ∀ ev ∈ new, Irrelevant l ev

namespace Quiet

variable {l : ListenerId}

theorem refl (env : Env) : Quiet l env env := ⟨rfl, [], rfl, by simp⟩

theorem trans {env env' env'' : Env} (h : Quiet l env env') (h' : Quiet l env' env'') : Quiet l env env'' := by
  obtain ⟨hs, new, hn, hi⟩ := h
  obtain ⟨hs', new', hn', hi'⟩ := h'
  refine ⟨hs'.trans hs, new' ++ new, by rw [hn', hn, List.append_assoc], ?_⟩
  intro ev hev
  exact (List.mem_append.mp hev).elim (hi' ev) (hi ev)

theorem emit (env : Env) {ev : Ev} (h : Irrelevant l ev) : Quiet l env (env.emit ev) :=
  ⟨rfl, [ev], rfl, by simpa using h⟩

theorem of_silent {env env' : Env} (h : Silent env env') : Quiet l env env' := ⟨h.state l, [], h.log, by simp⟩

theorem setRoot (env : Env) (r : Root) : Quiet l env (env.setRoot r) := ⟨rfl, [], rfl, by simp⟩

theorem modify (env : Env) (l' : ListenerId) {f : Listener → Listener} (h : ∀ b, (f b).state = b.state) :
    Quiet l env (env.modify l' f) := by
  refine ⟨?_, [], rfl, by simp⟩
  by_cases hl : l = l'
  · subst hl
    rw [Env.modify_self, h]
  · rw [Env.modify_other _ hl]

theorem addEvent (env : Env) (p : GraphId × EventId) : Quiet l env (env.addEvent p) := by
  unfold Env.addEvent
  split
  · exact refl env
  · split
    · exact setRoot env _
    · exact ((emit env (by trivial)).trans (setRoot _ _)).trans (emit _ (by trivial))

theorem shutdown_listener_intern (env : Env) (l' : ListenerId) : Quiet l env (shutdown_listener_intern env l') := by
  obtain ⟨new, hn, hnew⟩ := intern_log env l'
  refine ⟨?_, new, hn, ?_⟩
  · by_cases hl : l = l'
    · rw [hl]
      exact (intern_self env l').state
    · rw [intern_other env hl]
  · intro ev hev
    rcases hnew ev hev with rfl | rfl | ⟨g, rfl⟩ <;> trivial

end Quiet

/-! ## The invariant -/

/-- So far the life cycle went forward, and the state says whether the listener is down. -/
structure Inv (l : ListenerId) (env : Env) : Prop where
  forward : ForwardOnly l env.log
  down : Down l env.log ↔ IsDown (env.lstnr l).state

variable {l : ListenerId} {env env' : Env}

theorem Inv.quiet (hi : Inv l env) (hq : Quiet l env env') : Inv l env' := by
  obtain ⟨hs, new, hn, hirr⟩ := hq
  have hlog : (ForwardOnly l env'.log ↔ ForwardOnly l env.log) ∧ (Down l env'.log ↔ Down l env.log) := by
    rw [hn]
    clear hn
    induction new with
    | nil => exact ⟨Iff.rfl, Iff.rfl⟩
    | cons ev new ih =>
      have hev := hirr ev (List.mem_cons_self ..)
      obtain ⟨h1, h2⟩ := ih fun ev' h => hirr ev' (List.mem_cons_of_mem _ h)
      exact ⟨(forwardOnly_irrelevant hev _).trans h1, (down_irrelevant hev _).trans h2⟩
  exact ⟨hlog.1.mpr hi.forward, by rw [hlog.2, hs, hi.down]⟩

theorem Inv.setState {st : LstnrState} (hi : Inv l env) (h : IsDown st ∨ ¬ IsDown (env.lstnr l).state) :
    Inv l (env.setState l st) := by
  have hup : IsUp st → ¬ IsDown st := by
    rintro (rfl | rfl) <;> simp [IsDown]
  refine ⟨⟨?_, hi.forward⟩, ?_⟩
  · intro _ hst
    change ¬ Down l env.log
    rw [hi.down]
    exact h.resolve_left (hup hst)
  · rw [Env.setState_log, Env.setState_self]
    change (l = l ∧ IsDown st) ∨ Down l env.log ↔ IsDown st
    rw [hi.down]
    constructor
    · rintro (⟨_, h'⟩ | h')
      · exact h'
      · exact h.resolve_right (not_not.mpr h')
    · intro h'
      exact Or.inl ⟨rfl, h'⟩

/-- Once a state of the sequence is down, all later ones are. -/
def Descends : LstnrState → List LstnrState → Prop
  | _, [] => True
  | st, st' :: sts => (IsDown st' ∨ ¬ IsDown st) ∧ Descends st' sts

instance decidableDescends : ∀ st sts, Decidable (Descends st sts)
  | _, [] => inferInstanceAs (Decidable True)
  | _, _ :: _ => @instDecidableAnd _ _ _ (decidableDescends _ _)

theorem Inv.does {acts : List Act} (hd : Does l acts env env') (hi : Inv l env)
    (h : Descends (env.lstnr l).state (statesOf acts)) : Inv l env' := by
  induction hd with
  | done hs => exact hi.quiet (Quiet.of_silent hs)
  | @act _ env₁ _ a acts hs _ ih =>
    have hi₁ := hi.quiet (Quiet.of_silent hs)
    rw [← hs.state] at h
    cases a with
    | set st =>
      apply ih (hi₁.setState h.1)
      rw [Act.state_self]
      exact h.2
    | lock m => exact ih (hi₁.quiet (Quiet.emit _ (by trivial))) h
    | unlock m => exact ih (hi₁.quiet (Quiet.emit _ (by trivial))) h
    | call => exact ih (hi₁.quiet (Quiet.emit _ (by trivial))) h
    | add p =>
      apply ih (hi₁.quiet (Quiet.addEvent _ p))
      rw [Act.state_self]
      exact h

/-! ## Runs -/

/-- The calls on one listener, with those that libcortex makes from its timers. `elsewhere` is all that happens
besides, to other listeners and to the queues. It leaves the state of this one alone. -/
inductive Action where
  | setup (g : GraphId)
  | start (o : Outcome)
  | update (o : Outcome)
  | stop (o : Outcome)
  | shutdown (o : Outcome)
  | retryTask (o : Outcome)
  | retryOs (o : Outcome)
  | elsewhere (root : Root) (lstnr : ListenerId → Listener)

def call (l : ListenerId) (env : Env) : Action → Env
  | .setup g => crtx_setup_listener env l g
  | .start o => (crtx_start_listener env l o).1
  | .update o => (crtx_update_listener env l o).1
  | .stop o => (crtx_stop_listener env l o).1
  | .shutdown o => crtx_shutdown_listener env l o
  | .retryTask o => retry_listener_task env l o
  | .retryOs o => retry_listener_os_cb env l o
  | .elsewhere root lstnr =>
    { env with root, lstnr := Function.update lstnr l { lstnr l with state := (env.lstnr l).state } }

/-- The call doesn't start the listener, or the start doesn't crash. -/
def Survives (l : ListenerId) (env : Env) : Action → Prop
  | .start o | .update o | .retryOs o => ¬ startCrashes env l o
  | .retryTask o => (env.lstnr l).state = .stopped → ¬ startCrashes env l o
  | _ => True

instance (l : ListenerId) (env : Env) : ∀ a, Decidable (Survives l env a)
  | .start _ | .update _ | .retryOs _ => inferInstanceAs (Decidable (¬ _))
  | .retryTask _ => inferInstanceAs (Decidable (_ → _))
  | .setup _ | .stop _ | .shutdown _ | .elsewhere _ _ => inferInstanceAs (Decidable True)

/-- A listener that was freed can't be used any more, and a call that crashes is the end of the run. -/
def step (l : ListenerId) : Env → Action → Option Env :=
  guarded (fun env a => env.lfreed l = false ∧ Survives l env a) (call l)

/-- No start reaches a listener that is down. `retry_listener_task` looks at the state itself. -/
def StartsUp (l : ListenerId) (env : Env) : Action → Prop
  | .start _ | .update _ | .retryOs _ => ¬ IsDown (env.lstnr l).state
  | _ => True

instance (l : ListenerId) (env : Env) : ∀ a, Decidable (StartsUp l env a)
  | .start _ | .update _ | .retryOs _ => inferInstanceAs (Decidable (¬ _))
  | .setup _ | .stop _ | .shutdown _ | .retryTask _ | .elsewhere _ _ => inferInstanceAs (Decidable True)

theorem start_inv (hi : Inv l env) (hst : ¬ IsDown (env.lstnr l).state) (o : Outcome) :
    Inv l (crtx_start_listener env l o).1 := by
  rcases start_does env l o with ⟨_, hd⟩ | ⟨_, adds, adds', sts, hmem, hd⟩
  · exact hi.does hd trivial
  · refine hi.does hd ?_
    have hsts : statesOf (startActs l adds sts adds') = .starting :: sts := by
      simp [startActs, statesOf_cons, Act.state?]
    rw [hsts]
    refine ⟨Or.inr hst, ?_⟩
    simp only [List.mem_cons, List.not_mem_nil, or_false] at hmem
    rcases hmem with rfl | rfl | rfl <;> decide

theorem not_down_of_lt {st : LstnrState} (h : st.num < LstnrState.stopped.num) : ¬ IsDown st := by
  rintro (rfl | rfl)
  · exact (early_ne h).2.1 rfl
  · exact (early_ne h).2.2 rfl

theorem stop_inv (hi : Inv l env) (o : Outcome) : Inv l (crtx_stop_listener env l o).1 := by
  rcases stop_does env l o with ⟨_, hd⟩ | ⟨hlt, _, hd⟩ | ⟨hlt, _, hd⟩
  · exact hi.does hd trivial
  · exact hi.does hd ⟨Or.inr (not_down_of_lt hlt), trivial⟩
  · refine hi.does hd ?_
    rw [statesOf_stopActs]
    exact ⟨Or.inr (not_down_of_lt hlt), by decide⟩

theorem refused_inv {acts : List Act} (hi : Inv l env) (hr : Refused l (env.lstnr l) acts) (hd : Does l acts env env') :
    Inv l env' := by
  refine hi.does hd ?_
  cases hr with
  | late => trivial
  | running hlt => exact ⟨Or.inr (not_down_of_lt hlt), trivial⟩
  | pending g => trivial

theorem close_descends (l : ListenerId) {b : Listener} (h : ¬ IsDown b.state) (o : Outcome) :
    Descends b.state (statesOf (closeActs l b o)) := by
  unfold closeActs
  simp only [statesOf_append, statesOf_adds, List.append_nil]
  split
  · rw [statesOf_stopActs]
    exact ⟨Or.inr h, Or.inr (by decide), Or.inl (Or.inl rfl), trivial⟩
  · exact ⟨Or.inr h, trivial⟩

theorem shutsDown_not_down (h : ShutsDown env l) : ¬ IsDown (env.lstnr l).state := by
  rcases h with h | ⟨h, _⟩
  · rw [h]
    decide
  · exact not_down_of_lt h

theorem interns_not_down {o : Outcome} (h : Interns env l o) (hst : (env.lstnr l).state ≠ .shutdown) :
    ¬ IsDown (env.lstnr l).state := by
  rcases h with ⟨h, _⟩ | ⟨h, _⟩
  · exact absurd h hst
  · exact shutsDown_not_down h

theorem reached_inv {acts : List Act} {o : Outcome} (hi : Inv l env) (h : Interns env l o)
    (hr : Reached l (env.lstnr l) o acts) (hd : Does l acts env env') : Inv l env' := by
  refine hi.does hd ?_
  cases hr with
  | again => trivial
  | first hst _ =>
    rw [statesOf_append, statesOf_cons, statesOf_cons]
    simpa [Act.state?] using close_descends l (interns_not_down h hst) o
  | noGraph hst _ => exact close_descends l (interns_not_down h hst) o

theorem shutdown_inv (hi : Inv l env) (o : Outcome) : Inv l (crtx_shutdown_listener env l o) := by
  have h := shutdown_cases env l o
  generalize crtx_shutdown_listener env l o = env' at h ⊢
  cases h with
  | refused _ _ hr hd => exact refused_inv hi hr hd
  | @delayed env₁ g hdel _ _ hd _ =>
    have hi₁ := hi.does hd (close_descends l (shutsDown_not_down hdel.1) o)
    have hlook : Quiet l env₁ (((env₁.lock (.queue g)).emit (.delayed l)).unlock (.queue g)) :=
      ((Quiet.emit env₁ (by trivial)).trans (Quiet.emit _ (by trivial))).trans (Quiet.emit _ (by trivial))
    exact ((hi₁.quiet hlook).setState (Or.inl (Or.inr rfl))).quiet (Quiet.emit _ (by trivial))
  | reached _ hint hr hd _ => exact (reached_inv hi hint hr hd).quiet (Quiet.shutdown_listener_intern _ l)

theorem setup_inv (l : ListenerId) (g : GraphId) (hf : ForwardOnly l env.log) : Inv l (crtx_setup_listener env l g) := by
  have hset : Inv l ((env.emit (.setup l)).setState l .stopped) := by
    refine ⟨⟨fun _ hst => by simp [IsUp] at hst, hf⟩, ?_⟩
    rw [Env.setState_log, Env.setState_self]
    change (l = l ∧ IsDown .stopped) ∨ (l ≠ l ∧ Down l env.log) ↔ IsDown .stopped
    simp [IsDown]
  unfold crtx_setup_listener
  refine hset.quiet (Quiet.trans ?_ (Quiet.modify _ l fun _ => rfl))
  unfold ensureGraph
  split
  · refine Quiet.trans (Quiet.setRoot _ _) (Quiet.modify _ l fun _ => rfl)
  · exact Quiet.refl _

theorem call_inv (hi : Inv l env) {a : Action} (hok : StartsUp l env a) : Inv l (call l env a) := by
  cases a with
  | setup g => exact setup_inv l g hi.forward
  | start o => exact start_inv hi hok o
  | update o =>
    unfold call crtx_update_listener
    dsimp only
    split
    · exact start_inv hi hok o
    · split <;> exact hi
  | stop o => exact stop_inv hi o
  | shutdown o => exact shutdown_inv hi o
  | retryTask o =>
    unfold call retry_listener_task
    dsimp only
    split
    · rename_i h
      exact start_inv hi (by rw [h]; decide) o
    · exact hi
  | retryOs o => exact start_inv hi hok o
  | elsewhere root lstnr => exact hi.quiet ⟨by simp [call], [], rfl, by simp⟩

theorem call_suffix (l : ListenerId) (env : Env) (a : Action) : env.log <:+ (call l env a).log := by
  cases a with
  | setup g =>
    unfold call crtx_setup_listener ensureGraph
    dsimp only
    split <;> exact ⟨[.setState l .stopped, .setup l], rfl⟩
  | start o => exact start_suffix env l o
  | update o =>
    unfold call crtx_update_listener
    dsimp only
    split
    · exact start_suffix env l o
    · split <;> exact List.suffix_rfl
  | stop o => exact stop_suffix env l o
  | shutdown o => exact shutdown_suffix env l o
  | retryTask o =>
    unfold call retry_listener_task
    dsimp only
    split
    · exact start_suffix env l o
    · exact List.suffix_rfl
  | retryOs o => exact start_suffix env l o
  | elsewhere root lstnr => exact List.suffix_rfl

theorem run_suffix (as : List Action) (env env' : Env) (hr : run (step l) as env = some env') :
    env.log <:+ env'.log := by
  induction as generalizing env with
  | nil =>
    cases hr
    exact List.suffix_rfl
  | cons a as ih =>
    rw [run_cons, Option.bind_eq_some_iff] at hr
    obtain ⟨env₁, hs, hr⟩ := hr
    obtain ⟨_, rfl⟩ := guarded_eq_some.mp hs
    exact (call_suffix l env a).trans (ih _ hr)

theorem start_down_backward (hi : Inv l env) (hst : IsDown (env.lstnr l).state) (o : Outcome) :
    ¬ ForwardOnly l (crtx_start_listener env l o).1.log := by
  intro hf
  rcases start_does env l o with ⟨h, _⟩ | ⟨_, adds, adds', sts, _, hd⟩
  · rw [h] at hst
    simp [IsDown] at hst
  · -- the first two acts are the lock and the state `starting`
    cases hd with
    | act hs hd =>
      cases hd with
      | @act _ env₁ _ _ _ hs' hd =>
        have hi₁ : Inv l env₁ := ((hi.quiet (Quiet.of_silent hs)).quiet (Quiet.emit _ (by trivial))).quiet
          (Quiet.of_silent hs')
        have hset : ForwardOnly l (.setState l .starting :: env₁.log) := forwardOnly_of_suffix hd.suffix hf
        apply hset.1 rfl (Or.inl rfl)
        rw [hi₁.down, hs'.state, Act.state_self, hs.state]
        exact hst

theorem not_startsUp_backward (hi : Inv l env) {a : Action} (hok : ¬ StartsUp l env a) :
    ¬ ForwardOnly l (call l env a).log := by
  cases a with
  | start o => exact start_down_backward hi (not_not.mp hok) o
  | retryOs o => exact start_down_backward hi (not_not.mp hok) o
  | update o =>
    have hst : IsDown (env.lstnr l).state := not_not.mp hok
    have hne : (env.lstnr l).state ≠ .started := by
      intro h
      rw [h] at hst
      simp [IsDown] at hst
    unfold call crtx_update_listener
    dsimp only
    rw [if_pos hne]
    exact start_down_backward hi hst o
  | setup | stop | shutdown | retryTask | elsewhere => exact absurd trivial hok

theorem forward_iff_of_inv (as : List Action) (env env' : Env) (hi : Inv l env)
    (hr : run (step l) as env = some env') : ForwardOnly l env'.log ↔ Meets (step l) (StartsUp l) as env := by
  induction as generalizing env with
  | nil =>
    cases hr
    exact ⟨fun _ => trivial, fun _ => hi.forward⟩
  | cons a as ih =>
    rw [run_cons, Option.bind_eq_some_iff] at hr
    obtain ⟨env₁, hs, hr⟩ := hr
    rw [meets_cons hs]
    obtain ⟨_, rfl⟩ := guarded_eq_some.mp hs
    by_cases hok : StartsUp l env a
    · rw [ih _ (call_inv hi hok) hr]
      simp [hok]
    · refine ⟨fun hf => absurd ?_ (not_startsUp_backward hi hok), fun h => absurd h.1 hok⟩
      exact forwardOnly_of_suffix (run_suffix as _ _ hr) hf

theorem inv_of_log_nil (hlog : env.log = []) (hst : ¬ IsDown (env.lstnr l).state) : Inv l env := by
  refine ⟨?_, ?_⟩
  · rw [hlog]
    trivial
  · rw [hlog]
    exact ⟨False.elim, hst⟩

/-! ## The result -/

/-- In every run of a listener that is not down at first, the life cycle goes only forward exactly if no start
reaches the listener while it is down. -/
theorem forward_only_iff_starts_up (l : ListenerId) (env env' : Env) (hlog : env.log = [])
    (hst : ¬ IsDown (env.lstnr l).state) (as : List Action) (hr : run (step l) as env = some env') :
    ForwardOnly l env'.log ↔ Meets (step l) (StartsUp l) as env :=
  forward_iff_of_inv as env env' (inv_of_log_nil hlog hst) hr

/-- A listener in `CRTX_NO_PROCESSING_MODE`. Its start has nothing to add to the event loop. -/
def unprocessed : Env := Env.initial.modify 0 fun b => { b with mode := .noProcessingMode }

/-- The listener is set up again after a shutdown, and then started. -/
theorem forward_only_setup_again :
    ∃ env', run (step 0) [.setup 0, .start .quiet, .shutdown .quiet, .setup 1, .start .quiet] unprocessed = some env' ∧
      (env'.lstnr 0).state = .started ∧ ForwardOnly 0 env'.log := by
  have hrun : (run (step 0) [.setup 0, .start .quiet, .shutdown .quiet, .setup 1, .start .quiet] unprocessed).map
      (fun env => (env.lstnr 0).state) = some .started := by decide
  obtain ⟨env', hr, hst⟩ := Option.map_eq_some_iff.mp hrun
  refine ⟨env', hr, hst, (forward_only_iff_starts_up 0 unprocessed env' rfl (by decide) _ hr).mpr ?_⟩
  decide

/-- The timer of `crtx_timer_retry_listener_os` goes off after the listener was shut down. -/
theorem retry_after_shutdown_backward :
    ∃ env', run (step 0) [.setup 0, .start .quiet, .shutdown .quiet, .retryOs .quiet] unprocessed = some env' ∧
      (env'.lstnr 0).state = .started ∧ ¬ ForwardOnly 0 env'.log := by
  have hrun : (run (step 0) [.setup 0, .start .quiet, .shutdown .quiet, .retryOs .quiet] unprocessed).map
      (fun env => (env.lstnr 0).state) = some .started := by decide
  obtain ⟨env', hr, hst⟩ := Option.map_eq_some_iff.mp hrun
  refine ⟨env', hr, hst, ?_⟩
  rw [forward_iff_of_inv _ unprocessed env' (inv_of_log_nil rfl (by decide)) hr]
  decide

end Libcortex.Lifecycle
