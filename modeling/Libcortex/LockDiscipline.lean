import Libcortex.Frame

/-!
# Lock discipline

The mutexes of a listener and its graph are not recursive. A call is disciplined if it takes no
mutex twice, gives back none that it doesn't hold, and holds none at its return unless it freed the
listener or its graph. Starting and stopping always are. A shutdown that is delayed gives back
`state_mutex` without holding it, and the end of a delayed shutdown frees what it has locked.
-/

open Libcortex.Lib

namespace Libcortex.LockDiscipline

/-- The mutexes go with the object they are in. -/
def lockOp : Ev → Option (LockOp Mutex)
  | .lock m => some (.lock m)
  | .unlock m => some (.unlock m)
  | .freeGraph g => some (.destroy [.queue g])
  | .freeLstnr l => some (.destroy [.state l, .dependencies l])
  | _ => none

def locks (env : Env) : Option (Locks Mutex) := locksAfter (env.log.filterMap lockOp)

def Disciplined (env : Env) : Prop := ∃ k ∈ locks env, k.dead = [] → k.held = []

instance (env : Env) : Decidable (Disciplined env) := inferInstanceAs (Decidable (∃ k ∈ locks env, _))

/-- The mutexes `h` are held, and nothing was freed. -/
def Locked (h : List Mutex) (env : Env) : Prop := locks env = some ⟨h, []⟩

theorem locks_some {env : Env} {ev : Ev} {op : LockOp Mutex} (h : lockOp ev = some op) :
    locks (env.emit ev) = (locks env).bind fun k => k.apply op := by
  unfold locks
  rw [Env.emit_log, List.filterMap_cons_some h]
  rfl

theorem locks_none {env : Env} {ev : Ev} (h : lockOp ev = none) : locks (env.emit ev) = locks env := by
  unfold locks
  rw [Env.emit_log, List.filterMap_cons_none h]

theorem locks_suffix {env env' : Env} (hs : env.log <:+ env'.log) (h : locks env = none) : locks env' = none := by
  obtain ⟨new, hn⟩ := hs
  unfold locks
  rw [← hn, List.filterMap_append]
  exact locksAfter_append_none h _

theorem not_disciplined {env : Env} (h : locks env = none) : ¬ Disciplined env := by
  rintro ⟨k, hk, _⟩
  rw [h] at hk
  cases hk

namespace Locked

variable {h h' : List Mutex} {env env' : Env} {m : Mutex}

theorem disciplined (hl : Locked [] env) : Disciplined env := ⟨_, hl, fun _ => rfl⟩

theorem same (hl : Locked h env) (hlog : env'.log = env.log) : Locked h env' := by
  unfold Locked locks
  rw [hlog]
  exact hl

theorem emit (hl : Locked h env) {ev : Ev} (hev : lockOp ev = none) : Locked h (env.emit ev) :=
  (locks_none hev).trans hl

theorem lock (hl : Locked h env) (hm : m ∉ h) : Locked (m :: h) (env.lock m) := by
  unfold Locked Env.lock
  rw [locks_some rfl, hl]
  exact Locks.apply_lock hm List.not_mem_nil

theorem unlock (hl : Locked h env) (hm : m ∈ h) : Locked (h.erase m) (env.unlock m) := by
  unfold Locked Env.unlock
  rw [locks_some rfl, hl]
  exact Locks.apply_unlock hm

theorem unlock_none (hl : Locked h env) (hm : m ∉ h) : locks (env.unlock m) = none := by
  unfold Env.unlock
  rw [locks_some rfl, hl]
  exact if_neg hm

theorem addEvent (hl : Locked h env) (p : GraphId × EventId) (hm : .queue p.1 ∉ h) : Locked h (env.addEvent p) := by
  unfold Env.addEvent
  split
  · exact hl
  · split
    · exact hl.same rfl
    · have hlock : Locked (.queue p.1 :: h) ((env.lock (.queue p.1)).setRoot (crtx_add_event env.root p.1 p.2)) :=
        (hl.lock hm).same rfl
      have hunlock := hlock.unlock (List.mem_cons_self ..)
      rwa [List.erase_cons_head] at hunlock

end Locked

/-! ## The mutexes that acts leave held -/

/-- `none` if the acts take or give back a mutex out of order. -/
def holdsAfter : List Act → List Mutex → Option (List Mutex)
  | [], h => some h
  | .lock m :: acts, h => if m ∈ h then none else holdsAfter acts (m :: h)
  | .unlock m :: acts, h => if m ∈ h then holdsAfter acts (h.erase m) else none
  | .add p :: acts, h => if .queue p.1 ∈ h then none else holdsAfter acts h
  | .set _ :: acts, h => holdsAfter acts h
  | .call :: acts, h => holdsAfter acts h

section

variable (m : Mutex) (acts acts' : List Act) (h : List Mutex)

@[simp] theorem holdsAfter_nil : holdsAfter [] h = some h := rfl

@[simp] theorem holdsAfter_lock :
    holdsAfter (.lock m :: acts) h = if m ∈ h then none else holdsAfter acts (m :: h) := rfl

@[simp] theorem holdsAfter_unlock :
    holdsAfter (.unlock m :: acts) h = if m ∈ h then holdsAfter acts (h.erase m) else none := rfl

@[simp] theorem holdsAfter_add (p : GraphId × EventId) :
    holdsAfter (.add p :: acts) h = if .queue p.1 ∈ h then none else holdsAfter acts h := rfl

@[simp] theorem holdsAfter_set (st : LstnrState) : holdsAfter (.set st :: acts) h = holdsAfter acts h := rfl

@[simp] theorem holdsAfter_call : holdsAfter (.call :: acts) h = holdsAfter acts h := rfl

theorem holdsAfter_append : holdsAfter (acts ++ acts') h = (holdsAfter acts h).bind (holdsAfter acts') := by
  induction acts generalizing h with
  | nil => rfl
  | cons a acts ih => cases a <;> simp [ih] <;> split <;> rfl

end

theorem holdsAfter_adds {h : List Mutex} (hq : ∀ g, .queue g ∉ h) (adds : List (GraphId × EventId)) :
    holdsAfter (adds.map .add) h = some h := by
  induction adds with
  | nil => rfl
  | cons p adds ih => rw [List.map_cons, holdsAfter_add, if_neg (hq p.1), ih]

theorem holdsAfter_sets (h : List Mutex) (sts : List LstnrState) : holdsAfter (sts.map .set) h = some h := by
  induction sts with
  | nil => rfl
  | cons st sts ih => rw [List.map_cons, holdsAfter_set, ih]

theorem Locked.does {l : ListenerId} {acts : List Act} {env env' : Env} {h h' : List Mutex} (hd : Does l acts env env')
    (hl : Locked h env) (hh : holdsAfter acts h = some h') : Locked h' env' := by
  induction hd generalizing h with
  | done hs =>
    cases hh
    exact hl.same hs.log
  | @act _ env₁ _ a acts hs _ ih =>
    have hl₁ : Locked h env₁ := hl.same hs.log
    cases a with
    | lock m =>
      rw [holdsAfter_lock] at hh
      split at hh
      · cases hh
      · exact ih (hl₁.lock ‹_›) hh
    | unlock m =>
      rw [holdsAfter_unlock] at hh
      split at hh
      · exact ih (hl₁.unlock ‹_›) hh
      · cases hh
    | add p =>
      rw [holdsAfter_add] at hh
      split at hh
      · cases hh
      · exact ih (hl₁.addEvent p ‹_›) hh
    | set st =>
      have hset : Locked h (env₁.modify l fun b => { b with state := st }) := hl₁.same rfl
      exact ih (hset.emit rfl) hh
    | call => exact ih (hl₁.emit rfl) hh

theorem holdsAfter_startActs (l : ListenerId) (adds : List (GraphId × EventId)) (sts : List LstnrState)
    (adds' : List (GraphId × EventId)) : holdsAfter (startActs l adds sts adds') [] = some [] := by
  have hq : ∀ g, Mutex.queue g ∉ [Mutex.state l] := by simp
  simp [startActs, holdsAfter_append, holdsAfter_adds hq, holdsAfter_sets]

theorem holdsAfter_stopActs (l : ListenerId) (b : Listener) (o : Outcome) :
    holdsAfter (stopActs l b o) [] = some [] := by
  have hq : ∀ g, Mutex.queue g ∉ [Mutex.state l] := by simp
  simp [stopActs, holdsAfter_append, holdsAfter_adds hq]

theorem holdsAfter_closeActs (l : ListenerId) (b : Listener) (o : Outcome) :
    holdsAfter (closeActs l b o) [] = some [] := by
  unfold closeActs
  split
  · simp [holdsAfter_append, holdsAfter_stopActs, holdsAfter_adds]
  · simp [holdsAfter_adds]

theorem start_locked {env : Env} (hl : Locked [] env) (l : ListenerId) (o : Outcome) :
    Locked [] (crtx_start_listener env l o).1 := by
  rcases start_does env l o with ⟨_, hd⟩ | ⟨_, adds, adds', sts, _, hd⟩
  · exact hl.does hd (by simp)
  · exact hl.does hd (holdsAfter_startActs l adds sts adds')

theorem stop_locked {env : Env} (hl : Locked [] env) (l : ListenerId) (o : Outcome) :
    Locked [] (crtx_stop_listener env l o).1 := by
  rcases stop_does env l o with ⟨_, hd⟩ | ⟨_, _, hd⟩ | ⟨_, _, hd⟩
  · exact hl.does hd (by simp)
  · exact hl.does hd (by simp)
  · exact hl.does hd (holdsAfter_stopActs l _ o)

/-! ## Freeing -/

/-- `shutdown_listener_intern` frees the graph or the listener. -/
def Releases (env : Env) (l : ListenerId) : Prop :=
  (env.lstnr l).free_cb = some true ∨ ∃ g ∈ (env.lstnr l).graph, (env.root.graphs g).listener = some l

instance (env : Env) (l : ListenerId) : Decidable (Releases env l) := inferInstanceAs (Decidable (_ ∨ _))

theorem releases_calm {adds : List (GraphId × EventId)} {env env' : Env} (hc : Calm adds env env') (l : ListenerId) :
    Releases env' l ↔ Releases env l := by
  simp only [Releases, (hc.kept l).free_cb, (hc.kept l).graph, hc.listener]

/-- What `shutdown_listener_intern` leaves of the mutexes `h` that are held. -/
structure Freed (h : List Mutex) (env : Env) (l : ListenerId) (k : Locks Mutex) : Prop where
  dead : k.dead = [] ↔ ¬ Releases env l
  held : k.dead = [] → k.held = h
  queue : ∀ g, (.queue g ∈ k.held ↔ .queue g ∈ h ∧ ¬ ((env.lstnr l).graph = some g ∧ (env.root.graphs g).listener = some l))
  state : .state l ∈ h → .state l ∈ k.held ∨ .state l ∈ k.dead

theorem releases_of_owns {env : Env} {l : ListenerId} {g : GraphId} (ho : Owns env l g) : Releases env l :=
  Or.inr ⟨g, ho.1, ho.2⟩

theorem releases_iff_free_cb {env : Env} {l : ListenerId} (hno : ∀ g, ¬ Owns env l g) :
    Releases env l ↔ (env.lstnr l).free_cb = some true := by
  refine or_iff_left ?_
  rintro ⟨g, hg, hgl⟩
  exact hno g ⟨hg, hgl⟩

theorem locksAfter_freeLog (b : Listener) (l : ListenerId) {log : List Ev} {k : Locks Mutex}
    (hk : locksAfter (log.filterMap lockOp) = some k) :
    locksAfter ((freeLog b l ++ log).filterMap lockOp) =
      some (if b.free_cb = some true then
        ⟨k.held.filter fun m => m ∉ [Mutex.state l, .dependencies l], [.state l, .dependencies l] ++ k.dead⟩ else k) := by
  unfold freeLog
  split
  · change (locksAfter (log.filterMap lockOp)).bind (fun k => k.apply (.destroy [.state l, .dependencies l])) = _
    rw [hk]
    rfl
  · exact hk

theorem intern_locks {h : List Mutex} {env : Env} (hl : Locked h env) (l : ListenerId) :
    ∃ k, locks (shutdown_listener_intern env l) = some k ∧ Freed h env l k := by
  have hc := intern_cases env l
  generalize shutdown_listener_intern env l = env' at hc ⊢
  unfold locks
  cases hc with
  | @frees g _ ho _ _ _ _ hlog =>
    have hk : locksAfter ((.freeGraph g :: .intern l (graphIdle env l) :: env.log).filterMap lockOp) =
        some ⟨h.filter fun m => m ∉ [Mutex.queue g], [.queue g]⟩ := by
      change (locks env).bind (fun k => k.apply (.destroy [.queue g])) = _
      rw [hl]
      rfl
    refine ⟨_, by rw [hlog]; exact locksAfter_freeLog _ l hk, ?_⟩
    have hr := releases_of_owns ho
    split
    · constructor <;> simp [hr, ho.1]
      grind [ho.2]
    · constructor <;> simp [hr, ho.1]
      grind [ho.2]
  | keeps hno _ _ _ _ hlog =>
    have hk : locksAfter ((.intern l (graphIdle env l) :: env.log).filterMap lockOp) = some ⟨h, []⟩ := hl
    refine ⟨_, by rw [hlog]; exact locksAfter_freeLog _ l hk, ?_⟩
    have hq : ∀ g, ¬ ((env.lstnr l).graph = some g ∧ (env.root.graphs g).listener = some l) := hno
    split
    · rename_i hf
      have hr := (releases_iff_free_cb hno).mpr hf
      constructor <;> simp [hr]
      grind
    · rename_i hf
      have hr := mt (releases_iff_free_cb hno).mp hf
      constructor <;> simp [hr]
      grind

/-! ## Shutting down -/

/-- A shutdown that is delayed, or one that comes again, finds no more events, and has nothing to free. -/
def ShutdownBreaks (env : Env) (l : ListenerId) (o : Outcome) : Prop :=
  Delays env l o ∨
    ((env.lstnr l).state = .shutdown ∧ (∃ g ∈ (env.lstnr l).graph, env.idle g) ∧ ¬ Releases env l)

instance (env : Env) (l : ListenerId) (o : Outcome) : Decidable (ShutdownBreaks env l o) :=
  inferInstanceAs (Decidable (_ ∨ _))

theorem refused_locked {env env' : Env} {l : ListenerId} {acts : List Act} (hl : Locked [] env)
    (hr : Refused l (env.lstnr l) acts) (hd : Does l acts env env') : Locked [] env' := by
  refine hl.does hd ?_
  cases hr with
  | late => simp
  | running _ => simp
  | pending g => simp

theorem reached_locked {env env' : Env} {l : ListenerId} {o : Outcome} {acts : List Act} (hl : Locked [] env)
    (hr : Reached l (env.lstnr l) o acts) (hd : Does l acts env env') :
    ((env.lstnr l).state ≠ .shutdown ∧ Locked [] env') ∨
    ∃ g, (env.lstnr l).state = .shutdown ∧ Locked [.queue g, .state l] env' := by
  cases hr with
  | @again g hst _ =>
    exact Or.inr ⟨g, hst, hl.does hd (by simp)⟩
  | first hst _ =>
    refine Or.inl ⟨hst, hl.does hd ?_⟩
    simp [holdsAfter_append, holdsAfter_closeActs]
  | noGraph hst _ => exact Or.inl ⟨hst, hl.does hd (holdsAfter_closeActs l _ o)⟩

theorem disciplined_intern {h : List Mutex} {env : Env} (hl : Locked h env) (l : ListenerId) :
    Disciplined (shutdown_listener_intern env l) ↔ (Releases env l ∨ h = []) := by
  obtain ⟨k, hk, hf⟩ := intern_locks hl l
  constructor
  · rintro ⟨k', hk', himp⟩
    rw [hk] at hk'
    cases hk'
    by_cases hr : Releases env l
    · exact Or.inl hr
    · have hd := hf.dead.mpr hr
      exact Or.inr ((hf.held hd).symm.trans (himp hd))
  · intro hor
    refine ⟨k, hk, ?_⟩
    intro hd
    rw [hf.held hd]
    exact hor.resolve_left (hf.dead.mp hd)

theorem shutdown_disciplined_iff {env : Env} (hl : Locked [] env) (l : ListenerId) (o : Outcome) :
    Disciplined (crtx_shutdown_listener env l o) ↔ ¬ ShutdownBreaks env l o := by
  have hs := shutdown_cases env l o
  generalize crtx_shutdown_listener env l o = env' at hs ⊢
  cases hs with
  | refused hnd hni hr hd =>
    refine iff_of_true (refused_locked hl hr hd).disciplined ?_
    rintro (h | ⟨hst, hg, _⟩)
    · exact hnd h
    · exact hni (Or.inl ⟨hst, hg⟩)
  | @delayed env₁ g hdel _ _ hd _ =>
    refine iff_of_false ?_ (not_not.mpr (Or.inl hdel))
    have h₁ : Locked [] env₁ := hl.does hd (holdsAfter_closeActs l _ o)
    have h₂ : Locked [] (((env₁.lock (.queue g)).emit (.delayed l)).unlock (.queue g)) := by
      have hq : Locked [.queue g] ((env₁.lock (.queue g)).emit (.delayed l)) :=
        (h₁.lock List.not_mem_nil).emit rfl
      have hu := hq.unlock (List.mem_cons_self ..)
      rwa [List.erase_cons_head] at hu
    have h₃ : Locked [] ((((env₁.lock (.queue g)).emit (.delayed l)).unlock (.queue g)).setState l .shutdown) :=
      Locked.emit (h₂.same rfl) rfl
    exact not_disciplined (h₃.unlock_none List.not_mem_nil)
  | @reached env₁ acts hnd hint hr hd _ =>
    have hrel := releases_calm hd.calm l
    rcases reached_locked hl hr hd with ⟨hst, hl₁⟩ | ⟨g, hst, hl₁⟩
    · refine iff_of_true ((disciplined_intern hl₁ l).mpr (Or.inr rfl)) ?_
      rintro (h | ⟨h, _⟩)
      · exact hnd h
      · exact hst h
    · have hg : ∃ g ∈ (env.lstnr l).graph, env.idle g := by
        rcases hint with h | ⟨h, _⟩
        · exact h.2
        · exact absurd hst (shutsDown_ne h)
      rw [disciplined_intern hl₁ l, hrel, or_iff_left (List.cons_ne_nil _ _)]
      constructor
      · rintro hr (h | ⟨_, _, h⟩)
        · exact hnd h
        · exact h hr
      · intro hb
        by_contra hr
        exact hb (Or.inr ⟨hst, hg, hr⟩)

/-! ## Processing one event -/

/-- Once the entry is off its list: the last event of a delayed shutdown frees the graph or leaves `state_mutex`
locked, and `free_after_event` then uses it again. -/
def EndBreaks (env : Env) (g : GraphId) (o : Outcome) : Prop :=
  ∃ l ∈ (env.root.graphs g).listener,
    if env.idle g ∧ (env.lstnr l).state = .shutdown then
      (env.lstnr l).graph = some g ∨ (env.lstnr l).free_after_event = true ∨ ¬ Releases env l
    else (env.lstnr l).free_after_event = true ∧ ShutdownBreaks env l o

/-- `env` is what the tasks leave behind. -/
def CompletionBreaks (env : Env) (g : GraphId) (q : Entry) (o : Outcome) : Prop :=
  EndBreaks (env.setRoot (finishEntry (dropReference env.root q.event) g q)) g o

theorem shutdown_locks_none {env : Env} {l : ListenerId} {k : Locks Mutex} (hk : locks env = some k)
    (h : .state l ∈ k.held ∨ .state l ∈ k.dead) (o : Outcome) : locks (crtx_shutdown_listener env l o) = none := by
  have hsuffix : ((env.emit (.callShutdown l)).lock (.state l)).log <:+ (crtx_shutdown_listener env l o).log :=
    shutdown_locks_first env l o
  refine locks_suffix hsuffix ?_
  unfold Env.lock
  rw [locks_some rfl, locks_none rfl, hk]
  exact if_pos h

theorem afterEvent_disciplined_iff {env : Env} (hl : Locked [] env) {g : GraphId} {l : ListenerId}
    (hli : (env.root.graphs g).listener = some l) (o : Outcome) :
    Disciplined (afterEvent env g o) ↔ ¬ ((env.lstnr l).free_after_event = true ∧ ShutdownBreaks env l o) := by
  have hl₁ : Locked [] ((env.emit (.touchGraph g)).emit (.touchLstnr l)) := (hl.emit rfl).emit rfl
  rw [afterEvent_some hli]
  split
  · rename_i hf
    rw [shutdown_disciplined_iff hl₁]
    exact ⟨fun h h' => h h'.2, fun h h' => h ⟨hf, h'⟩⟩
  · rename_i hf
    exact iff_of_true hl₁.disciplined fun h => absurd h.1 hf

theorem delayedEnd_disciplined_iff {env : Env} {l : ListenerId} {g : GraphId}
    (hl : Locked [.state l, .queue g] env) (hli : (env.root.graphs g).listener = some l) (o : Outcome) :
    Disciplined (afterEvent (((shutdown_listener_intern env l).emit (.touchGraph g)).unlock (.queue g)) g o) ↔
      ¬ ((env.lstnr l).graph = some g ∨ (env.lstnr l).free_after_event = true ∨ ¬ Releases env l) := by
  obtain ⟨k, hk, hf⟩ := intern_locks hl l
  have hafter := afterEvent_suffix (((shutdown_listener_intern env l).emit (.touchGraph g)).unlock (.queue g)) g o
  have hunlock : locks (((shutdown_listener_intern env l).emit (.touchGraph g)).unlock (.queue g)) =
      k.apply (.unlock (.queue g)) := by
    unfold Env.unlock
    rw [locks_some rfl, locks_none rfl, hk]
    rfl
  by_cases hg : (env.lstnr l).graph = some g
  · -- the graph is gone, and its mutex with it
    have hnq : .queue g ∉ k.held := fun h => ((hf.queue g).mp h).2 ⟨hg, hli⟩
    refine iff_of_false (not_disciplined (locks_suffix hafter ?_)) (not_not.mpr (Or.inl hg))
    rw [hunlock]
    exact if_neg hnq
  · have hq : .queue g ∈ k.held := (hf.queue g).mpr ⟨by simp, fun h => hg h.1⟩
    rw [Locks.apply_unlock hq] at hunlock
    generalize henv₁ : ((shutdown_listener_intern env l).emit (.touchGraph g)).unlock (.queue g) = env₁ at hunlock hafter ⊢
    have hli₁ : (env₁.root.graphs g).listener = some l := by
      rw [← henv₁, ← hli]
      exact intern_listener env l g
    have hfree : (env₁.lstnr l).free_after_event = (env.lstnr l).free_after_event := by
      rw [← henv₁]
      exact (intern_self env l).free_after_event
    have htouch : locks ((env₁.emit (.touchGraph g)).emit (.touchLstnr l)) =
        some { k with held := k.held.erase (.queue g) } := by
      rw [locks_none rfl, locks_none rfl, hunlock]
    rw [afterEvent_some hli₁, hfree]
    split
    · rename_i hfa
      refine iff_of_false (not_disciplined (shutdown_locks_none htouch ?_ o)) (by simp [hfa])
      refine (hf.state (by simp)).imp_left ?_
      intro hs
      exact (List.mem_erase_of_ne (by simp)).mpr hs
    · rename_i hfa
      rw [or_iff_right hg, or_iff_right hfa, not_not]
      constructor
      · rintro ⟨k', hk', himp⟩
        rw [htouch] at hk'
        cases hk'
        by_contra hr
        have hd := hf.dead.mpr hr
        have := himp hd
        rw [hf.held hd] at this
        simp at this
      · intro hr
        exact ⟨_, htouch, fun hd => absurd hr (hf.dead.mp hd)⟩

theorem end_disciplined_iff {env : Env} {g : GraphId} (hl : Locked [.queue g] env) (o : Outcome) :
    Disciplined (afterEvent (((checkDelayed env g).emit (.touchGraph g)).unlock (.queue g)) g o) ↔
      ¬ EndBreaks env g o := by
  unfold EndBreaks
  cases hli : (env.root.graphs g).listener with
  | none =>
    have hu : Locked [] ((env.emit (.touchGraph g)).unlock (.queue g)) := by
      have := (hl.emit (rfl : lockOp (.touchGraph g) = none)).unlock (List.mem_cons_self ..)
      rwa [List.erase_cons_head] at this
    have hli₁ : (((env.emit (.touchGraph g)).unlock (.queue g)).root.graphs g).listener = none := hli
    rw [checkDelayed_none hli, afterEvent_none hli₁]
    exact iff_of_true (hu.emit rfl).disciplined (by simp)
  | some l =>
    have hlock : Locked [.state l, .queue g] ((env.emit (.touchLstnr l)).lock (.state l)) :=
      (hl.emit rfl).lock (by simp)
    rw [checkDelayed_some hli]
    simp only [Option.mem_some_iff, exists_eq_left']
    split
    · exact delayedEnd_disciplined_iff hlock hli o
    · have hu : Locked [.queue g] (((env.emit (.touchLstnr l)).lock (.state l)).unlock (.state l)) := by
        have := hlock.unlock (List.mem_cons_self ..)
        rwa [List.erase_cons_head] at this
      have hu₁ : Locked [] (((((env.emit (.touchLstnr l)).lock (.state l)).unlock (.state l)).emit
          (.touchGraph g)).unlock (.queue g)) := by
        have := (hu.emit (rfl : lockOp (.touchGraph g) = none)).unlock (List.mem_cons_self ..)
        rwa [List.erase_cons_head] at this
      exact afterEvent_disciplined_iff hu₁ hli o

theorem complete_disciplined_iff {env : Env} (hl : Locked [] env) (g : GraphId) (q : Entry) (o : Outcome) :
    Disciplined (completePart env g q o) ↔ ¬ CompletionBreaks env g q o := by
  have htouch : Locked [] ((env.setRoot (dropReference env.root q.event)).emit (.touchGraph g)) :=
    Locked.emit (hl.same rfl) rfl
  have hlock : Locked [.queue g] ((((env.setRoot (dropReference env.root q.event)).emit (.touchGraph g)).lock
      (.queue g)).setRoot (finishEntry (dropReference env.root q.event) g q)) :=
    (htouch.lock List.not_mem_nil).same rfl
  exact end_disciplined_iff hlock o

/-! ## The calls -/

/-- `handler` is what the tasks do. Their own calls are judged by themselves. -/
inductive Call where
  | start (l : ListenerId) (o : Outcome)
  | stop (l : ListenerId) (o : Outcome)
  | shutdown (l : ListenerId) (o : Outcome)
  | process (g : GraphId) (handler : Env → Env) (o : Outcome)

/-- Without the log entries of the tasks. -/
def ownLog (handler : Env → Env) (env : Env) : Env := { handler env with log := env.log }

def Call.exec (env : Env) : Call → Env
  | start l o => (crtx_start_listener env l o).1
  | stop l o => (crtx_stop_listener env l o).1
  | shutdown l o => crtx_shutdown_listener env l o
  | process g handler o => (crtx_process_one_event env g (ownLog handler) o).1

def Call.Breaks (env : Env) : Call → Prop
  | start _ _ => False
  | stop _ _ => False
  | shutdown l o => ShutdownBreaks env l o
  | process g handler o =>
    ∃ q ∈ (claimPart env g).2, CompletionBreaks (ownLog handler ((claimPart env g).1.emit (.touchGraph g))) g q o

theorem claim_locked {env : Env} (hl : Locked [] env) (g : GraphId) : Locked [] (claimPart env g).1 := by
  have hlock : Locked [.queue g] (((env.emit (.touchGraph g)).lock (.queue g)).setRoot
      (crtx_claim_next_event_of_graph env.root g).1) := ((hl.emit rfl).lock List.not_mem_nil).same rfl
  have hu := hlock.unlock (List.mem_cons_self ..)
  rw [List.erase_cons_head] at hu
  exact hu

theorem process_disciplined_iff {env : Env} (hl : Locked [] env) (g : GraphId) (handler : Env → Env) (o : Outcome) :
    Disciplined (Call.exec env (.process g handler o)) ↔ ¬ Call.Breaks env (.process g handler o) := by
  have hc := claim_locked hl g
  change Disciplined (crtx_process_one_event env g (ownLog handler) o).1 ↔ ¬ ∃ q ∈ (claimPart env g).2, _
  unfold crtx_process_one_event
  generalize claimPart env g = c at hc ⊢
  rcases c with ⟨env₁, _ | q⟩
  · exact iff_of_true hc.disciplined (by simp)
  · have hh : Locked [] (ownLog handler (env₁.emit (.touchGraph g))) := Locked.same (hc.emit rfl) rfl
    simp only [Option.mem_some_iff, exists_eq_left']
    exact complete_disciplined_iff hh g q o

/-- A call is disciplined exactly if it doesn't reach one of these places. -/
theorem disciplined_iff_not_breaks (env : Env) (hlog : env.log = []) (c : Call) :
    Disciplined (c.exec env) ↔ ¬ c.Breaks env := by
  have hl : Locked [] env := by
    unfold Locked locks
    rw [hlog]
    rfl
  cases c with
  | start l o => exact iff_of_true (start_locked hl l o).disciplined not_false
  | stop l o => exact iff_of_true (stop_locked hl l o).disciplined not_false
  | shutdown l o => exact shutdown_disciplined_iff hl l o
  | process g handler o => exact process_disciplined_iff hl g handler o

/-- The shutdown of a listener whose graph is idle. -/
theorem disciplined_idle_shutdown : Disciplined (Call.exec Env.idleListener (.shutdown 0 .quiet)) := by
  refine (disciplined_iff_not_breaks Env.idleListener rfl (.shutdown 0 .quiet)).mpr ?_
  change ¬ ShutdownBreaks Env.idleListener 0 .quiet
  decide

/-- A shutdown with a pending event gives `state_mutex` back twice. -/
theorem delayed_shutdown_unlocks_twice : ¬ Disciplined (Call.exec Env.busyListener (.shutdown 0 .quiet)) := by
  change ¬ Disciplined (crtx_shutdown_listener Env.busyListener 0 .quiet)
  decide

end Libcortex.LockDiscipline
