import Libcortex.CtrlPipe

/-!
# Startup callbacks

A callback that is registered before the event loop runs is called through a message in the control pipe. All
registrations share one `struct crtx_evloop_callback`, which is static, and the message only has the pointer to it.
-/

open Libcortex.Lib

namespace Libcortex.Startup

/-! ## The machine -/

section Machine

variable {H D : Type}

def default_evloop_startup_el_cb : CallbackId := 0

/-- `startup_el_cb` has `event_handler` and `event_handler_data` of the static callback. `invoked` is history. -/
structure Loop (H D : Type) where
  root : Root
  startup_el_cb : Option (H × D)
  invoked : List (H × D)

/-- The functions that write into the pipe. No other message names the static callback. -/
inductive Call (H D : Type) where
  | register (event_handler : H) (userdata : D)
  | other (ecp : { ecp : CtrlMsg // ecp.el_cb ≠ some default_evloop_startup_el_cb })

def crtx_evloop_register_startup_callback (s : Loop H D) (event_handler : H) (userdata : D) : Loop H D :=
  { s with
    root := crtx_evloop_trigger_callback s.root default_evloop_startup_el_cb
    startup_el_cb := some (event_handler, userdata) }

def perform (s : Loop H D) : Call H D → Loop H D
  | .register event_handler userdata => crtx_evloop_register_startup_callback s event_handler userdata
  | .other ecp => { s with root := { s.root with pipe := s.root.pipe ++ [ecp.1] } }

/-- The thread that calls is the one that reads, so a write into the full pipe waits for ever. -/
def call (s : Loop H D) (c : Call H D) : Option (Loop H D) :=
  if s.root.HasRoom then some (perform s c) else none

/-- `crtx_evloop_callback` of the static callback, which has no flags and no descriptor. -/
def crtx_evloop_callback (s : Loop H D) : Loop H D :=
  match s.startup_el_cb with
  | none => s
  | some p => { s with invoked := s.invoked ++ [p] }

def evloop_ctrl_pipe_handler (s : Loop H D) (ecp : CtrlMsg) : Loop H D :=
  if ecp.el_cb = some default_evloop_startup_el_cb then crtx_evloop_callback s else s

def readMsg (s : Loop H D) : Option (Loop H D) :=
  match s.root.pipe with
  | [] => none
  | ecp :: rest => some (evloop_ctrl_pipe_handler { s with root := { s.root with pipe := rest } } ecp)

/-- The loop reads `n` messages. `calls k` are those that handlers make before message `k` is read and after the one
before it. -/
def crtx_evloop_start (calls : Nat → List (Call H D)) : Nat → Loop H D → Option (Loop H D)
  | 0, s => some s
  | n + 1, s =>
    (run call (calls 0) s).bind fun s => (readMsg s).bind (crtx_evloop_start (fun k => calls (k + 1)) n)

def init (r : Root) : Loop H D where
  root := { r with pipe := [] }
  startup_el_cb := none
  invoked := []

end Machine

/-! ## What has to hold -/

section Conditions

variable {H D : Type}

def Call.pair : Call H D → Option (H × D)
  | .register event_handler userdata => some (event_handler, userdata)
  | .other _ => none

/-- The pairs that the calls register, in order. -/
def registered (cs : List (Call H D)) : List (H × D) := cs.filterMap Call.pair

/-- What handlers have called when message `k` is read. -/
def earlier (calls : Nat → List (Call H D)) (k : Nat) : List (Call H D) := (List.range (k + 1)).flatMap calls

/-- The messages of the calls before the loop runs fit into the pipe. Those of handlers fit beside the ones that are
still there. -/
def FitsPipe (r : Root) (before : List (Call H D)) (calls : Nat → List (Call H D)) : Prop :=
  before.length * ctrlMsgSize ≤ r.pipe_capacity ∧
    ∀ k < before.length, (before.length - k + (earlier calls k).length) * ctrlMsgSize ≤ r.pipe_capacity

/-- When the message of a registration is read, its pair is the one that was registered last. -/
def LastRegistered (before : List (Call H D)) (calls : Nat → List (Call H D)) : Prop :=
  ∀ k p, before[k]?.bind Call.pair = some p → (registered (before ++ earlier calls k)).getLast? = some p

theorem earlier_succ (calls : Nat → List (Call H D)) (k : Nat) :
    earlier calls (k + 1) = calls 0 ++ earlier (fun j => calls (j + 1)) k := by
  unfold earlier
  rw [List.range_succ_eq_map, List.flatMap_cons, List.flatMap_map]

theorem earlier_zero (calls : Nat → List (Call H D)) : earlier calls 0 = calls 0 := by
  simp [earlier]

@[simp] theorem registered_nil : registered ([] : List (Call H D)) = [] := rfl

@[simp] theorem registered_register (h : H) (d : D) (cs : List (Call H D)) :
    registered (.register h d :: cs) = (h, d) :: registered cs := rfl

@[simp] theorem registered_other (ecp : { ecp : CtrlMsg // ecp.el_cb ≠ some default_evloop_startup_el_cb })
    (cs : List (Call H D)) : registered (.other ecp :: cs) = registered cs := rfl

theorem registered_append (cs cs' : List (Call H D)) : registered (cs ++ cs') = registered cs ++ registered cs' :=
  List.filterMap_append

theorem getLast_registered_append (cs cs' : List (Call H D)) :
    (registered (cs ++ cs')).getLast? = (registered cs').getLast?.or (registered cs).getLast? := by
  rw [registered_append, List.getLast?_append]

theorem mem_registered {before : List (Call H D)} {p : H × D} :
    p ∈ registered before ↔ ∃ k : Nat, before[k]?.bind Call.pair = some p := by
  rw [registered, List.mem_filterMap]
  constructor
  · rintro ⟨c, hc, hp⟩
    obtain ⟨k, hk⟩ := List.mem_iff_getElem?.mp hc
    exact ⟨k, by rw [hk, Option.bind_some, hp]⟩
  · rintro ⟨k, hk⟩
    obtain ⟨c, hc, hp⟩ := Option.bind_eq_some_iff.mp hk
    exact ⟨c, List.mem_of_getElem? hc, hp⟩

theorem conditions_without_handlers (r : Root) (before : List (Call H D)) :
    FitsPipe r before (fun _ => []) ∧ LastRegistered before (fun _ => []) ↔
      before.length * ctrlMsgSize ≤ r.pipe_capacity ∧ ∀ p ∈ registered before, ∀ q ∈ registered before, p = q := by
  have hnone : ∀ k, earlier (fun _ => []) k = ([] : List (Call H D)) := by simp [earlier]
  refine and_congr ?_ ?_
  · simp only [FitsPipe, hnone, List.length_nil, Nat.add_zero]
    refine and_iff_left_of_imp fun hcap k _ => le_trans (Nat.mul_le_mul_right _ ?_) hcap
    exact Nat.sub_le ..
  · have hstored : LastRegistered before (fun _ => []) ↔
        ∀ p ∈ registered before, (registered before).getLast? = some p := by
      simp only [LastRegistered, hnone, List.append_nil, mem_registered, forall_exists_index]
      exact forall_comm
    rw [hstored]
    constructor
    · intro h p hp q hq
      exact Option.some.inj ((h p hp).symm.trans (h q hq))
    · intro h p hp
      have hne : registered before ≠ [] := List.ne_nil_of_mem hp
      rw [List.getLast?_eq_some_getLast hne, h p hp _ (List.getLast_mem hne)]

end Conditions

/-! ## Calls -/

section Proofs

variable {H D : Type}

def Call.msg : Call H D → CtrlMsg
  | .register _ _ => ⟨none, some default_evloop_startup_el_cb⟩
  | .other ecp => ecp.1

/-- The state after the calls, if none had to wait. -/
def after (s : Loop H D) (cs : List (Call H D)) : Loop H D :=
  { s with
    root := { s.root with pipe := s.root.pipe ++ cs.map Call.msg }
    startup_el_cb := (registered cs).getLast?.or s.startup_el_cb }

theorem after_nil (s : Loop H D) : after s [] = s := by
  simp [after, registered]

theorem perform_eq_after (s : Loop H D) (c : Call H D) : perform s c = after s [c] := by
  cases c with
  | register h d => rfl
  | other ecp => rfl

theorem after_after (s : Loop H D) (cs cs' : List (Call H D)) : after (after s cs) cs' = after s (cs ++ cs') := by
  simp only [after, getLast_registered_append, List.map_append, List.append_assoc, Option.or_assoc]

theorem run_call (cs : List (Call H D)) (s : Loop H D)
    (hcap : s.root.pipe.length * ctrlMsgSize ≤ s.root.pipe_capacity) :
    run call cs s =
      if (s.root.pipe.length + cs.length) * ctrlMsgSize ≤ s.root.pipe_capacity then some (after s cs) else none := by
  induction cs generalizing s with
  | nil => rw [run_nil, after_nil, List.length_nil, Nat.add_zero, if_pos hcap]
  | cons c cs ih =>
    rw [run_cons, call, perform_eq_after]
    have hlen : (after s [c]).root.pipe.length = s.root.pipe.length + 1 := by simp [after]
    have hcapacity : (after s [c]).root.pipe_capacity = s.root.pipe_capacity := rfl
    by_cases hroom : s.root.HasRoom
    · have hfits : (after s [c]).root.pipe.length * ctrlMsgSize ≤ (after s [c]).root.pipe_capacity := by
        rw [hlen]
        exact hroom
      rw [if_pos hroom, Option.bind_some, ih (after s [c]) hfits, after_after, hlen, hcapacity, List.length_cons,
        Nat.add_assoc, Nat.add_comm 1]
      rfl
    · rw [if_neg hroom, Option.bind_none, if_neg]
      unfold Root.HasRoom ctrlMsgSize at *
      rw [List.length_cons]
      omega

/-! ## Messages -/

/-- What is invoked when the message of the call is read and `p` is stored. -/
def Call.invokes (p : Option (H × D)) : Call H D → List (H × D)
  | .register _ _ => p.toList
  | .other _ => []

theorem evloop_ctrl_pipe_handler_msg (s : Loop H D) (c : Call H D) :
    evloop_ctrl_pipe_handler s c.msg = { s with invoked := s.invoked ++ c.invokes s.startup_el_cb } := by
  cases c with
  | register h d =>
    have hnames : (Call.register h d).msg.el_cb = some default_evloop_startup_el_cb := rfl
    unfold evloop_ctrl_pipe_handler
    rw [if_pos hnames]
    obtain ⟨root, _ | p, invoked⟩ := s
    · simp [crtx_evloop_callback, Call.invokes]
    · rfl
  | other ecp =>
    have hnames : (Call.other ecp : Call H D).msg.el_cb ≠ some default_evloop_startup_el_cb := ecp.2
    unfold evloop_ctrl_pipe_handler
    rw [if_neg hnames]
    simp [Call.invokes]

/-- The loop reads the message of `c`, after the calls `cs` of handlers. -/
def served (s : Loop H D) (cs : List (Call H D)) (c : Call H D) (more : List CtrlMsg) : Loop H D where
  root := { s.root with pipe := more ++ cs.map Call.msg }
  startup_el_cb := (registered cs).getLast?.or s.startup_el_cb
  invoked := s.invoked ++ c.invokes ((registered cs).getLast?.or s.startup_el_cb)

theorem start_succ (calls : Nat → List (Call H D)) (n : Nat) (s : Loop H D) {c : Call H D} {more : List CtrlMsg}
    (hpipe : s.root.pipe = c.msg :: more) (hcap : s.root.pipe.length * ctrlMsgSize ≤ s.root.pipe_capacity) :
    crtx_evloop_start calls (n + 1) s =
      if (s.root.pipe.length + (calls 0).length) * ctrlMsgSize ≤ s.root.pipe_capacity then
        crtx_evloop_start (fun k => calls (k + 1)) n (served s (calls 0) c more)
      else none := by
  have hread : readMsg (after s (calls 0)) = some (served s (calls 0) c more) := by
    have hpipe' : (after s (calls 0)).root.pipe = c.msg :: (more ++ (calls 0).map Call.msg) := by
      simp [after, hpipe]
    unfold readMsg
    rw [hpipe']
    dsimp only
    rw [evloop_ctrl_pipe_handler_msg]
    rfl
  rw [crtx_evloop_start, run_call (calls 0) s hcap]
  split
  · rw [Option.bind_some, hread, Option.bind_some]
  · rfl

/-! ## The loop -/

/-- What is invoked while the messages of the calls `cs` are read. -/
def invokes (calls : Nat → List (Call H D)) : List (Call H D) → Option (H × D) → List (H × D)
  | [], _ => []
  | c :: cs, p =>
    c.invokes ((registered (calls 0)).getLast?.or p) ++
      invokes (fun k => calls (k + 1)) cs ((registered (calls 0)).getLast?.or p)

theorem start_iff (cs : List (Call H D)) (calls : Nat → List (Call H D)) (s : Loop H D) {more : List CtrlMsg}
    (hpipe : s.root.pipe = cs.map Call.msg ++ more)
    (hcap : s.root.pipe.length * ctrlMsgSize ≤ s.root.pipe_capacity) (ps : List (H × D)) :
    (∃ s', crtx_evloop_start calls cs.length s = some s' ∧ s'.invoked = ps) ↔
      (∀ k < cs.length, (s.root.pipe.length - k + (earlier calls k).length) * ctrlMsgSize ≤ s.root.pipe_capacity) ∧
        s.invoked ++ invokes calls cs s.startup_el_cb = ps := by
  induction cs generalizing calls s more with
  | nil => simp [crtx_evloop_start, invokes]
  | cons c cs ih =>
    have hlen : s.root.pipe.length = cs.length + more.length + 1 := by simp [hpipe]
    have hpipe' : s.root.pipe = c.msg :: (cs.map Call.msg ++ more) := hpipe
    rw [List.length_cons, start_succ calls cs.length s hpipe' hcap, Nat.forall_lt_succ_left, earlier_zero, Nat.sub_zero,
      and_assoc]
    split
    · rename_i hroom
      rw [and_iff_right hroom]
      have hserved : (served s (calls 0) c (cs.map Call.msg ++ more)).root.pipe =
          cs.map Call.msg ++ (more ++ (calls 0).map Call.msg) := List.append_assoc ..
      have hlen' : (served s (calls 0) c (cs.map Call.msg ++ more)).root.pipe.length =
          cs.length + more.length + (calls 0).length := by simp [hserved, Nat.add_assoc]
      have hcap' : (served s (calls 0) c (cs.map Call.msg ++ more)).root.pipe.length * ctrlMsgSize ≤
          (served s (calls 0) c (cs.map Call.msg ++ more)).root.pipe_capacity := by
        refine le_trans (Nat.mul_le_mul_right _ ?_) hroom
        omega
      rw [ih (fun k => calls (k + 1)) _ hserved hcap']
      refine and_congr (forall_congr' fun k => imp_congr_right fun hk => ?_) ?_
      · have hsame : cs.length + more.length + (calls 0).length - k + (earlier (fun j => calls (j + 1)) k).length =
            s.root.pipe.length - (k + 1) + (earlier calls (k + 1)).length := by
          rw [earlier_succ, List.length_append]
          omega
        rw [hlen', hsame]
        rfl
      · rw [invokes, ← List.append_assoc]
        rfl
    · rename_i hroom
      simp [hroom]

theorem invokes_length_le (cs : List (Call H D)) (calls : Nat → List (Call H D)) (p : Option (H × D)) :
    (invokes calls cs p).length ≤ (registered cs).length := by
  induction cs generalizing calls p with
  | nil => exact Nat.le_refl 0
  | cons c cs ih =>
    rw [invokes, List.length_append]
    generalize (registered (calls 0)).getLast?.or p = p'
    have hrest := ih (fun k => calls (k + 1)) p'
    cases c with
    | other ecp =>
      rw [registered_other]
      simpa [Call.invokes] using hrest
    | register h d =>
      have hone : (Call.invokes p' (.register h d)).length ≤ 1 := Option.length_toList_le
      rw [registered_register, List.length_cons]
      omega

theorem invokes_eq_iff (cs : List (Call H D)) (calls : Nat → List (Call H D)) (p : Option (H × D)) :
    invokes calls cs p = registered cs ↔
      ∀ k q, cs[k]?.bind Call.pair = some q → (registered (earlier calls k)).getLast?.or p = some q := by
  induction cs generalizing calls p with
  | nil => simp [invokes]
  | cons c cs ih =>
    have hrest : (∀ k q, (c :: cs)[k + 1]?.bind Call.pair = some q →
        (registered (earlier calls (k + 1))).getLast?.or p = some q) ↔
          invokes (fun k => calls (k + 1)) cs ((registered (calls 0)).getLast?.or p) = registered cs := by
      rw [ih]
      simp only [earlier_succ, getLast_registered_append, Option.or_assoc, List.getElem?_cons_succ]
    rw [← Nat.and_forall_add_one, hrest, earlier_zero, invokes]
    generalize (registered (calls 0)).getLast?.or p = p'
    cases c with
    | other ecp => simp [Call.invokes, Call.pair]
    | register h d =>
      cases p' with
      | some q => simp [Call.invokes, Call.pair, eq_comm]
      | none =>
        -- Nothing is invoked here, so one is missing in the end.
        have hlen := invokes_length_le cs (fun k => calls (k + 1)) none
        refine iff_of_false (fun heq => ?_) fun h => ?_
        · rw [Call.invokes, Option.toList_none, List.nil_append, registered_register] at heq
          rw [heq, List.length_cons] at hlen
          omega
        · simpa [Call.pair] using h.1

/-! ## The result -/

/-- Every pair that was registered before the loop runs is invoked, once and in order. -/
theorem invoked_in_order_iff (r : Root) (before : List (Call H D)) (calls : Nat → List (Call H D)) :
    (∃ s, run call before (init r) = some s ∧
      ∃ s', crtx_evloop_start calls before.length s = some s' ∧ s'.invoked = registered before) ↔
        FitsPipe r before calls ∧ LastRegistered before calls := by
  have hlast : LastRegistered before calls ↔
      invokes calls before (registered before).getLast? = registered before := by
    rw [invokes_eq_iff]
    simp only [LastRegistered, getLast_registered_append]
  have hempty : (init r : Loop H D).root.pipe.length * ctrlMsgSize ≤ r.pipe_capacity := by simp [init]
  have hlen : (init r : Loop H D).root.pipe.length + before.length = before.length := Nat.zero_add _
  rw [hlast, FitsPipe, run_call before (init r) hempty, hlen, and_assoc]
  split
  · rename_i hcap
    have hpipe : (after (init r) before).root.pipe = before.map Call.msg ++ [] := by simp [after, init]
    have hpipelen : (after (init r) before).root.pipe.length = before.length := by simp [hpipe]
    have hcap' : (after (init r) before).root.pipe.length * ctrlMsgSize ≤
        (after (init r) before).root.pipe_capacity := by
      rw [hpipelen]
      exact hcap
    have hstored : (after (init r) before).startup_el_cb = (registered before).getLast? := Option.or_none
    have hstart := start_iff before calls _ hpipe hcap' (registered before)
    rw [hpipelen, hstored] at hstart
    rw [and_iff_right (show before.length * ctrlMsgSize ≤ r.pipe_capacity from hcap)]
    simp only [Option.some.injEq, exists_eq_left']
    exact hstart
  · rename_i hcap
    exact iff_of_false (by simp) fun h => hcap h.1

/-- The second of two registrations overwrites the first, and is called for both messages. -/
theorem second_pair_invoked_twice :
    ∃ s s', run call [.register 10 100, .register 11 101] (init CtrlPipe.eloopRoot) = some s ∧
      crtx_evloop_start (fun _ => []) 2 s = some s' ∧
      registered [Call.register 10 100, .register 11 101] = [(10, 100), (11, 101)] ∧
      s'.invoked = [(11, 101), (11, 101)] := ⟨_, _, rfl, rfl, rfl, rfl⟩

end Proofs

end Libcortex.Startup
