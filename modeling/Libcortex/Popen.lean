import Libcortex.Fork
import Libcortex.Lib.Descriptors

/-!
# The standard descriptors of a popen child

After the fork, the child finds out which descriptors the command shall have, changes its ids and then makes the
descriptors 0, 1 and 2 refer to the right files before it executes the command.
-/

open Libcortex.Lib Libcortex.Fork

namespace Libcortex.Popen

/-! ## The code -/

def STDIN_FILENO : Int := 0
def STDOUT_FILENO : Int := 1
def STDERR_FILENO : Int := 2

/-- `fds` of a pipe listener, with `CRTX_READ_END` and `CRTX_WRITE_END`. -/
structure PipeFds where
  readEnd : Int
  writeEnd : Int
deriving DecidableEq, Repr

/-- `struct crtx_popen_listener`. Of `stdin_wq_lstnr.write` and the callbacks it matters whether they are set. -/
structure PopenListener where
  fork_lstnr : ForkListener
  stdin_wq_write : Bool
  stdin_lstnr : PipeFds
  stdout_lstnr : PipeFds
  stderr_lstnr : PipeFds
  fstdin : Int
  fstdout : Int
  fstderr : Int
  stdout_cb : Bool
  stderr_cb : Bool
deriving DecidableEq, Repr

/-- The value of `fstdin`, `fstdout` or `fstderr` in the child. -/
def childFd (fd : Int) (piped : Bool) (pipeEnd standard : Int) : Int :=
  if fd = -1 then if piped then pipeEnd else standard else fd

def post_fork_child_callback (plstnr : PopenListener) : PopenListener :=
  { plstnr with
    fstdin := childFd plstnr.fstdin plstnr.stdin_wq_write plstnr.stdin_lstnr.readEnd STDIN_FILENO
    fstdout := childFd plstnr.fstdout plstnr.stdout_cb plstnr.stdout_lstnr.writeEnd STDOUT_FILENO
    fstderr := childFd plstnr.fstderr plstnr.stderr_cb plstnr.stderr_lstnr.writeEnd STDERR_FILENO
    stdin_lstnr := { plstnr.stdin_lstnr with readEnd := -1 }
    stdout_lstnr := { plstnr.stdout_lstnr with writeEnd := -1 }
    stderr_lstnr := { plstnr.stderr_lstnr with writeEnd := -1 } }

variable {ω : Type}

/-- `none`: `dup2` fails, and the child exits with the status 1. -/
def redirect (fd standard : Int) (t : FdTable Int ω) : Option (FdTable Int ω) :=
  if fd ≠ standard then do
    let t ← dup2 t fd standard
    return close t fd
  else some t

/-- What `after_fork_reinit_cb` does to the descriptors. -/
def redirections (plstnr : PopenListener) (t : FdTable Int ω) : Option (FdTable Int ω) := do
  let t ← redirect plstnr.fstdin STDIN_FILENO t
  let t ← redirect plstnr.fstdout STDOUT_FILENO t
  redirect plstnr.fstderr STDERR_FILENO t

/-- The child of `do_fork`, up to the call that executes the command: its ids and its descriptors. An error is the status
with which it exits. -/
def child (db : Databases) (plstnr : PopenListener) (c : Creds) (t : FdTable Int ω) :
    Except Int (Creds × FdTable Int ω) := do
  let plstnr := post_fork_child_callback plstnr
  let c ← reinit_cb db plstnr.fork_lstnr c
  let t ← orExit (redirections plstnr t)
  return (c, t)

/-! ## What has to hold -/

/-- The command gets the files that the listener names. -/
structure Redirected (plstnr : PopenListener) (t t' : FdTable Int ω) : Prop where
  stdin : t' STDIN_FILENO = t plstnr.fstdin
  stdout : t' STDOUT_FILENO = t plstnr.fstdout
  stderr : t' STDERR_FILENO = t plstnr.fstderr

/-- The descriptors are open. -/
structure Open (plstnr : PopenListener) (t : FdTable Int ω) : Prop where
  stdin : (t plstnr.fstdin).isSome
  stdout : (t plstnr.fstdout).isSome
  stderr : (t plstnr.fstderr).isSome

/-- The descriptors differ, and none of them was replaced before it is used. -/
def Distinct (plstnr : PopenListener) : Prop :=
  plstnr.fstdout ≠ plstnr.fstdin ∧ plstnr.fstderr ≠ plstnr.fstdin ∧ plstnr.fstderr ≠ plstnr.fstdout ∧
    plstnr.fstdout ≠ STDIN_FILENO ∧ plstnr.fstderr ≠ STDIN_FILENO ∧ plstnr.fstderr ≠ STDOUT_FILENO

instance (plstnr : PopenListener) : Decidable (Distinct plstnr) := inferInstanceAs (Decidable (_ ∧ _))

/-! ## The redirections are moves -/

variable {plstnr : PopenListener} {t t' : FdTable Int ω}

def moves (plstnr : PopenListener) : List (Int × Int) :=
  [(plstnr.fstdin, STDIN_FILENO), (plstnr.fstdout, STDOUT_FILENO), (plstnr.fstderr, STDERR_FILENO)]

theorem redirect_eq_move (fd standard : Int) (t : FdTable Int ω) : redirect fd standard t = move t fd standard := by
  unfold redirect move
  by_cases h : fd = standard
  · rw [if_neg (not_not.mpr h), if_pos h]
  · rw [if_pos h, if_neg h]
    cases dup2 t fd standard <;> rfl

theorem redirections_eq_moveAll (plstnr : PopenListener) (t : FdTable Int ω) :
    redirections plstnr t = moveAll (moves plstnr) t := by
  simp only [redirections, moves, moveAll, redirect_eq_move, Option.bind_eq_bind]
  simp

theorem assigned_iff : Assigned (moves plstnr) t t' ↔ Redirected plstnr t t' := by
  unfold Assigned moves
  simp only [List.forall_mem_cons, List.not_mem_nil, false_imp_iff, implies_true, and_true]
  exact ⟨fun ⟨h0, h1, h2⟩ => ⟨h0, h1, h2⟩, fun h => ⟨h.stdin, h.stdout, h.stderr⟩⟩

theorem inOrder_iff : InOrder (moves plstnr) ↔ Distinct plstnr := by
  unfold InOrder moves Distinct
  simp only [List.pairwise_cons, List.forall_mem_cons, List.not_mem_nil, false_imp_iff, implies_true, and_true,
    List.Pairwise.nil]
  tauto

theorem redirected_iff_distinct (ho : Open plstnr t) :
    (∃ t', moveAll (moves plstnr) t = some t' ∧ Assigned (moves plstnr) t t') ↔ Distinct plstnr := by
  have hopen : ∀ m ∈ moves plstnr, (t m.1).isSome := by
    simpa [moves] using ⟨ho.stdin, ho.stdout, ho.stderr⟩
  have htargets : (moves plstnr).map Prod.snd = [STDIN_FILENO, STDOUT_FILENO, STDERR_FILENO] := rfl
  rw [← inOrder_iff]
  exact moveAll_assigned_iff (by rw [htargets]; decide) hopen

/-- The redirections succeed and do what they should if and only if the descriptors are distinct. -/
theorem redirected_iff (ho : Open plstnr t) :
    (∃ t', redirections plstnr t = some t' ∧ Redirected plstnr t t') ↔ Distinct plstnr := by
  rw [← redirected_iff_distinct ho]
  refine exists_congr fun t' => ?_
  rw [redirections_eq_moveAll, assigned_iff]

/-- Descriptors that refer to a file of their own. -/
def ownFiles (fds : List Int) : FdTable Int Int := fun fd => if fd ∈ fds then some fd else none

/-- A listener without pipes. -/
def listener (fstdin fstdout fstderr : Int) : PopenListener where
  fork_lstnr := ⟨none, none⟩
  stdin_wq_write := false
  stdin_lstnr := ⟨-1, -1⟩
  stdout_lstnr := ⟨-1, -1⟩
  stderr_lstnr := ⟨-1, -1⟩
  fstdin := fstdin
  fstdout := fstdout
  fstderr := fstderr
  stdout_cb := false
  stderr_cb := false

theorem redirected_files :
    ∃ t', redirections (listener 5 6 2) (ownFiles [0, 1, 2, 5, 6]) = some t' ∧
      Redirected (listener 5 6 2) (ownFiles [0, 1, 2, 5, 6]) t' :=
  (redirected_iff ⟨by decide, by decide, by decide⟩).mpr (by decide)

/-- The same file for the output and the errors: the descriptor is closed when it is needed for the second time. -/
theorem shared_descriptor_fails :
    Open (listener 0 5 5) (ownFiles [0, 1, 2, 5]) ∧ redirections (listener 0 5 5) (ownFiles [0, 1, 2, 5]) = none := by
  exact ⟨⟨by decide, by decide, by decide⟩, rfl⟩

/-! ## The child -/

theorem child_ok_iff {db : Databases} {c c' : Creds} :
    child db plstnr c t = .ok (c', t') ↔
      reinit_cb db plstnr.fork_lstnr c = .ok c' ∧ redirections (post_fork_child_callback plstnr) t = some t' := by
  have hlstnr : (post_fork_child_callback plstnr).fork_lstnr = plstnr.fork_lstnr := rfl
  unfold child
  dsimp only
  rw [hlstnr]
  cases reinit_cb db plstnr.fork_lstnr c with
  | error status => exact iff_of_false (fun h => by cases h) fun h => by cases h.1
  | ok c₁ =>
    cases redirections (post_fork_child_callback plstnr) t with
    | none => exact iff_of_false (fun h => by cases h) fun h => by cases h.2
    | some t₁ =>
      constructor
      · rintro ⟨⟩
        exact ⟨rfl, rfl⟩
      · rintro ⟨⟨⟩, ⟨⟩⟩
        rfl

/-- The command is executed with the ids and the files that the listener names, unless the group comes too late or the
descriptors are not distinct. -/
theorem child_iff {db : Databases} (hres : Resolvable db plstnr.fork_lstnr)
    (ho : Open (post_fork_child_callback plstnr) t) :
    (∃ c t', child db plstnr root t = .ok (c, t') ∧ Dropped db plstnr.fork_lstnr c ∧
        Redirected (post_fork_child_callback plstnr) t t') ↔
      GroupFirst db plstnr.fork_lstnr ∧ Distinct (post_fork_child_callback plstnr) := by
  rw [← called_iff hres, ← redirected_iff_distinct ho]
  constructor
  · rintro ⟨c, t', h, -, hfiles⟩
    obtain ⟨hc, ht⟩ := child_ok_iff.mp h
    exact ⟨⟨c, hc⟩, t', by rw [← redirections_eq_moveAll, ht], assigned_iff.mpr hfiles⟩
  · rintro ⟨⟨c, hc⟩, t', ht, hfiles⟩
    rw [← redirections_eq_moveAll] at ht
    exact ⟨c, t', child_ok_iff.mpr ⟨hc, ht⟩, dropped_of_ok hc, assigned_iff.mp hfiles⟩

/-- The ends of the pipes that the child takes over. -/
def pipeEnds (plstnr : PopenListener) : List Int :=
  (if plstnr.stdin_wq_write then [plstnr.stdin_lstnr.readEnd] else []) ++
    (if plstnr.stdout_cb then [plstnr.stdout_lstnr.writeEnd] else []) ++
    if plstnr.stderr_cb then [plstnr.stderr_lstnr.writeEnd] else []

theorem distinct_of_pipes (hin : plstnr.fstdin = -1) (hout : plstnr.fstdout = -1) (herr : plstnr.fstderr = -1)
    (hnd : (pipeEnds plstnr).Nodup) (hfree : ∀ fd ∈ pipeEnds plstnr, 2 < fd) :
    Distinct (post_fork_child_callback plstnr) := by
  unfold pipeEnds at hnd hfree
  unfold Distinct post_fork_child_callback childFd STDIN_FILENO STDOUT_FILENO STDERR_FILENO
  simp only [hin, hout, herr, if_true]
  cases hwrite : plstnr.stdin_wq_write <;> cases hcb : plstnr.stdout_cb <;> cases hcb' : plstnr.stderr_cb <;>
    simp [hwrite, hcb, hcb'] at hnd hfree ⊢ <;> omega

end Libcortex.Popen
