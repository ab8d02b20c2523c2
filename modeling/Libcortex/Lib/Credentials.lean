/-!
# User and group ids of a process

`setuid` and `setgid` as POSIX describes them. A process is privileged if its effective user id is 0, and then sets all
three ids. Else it can only go back to its real or its saved id.
-/

namespace Libcortex.Lib

structure Ids where
  real : Nat
  effective : Nat
  saved : Nat
deriving DecidableEq, Repr

def Ids.all (id : Nat) : Ids := ⟨id, id, id⟩

structure Creds where
  uid : Ids
  gid : Ids
deriving DecidableEq, Repr

def Creds.Privileged (c : Creds) : Prop := c.uid.effective = 0

instance (c : Creds) : Decidable c.Privileged := inferInstanceAs (Decidable (_ = _))

/-- What a call that sets `ids` makes of them. `none`: `EPERM`. -/
def Ids.set (ids : Ids) (privileged : Bool) (id : Nat) : Option Ids :=
  if privileged then some (.all id)
  else if id = ids.real ∨ id = ids.saved then some { ids with effective := id }
  else none

def setuid (c : Creds) (uid : Nat) : Option Creds :=
  (c.uid.set (decide c.Privileged) uid).map fun ids => { c with uid := ids }

def setgid (c : Creds) (gid : Nat) : Option Creds :=
  (c.gid.set (decide c.Privileged) gid).map fun ids => { c with gid := ids }

variable {c : Creds}

theorem setuid_privileged (h : c.Privileged) (uid : Nat) : setuid c uid = some { c with uid := .all uid } := by
  rw [setuid, decide_eq_true h]
  rfl

theorem setgid_privileged (h : c.Privileged) (gid : Nat) : setgid c gid = some { c with gid := .all gid } := by
  rw [setgid, decide_eq_true h]
  rfl

theorem setgid_unprivileged {uid : Ids} (h : uid.effective ≠ 0) (own gid : Nat) :
    setgid ⟨uid, .all own⟩ gid = if gid = own then some ⟨uid, .all own⟩ else none := by
  have hnot : ¬ Creds.Privileged ⟨uid, .all own⟩ := h
  rw [setgid, decide_eq_false hnot]
  split
  · rename_i heq
    simp [Ids.set, Ids.all, heq]
  · rename_i heq
    simp [Ids.set, Ids.all, heq]

end Libcortex.Lib
