import Mathlib.Data.BitVec
import Mathlib.Logic.Function.Basic
import Libcortex.SList

/-!
# File descriptors in the event loop

`evloop.c` and `epoll.c`: a file descriptor has an entry with any number of callbacks. What the kernel
watches for is the union of what the active ones want, so it is computed anew whenever a callback
is enabled, disabled or removed.
-/

namespace Libcortex.Epoll

abbrev EntryId := Nat

/-! ## Flags -/

def CRTX_EVLOOP_READ : BitVec 32 := 0x1
def CRTX_EVLOOP_WRITE : BitVec 32 := 0x2
def CRTX_EVLOOP_SPECIAL : BitVec 32 := 0x4
def CRTX_EVLOOP_EDGE_TRIGGERED : BitVec 32 := 0x8
def CRTX_EVLOOP_TIMEOUT : BitVec 32 := 0x10
def CRTX_EVLOOP_ERROR : BitVec 32 := 0x20
def CRTX_EVLOOP_HUP : BitVec 32 := 0x40
def CRTX_EVLOOP_RDHUP : BitVec 32 := 0x80

def EPOLLIN : BitVec 32 := 0x1
def EPOLLPRI : BitVec 32 := 0x2
def EPOLLOUT : BitVec 32 := 0x4
def EPOLLERR : BitVec 32 := 0x8
def EPOLLHUP : BitVec 32 := 0x10
def EPOLLRDHUP : BitVec 32 := 0x2000
def EPOLLET : BitVec 32 := 0x80000000

/-- For each pair, the second flag is set if the first one is in `flags`. -/
def translate (pairs : List (BitVec 32 × BitVec 32)) (flags : BitVec 32) : BitVec 32 :=
  pairs.foldl (fun ret p => if flags &&& p.1 ≠ 0 then ret ||| p.2 else ret) 0

def crtx_event_flags2epoll_flags : BitVec 32 → BitVec 32 :=
  translate [(CRTX_EVLOOP_READ, EPOLLIN), (CRTX_EVLOOP_WRITE, EPOLLOUT), (CRTX_EVLOOP_SPECIAL, EPOLLPRI),
    (CRTX_EVLOOP_EDGE_TRIGGERED, EPOLLET)]

def crtx_epoll_flags2crtx_event_flags : BitVec 32 → BitVec 32 :=
  translate [(EPOLLIN, CRTX_EVLOOP_READ), (EPOLLOUT, CRTX_EVLOOP_WRITE), (EPOLLPRI, CRTX_EVLOOP_SPECIAL),
    (EPOLLET, CRTX_EVLOOP_EDGE_TRIGGERED), (EPOLLERR, CRTX_EVLOOP_ERROR), (EPOLLHUP, CRTX_EVLOOP_HUP),
    (EPOLLRDHUP, CRTX_EVLOOP_RDHUP)]

/-! ## The kernel -/

inductive CtlOp where
  | add
  | mod
  | del
deriving DecidableEq, Repr

/-- The descriptors that the kernel watches, with what it watches for. -/
abbrev Kernel := Int → Option (BitVec 32)

/-- A negative number is no descriptor. -/
def epoll_ctl (k : Kernel) (op : CtlOp) (fd : Int) (events : BitVec 32) : Kernel × Int :=
  if fd < 0 then (k, -1)
  else
    match op, k fd with
    | .add, none => (Function.update k fd (some events), 0)
    | .mod, some _ => (Function.update k fd (some events), 0)
    | .del, some _ => (Function.update k fd none, 0)
    | _, _ => (k, -1)

section Ctl

variable {k : Kernel} {fd : Int} {events old : BitVec 32}

theorem ctl_negative (h : fd < 0) (op : CtlOp) : epoll_ctl k op fd events = (k, -1) := if_pos h

theorem ctl_add (h : 0 ≤ fd) (hk : k fd = none) :
    epoll_ctl k .add fd events = (Function.update k fd (some events), 0) := by
  unfold epoll_ctl
  rw [if_neg (Int.not_lt.mpr h), hk]

theorem ctl_add_present (hk : k fd = some old) : epoll_ctl k .add fd events = (k, -1) := by
  unfold epoll_ctl
  rw [hk]
  exact ite_self _

theorem ctl_mod (h : 0 ≤ fd) (hk : k fd = some old) :
    epoll_ctl k .mod fd events = (Function.update k fd (some events), 0) := by
  unfold epoll_ctl
  rw [if_neg (Int.not_lt.mpr h), hk]

theorem ctl_mod_absent (hk : k fd = none) : epoll_ctl k .mod fd events = (k, -1) := by
  unfold epoll_ctl
  rw [hk]
  exact ite_self _

theorem ctl_del (h : 0 ≤ fd) : (epoll_ctl k .del fd events).1 = Function.update k fd none := by
  unfold epoll_ctl
  rw [if_neg (Int.not_lt.mpr h)]
  cases hk : k fd with
  | none => exact (Function.update_eq_self_iff.mpr hk.symm).symm
  | some _ => rfl

end Ctl

/-! ## Entries and callbacks -/

/-- `struct crtx_evloop_callback` -/
structure Callback where
  crtx_event_flags : BitVec 32
  active : Bool
  fd_entry : Option EntryId
deriving DecidableEq, Repr

/-- `struct crtx_evloop_fd`. `evloop` says whether the pointer to the event loop is set. -/
structure FdEntry where
  fd_added : Bool
  callbacks : List CallbackId
  evloop : Bool
deriving DecidableEq, Repr

/-- An event loop with all entries and callbacks. `fd` is the number that the pointer of an entry points to. -/
structure Evloop where
  fd : EntryId → Int
  entries : EntryId → FdEntry
  cbs : CallbackId → Callback
  fds : List EntryId
  kernel : Kernel
  stop : Bool
  after_fork_close : Bool

namespace Evloop

def modEntry (s : Evloop) (e : EntryId) (f : FdEntry → FdEntry) : Evloop :=
  { s with entries := Function.update s.entries e (f (s.entries e)) }

def modCb (s : Evloop) (c : CallbackId) (f : Callback → Callback) : Evloop :=
  { s with cbs := Function.update s.cbs c (f (s.cbs c)) }

end Evloop

/-- A new file descriptor is added even if the loop was told to stop. -/
def crtx_epoll_add_fd_intern (s : Evloop) (e : EntryId) (events : BitVec 32) : Kernel × Int :=
  epoll_ctl s.kernel .add (s.fd e) events

def crtx_epoll_mod_fd_intern (s : Evloop) (e : EntryId) (events : BitVec 32) : Kernel × Int :=
  if s.stop then (s.kernel, 0) else epoll_ctl s.kernel .mod (s.fd e) events

def crtx_epoll_del_fd_intern (s : Evloop) (e : EntryId) : Kernel × Int :=
  if s.stop then (s.kernel, 0) else epoll_ctl s.kernel .del (s.fd e) 0

/-- The loop over the callbacks that computes `epoll_event->events`. -/
def collectEvents (cbs : CallbackId → Callback) (callbacks : List CallbackId) : BitVec 32 :=
  callbacks.foldl (fun events c =>
    if (cbs c).active then events ||| crtx_event_flags2epoll_flags (cbs c).crtx_event_flags else events) 0

def crtx_epoll_manage_fd (s : Evloop) (e : EntryId) : Evloop :=
  let events := collectEvents s.cbs (s.entries e).callbacks
  if events ≠ 0 then
    if (s.entries e).fd_added then { s with kernel := (crtx_epoll_mod_fd_intern s e events).1 }
    else
      let (kernel, ret) := crtx_epoll_add_fd_intern s e events
      { s.modEntry e fun en => { en with fd_added := ret = 0 } with kernel, fds := (SList.append s.fds e).1 }
  else
    let kernel := if s.after_fork_close = false ∧ 0 ≤ s.fd e then (crtx_epoll_del_fd_intern s e).1 else s.kernel
    { s.modEntry e fun en => { en with fd_added := false } with kernel, fds := (SList.unlink s.fds e).1 }

/-! ## The calls -/

/-- A callback is added to the entry. `active` is left as it is. -/
def crtx_evloop_create_fd_entry (s : Evloop) (e : EntryId) (c : CallbackId) (event_flags : BitVec 32) : Evloop :=
  (s.modCb c fun cb => { cb with crtx_event_flags := event_flags, fd_entry := some e }).modEntry e fun en =>
    { en with callbacks := (SList.append en.callbacks c).1 }

/-- `e` is the entry of the callback. There is a main event loop. -/
def crtx_evloop_enable_cb (s : Evloop) (e : EntryId) (c : CallbackId) : Evloop :=
  crtx_epoll_manage_fd
    ((s.modCb c fun cb => { cb with active := true }).modEntry e fun en => { en with evloop := true }) e

def crtx_evloop_disable_cb (s : Evloop) (e : EntryId) (c : CallbackId) : Evloop :=
  if (s.cbs c).active = false then s
  else
    let s := s.modCb c fun cb => { cb with active := false }
    if (s.entries e).evloop then crtx_epoll_manage_fd s e else s

def crtx_evloop_remove_cb (s : Evloop) (e : EntryId) (c : CallbackId) : Evloop :=
  (crtx_evloop_disable_cb s e c).modEntry e fun en => { en with callbacks := (SList.unlink en.callbacks c).1 }

def crtx_evloop_handle_fd_closed (s : Evloop) (e : EntryId) : Evloop :=
  let s := (s.entries e).callbacks.foldl (fun s c => s.modCb c fun cb => { cb with active := false }) s
  if (s.entries e).evloop then crtx_epoll_manage_fd s e else s

end Libcortex.Epoll
