import Mathlib.Data.List.Basic

/-!
# Names that every module shares

Objects of the C code are named by numbers. The error numbers are those of Linux.
-/

namespace Libcortex

abbrev EventId := Nat
abbrev GraphId := Nat
abbrev ListenerId := Nat
abbrev TaskId := Nat
abbrev CallbackId := Nat

def ENOENT : Int := 2
def EAGAIN : Int := 11
def EINVAL : Int := 22
def EBADE : Int := 52
def ENOBUFS : Int := 105
def EALREADY : Int := 114
def EINPROGRESS : Int := 115

/-- `enum crtx_processing_mode` -/
inductive ProcessingMode where
  | preferNone
  | preferThread
  | preferEloop
  | noProcessingMode
deriving DecidableEq, Repr

end Libcortex
