import Mathlib.Data.List.Basic

/-!
# I/O errors
-/

namespace Vole

/-- `io::ErrorKind`, as far as the modelled code makes errors of a kind of
its own. `os` is whatever the operating system or a transport reports. -/
inductive ErrorKind where
  | permissionDenied
  | networkUnreachable
  | hostUnreachable
  | connectionRefused
  | connectionReset
  | connectionAborted
  | notConnected
  | brokenPipe
  | wouldBlock
  | invalidInput
  | invalidData
  | timedOut
  | unexpectedEof
  | writeZero
  | interrupted
  | other
  | os
  deriving DecidableEq, Repr

/-- `io::Error`: its kind and its text. -/
structure IoError where
  kind : ErrorKind
  text : String
  deriving DecidableEq, Repr

end Vole
