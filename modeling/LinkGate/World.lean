import LinkGate.Files.System

/-!
# The world around a run

A run reads files and environment variables and changes neither, so all that it can see is two
functions.
-/

set_option autoImplicit false

namespace LinkGate

structure World where
  read : Path → Except IoError Bytes
  /-- The raw bytes of a variable that is set. -/
  environment : String → Option Bytes

end LinkGate
