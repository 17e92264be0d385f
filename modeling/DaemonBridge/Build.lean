/-!
# The build

What the program tells about itself.
-/

namespace DaemonBridge

/-- What a program was built from. -/
structure Build where
  version : String
  revision : String
  profile : String
  deriving DecidableEq, Repr

/-- This program. -/
def Build.current : Build := ⟨"0.1.0", "unknown", "release"⟩

/-- A build in one line. -/
def Build.text (b : Build) : String :=
  b.version ++ " (" ++ b.revision ++ ", " ++ b.profile ++ ")"

end DaemonBridge
