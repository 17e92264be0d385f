import DaemonBridge.Notification.Notifier
import DaemonBridge.Text.Blank
import DaemonBridge.Text.Utf8

/-!
# The notify-send program

A desktop reached through the program `notify-send`. Asked for its version it proves to be installed,
and its help tells whether it offers actions. A notification becomes its arguments: options first,
then the summary and the body. The program prints the key of the action that was picked.
-/

namespace DaemonBridge.NotifySend

/-- The name of this desktop. -/
def name : String := "notify-send"

/-- How a run of a program ended. -/
inductive ExitStatus where
  | code (n : UInt64)
  | killed (signal : Nat) (name : String)
  deriving DecidableEq, Repr

/-- How an ending is shown. -/
def ExitStatus.shown : ExitStatus → String
  | .code n => "exit status: " ++ toString n
  | .killed signal name => "signal: " ++ toString signal ++ " (" ++ name ++ ")"

/-- What a run of a program leaves behind. -/
structure Result where
  status : ExitStatus := .code 0
  output : List UInt8 := []
  errors : List UInt8 := []
  deriving DecidableEq, Repr

/-- What stands at the path of the program: nothing, a file that may not be run, or a program, of which
is known what its runs for its version, for its help and for a notification leave behind. -/
inductive Program where
  | missing
  | notExecutable
  | installed (version help display : Result)
  deriving DecidableEq, Repr

/-- The arguments for a notification. -/
def arguments (appName : String) (n : Notification) : List String :=
  ["--app-name=" ++ appName, "--category=" ++ n.category] ++
    (n.actions.map fun action => "--action=" ++ action.key ++ "=" ++ action.label) ++
    (if n.actions.isEmpty then [] else ["--wait"]) ++ [n.summary, n.body]

/-- One list stands somewhere in another. -/
def containsSublist (part : List Char) : List Char → Bool
  | [] => part.isEmpty
  | c :: rest => part.isPrefixOf (c :: rest) || containsSublist part rest

/-- The text of some bytes without blanks at its ends. -/
def trimmedText (bytes : List UInt8) : String :=
  String.ofList (Text.trim (Text.decodeLossy bytes))

/-- What a help text says about the program. -/
def capabilitiesOf (help : List Char) : Capabilities :=
  ⟨containsSublist "--action".toList help && containsSublist "--wait".toList help⟩

namespace Program

/-- Why the program does not start with some arguments. -/
def refusal? (program : Program) (arguments : List String) : Option String :=
  if arguments.any fun argument => argument.toList.any (· == '\x00') then
    some "nul byte found in provided data"
  else match program with
    | .missing => some "No such file or directory (os error 2)"
    | .notExecutable => some "Permission denied (os error 13)"
    | .installed .. => none

/-- What the program at a path can do. Only the status of the run for its version counts, and only the
output of the run for its help. -/
def probe (path : String) (program : Program) : Except DisplayError Capabilities :=
  match program.refusal? [], program with
  | some reason, _ => .error (.unavailable (path ++ ": " ++ reason))
  | none, .installed version help _ =>
    if version.status = .code 0 then .ok (capabilitiesOf (Text.decodeLossy help.output))
    else .error (.unavailable (path ++ " --version exited with " ++ version.status.shown))
  | none, _ => .ok {}

/-- The key of the action that a run for a notification picked. -/
def picked (result : Result) : Except DisplayError (Option String) :=
  if result.status = .code 0 then
    let chosen := trimmedText result.output
    .ok (if chosen = "" then none else some chosen)
  else
    .error (.display
      ("notify-send exited with " ++ result.status.shown ++ ": " ++ trimmedText result.errors))

/-- Run the program for a notification and learn the key of the action that was picked. -/
def pick (program : Program) (arguments : List String) : Except DisplayError (Option String) :=
  match program.refusal? arguments, program with
  | some reason, _ => .error (.display ("failed to spawn notify-send: " ++ reason))
  | none, .installed _ _ result => picked result
  | none, _ => .ok none

/-- Show a notification and issue what the action that was picked stands for. -/
def display (program : Program) (appName : String) (n : Notification) (desk : Desk) :
    Except DisplayError Unit × Desk :=
  match program.pick (arguments appName n) with
  | .error e => (.error e, desk)
  | .ok none => (.ok (), desk)
  | .ok (some key) => (.ok (), (n.trigger key desk).2)

end Program

/-- The desktop behind the program at a path. -/
def desktop (path : String) (program : Program) : Desktop :=
  ⟨name, program.probe path⟩

end DaemonBridge.NotifySend
