import DaemonBridge.Build
import DaemonBridge.Client.Wait
import DaemonBridge.CommandLine.Invocation
import DaemonBridge.Settings.Wire
import DaemonBridge.Store.Snapshot

/-!
# The program

What `panctl` does for an invocation, up to what it prints and the code it exits with. Tasks that go to
a bridge are dialogues with it, and their answers are printed as pretty JSON or as plain text.
-/

namespace DaemonBridge.CommandLine

open Client (Dialogue ClientError)

/-- What a program leaves behind when it exits. -/
structure Outcome where
  code : UInt8
  output : String := ""
  errors : String := ""
  deriving DecidableEq, Repr

/-- A failure that the user is told about. -/
structure Failure where
  message : String
  cause : Option String := none
  deriving DecidableEq, Repr

namespace Failure

/-- What the user is told. -/
def report (f : Failure) : String :=
  "Error: " ++ f.message ++ (match f.cause with
    | some cause => "\n\nCaused by:\n    " ++ cause
    | none => "") ++ "\n"

/-- A failure to reach or understand a bridge. -/
def ofClientError (e : ClientError) : Failure :=
  ⟨e.message, e.cause?⟩

/-- A failure to load the settings. -/
def ofSettingsError (e : SettingsError) : Failure :=
  ⟨e.message, match e with
    | .unreadable reason => some reason
    | _ => none⟩

end Failure

/-- The program ends well and prints a text on a line of its own. -/
def Outcome.printed (text : String) : Outcome :=
  { code := 0, output := text ++ "\n" }

/-- The program fails. -/
def Outcome.failed (failure : Failure) : Outcome :=
  { code := 1, errors := failure.report }

/-- How the program is used. -/
def usage : String :=
  "Usage: panctl [OPTIONS] <COMMAND>\n\nCommands:\n" ++
    String.join (TaskKind.all.map fun kind => "  " ++ kind.name ++ "\n")

/-- The program ends before it has begun. -/
def Outcome.halted : Halt → Outcome
  | .misuse => { code := 2, errors := usage }
  | .help => { code := 0, output := usage }
  | .version => .printed ("panctl " ++ Build.current.version)

namespace Invocation

/-- The settings, from what the path of the settings file leads to. Without a file they are the
defaults. -/
def settings (content : PathContent) : Except SettingsError Settings :=
  match content with
  | .missing => .ok {}
  | .folder => .error (.unreadable "Is a directory (os error 21)")
  | .file bytes => Settings.load (some bytes)

/-- The socket of the bridge. -/
def socketPath (i : Invocation) (settings : Settings) : String :=
  i.socket.getD settings.socket

/-- The level of detail of the log. -/
def logLevel (i : Invocation) (settings : Settings) : String :=
  match i.verbosity with
  | 0 => settings.logLevel
  | 1 => "debug"
  | _ => "trace"

end Invocation

/-- Issue a command at a socket and print its identifier or, after some seconds at most, its response. The
number of the last signal is read before the command is issued, so that the response comes after it. -/
def issue (socket account : String) (order : Order) : Option UInt64 → Dialogue (Except ClientError String)
  | none => .ask socket (.command account order) fun id => .done (.ok (toString id))
  | some seconds =>
    .ask socket .health fun health =>
      .ask socket (.command account order) fun id =>
        (Client.awaitResponse socket id health.lastSignal (1000 * seconds.toNat)).map fun result =>
          result.map fun record => record.toJson.prettyText

/-- What a task asks the bridge at a socket, and what it prints; nothing for a task that needs no bridge. -/
def Task.dialogue? (socket : String) : Task → Option (Dialogue (Except ClientError String))
  | .serve _ => none
  | .config _ false => none
  | .config _ true => some (.ask socket .config fun toml => .done (.ok toml))
  | .stop => some (.ask socket .stop fun notice => .done (.ok notice.message))
  | .health => some (.ask socket .health fun health => .done (.ok health.toJson.prettyText))
  | .servers => some (.ask socket .servers fun logins => .done (.ok logins.toJson.prettyText))
  | .devices account user =>
    some (.ask socket (.devices account user) fun found =>
      .done (.ok (Control.devicesToJson found).prettyText))
  | .signals after => some (.ask socket (.signals after) fun page => .done (.ok page.toJson.prettyText))
  | .command account order wait => some (issue socket account order wait)

/-- What the program does once it knows its settings: it ends, it talks to a bridge, or it becomes one. -/
inductive Plan where
  | finish (outcome : Outcome)
  | talk (socket : String) (dialogue : Dialogue Outcome)
  | serve (settings : Settings) (socket : String) (snapshot : Option String)

/-- The outcome of a dialogue. -/
def Outcome.ofResult : Except ClientError String → Outcome
  | .ok text => .printed text
  | .error e => .failed (.ofClientError e)

/-- The plan of an invocation with its settings. -/
def Invocation.plan (i : Invocation) (settings : Settings) : Plan :=
  let socket := i.socketPath settings
  match i.task.dialogue? socket with
  | some dialogue => .talk socket (dialogue.map Outcome.ofResult)
  | none =>
    match i.task with
    | .serve snapshot => .serve settings socket snapshot
    | .config true _ => .finish (.printed (String.ofList settings.toToml))
    | _ => .finish (.printed ("Configuration at '" ++ i.configPath ++ "' is valid."))

/-- The plan for some arguments; the settings file is looked up by its path. -/
def plan {m : Type → Type} [Monad m] (lookUp : String → m PathContent) (args : List String) : m Plan :=
  match Invocation.ofArguments args with
  | .error halt => pure (.finish (.halted halt))
  | .ok i => do
    match Invocation.settings (← lookUp i.configPath) with
    | .error e => return .finish (.failed (.ofSettingsError e))
    | .ok settings => return i.plan settings

end DaemonBridge.CommandLine
