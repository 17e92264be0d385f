import DaemonBridge.Command
import DaemonBridge.CommandLine.Grammar

/-!
# Invocations

What the arguments of `panctl` ask for: a task, where the settings are and which socket to use. A
socket may be named before the task and behind it, where it counts more.
-/

namespace DaemonBridge

/-- The name of the task that issues a command of a kind. -/
def OrderKind.taskName : OrderKind → String
  | .keys .exportKeys => "export-keys"
  | .keys .importKeys => "import-keys"
  | .room .send => "send-anyways"
  | .room .cancel => "cancel-sending"
  | .device .verify => "verify"
  | .device .unverify => "unverify"
  | .device .blacklist => "blacklist"
  | .device .unblacklist => "unblacklist"
  | .device .startVerification => "start-verification"
  | .device .cancelVerification => "cancel-verification"
  | .device .acceptVerification => "accept-verification"
  | .device .confirmVerification => "confirm-verification"

namespace CommandLine

/-- What `panctl` can be asked to do. A command may wait some seconds for its response. -/
inductive Task where
  | serve (snapshot : Option String)
  | stop
  | health
  | config (printed remote : Bool)
  | servers
  | devices (account : String) (user : Option String)
  | signals (after : UInt64)
  | command (account : String) (order : Order) (wait : Option UInt64)
  deriving DecidableEq, Repr

/-- The sort of a task. -/
inductive TaskKind where
  | serve
  | stop
  | health
  | config
  | servers
  | devices
  | signals
  | command (kind : OrderKind)
  deriving DecidableEq, Repr

/-- A use of `panctl`. -/
structure Invocation where
  configPath : String
  verbosity : Nat
  socket : Option String
  task : Task
  deriving DecidableEq, Repr

/-- The settings file that is used when none is named. -/
def defaultConfigPath : String := "panbridge.toml"

/-- The seconds that a command waits for its response when no number is given. -/
def defaultTimeout : UInt64 := 30

namespace TaskKind

/-- Every sort of task. -/
def all : List TaskKind :=
  [.serve, .stop, .health, .config, .servers, .devices, .signals] ++ OrderKind.all.map .command

/-- The name of a task. -/
def name : TaskKind → String
  | .serve => "serve"
  | .stop => "stop"
  | .health => "health"
  | .config => "config"
  | .servers => "servers"
  | .devices => "devices"
  | .signals => "signals"
  | .command kind => kind.taskName

/-- The options of a task beside those of all tasks. -/
def options : TaskKind → List OptionForm
  | .serve => [⟨"snapshot", none, .value .path⟩]
  | .config => [⟨"show", none, .mark⟩, ⟨"remote", none, .mark⟩]
  | .devices => [⟨"user", none, .value .text⟩]
  | .signals => [⟨"after", none, .value .number⟩]
  | .command _ => [⟨"wait", none, .mark⟩, ⟨"timeout", none, .value .number⟩]
  | .stop | .health | .servers => []

/-- The operands of a task. -/
def operands : TaskKind → List ValueKind
  | .devices => [.text]
  | .command (.keys _) => [.text, .path, .text]
  | .command (.room _) => [.text, .text]
  | .command (.device _) => [.text, .text, .text]
  | _ => []

/-- The order that the operands of a task make. -/
def orderOf (given : Given) : OrderKind → Order
  | .keys transfer => .keys transfer ⟨given.operand 1, ⟨given.operand 2⟩⟩
  | .room decision => .room decision (given.operand 1)
  | .device action => .device action ⟨given.operand 1, given.operand 2⟩

/-- The task that was asked for. -/
def task (given : Given) : TaskKind → Task
  | .serve => .serve (given.value? "snapshot")
  | .stop => .stop
  | .health => .health
  | .config => .config (given.has "show") (given.has "remote")
  | .servers => .servers
  | .devices => .devices (given.operand 0) (given.value? "user")
  | .signals => .signals ((given.number? "after").getD 0)
  | .command kind =>
    .command (given.operand 0) (orderOf given kind)
      (if given.has "wait" then some ((given.number? "timeout").getD defaultTimeout) else none)

end TaskKind

/-- The option that names a socket, at every level. -/
def socketOption : OptionForm := ⟨"socket", none, .value .path⟩

/-- The option that asks for help, at every level. -/
def helpOption : OptionForm := ⟨"help", some 'h', .help⟩

/-- The level before the task. -/
def topLevel : Level where
  options :=
    [⟨"config", some 'c', .value .path⟩, ⟨"verbose", some 'v', .tally⟩, socketOption, helpOption,
      ⟨"version", some 'V', .version⟩]

/-- The level of a task. -/
def TaskKind.level (kind : TaskKind) : Level where
  options := kind.options ++ [socketOption, helpOption]
  operands := kind.operands

/-- The arguments ask for help about nothing or about one task. -/
def asksForHelp (args : List String) : Bool :=
  match args with
  | [] => true
  | [name] => name == "help" || TaskKind.all.any fun kind => kind.name == name
  | _ => false

/-- What the arguments ask for. -/
def Invocation.ofArguments (args : List String) : Except Halt Invocation := do
  let (top, rest) ← topLevel.read true args {}
  match rest with
  | [] => throw .misuse
  | name :: rest =>
    match TaskKind.all.find? fun kind => kind.name == name with
    | some kind =>
      let given ← kind.level.readAll rest
      return {
        configPath := (top.value? "config").getD defaultConfigPath
        verbosity := top.times "verbose"
        socket := (given.value? "socket").or (top.value? "socket")
        task := kind.task given }
    | none => throw (if name == "help" && asksForHelp rest then .help else .misuse)

end CommandLine

end DaemonBridge
