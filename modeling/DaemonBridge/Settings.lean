import DaemonBridge.Text.Quoted

/-!
# Settings

The settings of a bridge with their defaults, and the rules that they have to keep. `Settings.fault?`
names the first rule that is broken; the rules about servers are checked server by server.
-/

namespace DaemonBridge

/-- How the bridge works through events and how many signals it remembers. -/
structure PaceSettings where
  tickInterval : UInt64 := 100
  signalHistory : UInt64 := 256
  deriving DecidableEq, Repr

/-- Whether and how desktop notifications are shown. -/
structure NotificationSettings where
  enabled : Bool := true
  appName : String := "pantalaimon"
  program : String := "notify-send"
  deriving DecidableEq, Repr

/-- A homeserver that the proxy stands in front of. -/
structure Server where
  name : String
  homeserver : String := ""
  deriving DecidableEq, Repr

/-- The settings of a bridge. -/
structure Settings where
  pace : PaceSettings := {}
  notifications : NotificationSettings := {}
  socketPath : Option String := none
  logLevel : String := "info"
  servers : List Server := []
  deriving DecidableEq, Repr

instance : Inhabited Settings := ⟨{}⟩

/-- The socket that is used when the settings name none. -/
def defaultSocketPath : String := "/tmp/panbridge.sock"

/-- The levels of detail of the log. -/
def logLevels : List String := ["trace", "debug", "info", "warn", "error"]

/-- A broken rule. -/
inductive SettingsFault where
  | tickInterval
  | signalHistory
  | program
  | socketPath
  | logLevel (given : String)
  | unnamedServer (index : Nat)
  | repeatedServer (index : Nat) (name : String)
  deriving DecidableEq, Repr

/-- A list of strings as diagnostics show it. -/
def quotedList (items : List String) : String :=
  "[" ++ String.intercalate ", " (items.map Text.quoted) ++ "]"

/-- The wording of a broken rule. -/
def SettingsFault.message : SettingsFault → String
  | .tickInterval => "bridge.tick_interval_ms must be non-zero"
  | .signalHistory => "bridge.signal_history must be at least 1"
  | .program => "notifications.notify_send_bin must not be empty when notifications are enabled"
  | .socketPath => "ipc.socket_path must not be empty"
  | .logLevel given =>
    "logging.level must be one of " ++ quotedList logLevels ++ ", got " ++ Text.quoted given
  | .unnamedServer index => "servers[" ++ toString index ++ "].name must not be empty"
  | .repeatedServer index name =>
    "servers[" ++ toString index ++ "].name " ++ Text.quoted name ++ " is defined more than once"

/-- The first server without a name or with the name of an earlier one; `seen` holds the names of the
`index` servers before these. -/
def serverFault? (index : Nat) (seen : List String) : List Server → Option SettingsFault
  | [] => none
  | server :: rest =>
    if server.name = "" then some (.unnamedServer index)
    else if server.name ∈ seen then some (.repeatedServer index server.name)
    else serverFault? (index + 1) (server.name :: seen) rest

namespace Settings

/-- The first broken rule. -/
def fault? (s : Settings) : Option SettingsFault :=
  if s.pace.tickInterval = 0 then some .tickInterval
  else if s.pace.signalHistory = 0 then some .signalHistory
  else if s.notifications.enabled ∧ s.notifications.program = "" then some .program
  else if s.socketPath = some "" then some .socketPath
  else if s.logLevel ∉ logLevels then some (.logLevel s.logLevel)
  else serverFault? 0 [] s.servers

/-- The names of the servers in their sequence. -/
def serverNames (s : Settings) : List String :=
  s.servers.map Server.name

/-- The socket on which the bridge is controlled. -/
def socket (s : Settings) : String :=
  s.socketPath.getD defaultSocketPath

end Settings

/-- Why no settings can be had from a file. -/
inductive SettingsError where
  | unreadable (reason : String)
  | unparsable
  | invalid (fault : SettingsFault)
  deriving DecidableEq, Repr

/-- The wording of an error; what is wrong with a text is not told. -/
def SettingsError.message : SettingsError → String
  | .unreadable reason => "failed to read config file: " ++ reason
  | .unparsable => "failed to parse TOML"
  | .invalid fault => "validation error: " ++ fault.message

end DaemonBridge
