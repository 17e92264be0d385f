import DaemonBridge.Json.Reader
import DaemonBridge.Json.Tagged
import DaemonBridge.Json.Value
import DaemonBridge.Settings
import DaemonBridge.Text.Utf8
import DaemonBridge.Toml.Document
import DaemonBridge.Toml.Printer

/-!
# Settings as text

Settings are read from TOML or JSON of the same shape, where whatever is left out has its default,
and written as TOML in a fixed sequence of tables.
-/

namespace DaemonBridge

open Json (Value Record)

/-- The fields of the pace settings. -/
def PaceSettings.record : Record PaceSettings :=
  ((Record.optional ({} : PaceSettings).tickInterval "tick_interval_ms" Json.uint64).and
    (.optional ({} : PaceSettings).signalHistory "signal_history" (Json.uint64Named "usize"))).map
    fun (tickInterval, signalHistory) => ⟨tickInterval, signalHistory⟩

/-- The fields of the notification settings. -/
def NotificationSettings.record : Record NotificationSettings :=
  (((Record.optional ({} : NotificationSettings).enabled "enabled" Json.bool).and
    (.optional ({} : NotificationSettings).appName "app_name" Json.string)).and
    (.optional ({} : NotificationSettings).program "notify_send_bin" Json.string)).map
    fun ((enabled, appName), program) => ⟨enabled, appName, program⟩

/-- The fields of a server. -/
def Server.record : Record Server :=
  ((Record.field "name" Json.string).and (.optional "" "homeserver" Json.string)).map
    fun (name, homeserver) => ⟨name, homeserver⟩

namespace Settings

/-- The fields of the settings. -/
def record : Record Settings :=
  (((((Record.optional {} "bridge" (PaceSettings.record.decoder "struct BridgeConfig")).and
    (.optional {} "notifications" (NotificationSettings.record.decoder "struct NotificationConfig"))).and
    (.optional none "ipc"
      ((Record.optional none "socket_path" (Json.nullable Json.string)).decoder "struct IpcConfig"))).and
    (.optional ({} : Settings).logLevel "logging"
      ((Record.optional ({} : Settings).logLevel "level" Json.string).decoder "struct LoggingConfig"))).and
    (.optional [] "servers" (Json.list (Server.record.decoder "struct ServerConfig")))).map
    fun ((((pace, notifications), socketPath), logLevel), servers) =>
      ⟨pace, notifications, socketPath, logLevel, servers⟩

/-- Settings. -/
def decoder : Json.Decoder Settings :=
  record.decoder "struct AppConfig"

/-- The settings that a TOML document holds, valid or not. -/
def ofToml? (text : List Char) : Option Settings :=
  match Toml.document? text with
  | none => none
  | some document =>
    match decoder .table document.tree with
    | .ok settings => some settings
    | .error _ => none

/-- The settings, if they keep the rules. -/
def checked (s : Settings) : Except SettingsError Settings :=
  match s.fault? with
  | none => .ok s
  | some fault => .error (.invalid fault)

/-- The valid settings that a TOML document holds. -/
def parse (text : List Char) : Except SettingsError Settings :=
  match ofToml? text with
  | some settings => settings.checked
  | none => .error .unparsable

/-- The valid settings that a file holds, or `none` in place of its bytes if there is no file. -/
def load (bytes : Option (List UInt8)) : Except SettingsError Settings :=
  match bytes with
  | none => .error (.unreadable "No such file or directory (os error 2)")
  | some bytes =>
    match Text.decode? bytes with
    | none => .error (.unreadable "stream did not contain valid UTF-8")
    | some text => parse text

/-- The entries of a server. -/
def serverBlock (server : Server) : Toml.Block :=
  ⟨.arrayTable "servers", [("name", .string server.name), ("homeserver", .string server.homeserver)]⟩

/-- The tables of the settings. -/
def tables (s : Settings) : List Toml.Block :=
  [⟨.table "bridge",
      [("tick_interval_ms", .integer s.pace.tickInterval),
        ("signal_history", .integer s.pace.signalHistory)]⟩,
    ⟨.table "notifications",
      [("enabled", .boolean s.notifications.enabled), ("app_name", .string s.notifications.appName),
        ("notify_send_bin", .string s.notifications.program)]⟩,
    ⟨.table "ipc", (s.socketPath.map fun path => ("socket_path", Toml.Plain.string path)).toList⟩,
    ⟨.table "logging", [("level", .string s.logLevel)]⟩]

/-- The settings as blocks of a document. -/
def blocks (s : Settings) : List Toml.Block :=
  (if s.servers.isEmpty then [⟨.none, [("servers", .emptyArray)]⟩] else []) ++ s.tables ++
    s.servers.map serverBlock

/-- The settings as a TOML document. -/
def toToml (s : Settings) : List Char :=
  Toml.renderBlocks s.blocks

/-- A server as JSON. -/
def serverJson (server : Server) : Value :=
  .obj [("name", .str server.name), ("homeserver", .str server.homeserver)]

/-- The settings as JSON. -/
def toJson (s : Settings) : Value :=
  .obj [
    ("bridge", .obj [("tick_interval_ms", .nat s.pace.tickInterval),
      ("signal_history", .nat s.pace.signalHistory)]),
    ("notifications", .obj [("enabled", .bool s.notifications.enabled),
      ("app_name", .str s.notifications.appName), ("notify_send_bin", .str s.notifications.program)]),
    ("ipc", .obj [("socket_path", (s.socketPath.map Value.str).getD .null)]),
    ("logging", .obj [("level", .str s.logLevel)]),
    ("servers", .arr (s.servers.map serverJson))]

end Settings

end DaemonBridge
