import DaemonBridge.Cache
import DaemonBridge.Directory.Wire
import DaemonBridge.Signal.Log
import DaemonBridge.Signal.Wire

/-!
# Replies

What the bridge answers on the control socket, and how the answers are written and read.
-/

namespace DaemonBridge

namespace Control

open Json (Value Record)

/-- How the bridge does. -/
structure Health where
  status : String
  version : String
  revision : String
  profile : String
  uptime : UInt64
  lastSignal : UInt64
  deriving DecidableEq, Repr

/-- The word that the bridge will stop. -/
structure StopNotice where
  acknowledged : Bool
  message : String
  deriving DecidableEq, Repr

/-- Signals and the number of the last one announced. -/
structure SignalPage where
  signals : List SignalRecord
  lastSeq : UInt64
  deriving DecidableEq, Repr

/-- The page of signals after a number. The signals are read before the number is, and the bridge may
announce more in between. -/
def SignalPage.read (first second : SignalLog) (after : UInt64) : SignalPage :=
  ⟨first.since after, second.lastSeq⟩

/-- An answer. -/
inductive Reply where
  | health (health : Health)
  | stopping (notice : StopNotice)
  | config (toml : String)
  | servers (logins : LoginsByServer)
  | devices (devices : List Device)
  | signals (page : SignalPage)
  | accepted (id : CommandId)
  | problem (text : String)
  deriving DecidableEq, Repr

/-- The answer to a question. -/
def Reply.ofFinding : Finding → Reply
  | .servers logins => .servers logins
  | .devices found => .devices found

/-- Devices as JSON. -/
def devicesToJson (devices : List Device) : Value :=
  .arr (devices.map Device.toJson)

/-- A page of signals as JSON. -/
def SignalPage.toJson (page : SignalPage) : Value :=
  .obj [("signals", .arr (page.signals.map SignalRecord.toJson)), ("last_seq", .nat page.lastSeq)]

/-- The state of the bridge as JSON. -/
def Health.toJson (h : Health) : Value :=
  .obj [("status", .str h.status), ("version", .str h.version), ("git_hash", .str h.revision),
    ("build_profile", .str h.profile), ("uptime_secs", .nat h.uptime), ("last_signal", .nat h.lastSignal)]

namespace Reply

/-- An answer as JSON. -/
def toJson : Reply → Value
  | .health h => h.toJson
  | .stopping notice => .obj [("acknowledged", .bool notice.acknowledged), ("message", .str notice.message)]
  | .config toml => .obj [("toml", .str toml)]
  | .servers logins => .obj [("servers", logins.toJson)]
  | .devices found => .obj [("devices", devicesToJson found)]
  | .signals page => page.toJson
  | .accepted id => .obj [("id", .nat id)]
  | .problem text => .obj [("error", .str text)]

end Reply

/-- The state of the bridge. -/
def Health.decoder : Json.Decoder Health :=
  (((((((Record.field "status" Json.string).and (.field "version" Json.string)).and
    (.field "git_hash" Json.string)).and (.field "build_profile" Json.string)).and
    (.field "uptime_secs" Json.uint64)).and (.field "last_signal" Json.uint64)).map
    fun (((((status, version), revision), profile), uptime), lastSignal) =>
      ⟨status, version, revision, profile, uptime, lastSignal⟩) |>.decoder "struct HealthResponse"

/-- The word that the bridge will stop. -/
def StopNotice.decoder : Json.Decoder StopNotice :=
  (((Record.field "acknowledged" Json.bool).and (.field "message" Json.string)).map
    fun (acknowledged, message) => ⟨acknowledged, message⟩) |>.decoder "struct StopResponse"

/-- Pages of signals. -/
def SignalPage.decoder : Json.Decoder SignalPage :=
  (((Record.field "signals" (Json.list SignalRecord.decoder)).and (.field "last_seq" Json.uint64)).map
    fun (records, lastSeq) => ⟨records, lastSeq⟩) |>.decoder "struct SignalsResponse"

/-- Settings in use, as text. -/
def configDecoder : Json.Decoder String :=
  (Record.field "toml" Json.string).decoder "struct ConfigResponse"

/-- Logins on each server. -/
def serversDecoder : Json.Decoder LoginsByServer :=
  (Record.field "servers" LoginsByServer.decoder).decoder "struct ServersResponse"

/-- Devices. -/
def devicesDecoder : Json.Decoder (List Device) :=
  (Record.field "devices" (Json.list Device.decoder)).decoder "struct DevicesResponse"

/-- The identifier of a command that was accepted. -/
def acceptedDecoder : Json.Decoder CommandId :=
  (Record.field "id" Json.uint64).decoder "struct CommandResponse"

/-- A problem in words. -/
def problemDecoder : Json.Decoder String :=
  (Record.field "error" Json.string).decoder "struct ErrorResponse"

end Control

/-- The answer to a question as JSON. -/
def Finding.toJson : Finding → Json.Value
  | .servers logins => logins.toJson
  | .devices found => Control.devicesToJson found

end DaemonBridge
