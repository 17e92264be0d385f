import DaemonBridge.Command

/-!
# Endpoints

The paths on the control socket. Six of them ask or tell something about the bridge, and each of the
twelve kinds of orders has a path of its own.
-/

namespace DaemonBridge

/-- The path for commands of a kind. -/
def OrderKind.path : OrderKind → String
  | .keys .exportKeys => "/keys/export"
  | .keys .importKeys => "/keys/import"
  | .room .send => "/rooms/send-anyways"
  | .room .cancel => "/rooms/cancel-sending"
  | .device .verify => "/devices/verify"
  | .device .unverify => "/devices/unverify"
  | .device .blacklist => "/devices/blacklist"
  | .device .unblacklist => "/devices/unblacklist"
  | .device .startVerification => "/verification/start"
  | .device .cancelVerification => "/verification/cancel"
  | .device .acceptVerification => "/verification/accept"
  | .device .confirmVerification => "/verification/confirm"

namespace Control

/-- What a path leads to. -/
inductive Endpoint where
  | health
  | stop
  | config
  | servers
  | devices
  | signals
  | order (kind : OrderKind)
  deriving DecidableEq, Repr

namespace Endpoint

/-- Every endpoint. -/
def all : List Endpoint :=
  [.health, .stop, .config, .servers, .devices, .signals] ++ OrderKind.all.map .order

/-- The path of an endpoint. -/
def path : Endpoint → String
  | .health => "/health"
  | .stop => "/stop"
  | .config => "/config"
  | .servers => "/servers"
  | .devices => "/devices"
  | .signals => "/signals"
  | .order kind => kind.path

/-- The endpoint at a path. -/
def ofPath? (path : String) : Option Endpoint :=
  all.find? fun endpoint => endpoint.path == path

/-- Requests to the endpoint ask the bridge to do something. -/
def isAction : Endpoint → Bool
  | .stop | .order _ => true
  | _ => false

/-- The method of the endpoint. -/
def method (endpoint : Endpoint) : String :=
  if endpoint.isAction then "POST" else "GET"

/-- The endpoint admits requests with a method; what can be read can also be asked for without its body. -/
def admits (endpoint : Endpoint) (method : String) : Bool :=
  method == endpoint.method || (!endpoint.isAction && method == "HEAD")

/-- No two endpoints share a path. -/
theorem ofPath?_path (endpoint : Endpoint) : ofPath? endpoint.path = some endpoint := by
  rcases endpoint with _ | _ | _ | _ | _ | _ | kind
  case order =>
    rcases kind with (_ | _) | (_ | _) | (_ | _ | _ | _ | _ | _ | _ | _) <;> rfl
  all_goals rfl

end Endpoint

end Control

end DaemonBridge
