import DaemonBridge.Control.Endpoint
import DaemonBridge.Control.Reply
import DaemonBridge.Control.Request
import DaemonBridge.Http.Message
import DaemonBridge.Http.Reader
import DaemonBridge.Json.Reader

/-!
# Calls

What a client of the control socket asks, as requests, and what it makes of the responses. The type of
a call tells the type of its answer.
-/

namespace DaemonBridge.Client

open Control (Endpoint Health StopNotice SignalPage)

/-- A question or a command for the bridge and the type of the answer. -/
inductive Call : Type → Type where
  | health : Call Health
  | stop : Call StopNotice
  | config : Call String
  | servers : Call LoginsByServer
  | devices (account : String) (user : Option String) : Call (List Device)
  | signals (after : UInt64) : Call SignalPage
  | command (account : String) (order : Order) : Call CommandId

/-- Why a call fails. -/
inductive ClientError where
  | notRunning (socket : String)
  | connect (socket reason : String)
  | request (reason : String)
  | unreadable (what : String) (error : Json.DecodeError)
  | refused (text : String)
  | timeout (id : CommandId) (milliseconds : Nat)
  | missed (id : CommandId) (after : UInt64)
  deriving Repr

/-- A span of time in the largest unit, seconds or milliseconds, that it fills at least once. -/
def spanText (milliseconds : Nat) : String :=
  if milliseconds = 0 then "0ns"
  else if milliseconds < 1000 then toString milliseconds ++ "ms"
  else
    let thousandths := Text.decimal (1000 + milliseconds % 1000)
    let fraction := ((thousandths.drop 1).reverse.dropWhile (· == '0')).reverse
    toString (milliseconds / 1000) ++
      (if fraction.isEmpty then "" else "." ++ String.ofList fraction) ++ "s"

/-- The wording of a failure to read a text. -/
def readingFault : Json.DecodeError → String
  | .fault .malformed => "expected value"
  | .fault .truncated => "EOF while parsing a value"
  | .mismatch mismatch => mismatch.message

namespace ClientError

/-- The wording of a failure. -/
def message : ClientError → String
  | .notRunning socket => "bridge is not running (socket not found at " ++ socket ++ ")"
  | .connect socket reason => "failed to connect to bridge socket at " ++ socket ++ ": " ++ reason
  | .request reason => "request failed: " ++ reason
  | .unreadable what error => "failed to parse response: " ++ what ++ ": " ++ readingFault error
  | .refused text => "bridge returned error: " ++ text
  | .timeout id milliseconds =>
    "no response for command " ++ toString id ++ " within " ++ spanText milliseconds
  | .missed id after =>
    "signals after " ++ toString after ++ " were evicted before the response to command " ++ toString id ++
      " was seen"

/-- The failure of the system behind a failure. -/
def cause? : ClientError → Option String
  | .connect _ reason => some reason
  | _ => none

end ClientError

/-- What comes of sending a request: there is no socket, the socket takes no connections, or bytes come
back until the connection closes. -/
inductive Delivery where
  | noSocket
  | refused (reason : String)
  | received (reading : Http.Reading)
  deriving DecidableEq, Repr

namespace Delivery

/-- A response that arrives whole. -/
def ofResponse (response : Http.Response) : Delivery :=
  .received (.response response)

/-- Why nobody has been reached at a socket. -/
def unreachable? (socket : String) : Delivery → Option ClientError
  | .noSocket => some (.notRunning socket)
  | .refused reason => some (.connect socket reason)
  | .received _ => none

end Delivery

namespace Call

/-- The target of a request for devices. -/
def devicesTarget (account : String) (user : Option String) : String :=
  Endpoint.devices.path ++ "?pan_user=" ++ String.ofList (Text.percentEncode account.toList) ++
    match user with
    | some user => "&user_id=" ++ String.ofList (Text.percentEncode user.toList)
    | none => ""

/-- A request without a body. -/
def bare (endpoint : Endpoint) (target : String) : Http.Request :=
  { method := endpoint.method, target := target }

/-- The request of a call. -/
def request {α : Type} : Call α → Http.Request
  | .health => bare .health Endpoint.health.path
  | .stop => bare .stop Endpoint.stop.path
  | .config => bare .config Endpoint.config.path
  | .servers => bare .servers Endpoint.servers.path
  | .devices account user => bare .devices (devicesTarget account user)
  | .signals after => bare .signals (Endpoint.signals.path ++ "?after=" ++ toString after)
  | .command account wanted =>
    { bare (.order wanted.kind) wanted.kind.path with
      contentType := some "application/json"
      body := Text.encode (Control.orderBody account wanted).compact }

/-- What messages call the response to a call. -/
def subject {α : Type} : Call α → String
  | .health => "health"
  | .stop => "stop"
  | .config => "config"
  | .servers => "servers"
  | .devices .. => "devices"
  | .signals _ => "signals"
  | .command _ wanted => wanted.kind.path

/-- The answers to a call. -/
def decoder {α : Type} : Call α → Json.Decoder α
  | .health => Health.decoder
  | .stop => StopNotice.decoder
  | .config => Control.configDecoder
  | .servers => Control.serversDecoder
  | .devices .. => Control.devicesDecoder
  | .signals _ => SignalPage.decoder
  | .command .. => Control.acceptedDecoder

/-- Read a response. -/
def ofResponse {α : Type} (call : Call α) (response : Http.Response) : Except ClientError α :=
  let document := Json.Document.ofBytes response.body
  if response.isSuccess then
    match document.decode call.decoder with
    | .ok answer => .ok answer
    | .error error => .error (.unreadable call.subject error)
  else match document.decode Control.problemDecoder with
    | .ok text => .error (.refused text)
    | .error _ => .error (.request ("unexpected status: " ++ Http.statusText response.status))

/-- The result of a call, from what came of sending its request to a socket. -/
def result {α : Type} (call : Call α) (socket : String) : Delivery → Except ClientError α
  | .noSocket => .error (.notRunning socket)
  | .refused reason => .error (.connect socket reason)
  | .received .noHead => .error (.request "request failed")
  | .received .noBody => .error (.request "failed to read response body")
  | .received (.response response) => call.ofResponse response

end Call

end DaemonBridge.Client
