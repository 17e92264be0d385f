import DaemonBridge.Bridge.Run
import DaemonBridge.Build
import DaemonBridge.Control.Operation
import DaemonBridge.Control.Reply
import DaemonBridge.Settings.Wire

/-!
# The service on the control socket

What the bridge does for a request and answers. Commands are accepted at once and questions go to the
running bridge; once it has stopped, questions fail and everything else still works.
-/

namespace DaemonBridge

/-- The wording of an answer that a stopped bridge owes. -/
def notRunningText : String := "bridge is not running"

namespace Control

/-- The state of a bridge that has run for some seconds. -/
def healthOf (bridge : Bridge) (uptime : UInt64) : Health :=
  ⟨"ok", Build.current.version, Build.current.revision, Build.current.profile, uptime, bridge.bus.lastSeq⟩

/-- Do what is asked for and answer; without an answer the bridge has stopped. -/
def perform (run : Run) (store : Store) (uptime : UInt64) : Operation → Option Reply × Run
  | .health => (some (.health (healthOf run.bridge uptime)), run)
  | .stop => (some (.stopping ⟨true, "Shutdown initiated"⟩), run.step .requestStop)
  | .config => (some (.config (String.ofList run.bridge.settings.toToml)), run)
  | .inquire inquiry =>
    let (finding, run) := run.inquire store inquiry
    (finding.map Reply.ofFinding, run)
  | .signals after => (some (.signals (.read run.bridge.bus.log run.bridge.bus.log after)), run)
  | .submit account order =>
    let (id, bridge) := run.bridge.submit account order
    (some (.accepted id), { run with bridge := bridge })

/-- An answer as a response. -/
def response (status : Nat) (reply : Reply) : Http.Response :=
  ⟨status, Text.encode reply.toJson.compact⟩

/-- Respond to an operation or to its refusal. -/
def respond (run : Run) (store : Store) (uptime : UInt64) : Except Refusal Operation → Http.Response × Run
  | .error refusal => ({ status := refusal.status }, run)
  | .ok operation =>
    match perform run store uptime operation with
    | (some reply, run) => (response 200 reply, run)
    | (none, run) => (response 503 (.problem notRunningText), run)

/-- Serve a request. A response to the method `HEAD` has no body. -/
def serve (run : Run) (store : Store) (uptime : UInt64) (request : Http.Request) : Http.Response × Run :=
  let (response, run) := respond run store uptime (Operation.ofRequest request)
  (if request.method == "HEAD" then { response with body := [] } else response, run)

end Control

end DaemonBridge
