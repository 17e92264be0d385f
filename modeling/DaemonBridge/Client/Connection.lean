import DaemonBridge.Bridge.Link
import DaemonBridge.Client.Call
import DaemonBridge.Control.Service

/-!
# Connections

What comes of a client's request to the socket of a bridge. The socket is there as long as the bridge
runs, so the request that stops a bridge is the last one that is answered.
-/

namespace DaemonBridge

/-- Deliver a request to the socket of a bridge. -/
def Run.deliver (run : Run) (store : Store) (uptime : UInt64) (request : Http.Request) :
    Client.Delivery × Run :=
  if run.phase = .over then (.noSocket, run)
  else
    let (response, run) := Control.serve run store uptime request
    (.ofResponse response, run.conclude store)

/-- Deliver a request to the socket of a bridge with its worker behind a pipe, to which it passes on the
commands that the request issues. -/
def Link.deliver (l : Link) (store : Store) (uptime : UInt64) (request : Http.Request) :
    Client.Delivery × Link :=
  if l.run.phase = .over then (.noSocket, l)
  else
    let (response, run) := Control.serve l.run store uptime request
    let l := { l with run := run }.flush
    (.ofResponse response, { l with run := l.run.conclude store })

end DaemonBridge
