import DaemonBridge.Bridge.Run
import DaemonBridge.Notification.NotifySend
import DaemonBridge.Pipe

/-!
# A bridge and its pipe

A running bridge whose worker is at the other end of a pipe. What the worker writes becomes events, the
commands that the bridge issues become lines for the worker, and when the worker closes its output the
bridge stops.
-/

namespace DaemonBridge

/-- A bridge and the pipe to its worker. -/
structure Link where
  run : Run
  pipe : Pipe := {}

namespace Link

/-- A bridge with the given settings that has just begun to run. -/
def start (settings : Settings) (store : Store) (program : NotifySend.Program) : Link :=
  { run := (Run.ofBridge
      (.start settings store (NotifySend.desktop settings.notifications.program program))).step .begin }

/-- Hand the events that have come through the pipe over to the bridge, which handles them. -/
def advance (l : Link) (store : Store) (pipe : Pipe) : Link :=
  let events := pipe.events.drop l.pipe.events.length
  { run := { l.run with bridge := events.foldl Bridge.receive l.run.bridge }.settle store
    pipe := pipe }

/-- The worker writes some bytes. -/
def hear (l : Link) (store : Store) (bytes : List UInt8) : Link :=
  l.advance store (l.pipe.step (.input bytes))

/-- Write every command that waits. -/
def flush (l : Link) : Link :=
  let (commands, bridge) := l.run.bridge.takeCommands
  { run := { l.run with bridge := bridge }, pipe := l.pipe.run (commands.map .command) }

/-- The pipe ends and the bridge stops. -/
def close (l : Link) (store : Store) : Link :=
  let l := l.advance store (l.pipe.step .inputEnds)
  { l with run := (l.run.step .requestStop).conclude store }

end Link

end DaemonBridge
