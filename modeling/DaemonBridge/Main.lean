import DaemonBridge.Bridge.Link
import DaemonBridge.CommandLine.Program

/-!
# The command `panctl`

The plan for the arguments, carried out on the files, the standard streams and the clock of the system.
Connections to a control socket are outside of what the system layer here offers: a socket that exists
takes no connections.
-/

namespace DaemonBridge.Main

open CommandLine (Outcome Plan)
open Client (Delivery)

/-- What a path leads to. -/
def lookUp (path : String) : IO PathContent := do
  try
    return .file (← IO.FS.readBinFile path).toList
  catch
    | .noFileOrDirectory .. => return .missing
    | _ => return .folder

/-- Try to reach a bridge at a socket. -/
def deliver (socket : String) : IO Delivery := do
  match ← lookUp socket with
  | .missing => return .noSocket
  | _ => return .refused "Connection refused (os error 111)"

/-- The store of a bridge: a snapshot file, or nothing. -/
def storeOf (snapshot : Option String) : IO Store := do
  match snapshot with
  | some path => return (← lookUp path).store path
  | none => return Directory.store {}

/-- Pass lines between the standard streams and the bridge until the input ends. -/
partial def exchange (input output : IO.FS.Stream) (snapshot : Option String) (link : Link) : IO Unit := do
  let bytes ← input.read 4096
  if bytes.isEmpty then
    let _ := link.close (← storeOf snapshot)
  else
    let link := link.hear (← storeOf snapshot) bytes.toList
    let written := link.flush
    output.write ⟨(written.pipe.written.drop link.pipe.written.length).toArray⟩
    output.flush
    exchange input output snapshot written

/-- Print what a program leaves behind. -/
def conclude (outcome : Outcome) : IO UInt32 := do
  IO.print outcome.output
  IO.eprint outcome.errors
  return outcome.code.toUInt32

/-- Carry out a plan. -/
def carryOut : Plan → IO UInt32
  | .finish outcome => conclude outcome
  | .talk socket dialogue => do
    conclude (← dialogue.run (fun _ => deliver socket) (IO.sleep (UInt32.ofNat Client.pollInterval)))
  | .serve settings _ snapshot => do
    let link := Link.start settings (← storeOf snapshot) .missing
    exchange (← IO.getStdin) (← IO.getStdout) snapshot link
    return 0

end DaemonBridge.Main

/-- Carry out what the arguments ask for. -/
def main (args : List String) : IO UInt32 := do
  DaemonBridge.Main.carryOut (← DaemonBridge.CommandLine.plan DaemonBridge.Main.lookUp args)
