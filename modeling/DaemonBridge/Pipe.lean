import DaemonBridge.Command.Wire
import DaemonBridge.Event.Wire
import DaemonBridge.Text.Blank

/-!
# The pipe to the worker

The link to a worker in another process: each command is written as one line of JSON, and each line
that the worker writes is read as an event. Blank lines are passed over, and lines that are no events
are counted and skipped. The pipe is a machine whose steps come in any sequence.
-/

namespace DaemonBridge

/-- What has gone through the pipe. -/
structure PipeStats where
  commandsWritten : UInt64 := 0
  eventsRead : UInt64 := 0
  linesSkipped : UInt64 := 0
  deriving DecidableEq, Repr

/-- Whether the pipe still works. -/
inductive PipeStatus where
  | running
  | closed
  | broken
  deriving DecidableEq, Repr

/-- The pipe: its counters, the start of a line that has not ended (last byte first), every event read
and every byte written so far. -/
structure Pipe where
  stats : PipeStats := {}
  line : List UInt8 := []
  events : List Event := []
  written : List UInt8 := []
  readerOpen : Bool := true
  status : PipeStatus := .running
  deriving DecidableEq, Repr

/-- Something that happens at an end of the pipe. -/
inductive PipeStep where
  | input (bytes : List UInt8)
  | inputEnds
  | command (command : Command)
  | commandsEnd
  | outputCloses
  | stop
  deriving DecidableEq, Repr

/-- The bytes of a command's line. -/
def Command.line (command : Command) : List UInt8 :=
  Text.encode command.toJson.compact ++ [0x0a]

namespace Pipe

/-- Take a whole line without its line feed. -/
def takeLine (p : Pipe) (line : List UInt8) : Pipe :=
  if line.all Text.isAsciiBlank then p
  else match Event.ofBytes line with
    | .ok event =>
      { p with events := p.events ++ [event], stats.eventsRead := p.stats.eventsRead + 1 }
    | .error _ => { p with stats.linesSkipped := p.stats.linesSkipped + 1 }

/-- Read one byte of the worker's output. -/
def readByte (p : Pipe) (b : UInt8) : Pipe :=
  if b = 0x0a then { p.takeLine p.line.reverse with line := [] } else { p with line := b :: p.line }

/-- Read the end of the worker's output; a last line need not end in a line feed. -/
def readEnd (p : Pipe) : Pipe :=
  let p := if p.line.isEmpty then p else { p.takeLine p.line.reverse with line := [] }
  { p with status := .closed }

/-- Write a command; without a reader the pipe breaks. -/
def write (p : Pipe) (command : Command) : Pipe :=
  if p.readerOpen then
    { p with written := p.written ++ command.line, stats.commandsWritten := p.stats.commandsWritten + 1 }
  else { p with status := .broken }

/-- Let something happen; a pipe that has ended stays as it is. -/
def step (p : Pipe) (s : PipeStep) : Pipe :=
  match p.status with
  | .running =>
    match s with
    | .input bytes => bytes.foldl readByte p
    | .inputEnds => p.readEnd
    | .command command => p.write command
    | .commandsEnd => { p with status := .closed }
    | .outputCloses => { p with readerOpen := false }
    | .stop => { p with status := .closed }
  | _ => p

/-- The wording of the end of a broken pipe. -/
def brokenText : String := "worker pipe I/O error: broken pipe"

/-- Let a sequence of things happen. -/
def run (p : Pipe) (steps : List PipeStep) : Pipe :=
  steps.foldl step p

end Pipe

end DaemonBridge
