import DaemonBridge.Proofs.Pipe.Lines
import DaemonBridge.Proofs.Queue.Join
import DaemonBridge.Queue.Outbound

/-!
# A pipe between two queues

The pipe takes commands from one queue and pushes events on another, and it chooses each time anew which
of its ends it turns to: the next command, the output of the worker or a request to stop. Meanwhile the
bridge sends commands and takes events. When the pipe ends it lets go of both queues.
-/

namespace DaemonBridge

/-- A pipe and the queues that it works for. -/
structure Shuttle where
  commands : CommandQueue := {}
  events : EventQueue := {}
  pipe : Pipe := {}
  deriving DecidableEq, Repr

/-- Something that happens to a pipe or to one of its queues. -/
inductive ShuttleStep where
  /-- The bridge sends a command. -/
  | send (command : Command)
  /-- The bridge lets go of its end of the commands. -/
  | closeCommands
  /-- The bridge takes the next event. -/
  | takeEvent
  /-- The pipe turns to the commands. -/
  | takeCommand
  /-- The pipe turns to the worker, which has written something. -/
  | input (bytes : List UInt8)
  /-- The pipe turns to the worker, which has closed its output. -/
  | inputEnds
  /-- The worker no longer reads. -/
  | outputCloses
  /-- The pipe is asked to stop. -/
  | stop
  deriving DecidableEq, Repr

/-- The command that is sent. -/
def ShuttleStep.command? : ShuttleStep → Option Command
  | .send command => some command
  | _ => none

/-- The commands sent, in order. -/
def commandsIn (steps : List ShuttleStep) : List Command :=
  steps.filterMap ShuttleStep.command?

/-- What one more step sends comes last. -/
theorem commandsIn_cons (step : ShuttleStep) (rest : List ShuttleStep) :
    commandsIn (step :: rest) = commandsIn [step] ++ commandsIn rest := by
  rw [commandsIn, commandsIn, commandsIn, ← List.filterMap_append, List.singleton_append]

namespace Shuttle

/-- Push the events that another pipe has read in addition, and put it in the place of the pipe. One that
has ended lets go of its queues. -/
def carry (s : Shuttle) (pipe : Pipe) : Shuttle :=
  let events := (pipe.events.drop s.pipe.events.length).foldl EventQueue.send s.events
  if pipe.status = .running then { s with events := events, pipe := pipe }
  else { commands := s.commands.closeReceiver, events := events.closeSender, pipe := pipe }

/-- Something happens at an end of the pipe. -/
def through (s : Shuttle) (happening : PipeStep) : Shuttle :=
  s.carry (s.pipe.step happening)

/-- Let something happen. -/
def step (s : Shuttle) : ShuttleStep → Shuttle
  | .send command => { s with commands := s.commands.send command }
  | .closeCommands => { s with commands := s.commands.closeSender }
  | .takeEvent =>
    match s.events.next? with
    | some (_, events) => { s with events := events }
    | none => s
  | .takeCommand =>
    match s.commands.take? with
    | some (command, commands) => { s with commands := commands }.through (.command command)
    | none => if s.commands.exhausted then s.through .commandsEnd else s
  | .input bytes => s.through (.input bytes)
  | .inputEnds => s.through .inputEnds
  | .outputCloses => s.through .outputCloses
  | .stop => s.through .stop

/-- Let a sequence of things happen. -/
def run (s : Shuttle) (steps : List ShuttleStep) : Shuttle :=
  steps.foldl step s

/-- What is read from the worker. -/
def hears (s : Shuttle) : ShuttleStep → List UInt8
  | .input bytes => if s.pipe.status = .running then bytes else []
  | _ => []

/-- All that is read from the worker, in order. -/
def heardIn (s : Shuttle) : List ShuttleStep → List UInt8
  | [] => []
  | step :: rest => s.hears step ++ (s.step step).heardIn rest

/-- The end of the worker's output is read. -/
def meetsEnd (s : Shuttle) : ShuttleStep → Bool
  | .inputEnds => s.pipe.status = .running
  | _ => false

/-- The pipe has come to its end by that of the worker's output. -/
def endMetIn (s : Shuttle) : List ShuttleStep → Bool
  | [] => false
  | step :: rest => s.meetsEnd step || (s.step step).endMetIn rest

/-- The event that the bridge takes. -/
def takes? (s : Shuttle) : ShuttleStep → Option Event
  | .takeEvent => s.events.waiting.head?
  | _ => none

/-- The events that the bridge takes, in order. -/
def takenIn (s : Shuttle) : List ShuttleStep → List Event
  | [] => []
  | step :: rest => (s.takes? step).toList ++ (s.step step).takenIn rest

variable {s : Shuttle}

/-- Whatever happens to the pipe, its place is taken by what comes of it. -/
theorem through_pipe (s : Shuttle) (happening : PipeStep) :
    (s.through happening).pipe = s.pipe.step happening := by
  unfold through carry
  split <;> rfl

/-- While the pipe runs, it keeps its commands. -/
theorem through_commands {happening : PipeStep} (h : (s.pipe.step happening).status = .running) :
    (s.through happening).commands = s.commands := by
  rw [through, carry, if_pos h]

/-- What is read is pushed. -/
theorem through_events (hopen : s.events.receiverOpen = true) (happening : PipeStep) :
    (s.through happening).events.receiverOpen = true ∧
      (s.through happening).events.waiting =
        s.events.waiting ++ (s.pipe.step happening).events.drop s.pipe.events.length := by
  obtain ⟨hstill, hwaiting⟩ := EventQueue.foldl_send_of_receiverOpen hopen
    ((s.pipe.step happening).events.drop s.pipe.events.length)
  unfold through carry
  split
  · exact ⟨hstill, hwaiting⟩
  · exact ⟨hstill, hwaiting⟩

/-- A pipe that has ended only lets go of its queues. -/
theorem through_of_ended (h : s.pipe.status ≠ .running) (happening : PipeStep) :
    s.through happening =
      { commands := s.commands.closeReceiver, events := s.events.closeSender, pipe := s.pipe } := by
  rw [through, (Pipe.Steps.ended _ h).eq, carry, if_neg h, List.drop_length]
  rfl

/-- What a pipe reads and what it reads on is pushed in two parts or at once. -/
theorem carry_carry {pipe pipe' : Pipe} (hrunning : pipe.status = .running)
    (hread : s.pipe.events <+: pipe.events) (hmore_read : pipe.events <+: pipe'.events) :
    (s.carry pipe).carry pipe' = s.carry pipe' := by
  obtain ⟨new, hnew⟩ := hread
  obtain ⟨more, hmore⟩ := hmore_read
  have hparts : (pipe'.events.drop pipe.events.length).foldl EventQueue.send
        ((pipe.events.drop s.pipe.events.length).foldl EventQueue.send s.events) =
      (pipe'.events.drop s.pipe.events.length).foldl EventQueue.send s.events := by
    rw [← List.foldl_append, ← hmore, List.drop_left, ← hnew, List.drop_left, List.append_assoc,
      List.drop_left]
  have hfirst : s.carry pipe =
      { s with
        events := (pipe.events.drop s.pipe.events.length).foldl EventQueue.send s.events
        pipe := pipe } := if_pos hrunning
  rw [hfirst, carry, carry, hparts]

end Shuttle

end DaemonBridge
