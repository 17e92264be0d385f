import DaemonBridge.Bridge

/-!
# The run of a bridge

While it runs, a bridge takes turns between handling events and answering the questions of callers,
until someone asks it to stop. Questions wait in a line of bounded length, and a caller who finds it
full waits for room. When the run is over nobody is answered any more: who stands in the line and who
comes later learns that the bridge is not running. Commands and events that wait are left as they are.

A run is a machine (`Run.step`), so that its callers can come in any sequence; `Run.inquire` is what one
caller sees who is alone.
-/

namespace DaemonBridge

/-- The number of questions that fit into the line. -/
def lineLength : Nat := 64

/-- How far a caller has come. -/
inductive CallStage where
  | waitsForRoom
  | inLine
  | answered (finding : Finding)
  | turnedAway
  deriving DecidableEq, Repr

/-- A caller and the question. -/
structure Call where
  inquiry : Inquiry
  stage : CallStage := .waitsForRoom
  deriving DecidableEq, Repr

/-- Where a run stands. -/
inductive RunPhase where
  | ready
  | running
  | over
  deriving DecidableEq, Repr

/-- A bridge and its callers, who are known by their positions in `calls`; `line` holds the positions
of those in the line. -/
structure Run where
  bridge : Bridge
  phase : RunPhase := .ready
  stopRequested : Bool := false
  calls : List Call := []
  line : List Nat := []
  deriving DecidableEq, Repr

/-- Something that happens in a run. -/
inductive RunStep where
  /-- A caller comes with a question. -/
  | call (inquiry : Inquiry)
  /-- A caller enters the line if there is room. -/
  | enter (caller : Nat)
  /-- Someone asks the run to stop. -/
  | requestStop
  /-- The run begins. -/
  | begin
  /-- At most one event is handled. -/
  | tick (store : Store) (runtime : Bool)
  /-- The question at the head of the line is answered. -/
  | answer
  /-- The run ends because someone has asked for it. -/
  | finish

namespace Run

/-- A run of a bridge that has not begun. -/
def ofBridge (bridge : Bridge) : Run := { bridge := bridge }

/-- Bring a caller to a stage. -/
def setStage (r : Run) (caller : Nat) (stage : CallStage) : Run :=
  { r with calls := r.calls.modify caller fun call => { call with stage := stage } }

/-- A caller enters the line, is turned away if the run is over, or goes on waiting for room. -/
def enter (r : Run) (caller : Nat) : Run :=
  match r.calls[caller]? with
  | some ⟨_, .waitsForRoom⟩ =>
    if r.phase = .over then r.setStage caller .turnedAway
    else if r.line.length < lineLength then { r.setStage caller .inLine with line := r.line ++ [caller] }
    else r
  | _ => r

/-- Answer the caller at the head of the line. -/
def answerNext (r : Run) : Run :=
  match r.line with
  | [] => r
  | caller :: rest =>
    match r.calls[caller]? with
    | some call => { r.setStage caller (.answered (r.bridge.cache.answer call.inquiry)) with line := rest }
    | none => { r with line := rest }

/-- End the run and turn away everyone in the line. -/
def finish (r : Run) : Run :=
  { r with
    phase := .over
    calls := r.calls.map fun call =>
      if call.stage = .inLine then { call with stage := .turnedAway } else call
    line := [] }

/-- Let something happen. Questions are answered only while the bridge runs, and it stops only on
request; it handles events also before and after its run. -/
def step (r : Run) : RunStep → Run
  | .call inquiry => { r with calls := r.calls ++ [{ inquiry := inquiry }] }
  | .enter caller => r.enter caller
  | .requestStop => { r with stopRequested := true }
  | .begin => if r.phase = .ready then { r with phase := .running } else r
  | .tick store runtime => { r with bridge := (r.bridge.tick store runtime).2 }
  | .answer => if r.phase = .running then r.answerNext else r
  | .finish => if r.phase = .running ∧ r.stopRequested then r.finish else r

/-- Let a sequence of things happen. -/
def steps (r : Run) (happenings : List RunStep) : Run :=
  happenings.foldl step r

/-- What a caller has been told; nothing while the caller waits. -/
def outcome? (r : Run) (caller : Nat) : Option (Option Finding) :=
  match r.calls[caller]? with
  | some ⟨_, .answered finding⟩ => some (some finding)
  | some ⟨_, .turnedAway⟩ => some none
  | _ => none

/-- Handle every event that waits. -/
def settle (r : Run) (store : Store) : Run :=
  { r with bridge := (r.bridge.settle store).2 }

/-- Run up to the end if someone has asked for it: first every event that waits is handled. -/
def conclude (r : Run) (store : Store) : Run :=
  if r.stopRequested ∧ r.phase ≠ .over then (r.settle store).steps [.begin, .finish] else r

/-- Ask a question when nobody else does; the bridge first handles every event that waits. Without an
answer the bridge is not running. -/
def inquire (r : Run) (store : Store) (inquiry : Inquiry) : Option Finding × Run :=
  let r := if r.phase = .over then r else r.settle store
  let caller := r.calls.length
  let r := r.steps [.begin, .call inquiry, .enter caller, .answer]
  ((r.outcome? caller).join, r)

/-- Let go of the bridge: nobody receives its events and nobody is answered any more. -/
def abandon (r : Run) : Run :=
  { r.finish with bridge := { r.bridge with inbound := r.bridge.inbound.closeReceiver } }

end Run

end DaemonBridge
