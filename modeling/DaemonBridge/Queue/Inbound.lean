import DaemonBridge.Event

/-!
# The inbound queue

Events on their way to the bridge, and the count of those that are not worked through. An event
counts from before it is pushed until its handling is marked as done, so a count of zero means that
every event sent so far has been handled. Whoever waits for that is woken each time the count falls
to zero and then looks at the count again.
-/

namespace DaemonBridge

/-- The queue of events, the count of unfinished ones, and how often the count has fallen to zero. -/
structure EventQueue where
  waiting : List Event := []
  unfinished : Nat := 0
  drains : Nat := 0
  senderOpen : Bool := true
  receiverOpen : Bool := true
  deriving DecidableEq, Repr

namespace EventQueue

/-- Count one more event, before it is pushed. -/
def announce (q : EventQueue) : EventQueue :=
  { q with unfinished := q.unfinished + 1 }

/-- Push an announced event; without a receiver it no longer counts. -/
def push (q : EventQueue) (event : Event) : EventQueue :=
  if q.receiverOpen then { q with waiting := q.waiting ++ [event] }
  else { q with unfinished := q.unfinished - 1 }

/-- Send an event. -/
def send (q : EventQueue) (event : Event) : EventQueue :=
  q.announce.push event

/-- Take the next event without waiting. -/
def next? (q : EventQueue) : Option (Event × EventQueue) :=
  match q.waiting with
  | [] => none
  | event :: rest => some (event, { q with waiting := rest })

/-- Mark one event as handled; the last one wakes whoever waits. -/
def taskDone (q : EventQueue) : EventQueue :=
  if q.unfinished = 1 then { q with unfinished := 0, drains := q.drains + 1 }
  else { q with unfinished := q.unfinished - 1 }

/-- The number of events that were sent and not handled. -/
def pending (q : EventQueue) : Nat :=
  q.unfinished

/-- Let go of the sending end. -/
def closeSender (q : EventQueue) : EventQueue :=
  { q with senderOpen := false }

/-- Let go of the receiving end; what waits is lost and goes on counting. -/
def closeReceiver (q : EventQueue) : EventQueue :=
  { q with waiting := [], receiverOpen := false }

end EventQueue

/-- Someone who waits until every event has been handled. First they sign up for the next drain, then
they look at the count, and only then they wait; `since` is the number of drains when they signed up. -/
inductive Join where
  | ready
  | registered (since : Nat)
  | waiting (since : Nat)
  | finished
  deriving DecidableEq, Repr

namespace Join

/-- A drain has happened since they signed up. -/
def notified (q : EventQueue) : Join → Bool
  | .registered since | .waiting since => since < q.drains
  | _ => false

/-- One step. -/
def step (q : EventQueue) : Join → Join
  | .ready => .registered q.drains
  | .registered since => if q.unfinished = 0 then .finished else .waiting since
  | .waiting since => if since < q.drains then .ready else .waiting since
  | .finished => .finished

/-- All steps that can be taken without waiting. -/
def poll (q : EventQueue) : Join → Join
  | .waiting since => if since < q.drains then check else .waiting since
  | .finished => .finished
  | .registered since =>
    if q.unfinished = 0 then .finished
    else if since < q.drains then check
    else .waiting since
  | .ready => check
where
  check : Join := if q.unfinished = 0 then .finished else .waiting q.drains

end Join

end DaemonBridge
