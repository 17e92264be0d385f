import DaemonBridge.Command

/-!
# The outbound queue

Commands on their way to the worker, first in, first out. Sending never waits; what is sent after the
worker has gone is dropped. The identifiers of commands come from a counter that starts at zero and is
shared by everyone who sends, so an identifier is taken and its command pushed in two steps
(`Desk.takeId`, `Desk.push`), which `Desk.submit` takes one after the other.
-/

namespace DaemonBridge

/-- The queue of commands and which of its ends are still held. -/
structure CommandQueue where
  waiting : List Command := []
  senderOpen : Bool := true
  receiverOpen : Bool := true
  deriving DecidableEq, Repr

namespace CommandQueue

/-- Enqueue a command; without a receiver it is dropped. -/
def send (q : CommandQueue) (command : Command) : CommandQueue :=
  if q.receiverOpen then { q with waiting := q.waiting ++ [command] } else q

/-- Take the next command. -/
def take? (q : CommandQueue) : Option (Command × CommandQueue) :=
  match q.waiting with
  | [] => none
  | command :: rest => some (command, { q with waiting := rest })

/-- Take every command that waits. -/
def takeAll (q : CommandQueue) : List Command × CommandQueue :=
  (q.waiting, { q with waiting := [] })

/-- Nothing waits and nothing more can come. -/
def exhausted (q : CommandQueue) : Bool :=
  q.waiting.isEmpty && !q.senderOpen

/-- Let go of the sending end. -/
def closeSender (q : CommandQueue) : CommandQueue :=
  { q with senderOpen := false }

/-- Let go of the receiving end; what waits is dropped. -/
def closeReceiver (q : CommandQueue) : CommandQueue :=
  { q with waiting := [], receiverOpen := false }

end CommandQueue

/-- Where commands are issued: the next identifier and the queue. -/
structure Desk where
  nextId : CommandId := 0
  queue : CommandQueue := {}
  deriving DecidableEq, Repr

namespace Desk

/-- Take the next identifier. -/
def takeId (desk : Desk) : CommandId × Desk :=
  (desk.nextId, { desk with nextId := desk.nextId + 1 })

/-- Enqueue a command. -/
def push (desk : Desk) (command : Command) : Desk :=
  { desk with queue := desk.queue.send command }

/-- Issue an order for an account and return the identifier of its command. -/
def submit (desk : Desk) (account : String) (order : Order) : CommandId × Desk :=
  let (id, desk) := desk.takeId
  (id, desk.push ⟨id, account, order⟩)

/-- The number of identifiers that have been taken. -/
def issued (desk : Desk) : CommandId :=
  desk.nextId

end Desk

end DaemonBridge
