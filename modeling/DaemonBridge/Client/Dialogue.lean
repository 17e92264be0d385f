import DaemonBridge.Client.Call

/-!
# Dialogues

A client at work: it sends one request after another, each chosen by what came of the earlier ones,
pauses between some of them and ends with a result. What stands at the other end is not part of a
dialogue; `Dialogue.run` holds one with whoever delivers the requests.
-/

namespace DaemonBridge.Client

/-- A sequence of requests that depends on what comes back. -/
inductive Dialogue (α : Type) where
  | done (result : α)
  | send (request : Http.Request) (next : Delivery → Dialogue α)
  | pause (next : Dialogue α)

namespace Dialogue

variable {α β : Type}

/-- Hold a dialogue. -/
def run {m : Type → Type} [Monad m] (deliver : Http.Request → m Delivery) (rest : m Unit) : Dialogue α → m α
  | .done result => pure result
  | .send request next => do (next (← deliver request)).run deliver rest
  | .pause next => do
    rest
    next.run deliver rest

/-- The dialogue with its result put otherwise. -/
def map (f : α → β) : Dialogue α → Dialogue β
  | .done result => .done (f result)
  | .send request next => .send request fun delivery => (next delivery).map f
  | .pause next => .pause (next.map f)

/-- Call and go on with the answer; a failure is the end. -/
def ask (socket : String) (call : Call α) (next : α → Dialogue (Except ClientError β)) :
    Dialogue (Except ClientError β) :=
  .send call.request fun delivery =>
    match call.result socket delivery with
    | .ok answer => next answer
    | .error error => .done (.error error)

/-- A single call. -/
def single (socket : String) (call : Call α) : Dialogue (Except ClientError α) :=
  ask socket call fun answer => .done (.ok answer)

end Dialogue

end DaemonBridge.Client
