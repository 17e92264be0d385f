import DaemonBridge.Client.Dialogue

/-!
# Waiting for a response

A client finds the response to its command by polling the signals after the last one it has seen. Each
page either holds the response, or shows that signals the client has not seen are gone, or moves the
client on (`inspect`). The waiting ends after a time that the client chooses.
-/

namespace DaemonBridge.Client

open Control (SignalPage)

/-- What a client learns from a page. -/
inductive Inspection where
  | found (record : SignalRecord)
  | missed
  | goOn (cursor : UInt64)
  deriving DecidableEq, Repr

/-- Look for the response to a command on the page of the signals after `cursor`. -/
def inspect (id : CommandId) (cursor : UInt64) (page : SignalPage) : Inspection :=
  match page.signals.find? fun record => record.answersCommand id with
  | some record => .found record
  | none =>
    let oldest := match page.signals with
      | [] => page.lastSeq + 1
      | record :: _ => record.seq
    if cursor + 1 < oldest then .missed else .goOn (max cursor page.lastSeq)

/-- The time between two polls, in milliseconds. -/
def pollInterval : Nat := 100

/-- The number of polls that begin within a time. -/
def pollsWithin (milliseconds : Nat) : Nat :=
  (milliseconds + pollInterval - 1) / pollInterval

/-- Poll a number of times. Even without time left the first poll is tried, and fails if nobody can be
reached. -/
def pollResponse (socket : String) (id : CommandId) (milliseconds : Nat) :
    Nat → UInt64 → Dialogue (Except ClientError SignalRecord)
  | 0, cursor =>
    .send (Call.signals cursor).request fun delivery =>
      .done (.error ((delivery.unreachable? socket).getD (.timeout id milliseconds)))
  | polls + 1, cursor =>
    .ask socket (.signals cursor) fun page =>
      match inspect id cursor page with
      | .found record => .done (.ok record)
      | .missed => .done (.error (.missed id cursor))
      | .goOn cursor =>
        if polls = 0 then .done (.error (.timeout id milliseconds))
        else .pause (pollResponse socket id milliseconds polls cursor)

/-- Wait some milliseconds for the response to a command among the signals after a number. -/
def awaitResponse (socket : String) (id : CommandId) (after : UInt64) (milliseconds : Nat) :
    Dialogue (Except ClientError SignalRecord) :=
  pollResponse socket id milliseconds (pollsWithin milliseconds) after

end DaemonBridge.Client
