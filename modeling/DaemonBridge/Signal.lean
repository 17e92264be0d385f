import DaemonBridge.Dict
import DaemonBridge.Event

/-!
# Signals

What the bridge announces to whoever listens. Each event that concerns a user raises one signal
(`Event.signal?`); signals are numbered from 1 in the order in which they are raised.
-/

namespace DaemonBridge

/-- An announcement. -/
inductive Signal where
  | response (id : CommandId) (account : String) (message : Dict String)
  | unverifiedDevices (held : HeldMessage)
  | verificationInvite (verification : Verification)
  | verificationString (verification : Verification) (emoji : List (String × String))
  | verificationCancel (verification : Verification) (reason code : String)
  | verificationDone (verification : Verification)
  deriving DecidableEq, Repr

/-- The sort of a signal, without its particulars. -/
inductive SignalKind where
  | response
  | unverifiedDevices
  | verificationInvite
  | verificationString
  | verificationCancel
  | verificationDone
  deriving DecidableEq, Repr

namespace SignalKind

/-- The kinds in their customary sequence. -/
def all : List SignalKind :=
  [.response, .unverifiedDevices, .verificationInvite, .verificationString, .verificationCancel,
    .verificationDone]

/-- The name of a kind. -/
def tag : SignalKind → String
  | .response => "Response"
  | .unverifiedDevices => "UnverifiedDevices"
  | .verificationInvite => "VerificationInvite"
  | .verificationString => "VerificationString"
  | .verificationCancel => "VerificationCancel"
  | .verificationDone => "VerificationDone"

end SignalKind

/-- The kind of a signal. -/
def Signal.kind : Signal → SignalKind
  | .response .. => .response
  | .unverifiedDevices _ => .unverifiedDevices
  | .verificationInvite _ => .verificationInvite
  | .verificationString .. => .verificationString
  | .verificationCancel .. => .verificationCancel
  | .verificationDone _ => .verificationDone

/-- The command that a response answers. -/
def Signal.answers? : Signal → Option CommandId
  | .response id _ _ => some id
  | _ => none

/-- The response that announces an answer: its code and its message under these names. -/
def Answer.signal (answer : Answer) : Signal :=
  .response answer.id answer.account (Dict.ofList [("code", answer.code), ("message", answer.message)])

/-- The signal that an event raises. Changes of the stored state raise none. -/
def Event.signal? : Event → Option Signal
  | .usersChanged | .devicesChanged | .unrecognized => none
  | .messageHeld held => some (.unverifiedDevices held)
  | .verificationInvited v => some (.verificationInvite v)
  | .symbolsReady v symbols => some (.verificationString v (symbols.map fun s => (s.emoji, s.description)))
  | .verificationDone v => some (.verificationDone v)
  | .verificationCanceled v reason code => some (.verificationCancel v reason code)
  | .answered answer => some answer.signal

/-- A signal with its number in the order of announcement. -/
structure SignalRecord where
  seq : UInt64
  signal : Signal
  deriving DecidableEq, Repr

/-- The record is the response to the command. -/
def SignalRecord.answersCommand (record : SignalRecord) (id : CommandId) : Bool :=
  record.signal.answers? == some id

end DaemonBridge
