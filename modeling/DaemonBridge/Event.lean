import DaemonBridge.Command

/-!
# Events

What the worker tells the bridge: that its stored users or devices have changed, that a message is
held back because a room has unverified devices, how an interactive verification proceeds, and the
answers to commands. An event of an unknown kind is kept as `unrecognized`.
-/

namespace DaemonBridge

/-- One interactive verification of a device. -/
structure Verification where
  account : String
  user : String
  device : String
  transaction : String
  deriving DecidableEq, Repr

/-- One symbol of a short authentication string. -/
structure Symbol where
  emoji : String
  description : String
  deriving DecidableEq, Repr

/-- A message held back because a room has unverified devices. -/
structure HeldMessage where
  account : String
  room : String
  roomName : String
  deriving DecidableEq, Repr

/-- The worker's answer to the command with the same identifier. -/
structure Answer where
  id : CommandId
  account : String
  code : String
  message : String
  deriving DecidableEq, Repr

/-- A message from the worker. -/
inductive Event where
  | usersChanged
  | devicesChanged
  | messageHeld (held : HeldMessage)
  | verificationInvited (verification : Verification)
  | symbolsReady (verification : Verification) (symbols : List Symbol)
  | verificationDone (verification : Verification)
  | verificationCanceled (verification : Verification) (reason code : String)
  | answered (answer : Answer)
  | unrecognized
  deriving DecidableEq, Repr

/-- The sort of an event, without its particulars. -/
inductive EventKind where
  | usersChanged
  | devicesChanged
  | messageHeld
  | verificationInvited
  | symbolsReady
  | verificationDone
  | verificationCanceled
  | answered
  | unrecognized
  deriving DecidableEq, Repr

namespace EventKind

/-- The kinds in their customary sequence. -/
def all : List EventKind :=
  [.usersChanged, .devicesChanged, .messageHeld, .verificationInvited, .symbolsReady, .verificationDone,
    .verificationCanceled, .answered, .unrecognized]

/-- The name of a kind on the wire. -/
def tag : EventKind → String
  | .usersChanged => "update_users"
  | .devicesChanged => "update_devices"
  | .messageHeld => "unverified_devices"
  | .verificationInvited => "invite_sas"
  | .symbolsReady => "show_sas"
  | .verificationDone => "sas_done"
  | .verificationCanceled => "sas_canceled"
  | .answered => "daemon_response"
  | .unrecognized => "unrecognized"

end EventKind

/-- The kind of an event. -/
def Event.kind : Event → EventKind
  | .usersChanged => .usersChanged
  | .devicesChanged => .devicesChanged
  | .messageHeld _ => .messageHeld
  | .verificationInvited _ => .verificationInvited
  | .symbolsReady .. => .symbolsReady
  | .verificationDone _ => .verificationDone
  | .verificationCanceled .. => .verificationCanceled
  | .answered _ => .answered
  | .unrecognized => .unrecognized

/-- The answer to a command. -/
def Command.answer (command : Command) (code message : String) : Event :=
  .answered ⟨command.id, command.account, code, message⟩

end DaemonBridge
