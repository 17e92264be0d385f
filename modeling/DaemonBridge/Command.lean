import DaemonBridge.Text.Quoted

/-!
# Commands

What the control side asks of the worker. A command names the account it acts for and carries an
identifier that the worker repeats in its answer. There are twelve orders: two that move room keys
through a file, two that settle a message held back from a room, and eight that concern one device
of a user.
-/

namespace DaemonBridge

/-- The number that ties a command to its answer. -/
abbrev CommandId := UInt64

/-- The secret that protects a key file. -/
structure Passphrase where
  secret : String
  deriving DecidableEq

/-- How diagnostics show every passphrase. -/
def Passphrase.shown (_ : Passphrase) : String := "Passphrase([REDACTED])"

instance : Repr Passphrase := ⟨fun p _ => p.shown⟩

/-- A file of room keys and the passphrase that protects it. -/
structure KeyFile where
  path : String
  passphrase : Passphrase
  deriving DecidableEq, Repr

/-- A device of a user. -/
structure DeviceAddress where
  user : String
  device : String
  deriving DecidableEq, Repr

/-- The two ways of moving room keys. -/
inductive KeyTransfer where
  | exportKeys
  | importKeys
  deriving DecidableEq, Repr

/-- The two ways of settling a message that is held back. -/
inductive HeldMessageDecision where
  | send
  | cancel
  deriving DecidableEq, Repr

/-- What can be done about a device. -/
inductive DeviceAction where
  | verify
  | unverify
  | blacklist
  | unblacklist
  | startVerification
  | cancelVerification
  | acceptVerification
  | confirmVerification
  deriving DecidableEq, Repr

/-- What a command asks for. -/
inductive Order where
  | keys (transfer : KeyTransfer) (file : KeyFile)
  | room (decision : HeldMessageDecision) (room : String)
  | device (action : DeviceAction) (target : DeviceAddress)
  deriving DecidableEq, Repr

/-- A request to the worker on behalf of an account. -/
structure Command where
  id : CommandId
  account : String
  order : Order
  deriving DecidableEq, Repr

/-- The sort of an order, without its particulars. -/
inductive OrderKind where
  | keys (transfer : KeyTransfer)
  | room (decision : HeldMessageDecision)
  | device (action : DeviceAction)
  deriving DecidableEq, Repr

namespace OrderKind

/-- The twelve kinds in their customary sequence. -/
def all : List OrderKind :=
  [.keys .exportKeys, .keys .importKeys, .room .send, .room .cancel, .device .verify, .device .unverify,
    .device .blacklist, .device .unblacklist, .device .startVerification, .device .cancelVerification,
    .device .acceptVerification, .device .confirmVerification]

/-- The name of a kind on the wire. -/
def tag : OrderKind → String
  | .keys .exportKeys => "export_keys"
  | .keys .importKeys => "import_keys"
  | .room .send => "send_anyways"
  | .room .cancel => "cancel_sending"
  | .device .verify => "device_verify"
  | .device .unverify => "device_unverify"
  | .device .blacklist => "device_blacklist"
  | .device .unblacklist => "device_unblacklist"
  | .device .startVerification => "start_sas"
  | .device .cancelVerification => "cancel_sas"
  | .device .acceptVerification => "accept_sas"
  | .device .confirmVerification => "confirm_sas"

/-- The name of a kind in diagnostics. -/
def title : OrderKind → String
  | .keys .exportKeys => "ExportKeys"
  | .keys .importKeys => "ImportKeys"
  | .room .send => "SendAnyways"
  | .room .cancel => "CancelSending"
  | .device .verify => "DeviceVerify"
  | .device .unverify => "DeviceUnverify"
  | .device .blacklist => "DeviceBlacklist"
  | .device .unblacklist => "DeviceUnblacklist"
  | .device .startVerification => "StartSas"
  | .device .cancelVerification => "CancelSas"
  | .device .acceptVerification => "AcceptSas"
  | .device .confirmVerification => "ConfirmSas"

end OrderKind

namespace Order

/-- The kind of an order. -/
def kind : Order → OrderKind
  | .keys transfer _ => .keys transfer
  | .room decision _ => .room decision
  | .device action _ => .device action

/-- The device that an order concerns. -/
def target? : Order → Option DeviceAddress
  | .device _ target => some target
  | _ => none

/-- The room that an order concerns. -/
def room? : Order → Option String
  | .room _ roomId => some roomId
  | _ => none

/-- The key file that an order reads or writes. -/
def file? : Order → Option KeyFile
  | .keys _ file => some file
  | _ => none

/-- An order as diagnostics show it. -/
def shown (order : Order) : String :=
  order.kind.title ++ match order with
    | .keys _ file =>
      " \x7b file_path: " ++ Text.quoted file.path ++ ", passphrase: " ++ file.passphrase.shown ++ " \x7d"
    | .room _ roomId => " \x7b room_id: " ++ Text.quoted roomId ++ " \x7d"
    | .device _ target =>
      "(DeviceTarget \x7b user_id: " ++ Text.quoted target.user ++ ", device_id: " ++
        Text.quoted target.device ++ " \x7d)"

end Order

/-- A command as diagnostics show it; a passphrase never appears. -/
def Command.shown (command : Command) : String :=
  "Command \x7b id: MessageId(" ++ toString command.id ++ "), pan_user: " ++ Text.quoted command.account ++
    ", kind: " ++ command.order.shown ++ " \x7d"

/-- Every kind is among the twelve. -/
theorem OrderKind.mem_all (kind : OrderKind) : kind ∈ OrderKind.all := by
  rcases kind with (_ | _) | (_ | _) | (_ | _ | _ | _ | _ | _ | _ | _) <;> decide

end DaemonBridge
