import DaemonBridge.Command.Wire

/-!
# Requests for commands

The bodies with which a control client asks for a command: the account to act for, and a key file, a
room or a device.
-/

namespace DaemonBridge.Control

open Json (Value Record)

/-- Move room keys of an account through a file. -/
structure KeyRequest where
  account : String
  file : KeyFile
  deriving DecidableEq

/-- Settle a message that an account holds back from a room. -/
structure RoomRequest where
  account : String
  room : String
  deriving DecidableEq, Repr

/-- Do something about a device on behalf of an account. -/
structure DeviceRequest where
  account : String
  target : DeviceAddress
  deriving DecidableEq, Repr

namespace KeyRequest

/-- Key requests. -/
def decoder : Json.Decoder KeyRequest :=
  ((Record.field "pan_user" Json.string).and KeyFile.record).map (fun (account, file) => ⟨account, file⟩)
    |>.decoder "struct KeysRequest"

/-- A key request as JSON. -/
def toJson (r : KeyRequest) : Value :=
  .obj [("pan_user", .str r.account), ("file_path", .str r.file.path),
    ("passphrase", .str r.file.passphrase.secret)]

/-- A key request as diagnostics show it. -/
def shown (r : KeyRequest) : String :=
  "KeysRequest \x7b pan_user: " ++ Text.quoted r.account ++ ", file_path: " ++ Text.quoted r.file.path ++
    ", passphrase: " ++ r.file.passphrase.shown ++ " \x7d"

end KeyRequest

namespace RoomRequest

/-- Room requests. -/
def decoder : Json.Decoder RoomRequest :=
  ((Record.field "pan_user" Json.string).and (.field "room_id" Json.string)).map
    (fun (account, room) => ⟨account, room⟩) |>.decoder "struct RoomRequest"

/-- A room request as JSON. -/
def toJson (r : RoomRequest) : Value :=
  .obj [("pan_user", .str r.account), ("room_id", .str r.room)]

end RoomRequest

namespace DeviceRequest

/-- Device requests. -/
def decoder : Json.Decoder DeviceRequest :=
  ((Record.field "pan_user" Json.string).and DeviceAddress.record).map
    (fun (account, target) => ⟨account, target⟩)
    |>.decoder "struct DeviceRequest"

/-- A device request as JSON. -/
def toJson (r : DeviceRequest) : Value :=
  .obj [("pan_user", .str r.account), ("user_id", .str r.target.user), ("device_id", .str r.target.device)]

end DeviceRequest

/-- The body that asks for an order on behalf of an account. -/
def orderBody (account : String) : Order → Value
  | .keys _ file => (KeyRequest.mk account file).toJson
  | .room _ roomId => (RoomRequest.mk account roomId).toJson
  | .device _ target => (DeviceRequest.mk account target).toJson

/-- Bodies that ask for an order of a kind. -/
def orderDecoder (kind : OrderKind) : Json.Decoder (String × Order) := fun source tree =>
  match kind with
  | .keys transfer => (KeyRequest.decoder source tree).map fun r => (r.account, .keys transfer r.file)
  | .room decision => (RoomRequest.decoder source tree).map fun r => (r.account, .room decision r.room)
  | .device action => (DeviceRequest.decoder source tree).map fun r => (r.account, .device action r.target)

end DaemonBridge.Control
