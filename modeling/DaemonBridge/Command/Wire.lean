import DaemonBridge.Command
import DaemonBridge.Json.Tagged
import DaemonBridge.Json.Value

/-!
# Commands on the wire

A command is a JSON object of its identifier, its account and its order; the order is an object that
carries its kind as the member `type`.
-/

namespace DaemonBridge

open Json (Value Record)

/-- The fields of a key file. -/
def KeyFile.record : Record KeyFile :=
  ((Record.field "file_path" (Json.stringNamed "path string")).and (.field "passphrase" Json.string)).map
    fun (path, secret) => ⟨path, ⟨secret⟩⟩

/-- The fields of a device address. -/
def DeviceAddress.record : Record DeviceAddress :=
  ((Record.field "user_id" Json.string).and (.field "device_id" Json.string)).map
    fun (user, device) => ⟨user, device⟩

namespace Order

/-- The particulars of an order as members. -/
def members : Order → List (String × Value)
  | .keys _ file => [("file_path", .str file.path), ("passphrase", .str file.passphrase.secret)]
  | .room _ roomId => [("room_id", .str roomId)]
  | .device _ target => [("user_id", .str target.user), ("device_id", .str target.device)]

/-- An order as JSON. -/
def toJson (order : Order) : Value :=
  .obj (("type", .str order.kind.tag) :: order.members)

/-- The particulars of an order of a kind. -/
def contentDecoder (kind : OrderKind) : Json.Decoder Order :=
  match kind with
  | .keys transfer =>
    (KeyFile.record.map (Order.keys transfer)).decoder ("struct variant CommandKind::" ++ kind.title)
  | .room decision =>
    ((Record.field "room_id" Json.string).map (Order.room decision)).decoder
      ("struct variant CommandKind::" ++ kind.title)
  | .device action => (DeviceAddress.record.map (Order.device action)).decoder "struct DeviceTarget"

/-- Orders. -/
def decoder : Json.Decoder Order :=
  Json.tagged "type" "internally tagged enum CommandKind"
    (Json.variant (OrderKind.all.map fun kind => (kind.tag, kind)) none) contentDecoder

end Order

namespace Command

/-- A command as JSON. -/
def toJson (command : Command) : Value :=
  .obj [("id", .nat command.id), ("pan_user", .str command.account), ("kind", command.order.toJson)]

/-- Commands. -/
def decoder : Json.Decoder Command :=
  (((Record.field "id" Json.uint64).and (.field "pan_user" Json.string)).and
    (.field "kind" Order.decoder)).map
    (fun ((id, account), order) => ⟨id, account, order⟩) |>.decoder "struct Command"

end Command

end DaemonBridge
