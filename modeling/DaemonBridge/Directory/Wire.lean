import DaemonBridge.Directory
import DaemonBridge.Json.Tagged
import DaemonBridge.Json.Value

/-!
# The directory as JSON

The text of a snapshot of the directory, of its logins and of its devices. A part that a snapshot
does not mention is empty, and a device without a name, a fingerprint or a mark has none.
-/

namespace DaemonBridge

open Json (Value Record)

namespace Login

/-- The fields of a login. -/
def record : Record Login :=
  ((Record.field "user_id" Json.string).and (.field "device_id" Json.string)).map
    fun (user, device) => ⟨user, device⟩

/-- Logins. -/
def decoder : Json.Decoder Login :=
  record.decoder "struct PanUser"

/-- A login as JSON. -/
def toJson (login : Login) : Value :=
  .obj [("user_id", .str login.user), ("device_id", .str login.device)]

end Login

namespace Device

/-- The fields of a device. -/
def record : Record Device :=
  ((((((Record.field "user_id" Json.string).and (.field "device_id" Json.string)).and
    (.optional "" "display_name" Json.string)).and (.optional "" "fingerprint" Json.string)).and
    (.optional false "verified" Json.bool)).and (.optional false "blacklisted" Json.bool)).map
    fun (((((user, device), displayName), fingerprint), verified), blacklisted) =>
      ⟨user, device, displayName, fingerprint, verified, blacklisted⟩

/-- Devices. -/
def decoder : Json.Decoder Device :=
  record.decoder "struct DeviceRecord"

/-- A device as JSON. -/
def toJson (d : Device) : Value :=
  .obj [("user_id", .str d.user), ("device_id", .str d.device), ("display_name", .str d.displayName),
    ("fingerprint", .str d.fingerprint), ("verified", .bool d.verified),
    ("blacklisted", .bool d.blacklisted)]

end Device

/-- A dictionary as JSON. -/
def Dict.toJson {α : Type} (f : α → Value) (d : Dict α) : Value :=
  .obj (d.entries.map fun entry => (entry.1, f entry.2))

/-- The logins on each server as JSON. -/
def LoginsByServer.toJson (logins : LoginsByServer) : Value :=
  Dict.toJson (fun l => .arr (l.map Login.toJson)) logins

/-- The logins on each server. -/
def LoginsByServer.decoder : Json.Decoder LoginsByServer :=
  Json.dict (Json.list Login.decoder)

/-- The devices known to every account as JSON. -/
def DevicesByAccount.toJson (devices : DevicesByAccount) : Value :=
  Dict.toJson (Dict.toJson (Dict.toJson Device.toJson)) devices

/-- The devices known to every account. -/
def DevicesByAccount.decoder : Json.Decoder DevicesByAccount :=
  Json.dict (Json.dict (Json.dict Device.decoder))

namespace Directory

/-- The fields of a snapshot. -/
def record : Record Directory :=
  ((Record.optional ∅ "users" LoginsByServer.decoder).and
    (.optional ∅ "devices" DevicesByAccount.decoder)).map fun (logins, devices) => ⟨logins, devices⟩

/-- Snapshots. -/
def decoder : Json.Decoder Directory :=
  record.decoder "struct SnapshotFile"

/-- A snapshot as JSON. -/
def toJson (d : Directory) : Value :=
  .obj [("users", d.logins.toJson), ("devices", d.devices.toJson)]

end Directory

end DaemonBridge
