import DaemonBridge.Proofs.Json.Records
import DaemonBridge.Store.Snapshot

/-!
# Written directories

Logins, devices and whole directories are read back as they were written. So every directory can be put
into a file, and the store that reads the file answers what the directory holds.
-/

namespace DaemonBridge

open Json (Value Record Source)

/-- A written dictionary holds no numbers but unsigned 64-bit integers, if its values do not. -/
theorem Dict.isPlain_toJson {α : Type} {write : α → Value} (h : ∀ a, (write a).IsPlain) (d : Dict α) :
    (d.toJson write).IsPlain := by
  apply Json.arePlainMembers_of_forall
  intro member hmem
  obtain ⟨entry, -, rfl⟩ := List.mem_map.mp hmem
  exact h entry.2

namespace Login

/-- A written login is read back. -/
theorem decoder_tree (login : Login) {source inner : Source} (henter : source.enter = .ok inner) :
    decoder source login.toJson.tree = .ok login :=
  Record.Reads.decoder (((Record.reads_field rfl).and (Record.reads_field rfl) (by decide)).map _)
    henter _

/-- A written login holds no numbers. -/
theorem isPlain_toJson (login : Login) : login.toJson.IsPlain :=
  ⟨trivial, trivial, trivial⟩

end Login

namespace Device

/-- A written device is read back. -/
theorem decoder_tree (device : Device) {source inner : Source} (henter : source.enter = .ok inner) :
    decoder source device.toJson.tree = .ok device :=
  Record.Reads.decoder (((((((Record.reads_field rfl).and (Record.reads_field rfl) (by decide)).and
    (Record.reads_fieldOr _ rfl) (by decide)).and (Record.reads_fieldOr _ rfl) (by decide)).and
    (Record.reads_fieldOr _ rfl) (by decide)).and (Record.reads_fieldOr _ rfl) (by decide)).map _)
    henter _

/-- A written device holds no numbers. -/
theorem isPlain_toJson (device : Device) : device.toJson.IsPlain :=
  ⟨trivial, trivial, trivial, trivial, trivial, trivial, trivial⟩

end Device

namespace LoginsByServer

variable {source first second third : Source}

/-- The written logins on each server are read back. -/
theorem decoder_tree (logins : LoginsByServer) (hfirst : source.enter = .ok first)
    (hsecond : first.enter = .ok second) (hthird : second.enter = .ok third) :
    decoder source logins.toJson.tree = .ok logins :=
  Json.dict_tree hfirst logins fun l => Json.list_tree hsecond l fun login _ => login.decoder_tree hthird

/-- The written logins on each server hold no numbers. -/
theorem isPlain_toJson (logins : LoginsByServer) : logins.toJson.IsPlain := by
  apply Dict.isPlain_toJson
  intro l
  apply Json.arePlainItems_of_forall
  intro item hmem
  obtain ⟨login, -, rfl⟩ := List.mem_map.mp hmem
  exact login.isPlain_toJson

end LoginsByServer

namespace DevicesByAccount

variable {source first second third fourth : Source}

/-- The written devices of every account are read back. -/
theorem decoder_tree (devices : DevicesByAccount) (hfirst : source.enter = .ok first)
    (hsecond : first.enter = .ok second) (hthird : second.enter = .ok third)
    (hfourth : third.enter = .ok fourth) : decoder source devices.toJson.tree = .ok devices :=
  Json.dict_tree hfirst devices fun users => Json.dict_tree hsecond users fun records =>
    Json.dict_tree hthird records fun device => device.decoder_tree hfourth

/-- The written devices of every account hold no numbers. -/
theorem isPlain_toJson (devices : DevicesByAccount) : devices.toJson.IsPlain :=
  Dict.isPlain_toJson (fun users => Dict.isPlain_toJson
    (fun records => Dict.isPlain_toJson Device.isPlain_toJson records) users) devices

end DevicesByAccount

namespace Directory

/-- A written directory holds no numbers. -/
theorem isPlain_toJson (d : Directory) : d.toJson.IsPlain :=
  ⟨d.logins.isPlain_toJson, d.devices.isPlain_toJson, trivial⟩

/-- A directory is read back from each of its texts. -/
theorem decode_of_isWrittenAs {d : Directory} {text : List Char} (h : d.toJson.IsWrittenAs text) :
    (Json.Document.ofChars text).decode decoder = .ok d := by
  have hlogins : LoginsByServer.decoder (.text 126) d.logins.toJson.tree = .ok d.logins :=
    d.logins.decoder_tree rfl rfl rfl
  have hdevices : DevicesByAccount.decoder (.text 126) d.devices.toJson.tree = .ok d.devices :=
    d.devices.decoder_tree rfl rfl rfl rfl
  have hread : decoder .document d.toJson.tree = .ok d :=
    Record.Reads.decoder (((Record.reads_fieldOr _ hlogins).and (Record.reads_fieldOr _ hdevices)
      (by decide)).map _) rfl _
  rw [Json.Document.ofChars_of_isWrittenAs h fun n => by simp [toJson], Json.Document.decode, hread]
  rfl

/-- A written directory is read back. -/
theorem decode_toJson (d : Directory) :
    (Json.Document.ofChars d.toJson.compact).decode decoder = .ok d :=
  decode_of_isWrittenAs (Json.Value.isWrittenAs_compact d.isPlain_toJson)

/-- The content of a file that holds the directory. -/
def written (d : Directory) : PathContent :=
  .file (Text.encode d.toJson.compact)

/-- A file into which a directory was written holds the directory. -/
theorem directory_written (d : Directory) (path : String) : d.written.directory path = .ok d := by
  simp only [written, PathContent.directory, Text.decode?_encode, d.decode_toJson]

end Directory

end DaemonBridge
