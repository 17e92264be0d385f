import DaemonBridge.Control.Reply
import DaemonBridge.Control.Request
import DaemonBridge.Proofs.Directory.Wire
import DaemonBridge.Proofs.Signal.Wire

/-!
# Written requests and replies

What the bridge answers to questions and to orders, and the bodies with which orders are asked for, are
read back as they were written.
-/

namespace DaemonBridge.Control

open Json (Value Record Source Document decode_ofBytes_compact)

/-- The state of a bridge holds no numbers but the seconds and the number of the last signal. -/
theorem Health.isPlain_toJson (h : Health) : h.toJson.IsPlain :=
  ⟨trivial, trivial, trivial, trivial, ⟨_, rfl⟩, ⟨_, rfl⟩, trivial⟩

/-- The state of a bridge is read back. -/
theorem Health.decoder_tree (h : Health) : Health.decoder .document h.toJson.tree = .ok h :=
  Record.Reads.decoder (((((((Record.reads_field rfl).and (Record.reads_field rfl) (by decide)).and
    (Record.reads_field rfl) (by decide)).and (Record.reads_field rfl) (by decide)).and
    (Record.reads_field rfl) (by decide)).and (Record.reads_field rfl) (by decide)).map _) rfl _

/-- The written state of a bridge is read back. -/
theorem Health.decode_toJson (h : Health) :
    (Document.ofBytes (Text.encode h.toJson.compact)).decode Health.decoder = .ok h :=
  decode_ofBytes_compact h.isPlain_toJson (fun n => by simp [Health.toJson]) h.decoder_tree

/-- A page of signals holds no numbers but those of its signals. -/
theorem SignalPage.isPlain_toJson (page : SignalPage) : page.toJson.IsPlain := by
  refine ⟨Json.arePlainItems_of_forall fun item hmem => ?_, ⟨_, rfl⟩, trivial⟩
  obtain ⟨record, -, rfl⟩ := List.mem_map.mp hmem
  exact record.isPlain_toJson

/-- A page of signals is read back. -/
theorem SignalPage.decoder_tree (page : SignalPage) :
    SignalPage.decoder .document page.toJson.tree = .ok page := by
  have hroom : (Source.text 124).HasRoom 2 := Nat.le_add_left 2 122
  have hsignals : Json.list SignalRecord.decoder (.text 126)
      (Value.ofList SignalRecord.toJson page.signals).tree = .ok page.signals :=
    Json.list_tree rfl page.signals fun record _ => record.decoder_tree rfl hroom
  exact Record.Reads.decoder (((Record.reads_field hsignals).and (Record.reads_field rfl)
    (by decide)).map _) rfl _

/-- A written page of signals is read back. -/
theorem SignalPage.decode_toJson (page : SignalPage) :
    (Document.ofBytes (Text.encode page.toJson.compact)).decode SignalPage.decoder = .ok page :=
  decode_ofBytes_compact page.isPlain_toJson (fun n => by simp [SignalPage.toJson]) page.decoder_tree

/-- The written word that a bridge will stop is read back. -/
theorem decode_stopping (notice : StopNotice) :
    (Document.ofBytes (Text.encode (Reply.stopping notice).toJson.compact)).decode StopNotice.decoder =
      .ok notice :=
  decode_ofBytes_compact ⟨trivial, trivial, trivial⟩ (fun n => by simp [Reply.toJson])
    (Record.Reads.decoder (((Record.reads_field rfl).and (Record.reads_field rfl) (by decide)).map _) rfl _)

/-- The written settings are read back. -/
theorem decode_config (toml : String) :
    (Document.ofBytes (Text.encode (Reply.config toml).toJson.compact)).decode configDecoder = .ok toml :=
  decode_ofBytes_compact ⟨trivial, trivial⟩ (fun n => by simp [Reply.toJson])
    (Record.Reads.decoder (Record.reads_field rfl) rfl _)

/-- The written logins are read back. -/
theorem decode_servers (logins : LoginsByServer) :
    (Document.ofBytes (Text.encode (Reply.servers logins).toJson.compact)).decode serversDecoder =
      .ok logins :=
  decode_ofBytes_compact ⟨logins.isPlain_toJson, trivial⟩ (fun n => by simp [Reply.toJson])
    (Record.Reads.decoder (Record.reads_field (logins.decoder_tree rfl rfl rfl)) rfl _)

/-- Devices hold no numbers. -/
theorem isPlain_devicesToJson (devices : List Device) : (devicesToJson devices).IsPlain := by
  refine Json.arePlainItems_of_forall fun item hmem => ?_
  obtain ⟨device, -, rfl⟩ := List.mem_map.mp hmem
  exact device.isPlain_toJson

/-- Devices are read back. -/
theorem devices_tree {source first second : Source} (hfirst : source.enter = .ok first)
    (hsecond : first.enter = .ok second) (devices : List Device) :
    Json.list Device.decoder source (devicesToJson devices).tree = .ok devices :=
  Json.list_tree hfirst devices fun device _ => device.decoder_tree hsecond

/-- The written devices are read back. -/
theorem decode_devices (devices : List Device) :
    (Document.ofBytes (Text.encode (Reply.devices devices).toJson.compact)).decode devicesDecoder =
      .ok devices :=
  decode_ofBytes_compact ⟨isPlain_devicesToJson devices, trivial⟩ (fun n => by simp [Reply.toJson])
    (Record.Reads.decoder (Record.reads_field (devices_tree rfl rfl devices)) rfl _)

/-- A written problem is read back. -/
theorem decode_problem (text : String) :
    (Document.ofBytes (Text.encode (Reply.problem text).toJson.compact)).decode problemDecoder =
      .ok text :=
  decode_ofBytes_compact ⟨trivial, trivial⟩ (fun n => by simp [Reply.toJson])
    (Record.Reads.decoder (Record.reads_field rfl) rfl _)

/-- The written identifier of an accepted command is read back. -/
theorem decode_accepted (id : CommandId) :
    (Document.ofBytes (Text.encode (Reply.accepted id).toJson.compact)).decode acceptedDecoder =
      .ok id :=
  decode_ofBytes_compact ⟨⟨id, rfl⟩, trivial⟩ (fun n => by simp [Reply.toJson])
    (Record.Reads.decoder (Record.reads_field rfl) rfl _)

/-- The written body of an order is read back as the account and the order. -/
theorem decode_orderBody (account : String) (order : Order) :
    (Document.ofBytes (Text.encode (orderBody account order).compact)).decode (orderDecoder order.kind) =
      .ok (account, order) := by
  cases order with
  | keys transfer file =>
    have hread : KeyRequest.decoder .document (KeyRequest.mk account file).toJson.tree =
        .ok ⟨account, file⟩ :=
      Record.Reads.decoder (((Record.reads_field rfl).and
        (((Record.reads_field rfl).and (Record.reads_field rfl) (by decide)).map _)
        (by decide)).map _) rfl _
    refine decode_ofBytes_compact ⟨trivial, trivial, trivial, trivial⟩
      (fun n => by simp [orderBody, KeyRequest.toJson]) ?_
    exact congrArg (Except.map fun r : KeyRequest => (r.account, Order.keys transfer r.file)) hread
  | room decision roomId =>
    have hread : RoomRequest.decoder .document (RoomRequest.mk account roomId).toJson.tree =
        .ok ⟨account, roomId⟩ :=
      Record.Reads.decoder (((Record.reads_field rfl).and (Record.reads_field rfl)
        (by decide)).map _) rfl _
    refine decode_ofBytes_compact ⟨trivial, trivial, trivial⟩
      (fun n => by simp [orderBody, RoomRequest.toJson]) ?_
    exact congrArg (Except.map fun r : RoomRequest => (r.account, Order.room decision r.room)) hread
  | device action target =>
    have hread : DeviceRequest.decoder .document (DeviceRequest.mk account target).toJson.tree =
        .ok ⟨account, target⟩ :=
      Record.Reads.decoder (((Record.reads_field rfl).and
        (((Record.reads_field rfl).and (Record.reads_field rfl) (by decide)).map _)
        (by decide)).map _) rfl _
    refine decode_ofBytes_compact ⟨trivial, trivial, trivial, trivial⟩
      (fun n => by simp [orderBody, DeviceRequest.toJson]) ?_
    exact congrArg (Except.map fun r : DeviceRequest => (r.account, Order.device action r.target)) hread

end DaemonBridge.Control
