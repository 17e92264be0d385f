import DaemonBridge.Command.Wire
import DaemonBridge.Proofs.Json.OneLine
import DaemonBridge.Proofs.Json.Records

/-!
# Written commands

A command of any kind is read back as it was written, whatever its strings hold, and its text is a single
line.
-/

namespace DaemonBridge

open Json (Value Record Source Document)

namespace Order

/-- The particulars of an order are read back, once its kind is known. -/
theorem contentDecoder_tree (order : Order) :
    contentDecoder order.kind .held (Value.obj order.members).tree = .ok order := by
  cases order with
  | keys transfer file =>
    have hreads : KeyFile.record.Reads .held (keys transfer file).members file :=
      ((Record.reads_field rfl).and (Record.reads_field rfl) (by decide)).map _
    exact (hreads.map (keys transfer)).decoder rfl
      ("struct variant CommandKind::" ++ (OrderKind.keys transfer).title)
  | room decision roomId =>
    have hreads : (Record.field "room_id" Json.string).Reads .held (room decision roomId).members roomId :=
      Record.reads_field rfl
    exact (hreads.map (room decision)).decoder rfl
      ("struct variant CommandKind::" ++ (OrderKind.room decision).title)
  | device action target =>
    have hreads : DeviceAddress.record.Reads .held (device action target).members target :=
      ((Record.reads_field rfl).and (Record.reads_field rfl) (by decide)).map _
    exact (hreads.map (device action)).decoder rfl "struct DeviceTarget"

/-- An order's own members are strings, and none is named like its kind. -/
theorem of_mem_members {order : Order} {member : String × Value} (h : member ∈ order.members) :
    member.1 ≠ "type" ∧ ∃ text, member.2 = .str text := by
  cases order <;>
    · simp only [members, List.mem_cons, List.not_mem_nil, or_false] at h
      rcases h with rfl | rfl <;> exact ⟨by simp, _, rfl⟩

/-- A written order is read back. -/
theorem decoder_tree (order : Order) {source inner : Source} (henter : source.enter = .ok inner) :
    decoder source order.toJson.tree = .ok order := by
  have hlabel : Json.variant (OrderKind.all.map fun kind => (kind.tag, kind)) none inner
      (Value.str order.kind.tag).tree = .ok order.kind := by
    rcases order.kind with (_ | _) | (_ | _) | (_ | _ | _ | _ | _ | _ | _ | _) <;> rfl
  have hflat : Json.membersDepth order.members ≤ 0 := by
    refine Json.membersDepth_le fun member hmem => ?_
    obtain ⟨-, text, htext⟩ := of_mem_members hmem
    rw [htext]
    exact Nat.le_refl 0
  have hroom : inner.HasRoom 0 := by
    cases inner with
    | text room => exact Nat.zero_le room
    | held | table => trivial
  exact (Json.tagged_tree _ _ henter hlabel (fun m hmem => (of_mem_members hmem).1)
    (hroom.of_le hflat)).trans
    order.contentDecoder_tree

end Order

namespace Command

/-- The text of a command holds no numbers but its identifier. -/
theorem isPlain_toJson (command : Command) : command.toJson.IsPlain := by
  refine ⟨⟨command.id, rfl⟩, trivial, ⟨trivial, ?_⟩, trivial⟩
  refine Json.arePlainMembers_of_forall fun member hmem => ?_
  obtain ⟨-, text, htext⟩ := Order.of_mem_members hmem
  rw [htext]
  trivial

/-- A written command is read back. -/
theorem decode_toJson (command : Command) :
    (Document.ofBytes (Text.encode command.toJson.compact)).decode decoder = .ok command := by
  have hread : decoder .document command.toJson.tree = .ok command :=
    Record.Reads.decoder ((((Record.reads_field rfl).and (Record.reads_field rfl) (by decide)).and
      (Record.reads_field (command.order.decoder_tree rfl)) (by decide)).map _) rfl _
  exact Json.decode_ofBytes_compact command.isPlain_toJson (fun n => by simp [toJson]) hread

/-- The text of a command is one line, whatever its strings hold. -/
theorem isOneLine_compact (command : Command) : Text.IsOneLine command.toJson.compact :=
  command.toJson.isOneLine_compact command.isPlain_toJson

end Command

end DaemonBridge
