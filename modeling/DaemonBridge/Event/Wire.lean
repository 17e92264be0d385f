import DaemonBridge.Event
import DaemonBridge.Json.Reader
import DaemonBridge.Json.Tagged
import DaemonBridge.Json.Value

/-!
# Events on the wire

An event is a JSON object that carries its kind as the member `type`. The verification that a string
of symbols or a cancellation belongs to is spread over the same object as their own members.
-/

namespace DaemonBridge

open Json (Value Record Source Member DecodeError)

/-- The fields of a verification. -/
def Verification.record : Record Verification :=
  ((((Record.field "pan_user" Json.string).and (.field "user_id" Json.string)).and
    (.field "device_id" Json.string)).and (.field "transaction_id" Json.string)).map
    fun (((account, user), device), transaction) => ⟨account, user, device, transaction⟩

/-- A verification as members. -/
def Verification.members (v : Verification) : List (String × Value) :=
  [("pan_user", .str v.account), ("user_id", .str v.user), ("device_id", .str v.device),
    ("transaction_id", .str v.transaction)]

/-- The verification spread over an object among members that were held. -/
def Verification.ofHeld (members : List Member) : Except DecodeError Verification :=
  Verification.record.ofMembers .held members .closed

/-- The fields of a symbol. -/
def Symbol.record : Record Symbol :=
  ((Record.field "emoji" Json.string).and (.field "description" Json.string)).map
    fun (emoji, description) => ⟨emoji, description⟩

/-- A symbol as JSON. -/
def Symbol.toJson (s : Symbol) : Value :=
  .obj [("emoji", .str s.emoji), ("description", .str s.description)]

/-- The fields of a held message. -/
def HeldMessage.record : Record HeldMessage :=
  (((Record.field "pan_user" Json.string).and (.field "room_id" Json.string)).and
    (.field "room_display_name" Json.string)).map
      fun ((account, room), roomName) => ⟨account, room, roomName⟩

/-- A held message as members. -/
def HeldMessage.members (held : HeldMessage) : List (String × Value) :=
  [("pan_user", .str held.account), ("room_id", .str held.room), ("room_display_name", .str held.roomName)]

/-- The fields of an answer. -/
def Answer.record : Record Answer :=
  ((((Record.field "message_id" Json.uint64).and (.field "pan_user" Json.string)).and
    (.field "code" Json.string)).and (.field "message" Json.string)).map
    fun (((id, account), code), message) => ⟨id, account, code, message⟩

/-- An answer as members. -/
def Answer.members (a : Answer) : List (String × Value) :=
  [("message_id", .nat a.id), ("pan_user", .str a.account), ("code", .str a.code),
    ("message", .str a.message)]

namespace Event

/-- The particulars of an event as members. -/
def members : Event → List (String × Value)
  | .usersChanged | .devicesChanged | .unrecognized => []
  | .messageHeld held => held.members
  | .verificationInvited v | .verificationDone v => v.members
  | .symbolsReady v symbols => v.members ++ [("emoji", .arr (symbols.map Symbol.toJson))]
  | .verificationCanceled v reason code => v.members ++ [("reason", .str reason), ("code", .str code)]
  | .answered answer => answer.members

/-- An event as JSON. -/
def toJson (event : Event) : Value :=
  .obj (("type", .str event.kind.tag) :: event.members)

/-- The particulars of an event of a kind. -/
def contentDecoder : EventKind → Json.Decoder Event
  | .usersChanged => fun source tree => (Json.unit source tree).map fun _ => .usersChanged
  | .devicesChanged => fun source tree => (Json.unit source tree).map fun _ => .devicesChanged
  | .unrecognized => fun source tree => (Json.unit source tree).map fun _ => .unrecognized
  | .messageHeld => (HeldMessage.record.map Event.messageHeld).decoder "struct UnverifiedDevices"
  | .verificationInvited =>
    (Verification.record.map Event.verificationInvited).decoder "struct SasTransaction"
  | .verificationDone => (Verification.record.map Event.verificationDone).decoder "struct SasTransaction"
  | .symbolsReady => fun source tree =>
    ((Record.field "emoji" (Json.list (Symbol.record.decoder "struct SasEmoji"))).decoderWith "struct ShowSas"
      Verification.ofHeld source tree).map fun (symbols, v) => .symbolsReady v symbols
  | .verificationCanceled => fun source tree =>
    (((Record.field "reason" Json.string).and (.field "code" Json.string)).decoderWith "struct SasCanceled"
      Verification.ofHeld source tree).map fun ((reason, code), v) => .verificationCanceled v reason code
  | .answered => (Answer.record.map Event.answered).decoder "struct DaemonResponse"

/-- Events. A kind that is not known makes the event `unrecognized`. -/
def decoder : Json.Decoder Event :=
  Json.tagged "type" "internally tagged enum Event"
    (Json.variant (EventKind.all.map fun kind => (kind.tag, kind)) (some .unrecognized)) contentDecoder

/-- Decode an event from the bytes of its JSON text. -/
def ofBytes (bytes : List UInt8) : Except DecodeError Event :=
  (Json.Document.ofBytes bytes).decode decoder

/-- Decode an event from its JSON text. -/
def ofChars (text : List Char) : Except DecodeError Event :=
  (Json.Document.ofChars text).decode decoder

end Event

end DaemonBridge
