import DaemonBridge.Event.Wire
import DaemonBridge.Signal

/-!
# Signals on the wire

A signal is a JSON object that carries its kind as the member `signal`; a record of a signal is the
same object with its number as the member `seq`.
-/

namespace DaemonBridge

open Json (Value Record)

/-- A dictionary of strings as JSON. -/
def Dict.stringsToJson (d : Dict String) : Value :=
  .obj (d.entries.map fun entry => (entry.1, .str entry.2))

namespace Signal

/-- The particulars of a signal as members. -/
def members : Signal → List (String × Value)
  | .response id account message =>
    [("id", .nat id), ("pan_user", .str account), ("message", message.stringsToJson)]
  | .unverifiedDevices held => held.members
  | .verificationInvite v | .verificationDone v => v.members
  | .verificationString v emoji =>
    v.members ++ [("emoji", .arr (emoji.map fun pair => .arr [.str pair.1, .str pair.2]))]
  | .verificationCancel v reason code => v.members ++ [("reason", .str reason), ("code", .str code)]

/-- A signal as members, its kind first. -/
def taggedMembers (signal : Signal) : List (String × Value) :=
  ("signal", .str signal.kind.tag) :: signal.members

/-- A signal as JSON. -/
def toJson (signal : Signal) : Value :=
  .obj signal.taggedMembers

/-- The fields of a signal of a kind. -/
def record : SignalKind → Record Signal
  | .response =>
    (((Record.field "id" Json.uint64).and (.field "pan_user" Json.string)).and
      (.field "message" (Json.dict Json.string))).map
        fun ((id, account), message) => .response id account message
  | .unverifiedDevices => HeldMessage.record.map .unverifiedDevices
  | .verificationInvite => Verification.record.map .verificationInvite
  | .verificationString =>
    (Verification.record.and (.field "emoji" (Json.list (Json.pair Json.string Json.string)))).map
      fun (v, emoji) => .verificationString v emoji
  | .verificationCancel =>
    ((Verification.record.and (.field "reason" Json.string)).and (.field "code" Json.string)).map
      fun ((v, reason), code) => .verificationCancel v reason code
  | .verificationDone => Verification.record.map .verificationDone

/-- Signals. -/
def decoder : Json.Decoder Signal :=
  Json.tagged "signal" "internally tagged enum Signal"
    (Json.variant (SignalKind.all.map fun kind => (kind.tag, kind)) none)
    fun kind => (record kind).decoder ("struct variant Signal::" ++ kind.tag)

end Signal

namespace SignalRecord

/-- A record as JSON. -/
def toJson (record : SignalRecord) : Value :=
  .obj (("seq", .nat record.seq) :: record.signal.taggedMembers)

/-- Records of signals. -/
def decoder : Json.Decoder SignalRecord := fun source tree =>
  ((Record.field "seq" Json.uint64).decoderWith "struct SignalRecord"
    (fun members => Signal.decoder .held (.obj members .closed)) source tree).map
    fun (seq, signal) => ⟨seq, signal⟩

end SignalRecord

end DaemonBridge
