import DaemonBridge.Bridge.Link
import DaemonBridge.Proofs.Bridge.Relay
import DaemonBridge.Proofs.Control.Arrival
import DaemonBridge.Proofs.Control.Socket
import DaemonBridge.Proofs.Event.Description
import DaemonBridge.Proofs.Json.OneLine
import DaemonBridge.Proofs.Pipe.Lines

/-!
# Written events

The object that is written for an event describes that event, so that it is decoded to it, from the text
and from its bytes. With signals and their records, which are read back likewise, an answer of the worker
gets to a client who polls for it without a change (`wire_round_trip`).
-/

namespace DaemonBridge

open Json (Value Document OnlyMember membersNamed membersDepth)

/-! ## What an event's own members describe -/

/-- The members of a verification hold it. -/
theorem Verification.describedBy_members (v : Verification) : v.DescribedBy v.members := by
  constructor <;> rfl

/-- The members of a held message hold what is known of it. -/
theorem HeldMessage.describedBy_members (held : HeldMessage) : held.DescribedBy held.members := by
  constructor <;> rfl

/-- The members of an answer hold it. -/
theorem Answer.describedBy_members (answer : Answer) : answer.DescribedBy answer.members := by
  constructor <;> rfl

/-- A written symbol is one. -/
theorem Symbol.describedBy_toJson (symbol : Symbol) : symbol.DescribedBy symbol.toJson :=
  .object rfl rfl

namespace Event

/-- The members of an event hold its particulars. -/
theorem particularsIn_members (event : Event) : event.ParticularsIn event.members := by
  cases event with
  | usersChanged | devicesChanged | unrecognized => trivial
  | messageHeld held => exact held.describedBy_members
  | verificationInvited v | verificationDone v => exact v.describedBy_members
  | symbolsReady v symbols =>
    refine ⟨by constructor <;> rfl, symbols.map Symbol.toJson, rfl, ?_⟩
    rw [List.forall₂_map_left_iff]
    exact List.forall₂_same.mpr fun symbol _ => symbol.describedBy_toJson
  | verificationCanceled v reason code => exact ⟨by constructor <;> rfl, rfl, rfl⟩
  | answered answer => exact answer.describedBy_members

/-- None of them is named like the kind. -/
theorem membersNamed_type_members (event : Event) : membersNamed "type" event.members = [] := by
  cases event <;> rfl

/-- The members that are written for an event describe it. -/
theorem describedBy_toJson (event : Event) :
    event.DescribedBy (("type", .str event.kind.tag) :: event.members) where
  kind := by
    refine ⟨event.kind.tag, Json.onlyMember_cons_self_iff.mpr ⟨rfl, event.membersNamed_type_members⟩, ?_⟩
    by_cases hother : event.kind = .unrecognized
    · rw [hother]
      exact .other fun kind hne => by cases kind <;> first | decide | exact absurd rfl hne
    · exact .known hother
  particulars := by
    refine event.particularsIn_members.of_perm fun name hmem => .of_eq ?_
    have htype : "type" ≠ name := by
      rintro rfl
      revert hmem
      cases event.kind <;> decide
    exact (Json.membersNamed_cons_of_ne htype _ _).symm

/-- An event opens at most two containers inside its object. -/
theorem membersDepth_members (event : Event) : membersDepth event.members ≤ 2 := by
  cases event with
  | symbolsReady v symbols =>
    have hdepth : (Value.arr (symbols.map Symbol.toJson)).depth ≤ 2 := by
      refine Nat.succ_le_succ (Json.itemsDepth_le fun item hmem => ?_)
      obtain ⟨symbol, -, rfl⟩ := List.mem_map.mp hmem
      exact Nat.le_refl 1
    apply Json.membersDepth_le
    intro member hmem
    rcases List.mem_append.mp hmem with hmem | hmem
    · simp only [Verification.members, List.mem_cons, List.not_mem_nil, or_false] at hmem
      rcases hmem with rfl | rfl | rfl | rfl <;> exact Nat.zero_le 2
    · rw [List.mem_singleton.mp hmem]
      exact hdepth
  | _ => exact Nat.zero_le 2

/-- The numbers in an event are unsigned 64-bit integers. -/
theorem isPlain_toJson (event : Event) : event.toJson.IsPlain := by
  cases event with
  | usersChanged | devicesChanged | unrecognized => exact ⟨trivial, trivial⟩
  | messageHeld held => exact ⟨trivial, trivial, trivial, trivial, trivial⟩
  | verificationInvited v | verificationDone v =>
    exact ⟨trivial, trivial, trivial, trivial, trivial, trivial⟩
  | symbolsReady v symbols =>
    have hsymbols : (Value.arr (symbols.map Symbol.toJson)).IsPlain := by
      apply Json.arePlainItems_of_forall
      intro item hmem
      obtain ⟨symbol, -, rfl⟩ := List.mem_map.mp hmem
      exact ⟨trivial, trivial, trivial⟩
    exact ⟨trivial, trivial, trivial, trivial, trivial, hsymbols, trivial⟩
  | verificationCanceled v reason code =>
    exact ⟨trivial, trivial, trivial, trivial, trivial, trivial, trivial, trivial⟩
  | answered answer => exact ⟨trivial, ⟨answer.id, rfl⟩, trivial, trivial, trivial, trivial⟩

/-- A written event is read back. -/
theorem decoder_tree (event : Event) : decoder .document event.toJson.tree = .ok event := by
  have hdepth : membersDepth (("type", .str event.kind.tag) :: event.members) ≤ 126 :=
    Nat.max_le.mpr ⟨Nat.zero_le 126, Nat.le_trans event.membersDepth_members (by decide)⟩
  exact (decoder_obj_iff hdepth).mpr event.describedBy_toJson

end Event

/-! ## Texts -/

/-- What is read back from the tree of an object is read back from its text and from the bytes of it. -/
theorem Json.decode_compact {α : Type} {decoder : Json.Decoder α} {members : List (String × Value)} {a : α}
    (hplain : (Value.obj members).IsPlain) (h : decoder .document (Value.obj members).tree = .ok a) :
    (Document.ofChars (Value.obj members).compact).decode decoder = .ok a ∧
      (Document.ofBytes (Text.encode (Value.obj members).compact)).decode decoder = .ok a := by
  rw [Document.ofBytes_encode]
  have hread : (Document.ofChars (Value.obj members).compact).decode decoder = .ok a := by
    rw [Document.ofChars_compact _ hplain nofun, Document.decode, h]
    rfl
  exact ⟨hread, hread⟩

/-! ## The way of an answer -/

namespace Event

/-- The text of an event is a line of its own, and that line is the event. -/
theorem ofLine?_encode (event : Event) : 0x0a ∉ Text.encode event.toJson.compact ∧
    Event.ofLine? (Text.encode event.toJson.compact) = some event := by
  have hread : Event.ofBytes (Text.encode event.toJson.compact) = .ok event :=
    (Json.decode_compact event.isPlain_toJson event.decoder_tree).2
  have hcons : ∃ rest, Text.encode event.toJson.compact = 0x7b :: rest := ⟨_, rfl⟩
  obtain ⟨rest, hrest⟩ := hcons
  have hblank : ¬ (Text.encode event.toJson.compact).all Text.isAsciiBlank = true := by
    rw [hrest]
    exact fun h => absurd (List.all_eq_true.mp h 0x7b List.mem_cons_self) (by decide)
  refine ⟨(event.toJson.isOneLine_compact event.isPlain_toJson).not_mem_encode, ?_⟩
  rw [Event.ofLine?, if_neg hblank, hread]
  rfl

end Event

/-- An event on a line of its own comes out of the pipe. -/
theorem Pipe.events_step_line {p : Pipe} (hrunning : p.status = .running) (hline : p.line = [])
    {line : List UInt8} (hwhole : 0x0a ∉ line) {event : Event} (hevent : Event.ofLine? line = some event) :
    (p.step (.input (line ++ [0x0a]))).events = p.events ++ [event] := by
  rw [(Steps.input _ hrunning).eq, List.foldl_append, p.readBytes_of_not_mem hwhole, hline,
    List.append_nil, List.foldl_cons, List.foldl_nil, readByte, if_pos rfl, List.reverse_reverse]
  cases takesLine { p with line := line.reverse } line with
  | event other hsome _ heq =>
    rw [heq, Option.some.inj (hevent.symm.trans hsome)]
  | blank hnone | malformed hnone => cases hevent.symm.trans hnone

/-- A bridge that handles every event that waits announces their signals in order. -/
theorem Bridge.ticks_bus (store : Store) (count : Nat) {b : Bridge}
    (hcount : b.inbound.waiting.length = count) :
    (b.ticks store count).2.bus = b.bus.emitAll (signalsOf b.inbound.waiting) := by
  induction count generalizing b with
  | zero =>
    rw [List.length_eq_zero_iff.mp hcount]
    rfl
  | succ count ih =>
    cases hwaiting : b.inbound.waiting with
    | nil =>
      rw [hwaiting] at hcount
      exact nomatch hcount
    | cons event rest =>
      have hnext : (b.tick store true).2.inbound.waiting = rest ∧
          (b.tick store true).2.bus = b.bus.emitAll (signalsOf [event]) := by
        simp only [tick, EventQueue.next?, hwaiting, EventQueue.taskDone_waiting, handle_inbound,
          handle_bus, and_self]
      have hrest : rest.length = count := by
        rw [hwaiting] at hcount
        exact Nat.succ.inj hcount
      have hsignals : signalsOf (event :: rest) = signalsOf [event] ++ signalsOf rest :=
        signalsOf_append [event] rest
      rw [Bridge.ticks_succ, ih (hnext.1.symm ▸ hrest), hnext.1, hnext.2, hsignals, SignalBus.emitAll,
        SignalBus.emitAll, SignalBus.emitAll, List.foldl_append]

/-- A bridge that hears an event through its pipe handles it after all that wait. -/
theorem Link.bus_hear {l : Link} (hrunning : l.pipe.status = .running) (hline : l.pipe.line = [])
    (hopen : l.run.bridge.inbound.receiverOpen = true) {line : List UInt8} (hwhole : 0x0a ∉ line)
    {event : Event} (hevent : Event.ofLine? line = some event) (store : Store) :
    (l.hear store (line ++ [0x0a])).run.bridge.bus =
      l.run.bridge.bus.emitAll (signalsOf (l.run.bridge.inbound.waiting ++ [event])) := by
  have hwaiting : (l.run.bridge.receive event).inbound.waiting = l.run.bridge.inbound.waiting ++ [event] := by
    simp only [Bridge.receive, EventQueue.send, EventQueue.push, EventQueue.announce, hopen, if_true]
  simp only [Link.hear, Link.advance, Pipe.events_step_line hrunning hline hwhole hevent,
    List.drop_left, List.foldl_cons, List.foldl_nil, Run.settle, Bridge.settle]
  rw [Bridge.ticks_bus store _ rfl, hwaiting]
  rfl

/-- The last signal announced is kept under the last number. -/
theorem SignalBus.mem_records_emitAll (bus : SignalBus) (signals : List Signal) (signal : Signal) :
    ⟨(bus.emitAll (signals ++ [signal])).lastSeq, signal⟩ ∈
      (bus.emitAll (signals ++ [signal])).log.records := by
  rw [SignalBus.emitAll, List.foldl_append]
  exact List.mem_append_right _ (List.mem_singleton_self _)

/-- Whatever events, signals and records of signals hold, their compact text and the bytes of it are
decoded to what they were written for. So a text that was decoded to an event can be replaced by the one
written for it. And when the worker writes the line of an answer, be it this text or another that is
decoded to the answer, then the bridge at the other end of the pipe announces a response with the same
identifier, account, code and message, as every client reads it who polls for the signals after an earlier
one. -/
theorem wire_round_trip :
    (∀ event : Event, Event.ofChars event.toJson.compact = .ok event ∧
      Event.ofBytes (Text.encode event.toJson.compact) = .ok event) ∧
    (∀ signal : Signal,
      (Document.ofChars signal.toJson.compact).decode Signal.decoder = .ok signal ∧
        (Document.ofBytes (Text.encode signal.toJson.compact)).decode Signal.decoder = .ok signal) ∧
    (∀ record : SignalRecord,
      (Document.ofChars record.toJson.compact).decode SignalRecord.decoder = .ok record ∧
        (Document.ofBytes (Text.encode record.toJson.compact)).decode SignalRecord.decoder =
          .ok record) ∧
    (∀ (bytes : List UInt8) (event : Event), Event.ofBytes bytes = .ok event →
      Event.ofBytes (Text.encode event.toJson.compact) = Event.ofBytes bytes) ∧
    (∀ event : Event, 0x0a ∉ Text.encode event.toJson.compact ∧
      Event.ofLine? (Text.encode event.toJson.compact) = some event) ∧
    ∀ (link : Link) (line : List UInt8) (answer : Answer) (store : Store) (uptime after : UInt64)
      (socket : String), link.run.phase ≠ .over → link.pipe.status = .running → link.pipe.line = [] →
      link.run.bridge.inbound.receiverOpen = true →
      0x0a ∉ line → Event.ofLine? line = some (.answered answer) →
      let run := (link.hear store (line ++ [0x0a])).run
      after < run.bridge.bus.lastSeq →
      ∃ page message,
        (Client.Call.signals after).result socket
            (run.deliver store uptime (Client.Call.signals after).request).1 = .ok page ∧
          ⟨run.bridge.bus.lastSeq, .response answer.id answer.account message⟩ ∈ page.signals ∧
          message.entries = [("code", answer.code), ("message", answer.message)] := by
  have hevent : ∀ event : Event, Event.ofChars event.toJson.compact = .ok event ∧
      Event.ofBytes (Text.encode event.toJson.compact) = .ok event :=
    fun event => Json.decode_compact event.isPlain_toJson event.decoder_tree
  have henter : Json.Source.document.enter = .ok (.text 126) := rfl
  have hroom : (Json.Source.text 126).HasRoom 2 := by simp [Json.Source.HasRoom]
  refine ⟨hevent, fun signal => ?_, fun record => ?_, fun bytes event h => ?_, Event.ofLine?_encode, ?_⟩
  · exact Json.decode_compact ⟨trivial, signal.arePlainMembers_members⟩
      (signal.decoder_tree henter hroom)
  · exact Json.decode_compact record.isPlain_toJson (record.decoder_tree henter hroom)
  · rw [(hevent event).2, h]
  · intro link line answer store uptime after socket hphase hrunning hline hopen hwhole hanswer run hafter
    have hbus := Link.bus_hear hrunning hline hopen hwhole hanswer store
    have hstill : run.phase ≠ .over := hphase
    obtain ⟨hpage, -⟩ := Client.Call.deliver_signals store uptime hstill after
    refine ⟨_, _, hpage socket, ?_, Answer.message_entries answer.code answer.message⟩
    refine (SignalLog.mem_since_iff _ _ _).mpr ⟨?_, hafter⟩
    show (⟨run.bridge.bus.lastSeq, answer.signal⟩ : SignalRecord) ∈ run.bridge.bus.log.records
    rw [hbus, signalsOf_append]
    exact SignalBus.mem_records_emitAll _ _ answer.signal

/-- For instance, a text with blanks and a further member is replaced by the one written for its event, and
the answer to the request 7 reaches a client who polls for the first time. -/
theorem wire_round_trip_answer :
    let bytes := Text.encode "\x7b \"later\":[null], \"type\":\"update_users\"\x7d".toList
    let answer : Answer := ⟨7, "alice", "0", "ok"⟩
    let line := Text.encode (Event.answered answer).toJson.compact
    let store : Store := ⟨fun _ => .ok [], .ok [], .error (.unavailable "disk gone")⟩
    let link : Link := { run := .ofBridge (.start {} store ⟨"recorder", .ok ⟨true⟩⟩) }
    let run := (link.hear store (line ++ [0x0a])).run
    Event.ofBytes bytes = .ok .usersChanged ∧
      Event.ofBytes (Text.encode Event.usersChanged.toJson.compact) = Event.ofBytes bytes ∧
      run.bridge.bus.lastSeq = 1 ∧
      ∃ page message,
        (Client.Call.signals 0).result "bridge.sock"
            (run.deliver store 0 (Client.Call.signals 0).request).1 = .ok page ∧
          ⟨1, .response 7 "alice" message⟩ ∈ page.signals ∧
          message.entries = [("code", "0"), ("message", "ok")] := by
  intro bytes answer line store link run
  obtain ⟨-, -, -, hreplace, hline, hreach⟩ := wire_round_trip
  have hbytes : Event.ofBytes bytes = .ok .usersChanged := by rfl
  have hlast : run.bridge.bus.lastSeq = 1 := by
    rw [Link.bus_hear rfl rfl rfl (hline (.answered answer)).1 (hline (.answered answer)).2 store]
    rfl
  have hpolls := hreach link line answer store 0 0 "bridge.sock" RunPhase.noConfusion rfl rfl rfl
    (hline (.answered answer)).1 (hline (.answered answer)).2 (hlast ▸ by decide)
  exact ⟨hbytes, hreplace bytes .usersChanged hbytes, hlast, hlast ▸ hpolls⟩

end DaemonBridge
