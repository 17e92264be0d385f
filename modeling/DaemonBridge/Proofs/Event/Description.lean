import DaemonBridge.Event.Wire
import DaemonBridge.Proofs.Json.Members

/-!
# Which objects describe an event

The members of an object describe at most one event (`Event.DescribedBy`): the only member named `type`
is a string that tells the kind, and each particular of that kind is the only member of its name. This
is said without the decoder, which decodes exactly the objects that describe an event
(`Event.decoder_obj_iff`), whatever other members they have and in whatever sequence.
-/

namespace DaemonBridge

open Json (Value Record Source OnlyMember membersNamed membersDepth memberTrees)

variable {members others : List (String × Value)}

/-! ## Particulars -/

/-- The members hold a verification. -/
structure Verification.DescribedBy (members : List (String × Value)) (v : Verification) : Prop where
  account : OnlyMember members "pan_user" (.str v.account)
  user : OnlyMember members "user_id" (.str v.user)
  device : OnlyMember members "device_id" (.str v.device)
  transaction : OnlyMember members "transaction_id" (.str v.transaction)

/-- The members hold what is known of a held message. -/
structure HeldMessage.DescribedBy (members : List (String × Value)) (held : HeldMessage) : Prop where
  account : OnlyMember members "pan_user" (.str held.account)
  room : OnlyMember members "room_id" (.str held.room)
  roomName : OnlyMember members "room_display_name" (.str held.roomName)

/-- The members hold an answer. -/
structure Answer.DescribedBy (members : List (String × Value)) (answer : Answer) : Prop where
  id : OnlyMember members "message_id" (.nat answer.id)
  account : OnlyMember members "pan_user" (.str answer.account)
  code : OnlyMember members "code" (.str answer.code)
  message : OnlyMember members "message" (.str answer.message)

/-- The value is a symbol: an object with its two parts, or the array of both. -/
inductive Symbol.DescribedBy : Value → Symbol → Prop
  | object {members : List (String × Value)} {emoji description : String}
      (first : OnlyMember members "emoji" (.str emoji))
      (second : OnlyMember members "description" (.str description)) :
      DescribedBy (.obj members) ⟨emoji, description⟩
  | array (emoji description : String) :
      DescribedBy (.arr [.str emoji, .str description]) ⟨emoji, description⟩

/-- Members with the same occurrences of its fields' names hold the same verification. -/
theorem Verification.DescribedBy.of_perm {v : Verification} (h : v.DescribedBy members)
    (hperm : ∀ name ∈ ["pan_user", "user_id", "device_id", "transaction_id"],
      (membersNamed name members).Perm (membersNamed name others)) : v.DescribedBy others where
  account := h.account.of_perm (hperm _ (by decide))
  user := h.user.of_perm (hperm _ (by decide))
  device := h.device.of_perm (hperm _ (by decide))
  transaction := h.transaction.of_perm (hperm _ (by decide))

/-- Likewise what is known of a held message. -/
theorem HeldMessage.DescribedBy.of_perm {held : HeldMessage} (h : held.DescribedBy members)
    (hperm : ∀ name ∈ ["pan_user", "room_id", "room_display_name"],
      (membersNamed name members).Perm (membersNamed name others)) : held.DescribedBy others where
  account := h.account.of_perm (hperm _ (by decide))
  room := h.room.of_perm (hperm _ (by decide))
  roomName := h.roomName.of_perm (hperm _ (by decide))

/-- Likewise an answer. -/
theorem Answer.DescribedBy.of_perm {answer : Answer} (h : answer.DescribedBy members)
    (hperm : ∀ name ∈ ["message_id", "pan_user", "code", "message"],
      (membersNamed name members).Perm (membersNamed name others)) : answer.DescribedBy others where
  id := h.id.of_perm (hperm _ (by decide))
  account := h.account.of_perm (hperm _ (by decide))
  code := h.code.of_perm (hperm _ (by decide))
  message := h.message.of_perm (hperm _ (by decide))

/-- A verification is read from members that hold one. -/
theorem Verification.ofMembers_iff {source : Source} {v : Verification} :
    Verification.record.ofMembers source (memberTrees members) .closed = .ok v ↔
      v.DescribedBy members := by
  rw [Verification.record, Record.ofMembers_map_split_iff
      (fun v : Verification => (((v.account, v.user), v.device), v.transaction))
      (fun _ => rfl) (fun _ => rfl),
    Record.ofMembers_and_iff (by decide), Record.ofMembers_and_iff (by decide),
    Record.ofMembers_and_iff (by decide)]
  simp only [Record.ofMembers_string_iff]
  exact ⟨fun ⟨⟨⟨a, b⟩, c⟩, d⟩ => ⟨a, b, c, d⟩, fun ⟨a, b, c, d⟩ => ⟨⟨⟨a, b⟩, c⟩, d⟩⟩

/-- Among the members that are no fields of another record, a verification is read like among all, if it
has no field in common with that record. -/
theorem Verification.decoderWith_iff {α : Type} {r : Record α} {what : String} {a : α} {v : Verification}
    (hnew : ∀ name ∈ ["pan_user", "user_id", "device_id", "transaction_id"], name ∉ r.names) :
    r.decoderWith what Verification.ofHeld .held (Value.obj members).tree = .ok (a, v) ↔
      v.DescribedBy members ∧ r.ofMembers .held (memberTrees members) .closed = .ok a := by
  have hnamed : ∀ name ∈ ["pan_user", "user_id", "device_id", "transaction_id"],
      membersNamed name (members.filter fun member => !(member.1 ∈ r.names)) =
        membersNamed name members :=
    fun name hmem => Json.membersNamed_filter (fun name => !(name ∈ r.names))
      (by simpa using hnew name hmem)
  rw [Record.decoderWith_held_iff, Verification.ofHeld, Verification.ofMembers_iff, and_comm]
  refine and_congr_left' ⟨fun hv => hv.of_perm fun name hmem => .of_eq (hnamed name hmem),
    fun hv => hv.of_perm fun name hmem => .of_eq (hnamed name hmem).symm⟩

/-- A held message is read from members that hold what is known of it. -/
theorem HeldMessage.ofMembers_iff {source : Source} {held : HeldMessage} :
    HeldMessage.record.ofMembers source (memberTrees members) .closed = .ok held ↔
      held.DescribedBy members := by
  rw [HeldMessage.record, Record.ofMembers_map_split_iff
      (fun held : HeldMessage => ((held.account, held.room), held.roomName))
      (fun _ => rfl) (fun _ => rfl),
    Record.ofMembers_and_iff (by decide), Record.ofMembers_and_iff (by decide)]
  simp only [Record.ofMembers_string_iff]
  exact ⟨fun ⟨⟨a, b⟩, c⟩ => ⟨a, b, c⟩, fun ⟨a, b, c⟩ => ⟨⟨a, b⟩, c⟩⟩

/-- An answer is read from members that hold one. -/
theorem Answer.ofMembers_iff {source : Source} {answer : Answer} :
    Answer.record.ofMembers source (memberTrees members) .closed = .ok answer ↔
      answer.DescribedBy members := by
  rw [Answer.record, Record.ofMembers_map_split_iff
      (fun answer : Answer => (((answer.id, answer.account), answer.code), answer.message))
      (fun _ => rfl) (fun _ => rfl),
    Record.ofMembers_and_iff (by decide), Record.ofMembers_and_iff (by decide),
    Record.ofMembers_and_iff (by decide)]
  simp only [Record.ofMembers_string_iff, Record.ofMembers_uint64_iff]
  exact ⟨fun ⟨⟨⟨a, b⟩, c⟩, d⟩ => ⟨a, b, c, d⟩, fun ⟨a, b, c, d⟩ => ⟨⟨⟨a, b⟩, c⟩, d⟩⟩

/-- A symbol is decoded from a value that is one. -/
theorem Symbol.decoder_iff {value : Value} {symbol : Symbol} :
    Symbol.record.decoder "struct SasEmoji" .held value.tree = .ok symbol ↔
      symbol.DescribedBy value := by
  cases value with
  | obj members =>
    rw [Record.decoder_obj_iff rfl, Symbol.record, Record.ofMembers_map_split_iff
        (fun symbol : Symbol => (symbol.emoji, symbol.description)) (fun _ => rfl) (fun _ => rfl),
      Record.ofMembers_and_iff (by decide)]
    simp only [Record.ofMembers_string_iff]
    exact ⟨fun ⟨a, b⟩ => .object a b, fun h => by cases h with | object a b => exact ⟨a, b⟩⟩
  | arr items =>
    rw [Record.decoder_arr_held_iff, Symbol.record, Record.draw_map_split_iff
        (fun symbol : Symbol => (symbol.emoji, symbol.description)) (fun _ => rfl) (fun _ => rfl),
      Record.draw_and_iff]
    constructor
    · rintro ⟨middle, hfirst, hsecond⟩
      obtain ⟨more, rfl, rfl⟩ := Record.draw_string_iff.mp hfirst
      obtain ⟨last, rfl, hlast⟩ := Record.draw_string_iff.mp hsecond
      cases last with
      | nil => exact .array symbol.emoji symbol.description
      | cons item items => exact nomatch hlast
    · intro h
      cases h with
      | array emoji description =>
        exact ⟨Json.itemTrees [.str description], Record.draw_string_iff.mpr ⟨_, rfl, rfl⟩,
          Record.draw_string_iff.mpr ⟨[], rfl, rfl⟩⟩
  | null | bool | num | str => exact ⟨nofun, nofun⟩

/-! ## Kinds -/

/-- A name belongs to the one known kind that it is the tag of, and to `unrecognized` if there is none. -/
inductive EventKind.CalledBy : String → EventKind → Prop
  | known {kind : EventKind} (h : kind ≠ .unrecognized) : CalledBy kind.tag kind
  | other {name : String} (h : ∀ kind : EventKind, kind ≠ .unrecognized → kind.tag ≠ name) :
      CalledBy name .unrecognized

/-- The table of the kinds by their tags. -/
theorem EventKind.find?_tag (name : String) :
    (EventKind.all.map fun kind => (kind.tag, kind)).find? (fun entry => entry.1 == name) =
      (EventKind.all.find? fun kind => kind.tag == name).map fun kind => (kind.tag, kind) :=
  List.find?_map ..

/-- The kind of an event is told by a string, which names it. -/
theorem EventKind.variant_iff {room : Nat} {label : Value} {kind : EventKind} :
    Json.variant (EventKind.all.map fun kind => (kind.tag, kind)) (some .unrecognized) (.text room)
        label.tree = .ok kind ↔
      ∃ name, label = .str name ∧ kind.CalledBy name := by
  have hall : ∀ kind : EventKind, kind ∈ EventKind.all := fun kind => by cases kind <;> decide
  have htags : ∀ kind other : EventKind, kind.tag = other.tag → kind = other := by
    intro kind other h
    cases kind <;> cases other <;> first | rfl | exact absurd h (by decide)
  cases label with
  | str name =>
    simp only [Value.str.injEq, exists_eq_left', Value.tree, Json.variant, EventKind.find?_tag]
    cases hfind : EventKind.all.find? fun kind => kind.tag == name with
    | none =>
      have hnone : ∀ kind : EventKind, kind.tag ≠ name := fun kind =>
        by simpa using List.find?_eq_none.mp hfind kind (hall kind)
      constructor
      · rintro ⟨⟩
        exact .other fun kind _ => hnone kind
      · intro h
        cases h with
        | known hknown => exact absurd rfl (hnone kind)
        | other => rfl
    | some found =>
      obtain rfl : found.tag = name := by simpa using List.find?_some hfind
      constructor
      · rintro ⟨⟩
        by_cases hother : found = .unrecognized
        · subst hother
          exact .other fun kind hne htag => hne (htags kind _ htag)
        · exact .known hother
      · intro h
        generalize hname : found.tag = name at h
        cases h with
        | known => exact congrArg Except.ok (htags found kind hname)
        | other hnone =>
          by_cases hother : found = .unrecognized
          · exact congrArg Except.ok hother
          · exact absurd hname (hnone found hother)
  | num number => cases number <;> exact ⟨nofun, nofun⟩
  | null | bool | arr | obj => exact ⟨nofun, nofun⟩

/-- The names of the particulars that an object of a kind has to hold. -/
def EventKind.particulars : EventKind → List String
  | .usersChanged | .devicesChanged | .unrecognized => []
  | .messageHeld => ["pan_user", "room_id", "room_display_name"]
  | .verificationInvited | .verificationDone => ["pan_user", "user_id", "device_id", "transaction_id"]
  | .symbolsReady => ["pan_user", "user_id", "device_id", "transaction_id", "emoji"]
  | .verificationCanceled => ["pan_user", "user_id", "device_id", "transaction_id", "reason", "code"]
  | .answered => ["message_id", "pan_user", "code", "message"]

namespace Event

/-- The members hold the particulars of an event. -/
def ParticularsIn (members : List (String × Value)) : Event → Prop
  | .usersChanged | .devicesChanged | .unrecognized => True
  | .messageHeld held => held.DescribedBy members
  | .verificationInvited v | .verificationDone v => v.DescribedBy members
  | .symbolsReady v symbols => v.DescribedBy members ∧
      ∃ items, OnlyMember members "emoji" (.arr items) ∧
        List.Forall₂ (fun item (symbol : Symbol) => symbol.DescribedBy item) items symbols
  | .verificationCanceled v reason code => v.DescribedBy members ∧
      OnlyMember members "reason" (.str reason) ∧ OnlyMember members "code" (.str code)
  | .answered answer => answer.DescribedBy members

/-- The members describe an event: the only one named `type` is a string that belongs to its kind, and
its particulars are there. -/
structure DescribedBy (members : List (String × Value)) (event : Event) : Prop where
  kind : ∃ name, OnlyMember members "type" (.str name) ∧ event.kind.CalledBy name
  particulars : event.ParticularsIn members

/-- Members with the same occurrences of the names of the particulars hold the same particulars. -/
theorem ParticularsIn.of_perm {event : Event} (h : event.ParticularsIn members)
    (hperm : ∀ name ∈ event.kind.particulars,
      (membersNamed name members).Perm (membersNamed name others)) :
    event.ParticularsIn others := by
  cases event with
  | usersChanged | devicesChanged | unrecognized => trivial
  | messageHeld held => exact HeldMessage.DescribedBy.of_perm h hperm
  | verificationInvited v | verificationDone v => exact Verification.DescribedBy.of_perm h hperm
  | symbolsReady v symbols =>
    obtain ⟨hv, items, hitems, hsymbols⟩ := h
    have hnames : ∀ name ∈ EventKind.symbolsReady.particulars,
        (membersNamed name members).Perm (membersNamed name others) := hperm
    exact ⟨hv.of_perm fun name hmem => hnames name (List.mem_append_left ["emoji"] hmem), items,
      hitems.of_perm (hnames _ (by decide)), hsymbols⟩
  | verificationCanceled v reason code =>
    obtain ⟨hv, hreason, hcode⟩ := h
    have hnames : ∀ name ∈ EventKind.verificationCanceled.particulars,
        (membersNamed name members).Perm (membersNamed name others) := hperm
    exact ⟨hv.of_perm fun name hmem => hnames name (List.mem_append_left ["reason", "code"] hmem),
      hreason.of_perm (hnames _ (by decide)), hcode.of_perm (hnames _ (by decide))⟩
  | answered answer => exact Answer.DescribedBy.of_perm h hperm

/-- The members other than the tag hold the same particulars. -/
theorem particularsIn_filter_iff {keep : String → Bool} {event : Event}
    (h : ∀ name ∈ event.kind.particulars, keep name = true) :
    event.ParticularsIn (members.filter fun member => keep member.1) ↔ event.ParticularsIn members := by
  have hname : ∀ name ∈ event.kind.particulars,
      membersNamed name (members.filter fun member => keep member.1) = membersNamed name members :=
    fun name hmem => Json.membersNamed_filter keep (h name hmem)
  exact ⟨fun hin => hin.of_perm fun name hmem => .of_eq (hname name hmem),
    fun hin => hin.of_perm fun name hmem => .of_eq (hname name hmem).symm⟩

/-- What makes up the events of a kind is there if the particulars are. -/
theorem exists_particularsIn_iff {α : Type} {read : α → Prop} {make : α → Event} {kind : EventKind}
    {event : Event} (hmake : ∀ event : Event, event.kind = kind ↔ ∃ a, make a = event)
    (hread : ∀ a, read a ↔ (make a).ParticularsIn members) :
    (∃ a, read a ∧ make a = event) ↔ event.kind = kind ∧ event.ParticularsIn members := by
  rw [hmake]
  constructor
  · rintro ⟨a, ha, rfl⟩
    exact ⟨⟨a, rfl⟩, (hread a).mp ha⟩
  · rintro ⟨⟨a, rfl⟩, hin⟩
    exact ⟨a, (hread a).mpr hin, rfl⟩

/-- Symbols are read from an array of them. -/
theorem symbols_iff {value : Value} {symbols : List Symbol} :
    Json.list (Symbol.record.decoder "struct SasEmoji") .held value.tree = .ok symbols ↔
      ∃ items, value = .arr items ∧
        List.Forall₂ (fun item (symbol : Symbol) => symbol.DescribedBy item) items symbols := by
  rw [Json.list_eq_ok_iff rfl]
  simp only [Symbol.decoder_iff]

/-- The particulars of an event of a kind are decoded from members that hold them. -/
theorem contentDecoder_iff {kind : EventKind} {event : Event} :
    contentDecoder kind .held (Value.obj members).tree = .ok event ↔
      event.kind = kind ∧ event.ParticularsIn members := by
  cases kind with
  | usersChanged | devicesChanged | unrecognized =>
    rw [contentDecoder, Json.map_eq_ok_iff]
    exact exists_particularsIn_iff (fun event => by cases event <;> simp [Event.kind])
      fun _ => ⟨fun _ => trivial, fun _ => rfl⟩
  | messageHeld =>
    rw [contentDecoder, Record.decoder_obj_iff rfl, Record.ofMembers_map_iff]
    exact exists_particularsIn_iff (fun event => by cases event <;> simp [Event.kind])
      fun _ => HeldMessage.ofMembers_iff
  | verificationInvited =>
    rw [contentDecoder, Record.decoder_obj_iff rfl, Record.ofMembers_map_iff]
    exact exists_particularsIn_iff (fun event => by cases event <;> simp [Event.kind])
      fun _ => Verification.ofMembers_iff
  | verificationDone =>
    rw [contentDecoder, Record.decoder_obj_iff rfl, Record.ofMembers_map_iff]
    exact exists_particularsIn_iff (fun event => by cases event <;> simp [Event.kind])
      fun _ => Verification.ofMembers_iff
  | symbolsReady =>
    rw [contentDecoder, Json.map_eq_ok_iff]
    refine exists_particularsIn_iff (fun event => by cases event <;> simp [Event.kind]) ?_
    rintro ⟨symbols, v⟩
    rw [Verification.decoderWith_iff (by decide), Record.ofMembers_field_iff]
    refine and_congr_right' ?_
    simp only [symbols_iff]
    constructor
    · rintro ⟨_, honly, items, rfl, hsymbols⟩
      exact ⟨items, honly, hsymbols⟩
    · rintro ⟨items, honly, hsymbols⟩
      exact ⟨.arr items, honly, items, rfl, hsymbols⟩
  | verificationCanceled =>
    rw [contentDecoder, Json.map_eq_ok_iff]
    refine exists_particularsIn_iff (fun event => by cases event <;> simp [Event.kind]) ?_
    rintro ⟨⟨reason, code⟩, v⟩
    rw [Verification.decoderWith_iff (by decide), Record.ofMembers_and_iff (by decide),
      Record.ofMembers_string_iff, Record.ofMembers_string_iff]
    rfl
  | answered =>
    rw [contentDecoder, Record.decoder_obj_iff rfl, Record.ofMembers_map_iff]
    exact exists_particularsIn_iff (fun event => by cases event <;> simp [Event.kind])
      fun _ => Answer.ofMembers_iff

/-- An event is decoded from an object that describes it and no other. -/
theorem decoder_obj_iff {event : Event} (hdepth : membersDepth members ≤ 126) :
    decoder .document (Value.obj members).tree = .ok event ↔ event.DescribedBy members := by
  have htype : ∀ name ∈ event.kind.particulars, (name != "type") = true := by
    cases event.kind <;> decide
  have henter : Source.document.enter = .ok (.text 126) := rfl
  rw [decoder, Json.tagged_obj_iff henter hdepth]
  simp only [EventKind.variant_iff, contentDecoder_iff]
  constructor
  · rintro ⟨_, kind, honly, ⟨name, rfl, hcalled⟩, rfl, hin⟩
    exact ⟨⟨name, honly, hcalled⟩, (particularsIn_filter_iff htype).mp hin⟩
  · rintro ⟨⟨name, honly, hcalled⟩, hin⟩
    exact ⟨.str name, event.kind, honly, ⟨name, rfl, hcalled⟩, rfl,
      (particularsIn_filter_iff htype).mpr hin⟩

end Event

end DaemonBridge
