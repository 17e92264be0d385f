import DaemonBridge.Proofs.Json.Records
import DaemonBridge.Signal.Wire

/-!
# Written signals

A signal of any kind, and a record of it, are read back as they were written. In a record the members
of the signal stand behind its number; they are held until the kind of the signal is known.
-/

namespace DaemonBridge

open Json (Value Record Source Member)

/-- The members of a verification are read back. -/
theorem Verification.record_reads (v : Verification) (source : Source) :
    Verification.record.Reads source v.members v :=
  ((((Record.reads_field rfl).and (Record.reads_field rfl) (by decide)).and
    (Record.reads_field rfl) (by decide)).and (Record.reads_field rfl) (by decide)).map _

/-- The members of a held message are read back. -/
theorem HeldMessage.record_reads (held : HeldMessage) (source : Source) :
    HeldMessage.record.Reads source held.members held :=
  (((Record.reads_field rfl).and (Record.reads_field rfl) (by decide)).and
    (Record.reads_field rfl) (by decide)).map _

/-- A written dictionary of strings is read back. -/
theorem Dict.stringsToJson_reads (d : Dict String) :
    Json.dict Json.string .held d.stringsToJson.tree = .ok d :=
  Json.dict_tree rfl d fun _ => rfl

namespace Signal

/-- The written symbols of a verification are read back. -/
theorem emoji_reads (emoji : List (String × String)) :
    Json.list (Json.pair Json.string Json.string) .held
      (Value.ofList (fun pair => .arr [.str pair.1, .str pair.2]) emoji).tree = .ok emoji :=
  Json.list_tree rfl emoji fun _ _ => Json.pair_tree rfl rfl rfl

/-- The particulars of a signal are read back, once its kind is known. -/
theorem record_reads (signal : Signal) : (record signal.kind).Reads .held signal.members signal := by
  cases signal with
  | response id account message =>
    exact (((Record.reads_field rfl).and (Record.reads_field rfl) (by decide)).and
      (Record.reads_field message.stringsToJson_reads) (by decide)).map _
  | unverifiedDevices held => exact (held.record_reads .held).map _
  | verificationInvite v => exact (v.record_reads .held).map _
  | verificationString v emoji =>
    exact ((v.record_reads .held).and (Record.reads_field (emoji_reads emoji)) (by decide)).map _
  | verificationCancel v reason code =>
    exact (((v.record_reads .held).and (Record.reads_field rfl) (by decide)).and
      (Record.reads_field rfl) (by decide)).map _
  | verificationDone v => exact (v.record_reads .held).map _

/-- A signal's own members are not named like its kind or like a record's number. -/
theorem name_ne_of_mem_members {signal : Signal} {member : String × Value}
    (h : member ∈ signal.members) : member.1 ≠ "signal" ∧ member.1 ≠ "seq" := by
  have hfree : ∀ kind, "signal" ∉ (record kind).names ∧ "seq" ∉ (record kind).names := by
    intro kind
    cases kind <;> decide
  have hknown : member.1 ∈ (record signal.kind).names := signal.record_reads.known member h
  refine ⟨fun hname => ?_, fun hname => ?_⟩
  · exact (hfree signal.kind).1 (hname ▸ hknown)
  · exact (hfree signal.kind).2 (hname ▸ hknown)

/-- A signal opens at most two containers inside each other. -/
theorem membersDepth_members (signal : Signal) : Json.membersDepth signal.members ≤ 2 := by
  cases signal with
  | response id account message =>
    have hdepth : message.stringsToJson.depth ≤ 1 := by
      refine Nat.succ_le_succ (Json.membersDepth_le fun member hmem => ?_)
      obtain ⟨entry, -, rfl⟩ := List.mem_map.mp hmem
      exact Nat.le_refl 0
    apply Json.membersDepth_le
    intro member hmem
    simp only [members, List.mem_cons, List.not_mem_nil, or_false] at hmem
    rcases hmem with rfl | rfl | rfl
    · exact Nat.zero_le 2
    · exact Nat.zero_le 2
    · exact Nat.le_succ_of_le hdepth
  | unverifiedDevices held => exact Nat.zero_le 2
  | verificationInvite v => exact Nat.zero_le 2
  | verificationString v emoji =>
    have hdepth : (Value.arr (emoji.map fun pair => .arr [.str pair.1, .str pair.2])).depth ≤ 2 := by
      refine Nat.succ_le_succ (Json.itemsDepth_le fun item hmem => ?_)
      obtain ⟨pair, -, rfl⟩ := List.mem_map.mp hmem
      exact Nat.le_refl 1
    apply Json.membersDepth_le
    intro member hmem
    rcases List.mem_append.mp hmem with hmem | hmem
    · simp only [Verification.members, List.mem_cons, List.not_mem_nil, or_false] at hmem
      rcases hmem with rfl | rfl | rfl | rfl <;> exact Nat.zero_le 2
    · rw [List.mem_singleton.mp hmem]
      exact hdepth
  | verificationCancel v reason code => exact Nat.zero_le 2
  | verificationDone v => exact Nat.zero_le 2

/-- The numbers in a signal are unsigned 64-bit integers. -/
theorem arePlainMembers_members (signal : Signal) : Json.ArePlainMembers signal.members := by
  cases signal with
  | response id account message =>
    have hmessage : message.stringsToJson.IsPlain := by
      apply Json.arePlainMembers_of_forall
      intro member hmem
      obtain ⟨entry, -, rfl⟩ := List.mem_map.mp hmem
      trivial
    exact ⟨⟨id, rfl⟩, trivial, hmessage, trivial⟩
  | unverifiedDevices held => exact ⟨trivial, trivial, trivial, trivial⟩
  | verificationInvite v => exact ⟨trivial, trivial, trivial, trivial, trivial⟩
  | verificationString v emoji =>
    have hemoji : (Value.arr (emoji.map fun pair => .arr [.str pair.1, .str pair.2])).IsPlain := by
      apply Json.arePlainItems_of_forall
      intro item hmem
      obtain ⟨pair, -, rfl⟩ := List.mem_map.mp hmem
      exact ⟨trivial, trivial, trivial⟩
    exact ⟨trivial, trivial, trivial, trivial, hemoji, trivial⟩
  | verificationCancel v reason code =>
    exact ⟨trivial, trivial, trivial, trivial, trivial, trivial, trivial⟩
  | verificationDone v => exact ⟨trivial, trivial, trivial, trivial, trivial⟩

/-- A written signal is read back, where there is room for its members. -/
theorem decoder_tree (signal : Signal) {source inner : Source} (henter : source.enter = .ok inner)
    (hroom : inner.HasRoom 2) : decoder source signal.toJson.tree = .ok signal := by
  have hlabel : Json.variant (SignalKind.all.map fun kind => (kind.tag, kind)) none inner
      (Value.str signal.kind.tag).tree = .ok signal.kind := by
    cases signal.kind <;> rfl
  exact (Json.tagged_tree _ _ henter hlabel (fun m hmem => (name_ne_of_mem_members hmem).1)
    (hroom.of_le signal.membersDepth_members)).trans (signal.record_reads.decoder rfl _)

end Signal

namespace SignalRecord

/-- The numbers in a record are unsigned 64-bit integers. -/
theorem isPlain_toJson (record : SignalRecord) : record.toJson.IsPlain :=
  ⟨⟨record.seq, rfl⟩, trivial, record.signal.arePlainMembers_members⟩

/-- A written record is read back, where there is room for its signal. -/
theorem decoder_tree (record : SignalRecord) {source inner : Source}
    (henter : source.enter = .ok inner) (hroom : inner.HasRoom 2) :
    decoder source record.toJson.tree = .ok record := by
  have hother : ∀ m ∈ record.signal.taggedMembers, m.1 ∉ (Record.field "seq" Json.uint64).names := by
    intro m hmem hname
    have hseq : m.1 = "seq" := List.mem_singleton.mp hname
    rcases List.mem_cons.mp hmem with rfl | hmem
    · have hne : ("signal" : String) ≠ "seq" := by decide
      exact hne hseq
    · exact (Signal.name_ne_of_mem_members hmem).2 hseq
  have hdepth : Json.membersDepth record.signal.taggedMembers ≤ 2 :=
    Nat.max_le.mpr ⟨Nat.zero_le 2, record.signal.membersDepth_members⟩
  have hreads : (Record.field "seq" Json.uint64).Reads inner [("seq", .nat record.seq)] record.seq :=
    Record.reads_field rfl
  have hsignal : Signal.decoder .held record.signal.toJson.tree = .ok record.signal :=
    record.signal.decoder_tree rfl trivial
  have hwith : (Record.field "seq" Json.uint64).decoderWith "struct SignalRecord"
      (fun members => Signal.decoder .held (.obj members .closed)) source record.toJson.tree =
        .ok (record.seq, record.signal) :=
    hreads.decoderWith henter hother (hroom.of_le hdepth) hsignal _
  exact congrArg (Except.map fun read => (⟨read.1, read.2⟩ : SignalRecord)) hwith

end SignalRecord

end DaemonBridge
