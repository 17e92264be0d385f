import DaemonBridge.Proofs.Client.Inspection

/-!
# Pages read in two steps

The signals of a page are read before its number is, and the bridge may announce signals in between.
Such a page is torn: it is no picture of the log at any one moment. The statements below say exactly
when a page is torn, and exactly when a client that trusts it is led astray, in one of two ways: it
moves its cursor past a signal it was never given, or it reports signals as lost that are all still
there. Both happen only if something was announced between the readings.
-/

namespace DaemonBridge

/-- The page shows the log at one moment: its records are numbered without a gap up to the number on
the page, and without records nothing was announced after the number asked for. -/
structure Control.SignalPage.IsSnapshot (page : Control.SignalPage) (after : UInt64) : Prop where
  consecutive : page.signals.IsChain fun a b => b.seq = a.seq + 1
  last : ∀ record ∈ page.signals.getLast?, record.seq = page.lastSeq
  empty : page.signals = [] → page.lastSeq ≤ after

namespace Client

open Control (SignalPage)

/-- The client goes on, past a signal of the history that was not on the page. -/
def StepsOver (id : CommandId) (cursor : UInt64) (page : SignalPage) (history : List Signal) : Prop :=
  ∃ next, inspect id cursor page = .goOn next ∧
    ∃ record ∈ numbered history,
      cursor < record.seq ∧ record.seq ≤ next ∧ record ∉ page.signals

/-- The client reports signals as lost although the log still has every signal after its cursor. -/
def MissesRetained (id : CommandId) (cursor : UInt64) (page : SignalPage) (log : SignalLog)
    (history : List Signal) : Prop :=
  inspect id cursor page = .missed ∧
    ∀ record ∈ numbered history, cursor < record.seq → record ∈ log.records

section Torn

variable {first second : SignalLog} {before between : List Signal}

/-- The records of a page run on without a gap and end with the last signal announced before them. -/
theorem since_isChain_and_last (hfirst : first.Retains before) (hfit : before.length < UInt64.size)
    (after : UInt64) :
    ((first.since after).IsChain fun a b => b.seq = a.seq + 1) ∧
      ∀ record ∈ (first.since after).getLast?, record.seq = UInt64.ofNat before.length := by
  rw [hfirst.since_eq hfit after, numbered, drop_numberedFrom, Nat.zero_add]
  refine ⟨numberedFrom_isChain _ _, fun record hlast => ?_⟩
  rw [seq_of_mem_getLast?_numberedFrom hlast]
  have hne : (numberedFrom (max after.toNat (before.length - first.capacity))
      (before.drop (max after.toNat (before.length - first.capacity)))) ≠ [] := by
    intro hnil
    rw [hnil] at hlast
    exact absurd hlast (by simp)
  have hlen := List.length_pos_iff.mpr hne
  rw [length_numberedFrom, List.length_drop] at hlen
  rw [List.length_drop]
  congr 1
  omega

/-- A page has no records exactly when nothing was announced after the number before the reading. -/
theorem since_eq_nil_iff (hfirst : first.Retains before) (hfit : before.length < UInt64.size)
    (after : UInt64) : first.since after = [] ↔ before.length ≤ after.toNat := by
  have hpos := hfirst.capacity_pos
  rw [hfirst.since_eq hfit after, List.drop_eq_nil_iff, length_numbered]
  omega

/-- A page shows one moment exactly when nothing was announced between its two readings, or when
nothing that it could have shown was announced at all. -/
theorem isSnapshot_read_iff (hfirst : first.Retains before)
    (hsecond : second.Retains (before ++ between))
    (hfit : (before ++ between).length < UInt64.size) (after : UInt64) :
    (SignalPage.read first second after).IsSnapshot after ↔
      between = [] ∨ (before ++ between).length ≤ after.toNat := by
  have hlen : (before ++ between).length = before.length + between.length := List.length_append
  have hnumber := hsecond.toNat_lastSeq hfit
  obtain ⟨hchain, hlast⟩ := since_isChain_and_last hfirst (by omega) after
  have hnil := since_eq_nil_iff hfirst (by omega) after
  constructor
  · intro h
    by_cases hend : before.length ≤ after.toNat
    · -- The page is empty, so its number may not lie above the one asked for.
      right
      have hle := UInt64.le_iff_toNat_le.mp (h.empty (hnil.mpr hend))
      change second.lastSeq.toNat ≤ after.toNat at hle
      omega
    · -- The last record is the last signal of the first reading, so the second one saw no other.
      left
      have hne : first.since after ≠ [] := fun hempty => hend (hnil.mp hempty)
      obtain ⟨record, hrecord⟩ : ∃ record, record ∈ (first.since after).getLast? :=
        ⟨_, List.getLast?_eq_some_getLast hne⟩
      have hseq : UInt64.ofNat before.length = second.lastSeq :=
        (hlast record hrecord).symm.trans (h.last record hrecord)
      have hnat := congrArg UInt64.toNat hseq
      rw [UInt64.toNat_ofNat_of_lt' (by omega), hnumber] at hnat
      exact List.eq_nil_of_length_eq_zero (by omega)
  · rintro (rfl | hpast)
    · refine ⟨hchain, fun record hrecord => ?_, fun hempty => ?_⟩
      · rw [hlast record hrecord]
        change UInt64.ofNat before.length = second.lastSeq
        rw [hsecond.lastSeq_eq, List.append_nil]
      · have := hnil.mp hempty
        rw [List.length_nil, Nat.add_zero] at hlen
        exact UInt64.le_iff_toNat_le.mpr (by change second.lastSeq.toNat ≤ _; omega)
    · have hempty : first.since after = [] := hnil.mpr (by omega)
      refine ⟨hchain, fun record hrecord => ?_, fun _ => ?_⟩
      · change record ∈ (first.since after).getLast? at hrecord
        rw [hempty] at hrecord
        exact absurd hrecord (by simp)
      · exact UInt64.le_iff_toNat_le.mpr (by change second.lastSeq.toNat ≤ _; omega)

/-- The response is not found exactly when no record answers the command. -/
theorem find?_answersCommand_eq_none_iff (id : CommandId) (records : List SignalRecord) :
    (records.find? fun record => record.answersCommand id) = none ↔
      ∀ record ∈ records, record.answersCommand id = false := by
  simp only [List.find?_eq_none, Bool.not_eq_true]

/-- A client is led past a signal exactly when something was announced between the readings, the page
has a record but not the response, and nothing after the cursor was gone at the first reading. -/
theorem stepsOver_read_iff (hfirst : first.Retains before)
    (hsecond : second.Retains (before ++ between))
    (hfit : (before ++ between).length < UInt64.size - 1) (id : CommandId) {cursor : UInt64}
    (hcursor : cursor.toNat ≤ before.length) :
    StepsOver id cursor (SignalPage.read first second cursor) (before ++ between) ↔
      between ≠ [] ∧ before.length - first.capacity ≤ cursor.toNat ∧ cursor.toNat < before.length ∧
        ∀ record ∈ first.since cursor, record.answersCommand id = false := by
  have hlen : (before ++ between).length = before.length + between.length := List.length_append
  have hinspect := inspect_read hfirst hsecond hfit id hcursor
  rw [← find?_answersCommand_eq_none_iff]
  constructor
  · rintro ⟨next, hnext, record, hmem, hafter, hle, hnot⟩
    rw [hinspect] at hnext
    split at hnext
    · contradiction
    · next hnone =>
      split at hnext
      · contradiction
      · next hkept =>
        push Not at hkept
        obtain ⟨hkept, hmore⟩ := hkept
        have hbetween : between ≠ [] := by
          rintro rfl
          rw [List.append_nil] at hmem
          refine hnot ((SignalLog.mem_since_iff _ _ _).mpr ⟨?_, hafter⟩)
          rw [hfirst.mem_records_iff (by omega) hmem]
          have := UInt64.lt_iff_toNat_lt.mp hafter
          omega
        have hend : cursor.toNat ≠ before.length := fun h => hbetween (hmore h)
        exact ⟨hbetween, hkept, by omega, hnone⟩
  · rintro ⟨hbetween, hkept, hlt, hnone⟩
    refine ⟨second.lastSeq, ?_, ?_⟩
    · rw [hinspect, hnone]
      have hgoes : ¬ (cursor.toNat < before.length - first.capacity ∨
          (cursor.toNat = before.length ∧ between ≠ [])) := by omega
      simp only [if_neg hgoes]
    · -- The first signal between the readings lies between the cursor and the number on the page.
      have hpos := List.length_pos_iff.mpr hbetween
      obtain ⟨rest, hrest⟩ := drop_numbered_eq_cons (before ++ between)
        (by omega : before.length < (before ++ between).length)
      have hnat : (UInt64.ofNat (before.length + 1)).toNat = before.length + 1 :=
        UInt64.toNat_ofNat_of_lt' (by omega)
      refine ⟨_, List.mem_of_mem_drop (hrest ▸ List.mem_cons_self), ?_, ?_, fun hshown => ?_⟩
      · exact UInt64.lt_iff_toNat_lt.mpr (by simp only [hnat]; omega)
      · exact UInt64.le_iff_toNat_le.mpr (by
          simp only [hnat, hsecond.toNat_lastSeq (by omega)]
          omega)
      · have hold := hfirst.mem_numbered ((SignalLog.mem_since_iff _ _ _).mp hshown).1
        have := (seq_of_mem_numbered (by omega) hold).2
        simp only [hnat] at this
        omega

/-- A client reports retained signals as lost exactly when it had seen everything at the first
reading and what was announced between the readings still fits into the log. -/
theorem missesRetained_read_iff (hfirst : first.Retains before)
    (hsecond : second.Retains (before ++ between)) (hcapacity : second.capacity = first.capacity)
    (hfit : (before ++ between).length < UInt64.size - 1) (id : CommandId) {cursor : UInt64}
    (hcursor : cursor.toNat ≤ before.length) :
    MissesRetained id cursor (SignalPage.read first second cursor) second (before ++ between) ↔
      between ≠ [] ∧ cursor.toNat = before.length ∧ between.length ≤ first.capacity := by
  have hlen : (before ++ between).length = before.length + between.length := List.length_append
  have hinspect := inspect_read hfirst hsecond hfit id hcursor
  have hretained : (∀ record ∈ numbered (before ++ between),
      cursor < record.seq → record ∈ second.records) ↔
        (before ++ between).length - second.capacity ≤ cursor.toNat := by
    rw [← not_lt, ← hsecond.exists_evicted_iff (by omega)]
    push Not
    rfl
  rw [MissesRetained, hretained, hinspect]
  constructor
  · rintro ⟨hmissed, hkept⟩
    split at hmissed
    · contradiction
    · split at hmissed
      · next hgone =>
        have hend : cursor.toNat = before.length ∧ between ≠ [] := hgone.resolve_left (by omega)
        exact ⟨hend.2, hend.1, by omega⟩
      · contradiction
  · rintro ⟨hbetween, hend, hroom⟩
    have hempty : first.since cursor = [] := (since_eq_nil_iff hfirst (by omega) cursor).mpr (by omega)
    refine ⟨?_, by omega⟩
    rw [hempty, List.find?_nil]
    exact if_pos (Or.inr ⟨hend, hbetween⟩)

end Torn

/-- A page is a picture of one moment exactly when no signal was announced between its two readings,
unless every signal is numbered below what was asked for. A client that has come no further than the
signals of the first reading is led past a signal, or told that retained signals are lost, exactly
under the conditions stated, of which the first is that a signal was announced between the readings. -/
theorem signalPage_torn_iff (capacity : Nat) (before between : List Signal) (after : UInt64)
    (id : CommandId) (hfit : (before ++ between).length < UInt64.size - 1) :
    let first := (SignalLog.ofCapacity capacity).announceAll before
    let second := first.announceAll between
    let page := SignalPage.read first second after
    (page.IsSnapshot after ↔ between = [] ∨ (before ++ between).length ≤ after.toNat) ∧
      (after.toNat ≤ before.length →
        (StepsOver id after page (before ++ between) ↔
          between ≠ [] ∧ before.length - max capacity 1 ≤ after.toNat ∧
            after.toNat < before.length ∧
            ∀ record ∈ page.signals, record.answersCommand id = false) ∧
        (MissesRetained id after page second (before ++ between) ↔
          between ≠ [] ∧ after.toNat = before.length ∧ between.length ≤ max capacity 1)) := by
  intro first second page
  have hfirst : first.Retains before := SignalLog.retains_announceAll capacity before
  have hsecond : second.Retains (before ++ between) := hfirst.announceAll between
  have hcapacity : first.capacity = max capacity 1 := SignalLog.announceAll_capacity _ _
  have hsame : second.capacity = first.capacity := SignalLog.announceAll_capacity _ _
  refine ⟨isSnapshot_read_iff hfirst hsecond (by omega) after, fun hafter => ⟨?_, ?_⟩⟩
  · rw [← hcapacity]
    exact stepsOver_read_iff hfirst hsecond hfit id hafter
  · rw [← hcapacity]
    exact missesRetained_read_iff hfirst hsecond hsame hfit id hafter

/-- A client asks for the signals after none, and the response to its command is announced between the
two readings: the page is no snapshot, and the client reports the response as lost although the log
has it. -/
theorem signalPage_torn_on_response :
    let response := Answer.signal ⟨0, "alice", "0", "ok"⟩
    let second := (SignalLog.ofCapacity 2).announceAll [response]
    let page := SignalPage.read (SignalLog.ofCapacity 2) second 0
    ¬ page.IsSnapshot 0 ∧ MissesRetained 0 0 page second [response] := by
  intro response second page
  have h := signalPage_torn_iff 2 [] [response] 0 0 (by decide)
  refine ⟨fun hsnapshot => ?_, (h.2 (by decide)).2.mpr (by decide)⟩
  exact absurd (h.1.mp hsnapshot) (by decide)

end Client

end DaemonBridge
