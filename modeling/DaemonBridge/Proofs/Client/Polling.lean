import DaemonBridge.Proofs.Client.Exchange
import DaemonBridge.Proofs.Client.Inspected
import DaemonBridge.Proofs.Control.Socket

/-!
# The polls of a waiting client

A client waits for the response to a command while signals are announced before each of its polls. The
invariant of the polls is what the client has inspected (`Waiting`). A poll then ends the waiting with
the oldest response that the log has kept, or because a signal after the cursor is gone, or moves the
cursor to the last signal there is.
-/

namespace DaemonBridge

namespace Client

/-- What has been announced before a poll, if some signals are announced before each. -/
def announcedBy (bursts : Nat → List Signal) : Nat → List Signal
  | 0 => bursts 0
  | poll + 1 => announcedBy bursts poll ++ bursts (poll + 1)

/-- The log from which a poll is answered. -/
def logAt (capacity : Nat) (bursts : Nat → List Signal) (poll : Nat) : SignalLog :=
  ((SignalBus.ofCapacity capacity).emitAll (announcedBy bursts poll)).log

/-- The number after which a poll asks for signals: at first the one that the client began with, and
then that of the last signal at the poll before. -/
def cursorAt (capacity : Nat) (bursts : Nat → List Signal) (after : UInt64) : Nat → UInt64
  | 0 => after
  | poll + 1 => (logAt capacity bursts poll).lastSeq

/-- The pages of the polls before this one. -/
def pagesBefore (capacity : Nat) (bursts : Nat → List Signal) (after : UInt64) (poll : Nat) :
    List (List SignalRecord) :=
  (List.range poll).map fun earlier =>
    (logAt capacity bursts earlier).since (cursorAt capacity bursts after earlier)

/-- The bridge at the time of each poll: it runs, and what it has announced is what the bursts so far
make up. -/
structure PolledRuns (capacity : Nat) (bursts : Nat → List Signal) (polls : Nat) (runs : Nat → Run) :
    Prop where
  serving : ∀ poll < polls, (runs poll).phase ≠ .over
  log_eq : ∀ poll < polls, (runs poll).bridge.bus.log = logAt capacity bursts poll
  fits : ∀ poll < polls, (announcedBy bursts poll).length < UInt64.size - 1

/-- A client that waits for a response, before a poll. -/
def waitAt (socket : String) (id : CommandId) (after : UInt64) (milliseconds : Nat) (runs : Nat → Run)
    (stores : Nat → Store) (uptimes : Nat → UInt64) (poll : Nat) :
    Dialogue (Except ClientError SignalRecord) :=
  (awaitResponse socket id after milliseconds).exchanges
    (fun poll request => ((runs poll).deliver (stores poll) (uptimes poll) request).1) poll

section Run

variable {capacity milliseconds : Nat} {bursts : Nat → List Signal} {runs : Nat → Run}
  {stores : Nat → Store} {uptimes : Nat → UInt64} {socket : String} {id : CommandId} {after : UInt64}

/-- The log of a poll retains what was announced before it. -/
theorem retains_logAt (capacity : Nat) (bursts : Nat → List Signal) (poll : Nat) :
    (logAt capacity bursts poll).Retains (announcedBy bursts poll) :=
  SignalBus.retains_emitAll capacity (announcedBy bursts poll)

/-- Where a client stands before a poll that it makes. -/
structure Waiting (socket : String) (id : CommandId) (after : UInt64) (milliseconds capacity : Nat)
    (bursts : Nat → List Signal) (poll : Nat) (dialogue : Dialogue (Except ClientError SignalRecord)) :
    Prop where
  dialogue_eq : dialogue = pollResponse socket id milliseconds (pollsWithin milliseconds - poll)
    (cursorAt capacity bursts after poll)
  after_le : after ≤ cursorAt capacity bursts after poll
  cursor_le : (cursorAt capacity bursts after poll).toNat ≤ (announcedBy bursts poll).length
  inspected : Inspected id after (cursorAt capacity bursts after poll)
    (pagesBefore capacity bursts after poll) (announcedBy bursts poll)

/-- A poll brings a client to what it does with the page of the moment. -/
theorem Waiting.exchange (hruns : PolledRuns capacity bursts (pollsWithin milliseconds) runs)
    {poll : Nat} (hpoll : poll < pollsWithin milliseconds)
    (h : Waiting socket id after milliseconds capacity bursts poll
      (waitAt socket id after milliseconds runs stores uptimes poll)) :
    waitAt socket id after milliseconds runs stores uptimes (poll + 1) =
      afterPage socket id milliseconds (pollsWithin milliseconds - (poll + 1))
        (cursorAt capacity bursts after poll)
        (inspect id (cursorAt capacity bursts after poll)
          (.read (logAt capacity bursts poll) (logAt capacity bursts poll)
            (cursorAt capacity bursts after poll))) := by
  have hleft : pollsWithin milliseconds - poll = pollsWithin milliseconds - (poll + 1) + 1 := by omega
  have hpage := (Call.deliver_signals (stores poll) (uptimes poll) (hruns.serving poll hpoll)
    (cursorAt capacity bursts after poll)).1 socket
  rw [hruns.log_eq poll hpoll] at hpage
  have hstep : waitAt socket id after milliseconds runs stores uptimes (poll + 1) =
      (waitAt socket id after milliseconds runs stores uptimes poll).exchange
        fun request => ((runs poll).deliver (stores poll) (uptimes poll) request).1 := rfl
  rw [hstep, h.dialogue_eq, Dialogue.exchange, request?_pollResponse, hleft]
  exact hear_pollResponse hpage _

/-- What a client learns from the page of a poll. -/
theorem Waiting.inspect_eq (hruns : PolledRuns capacity bursts (pollsWithin milliseconds) runs)
    {poll : Nat} (hpoll : poll < pollsWithin milliseconds)
    {dialogue : Dialogue (Except ClientError SignalRecord)}
    (h : Waiting socket id after milliseconds capacity bursts poll dialogue) :
    inspect id (cursorAt capacity bursts after poll)
        (.read (logAt capacity bursts poll) (logAt capacity bursts poll)
          (cursorAt capacity bursts after poll)) =
      match ((logAt capacity bursts poll).since (cursorAt capacity bursts after poll)).find?
          fun record => record.answersCommand id with
      | some record => .found record
      | none =>
        if (cursorAt capacity bursts after poll).toNat <
            (announcedBy bursts poll).length - (logAt capacity bursts poll).capacity then .missed
        else .goOn (cursorAt capacity bursts after (poll + 1)) :=
  inspect_read_self (retains_logAt capacity bursts poll) (hruns.fits poll hpoll) id h.cursor_le

/-- A response that the log has kept comes after the cursor if it comes after the number that the client
began with. -/
theorem Waiting.firstResponse_iff {poll : Nat} {dialogue : Dialogue (Except ClientError SignalRecord)}
    (h : Waiting socket id after milliseconds capacity bursts poll dialogue) (record : SignalRecord) :
    (logAt capacity bursts poll).FirstResponse id (cursorAt capacity bursts after poll) record ↔
      (logAt capacity bursts poll).FirstResponse id after record := by
  have hbehind : ∀ other ∈ (logAt capacity bursts poll).records, after < other.seq →
      other.signal.answers? = some id → cursorAt capacity bursts after poll < other.seq := by
    intro other hmem hlt hanswers
    by_contra hnot
    have hin : other ∈ (pagesBefore capacity bursts after poll).flatten := by
      rw [h.inspected.flatten_eq, List.mem_filter, decide_eq_true hlt,
        decide_eq_true (UInt64.not_lt.mp hnot)]
      exact ⟨(retains_logAt capacity bursts poll).mem_numbered hmem, rfl⟩
    exact h.inspected.unanswered other hin hanswers
  constructor
  · intro hfirst
    exact ⟨hfirst.mem, UInt64.lt_of_le_of_lt h.after_le hfirst.after_lt, hfirst.answers,
      fun other hmem hlt hanswers =>
        hfirst.lowest other hmem (hbehind other hmem hlt hanswers) hanswers⟩
  · intro hfirst
    exact ⟨hfirst.mem, hbehind record hfirst.mem hfirst.after_lt hfirst.answers, hfirst.answers,
      fun other hmem hlt hanswers =>
        hfirst.lowest other hmem (UInt64.lt_of_le_of_lt h.after_le hlt) hanswers⟩

/-- What is found on the page of a poll is the first response that the log has kept. -/
theorem Waiting.find?_eq_some_iff (hruns : PolledRuns capacity bursts (pollsWithin milliseconds) runs)
    {poll : Nat} (hpoll : poll < pollsWithin milliseconds)
    {dialogue : Dialogue (Except ClientError SignalRecord)}
    (h : Waiting socket id after milliseconds capacity bursts poll dialogue) (record : SignalRecord) :
    (((logAt capacity bursts poll).since (cursorAt capacity bursts after poll)).find?
        fun r => r.answersCommand id) = some record ↔
      (logAt capacity bursts poll).FirstResponse id after record := by
  have hfit := hruns.fits poll hpoll
  rw [(retains_logAt capacity bursts poll).find?_since_eq_some_iff (by omega)]
  exact h.firstResponse_iff record

/-- A poll ends with the first response that the log has kept; without one it ends because a signal is
lost, or the client goes on as long as it has time. -/
theorem Waiting.outcome (hruns : PolledRuns capacity bursts (pollsWithin milliseconds) runs)
    {poll : Nat} (hpoll : poll < pollsWithin milliseconds)
    (h : Waiting socket id after milliseconds capacity bursts poll
      (waitAt socket id after milliseconds runs stores uptimes poll)) :
    (∃ found, (logAt capacity bursts poll).FirstResponse id after found ∧
        waitAt socket id after milliseconds runs stores uptimes (poll + 1) = .done (.ok found)) ∨
      (∀ record, ¬ (logAt capacity bursts poll).FirstResponse id after record) ∧
        ((logAt capacity bursts poll).HasLost (announcedBy bursts poll) id
              (cursorAt capacity bursts after poll) ∧
            waitAt socket id after milliseconds runs stores uptimes (poll + 1) =
              .done (.error (.missed id (cursorAt capacity bursts after poll))) ∨
          ¬ (logAt capacity bursts poll).HasLost (announcedBy bursts poll) id
              (cursorAt capacity bursts after poll) ∧
            waitAt socket id after milliseconds runs stores uptimes (poll + 1) =
              if poll + 1 < pollsWithin milliseconds then
                pollResponse socket id milliseconds (pollsWithin milliseconds - (poll + 1))
                  (cursorAt capacity bursts after (poll + 1))
              else .done (.error (.timeout id milliseconds))) := by
  have hfit := hruns.fits poll hpoll
  have hlost := (retains_logAt capacity bursts poll).hasLost_iff (by omega) id
    (cursorAt capacity bursts after poll)
  have hfound := h.find?_eq_some_iff hruns hpoll
  have hexchange := h.exchange hruns hpoll
  rw [h.inspect_eq hruns hpoll] at hexchange
  cases hfind : ((logAt capacity bursts poll).since (cursorAt capacity bursts after poll)).find?
      fun record => record.answersCommand id with
  | some found =>
    left
    rw [hfind] at hexchange
    exact ⟨found, (hfound found).mp hfind, hexchange⟩
  | none =>
    right
    rw [hfind] at hexchange hlost
    have hnot : ∀ record, ¬ (logAt capacity bursts poll).FirstResponse id after record := by
      intro record hrecord
      rw [(hfound record).mpr hrecord] at hfind
      cases hfind
    by_cases hgone : (cursorAt capacity bursts after poll).toNat <
        (announcedBy bursts poll).length - (logAt capacity bursts poll).capacity
    · simp only [if_pos hgone] at hexchange
      exact ⟨hnot, .inl ⟨hlost.mpr ⟨rfl, hgone⟩, hexchange⟩⟩
    · simp only [if_neg hgone] at hexchange
      refine ⟨hnot, .inr ⟨fun h => hgone (hlost.mp h).2, ?_⟩⟩
      rw [hexchange, afterPage]
      by_cases hleft : poll + 1 < pollsWithin milliseconds
      · rw [if_neg (by omega), if_pos hleft]
      · rw [if_pos (by omega), if_neg hleft]

/-- A client that has learnt nothing from a poll makes the next one. -/
theorem Waiting.next (hruns : PolledRuns capacity bursts (pollsWithin milliseconds) runs)
    {poll : Nat} (hpoll : poll + 1 < pollsWithin milliseconds)
    {dialogue next : Dialogue (Except ClientError SignalRecord)}
    (h : Waiting socket id after milliseconds capacity bursts poll dialogue)
    (hnot : ∀ record, ¬ (logAt capacity bursts poll).FirstResponse id after record)
    (hkept : ¬ (logAt capacity bursts poll).HasLost (announcedBy bursts poll) id
      (cursorAt capacity bursts after poll))
    (hnext : next = pollResponse socket id milliseconds (pollsWithin milliseconds - (poll + 1))
      (cursorAt capacity bursts after (poll + 1))) :
    Waiting socket id after milliseconds capacity bursts (poll + 1) next := by
  have hlog := retains_logAt capacity bursts poll
  have hfit := hruns.fits poll (by omega)
  have hfitNext : (announcedBy bursts poll ++ bursts (poll + 1)).length < UInt64.size := by
    have hnext := hruns.fits (poll + 1) hpoll
    rw [announcedBy] at hnext
    omega
  have hlast : (cursorAt capacity bursts after (poll + 1)).toNat = (announcedBy bursts poll).length :=
    hlog.toNat_lastSeq (by omega)
  have hle : cursorAt capacity bursts after poll ≤ cursorAt capacity bursts after (poll + 1) := by
    have hcursor := h.cursor_le
    exact UInt64.le_iff_toNat_le.mpr (by omega)
  have hnone : (((logAt capacity bursts poll).since (cursorAt capacity bursts after poll)).find?
      fun record => record.answersCommand id) = none :=
    Option.eq_none_iff_forall_ne_some.mpr fun record hrecord =>
      hnot record ((h.find?_eq_some_iff hruns (by omega) record).mp hrecord)
  have hretained : (announcedBy bursts poll).length - (logAt capacity bursts poll).capacity ≤
      (cursorAt capacity bursts after poll).toNat := by
    by_contra hgone
    exact hkept ((hlog.hasLost_iff (by omega) id _).mpr ⟨hnone, Nat.lt_of_not_le hgone⟩)
  refine ⟨hnext, UInt64.le_trans h.after_le hle, ?_, ?_⟩
  · rw [hlast, announcedBy, List.length_append]
    omega
  · have hpages : pagesBefore capacity bursts after (poll + 1) =
        pagesBefore capacity bursts after poll ++
          [(logAt capacity bursts poll).since (cursorAt capacity bursts after poll)] := by
      rw [pagesBefore, pagesBefore, List.range_succ, List.map_append, List.map_singleton]
    have hunanswered : ∀ record ∈ (logAt capacity bursts poll).since
        (cursorAt capacity bursts after poll), record.signal.answers? ≠ some id := by
      intro record hmem hanswers
      exact List.find?_eq_none.mp hnone record hmem ((record.answersCommand_iff id).mpr hanswers)
    rw [hpages]
    exact h.inspected.poll hlog hfitNext h.after_le h.cursor_le hretained hunanswered

/-- The first poll asks for the signals after the number that the client began with. -/
theorem waiting_zero (hruns : PolledRuns capacity bursts (pollsWithin milliseconds) runs)
    (hpoll : 0 < pollsWithin milliseconds) (hafter : after ≤ (logAt capacity bursts 0).lastSeq) :
    Waiting socket id after milliseconds capacity bursts 0
      (waitAt socket id after milliseconds runs stores uptimes 0) := by
  have hfit := hruns.fits 0 hpoll
  have hlast := (retains_logAt capacity bursts 0).toNat_lastSeq (by omega)
  have hnumbers := UInt64.le_iff_toNat_le.mp hafter
  refine ⟨awake_pollResponse _, UInt64.le_refl after, ?_, .start (by omega)⟩
  change after.toNat ≤ _
  omega

/-- A client that makes a poll stands where the polls before have brought it. -/
theorem waiting_of_request? (hruns : PolledRuns capacity bursts (pollsWithin milliseconds) runs)
    (hafter : after ≤ (logAt capacity bursts 0).lastSeq) {poll : Nat}
    (hpoll : poll < pollsWithin milliseconds)
    (hmade : (waitAt socket id after milliseconds runs stores uptimes poll).request? ≠ none) :
    Waiting socket id after milliseconds capacity bursts poll
      (waitAt socket id after milliseconds runs stores uptimes poll) := by
  induction poll with
  | zero => exact waiting_zero hruns hpoll hafter
  | succ poll ih =>
    have hbefore : (waitAt socket id after milliseconds runs stores uptimes poll).request? ≠ none := by
      intro hover
      have hsame : waitAt socket id after milliseconds runs stores uptimes (poll + 1) =
          waitAt socket id after milliseconds runs stores uptimes poll :=
        Dialogue.exchange_of_request?_eq_none hover _
      exact hmade (hsame ▸ hover)
    have hwaiting := ih (by omega) hbefore
    rcases hwaiting.outcome hruns (by omega) with
      ⟨found, -, hdone⟩ | ⟨hnot, ⟨-, hdone⟩ | ⟨hkept, hgoes⟩⟩
    · rw [hdone] at hmade
      exact absurd rfl hmade
    · rw [hdone] at hmade
      exact absurd rfl hmade
    · rw [if_pos hpoll] at hgoes
      exact hwaiting.next hruns hpoll hnot hkept hgoes

/-- A client that waits for the response to a command makes its polls one after the other, each for the
signals after its cursor, and until it ends the waiting it has inspected every signal between the
number it began with and the cursor exactly once, none of them the response. A poll ends the waiting
with a record if and only if that is the first response that the log has kept; it reports the response
as missed if and only if the log has kept none after the cursor and has lost a signal after it; and
otherwise the client goes on from the last signal announced, as long as it has time. -/
theorem awaitResponse_poll (capacity milliseconds : Nat) (bursts : Nat → List Signal) (runs : Nat → Run)
    (stores : Nat → Store) (uptimes : Nat → UInt64) (socket : String) (id : CommandId) (after : UInt64)
    (hruns : PolledRuns capacity bursts (pollsWithin milliseconds) runs)
    (hafter : after ≤ (logAt capacity bursts 0).lastSeq) :
    let dialogue := waitAt socket id after milliseconds runs stores uptimes
    let log := logAt capacity bursts
    let cursor := cursorAt capacity bursts after
    (dialogue 0).request? = some (Call.signals after).request ∧
      ∀ poll < pollsWithin milliseconds, (dialogue poll).request? ≠ none →
        (dialogue poll).request? = some (Call.signals (cursor poll)).request ∧
        Inspected id after (cursor poll) (pagesBefore capacity bursts after poll)
          (announcedBy bursts poll) ∧
        (∀ record, (dialogue (poll + 1)).result? = some (.ok record) ↔
          (log poll).FirstResponse id after record) ∧
        (∀ id' cursor', (dialogue (poll + 1)).result? = some (.error (.missed id' cursor')) ↔
          id' = id ∧ cursor' = cursor poll ∧
            (log poll).HasLost (announcedBy bursts poll) id (cursor poll)) ∧
        ((∀ record, ¬ (log poll).FirstResponse id after record) →
          ¬ (log poll).HasLost (announcedBy bursts poll) id (cursor poll) →
            if poll + 1 < pollsWithin milliseconds then
              (dialogue (poll + 1)).request? = some (Call.signals (cursor (poll + 1))).request
            else (dialogue (poll + 1)).result? = some (.error (.timeout id milliseconds))) := by
  intro dialogue log cursor
  refine ⟨?_, fun poll hpoll hmade => ?_⟩
  · have hzero : dialogue 0 = pollResponse socket id milliseconds (pollsWithin milliseconds) after :=
      awake_pollResponse _
    rw [hzero, request?_pollResponse]
  have hwaiting : Waiting socket id after milliseconds capacity bursts poll (dialogue poll) :=
    waiting_of_request? hruns hafter hpoll hmade
  refine ⟨?_, hwaiting.inspected, ?_⟩
  · rw [hwaiting.dialogue_eq, request?_pollResponse]
  have houtcome := hwaiting.outcome hruns hpoll
  rcases houtcome with ⟨found, hfound, hdone⟩ | ⟨hnot, ⟨hlost, hdone⟩ | ⟨hkept, hgoes⟩⟩
  · have hdone : dialogue (poll + 1) = .done (.ok found) := hdone
    rw [hdone]
    refine ⟨fun record => ?_, fun id' cursor' => ?_, fun hnot => absurd hfound (hnot found)⟩
    · rw [← hwaiting.find?_eq_some_iff hruns hpoll,
        (hwaiting.find?_eq_some_iff hruns hpoll found).mpr hfound]
      simp only [Dialogue.result?, Option.some.injEq, Except.ok.injEq]
    · refine iff_of_false (fun herror => nomatch herror) fun hlost => ?_
      have hfirst := (hwaiting.firstResponse_iff found).mpr hfound
      exact hlost.2.2.unanswered found hfirst.mem hfirst.after_lt hfirst.answers
  · have hdone : dialogue (poll + 1) = .done (.error (.missed id (cursor poll))) := hdone
    rw [hdone]
    refine ⟨fun record => ?_, fun id' cursor' => ?_, fun _ hkept => absurd hlost hkept⟩
    · exact iff_of_false (fun hok => nomatch hok) (hnot record)
    · constructor
      · intro herror
        cases herror
        exact ⟨rfl, rfl, hlost⟩
      · rintro ⟨rfl, rfl, -⟩
        rfl
  · have hgoes : dialogue (poll + 1) = _ := hgoes
    rw [hgoes]
    split
    · rw [request?_pollResponse, result?_pollResponse]
      refine ⟨fun record => ?_, fun id' cursor' => ?_, fun _ _ => rfl⟩
      · exact iff_of_false (fun hok => nomatch hok) (hnot record)
      · exact iff_of_false (fun herror => nomatch herror) fun hlost => hkept hlost.2.2
    · refine ⟨fun record => ?_, fun id' cursor' => ?_, fun _ _ => rfl⟩
      · exact iff_of_false (fun hok => nomatch hok) (hnot record)
      · exact iff_of_false (fun herror => nomatch herror) fun hlost => hkept hlost.2.2

/-- Nothing has been announced before the first poll of a client and the response before the second: the
second poll ends the waiting with the response. -/
theorem awaitResponse_poll_response :
    let response := Answer.signal ⟨0, "alice", "0", "ok"⟩
    let bursts := fun poll => if poll = 1 then [response] else []
    let runs := fun poll => Run.ofBridge
      { settings := {}, bus := (SignalBus.ofCapacity 2).emitAll (announcedBy bursts poll)
        notifier := .disabled }
    PolledRuns 2 bursts (pollsWithin 200) runs ∧ 0 ≤ (logAt 2 bursts 0).lastSeq ∧
      (waitAt "bridge.sock" 0 0 200 runs (fun _ => Directory.store {}) (fun _ => 0) 2).result? =
        some (.ok ⟨1, response⟩) := by
  intro response bursts runs
  have hruns : PolledRuns 2 bursts (pollsWithin 200) runs := by
    refine ⟨fun poll _ => RunPhase.noConfusion, fun poll _ => rfl, fun poll hpoll => ?_⟩
    have hlast : poll < 2 := hpoll
    interval_cases poll <;> decide
  have hafter : 0 ≤ (logAt 2 bursts 0).lastSeq := UInt64.zero_le
  have hpolls := awaitResponse_poll 2 200 bursts runs (fun _ => Directory.store {}) (fun _ => 0)
    "bridge.sock" 0 0 hruns hafter
  have hempty : (logAt 2 bursts 0).records = [] := rfl
  have hfirst := hpolls.2 0 (by decide) (by rw [hpolls.1]; exact Option.some_ne_none _)
  have hnot : ∀ record, ¬ (logAt 2 bursts 0).FirstResponse 0 0 record := fun record h =>
    absurd (hempty ▸ h.mem) List.not_mem_nil
  have hkept : ¬ (logAt 2 bursts 0).HasLost (announcedBy bursts 0) 0 0 := fun h => by
    obtain ⟨record, hmem, -⟩ := h.evicted
    exact absurd hmem List.not_mem_nil
  have hsecond := hfirst.2.2.2.2 hnot hkept
  rw [if_pos (by decide)] at hsecond
  have hfound : (logAt 2 bursts 1).FirstResponse 0 0 ⟨1, response⟩ := by
    refine ⟨List.mem_singleton_self _, by decide, rfl, fun other hmem _ _ => ?_⟩
    rw [List.mem_singleton.mp hmem]
    exact UInt64.le_refl _
  have hmade := hpolls.2 1 (by decide) (by rw [hsecond]; exact Option.some_ne_none _)
  exact ⟨hruns, hafter, (hmade.2.2.1 _).mpr hfound⟩

end Run

end Client

end DaemonBridge
