import DaemonBridge.Client.Wait
import DaemonBridge.Proofs.Signal.Retention

/-!
# What a page of signals tells a client

The cursor arithmetic of `inspect`, settled once for the log it is read from. The signals of a page
and the number on it may come from two moments of the log, with signals announced in between; a page
of one moment is the case without such signals. In every case the page shows the oldest response that
is left after the cursor, and what it tells otherwise depends only on three lengths: how far the
client has come, how much the log has dropped, and how much was announced in between.
-/

namespace DaemonBridge

/-! ## The first response -/

/-- The record is the lowest-numbered response to the command after a number that the log has kept. -/
structure SignalLog.FirstResponse (log : SignalLog) (id : CommandId) (after : UInt64)
    (record : SignalRecord) : Prop where
  mem : record ∈ log.records
  after_lt : after < record.seq
  answers : record.signal.answers? = some id
  lowest : ∀ other ∈ log.records, after < other.seq → other.signal.answers? = some id →
    record.seq ≤ other.seq

/-- A record answers a command if it is the response to it. -/
theorem SignalRecord.answersCommand_iff (record : SignalRecord) (id : CommandId) :
    record.answersCommand id = true ↔ record.signal.answers? = some id := by
  rw [answersCommand, beq_iff_eq]

section Finding

variable {log : SignalLog} {history : List Signal}

/-- The records of a log stand in the order of their numbers. -/
theorem SignalLog.Retains.records_pairwise (h : log.Retains history)
    (hfit : history.length < UInt64.size) :
    log.records.Pairwise fun a b => a.seq < b.seq := by
  rw [h.records_eq]
  exact (numberedFrom_pairwise (by omega)).sublist (List.drop_sublist _ _)

/-- A page shows the first response after the number it was asked for. -/
theorem SignalLog.Retains.find?_since_eq_some_iff (h : log.Retains history)
    (hfit : history.length < UInt64.size) (id : CommandId) (after : UInt64) (record : SignalRecord) :
    ((log.since after).find? fun r => r.answersCommand id) = some record ↔
      log.FirstResponse id after record := by
  have hsorted : (log.since after).Pairwise fun a b => a.seq < b.seq :=
    (h.records_pairwise hfit).filter _
  rw [find?_eq_some_iff_of_pairwise hsorted]
  simp only [SignalLog.mem_since_iff, SignalRecord.answersCommand_iff]
  constructor
  · rintro ⟨⟨hmem, hlt⟩, hanswers, hlowest⟩
    exact ⟨hmem, hlt, hanswers, fun other hother hafter => hlowest other ⟨hother, hafter⟩⟩
  · intro hfirst
    exact ⟨⟨hfirst.mem, hfirst.after_lt⟩, hfirst.answers,
      fun other hother => hfirst.lowest other hother.1 hother.2⟩

/-- If a signal of a history is a response to a command, there is a first one. -/
theorem exists_first_of_answers {history : List Signal} {signal : Signal} {id : CommandId}
    (h : signal ∈ history) (hanswers : signal.answers? = some id) :
    ∃ record, ((numbered history).find? fun r => r.answersCommand id) = some record := by
  obtain ⟨record, hmem, rfl⟩ := exists_mem_numbered h
  refine Option.isSome_iff_exists.mp (List.find?_isSome.mpr ⟨record, hmem, ?_⟩)
  exact (record.answersCommand_iff id).mpr hanswers

/-- A page shows no response if the log has kept none after the number it was asked for. -/
theorem SignalLog.find?_since_eq_none_iff (log : SignalLog) (id : CommandId) (after : UInt64) :
    ((log.since after).find? fun r => r.answersCommand id) = none ↔
      ∀ record ∈ log.records, after < record.seq → record.signal.answers? ≠ some id := by
  rw [List.find?_eq_none]
  constructor
  · intro h record hmem hlt hanswers
    have hsince := (log.mem_since_iff after record).mpr ⟨hmem, hlt⟩
    exact h record hsince ((record.answersCommand_iff id).mpr hanswers)
  · intro h record hmem hanswers
    obtain ⟨hkept, hlt⟩ := (log.mem_since_iff after record).mp hmem
    exact h record hkept hlt ((record.answersCommand_iff id).mp hanswers)

end Finding

/-! ## Pages -/

namespace Client

open Control (SignalPage)

variable {log first second : SignalLog} {history before between : List Signal}

/-- The number of the oldest record on a page, or the one that comes next. -/
def oldestShown (page : SignalPage) : UInt64 :=
  match page.signals with
  | [] => page.lastSeq + 1
  | record :: _ => record.seq

/-- A page with a response shows it, and any other page is judged by its oldest record. -/
theorem inspect_eq (id : CommandId) (cursor : UInt64) (page : SignalPage) :
    inspect id cursor page =
      match page.signals.find? fun record => record.answersCommand id with
      | some record => .found record
      | none =>
        if cursor + 1 < oldestShown page then .missed else .goOn (max cursor page.lastSeq) := by
  unfold inspect oldestShown
  rfl

/-- What a client learns from a page whose number is read after its signals.

The client misses the response if a signal after its cursor is gone, and also if it has seen every
signal that was there at the first reading and another one was announced before the second. -/
theorem inspect_read (hfirst : first.Retains before) (hsecond : second.Retains (before ++ between))
    (hfit : (before ++ between).length < UInt64.size - 1) (id : CommandId) {cursor : UInt64}
    (hcursor : cursor.toNat ≤ before.length) :
    inspect id cursor (SignalPage.read first second cursor) =
      match (first.since cursor).find? fun record => record.answersCommand id with
      | some record => .found record
      | none =>
        if cursor.toNat < before.length - first.capacity ∨
            (cursor.toNat = before.length ∧ between ≠ []) then .missed
        else .goOn second.lastSeq := by
  have hlen : (before ++ between).length = before.length + between.length := List.length_append
  have hlast : second.lastSeq.toNat = before.length + between.length := by
    rw [hsecond.toNat_lastSeq (by omega), hlen]
  have hnext : (cursor + 1).toNat = cursor.toNat + 1 := by
    rw [UInt64.toNat_add, UInt64.toNat_one, Nat.mod_eq_of_lt]
    change cursor.toNat + 1 < UInt64.size
    omega
  have hmax : max cursor second.lastSeq = second.lastSeq := by
    have hle : cursor ≤ second.lastSeq := UInt64.le_iff_toNat_le.mpr (by omega)
    rw [UInt64.max_def, if_pos hle]
  have hsince := hfirst.since_eq (by omega) cursor
  have holdest : cursor + 1 < oldestShown (SignalPage.read first second cursor) ↔
      cursor.toNat < before.length - first.capacity ∨
        (cursor.toNat = before.length ∧ between ≠ []) := by
    have hpos := hfirst.capacity_pos
    by_cases hend : cursor.toNat = before.length
    · have hempty : first.since cursor = [] := by
        rw [hsince, List.drop_eq_nil_iff, length_numbered]
        omega
      have hpast : (second.lastSeq + 1).toNat = before.length + between.length + 1 := by
        rw [UInt64.toNat_add, UInt64.toNat_one, hlast, Nat.mod_eq_of_lt]
        change before.length + between.length + 1 < UInt64.size
        omega
      rw [oldestShown, SignalPage.read, hempty, UInt64.lt_iff_toNat_lt, hnext, hpast,
        ← List.length_pos_iff]
      omega
    · obtain ⟨rest, hrest⟩ := drop_numbered_eq_cons before
        (by omega : max cursor.toNat (before.length - first.capacity) < before.length)
      have hhead : (UInt64.ofNat (max cursor.toNat (before.length - first.capacity) + 1)).toNat =
          max cursor.toNat (before.length - first.capacity) + 1 :=
        UInt64.toNat_ofNat_of_lt' (by omega)
      rw [oldestShown, SignalPage.read, hsince, hrest, UInt64.lt_iff_toNat_lt, hnext, hhead]
      omega
  rw [inspect_eq]
  simp only [SignalPage.read] at holdest ⊢
  simp only [holdest, hmax]

/-- What a client learns from a page of one moment: the response, or that a signal after the cursor is
gone, or that it has now seen every signal. -/
theorem inspect_read_self (hlog : log.Retains history) (hfit : history.length < UInt64.size - 1)
    (id : CommandId) {cursor : UInt64} (hcursor : cursor.toNat ≤ history.length) :
    inspect id cursor (SignalPage.read log log cursor) =
      match (log.since cursor).find? fun record => record.answersCommand id with
      | some record => .found record
      | none =>
        if cursor.toNat < history.length - log.capacity then .missed else .goOn log.lastSeq := by
  have hsame : log.Retains (history ++ []) := by rwa [List.append_nil]
  have h := inspect_read hlog hsame (by rwa [List.append_nil]) id hcursor
  simpa only [ne_eq, not_true_eq_false, and_false, or_false] using h

end Client

end DaemonBridge
