import DaemonBridge.Proofs.Client.Inspection
import Mathlib.Data.List.Nodup

/-!
# What a waiting client has inspected

The pages that a client has seen, one after the other, are exactly the signals between the number it
began with and its cursor, each on one page, and none of them is the response (`Client.Inspected`). A
page without the response extends this up to the last signal there is, provided that no signal after
the cursor was gone.
-/

namespace DaemonBridge

/-! ## What a poll can find -/

/-- The log has kept no response to the command after the number and has lost a signal after it. -/
structure SignalLog.HasLost (log : SignalLog) (history : List Signal) (id : CommandId)
    (cursor : UInt64) : Prop where
  unanswered : ∀ record ∈ log.records, cursor < record.seq → record.signal.answers? ≠ some id
  evicted : ∃ record ∈ numbered history, cursor < record.seq ∧ record ∉ log.records

/-- The pages are all signals between two numbers, each on exactly one page, and none of them is the
response to the command. -/
structure Client.Inspected (id : CommandId) (after cursor : UInt64) (pages : List (List SignalRecord))
    (history : List Signal) : Prop where
  flatten_eq : pages.flatten =
    (numbered history).filter fun record => after < record.seq && record.seq ≤ cursor
  once : ∀ record ∈ numbered history, after < record.seq → record.seq ≤ cursor →
    ∃! place : Nat, ∃ page ∈ pages[place]?, record ∈ page
  unanswered : ∀ record ∈ pages.flatten, record.signal.answers? ≠ some id

/-- A signal is lost without a response exactly when none is found after the number and the log has
dropped signals after it. -/
theorem SignalLog.Retains.hasLost_iff {log : SignalLog} {history : List Signal} (h : log.Retains history)
    (hfit : history.length < UInt64.size) (id : CommandId) (cursor : UInt64) :
    log.HasLost history id cursor ↔
      ((log.since cursor).find? fun r => r.answersCommand id) = none ∧
        cursor.toNat < history.length - log.capacity := by
  rw [log.find?_since_eq_none_iff, ← h.exists_evicted_iff hfit]
  exact ⟨fun hlost => ⟨hlost.unanswered, hlost.evicted⟩, fun hlost => ⟨hlost.1, hlost.2⟩⟩

/-! ## Pages between two numbers -/

section Pages

variable {id : CommandId} {after cursor : UInt64} {pages : List (List SignalRecord)}
  {log : SignalLog} {history later : List Signal}

/-- The signals between two numbers are a stretch of the history. -/
theorem filter_numbered_between (hfit : history.length < UInt64.size)
    (hcursor : cursor.toNat ≤ history.length) (after : UInt64) :
    (numbered history).filter (fun record => after < record.seq && record.seq ≤ cursor) =
      (numbered (history.take cursor.toNat)).drop after.toNat := by
  have hlen : (history.take cursor.toNat).length = cursor.toNat := List.length_take_of_le hcursor
  have hsplit : numbered history =
      numbered (history.take cursor.toNat) ++ numberedFrom cursor.toNat (history.drop cursor.toNat) := by
    have happend := numbered_append (history.take cursor.toNat) (history.drop cursor.toNat)
    rwa [List.take_append_drop, hlen] at happend
  have hfirst : (numbered (history.take cursor.toNat)).filter
      (fun record => after < record.seq && record.seq ≤ cursor) =
        (numbered (history.take cursor.toNat)).drop after.toNat := by
    rw [numbered, ← Nat.sub_zero after.toNat, ← filter_numberedFrom after (by omega)]
    apply List.filter_congr
    intro record hmem
    have hseq := (seq_of_mem_numbered (by omega) hmem).2
    have hle : record.seq ≤ cursor := UInt64.le_iff_toNat_le.mpr (by omega)
    rw [decide_eq_true hle, Bool.and_true]
  have hrest : (numberedFrom cursor.toNat (history.drop cursor.toNat)).filter
      (fun record => after < record.seq && record.seq ≤ cursor) = [] := by
    apply List.filter_eq_nil_iff.mpr
    intro record hmem
    have hseq := (seq_of_mem_numberedFrom (by rw [List.length_drop]; omega) hmem).1
    have hnot : ¬ record.seq ≤ cursor := fun hle => by
      have := UInt64.le_iff_toNat_le.mp hle
      omega
    rw [decide_eq_false hnot, Bool.and_false]
    decide
  rw [hsplit, List.filter_append, hfirst, hrest, List.append_nil]

/-- The signals of a history are all different. -/
theorem nodup_numbered (hfit : history.length < UInt64.size) : (numbered history).Nodup :=
  (numberedFrom_pairwise (by omega)).imp fun hlt heq => UInt64.ne_of_lt hlt (congrArg _ heq)

/-- A member of lists that have no member in common or twice is on exactly one of them. -/
theorem existsUnique_of_nodup_flatten {record : SignalRecord} (hnodup : pages.flatten.Nodup)
    (hmem : record ∈ pages.flatten) : ∃! place : Nat, ∃ page ∈ pages[place]?, record ∈ page := by
  obtain ⟨page, hpage, hrecord⟩ := List.mem_flatten.mp hmem
  obtain ⟨place, hplace⟩ := List.mem_iff_getElem?.mp hpage
  have hdisjoint := (List.nodup_flatten.mp hnodup).2
  refine ⟨place, ⟨page, hplace, hrecord⟩, ?_⟩
  rintro other ⟨page', hother, hrecord'⟩
  obtain ⟨hlt, hget⟩ := List.getElem?_eq_some_iff.mp hplace
  obtain ⟨hlt', hget'⟩ := List.getElem?_eq_some_iff.mp hother
  rw [List.pairwise_iff_getElem] at hdisjoint
  rcases Nat.lt_trichotomy other place with hless | heq | hmore
  · have hapart := hdisjoint other place hlt' hlt hless
    rw [hget, hget'] at hapart
    exact absurd hrecord (hapart hrecord')
  · exact heq
  · have hapart := hdisjoint place other hlt hlt' hmore
    rw [hget, hget'] at hapart
    exact absurd hrecord' (hapart hrecord)

/-- Pages that are a stretch of the history hold each of its signals exactly once. -/
theorem Client.Inspected.of_flatten_eq (hfit : history.length < UInt64.size)
    (hflatten : pages.flatten =
      (numbered history).filter fun record => after < record.seq && record.seq ≤ cursor)
    (hunanswered : ∀ record ∈ pages.flatten, record.signal.answers? ≠ some id) :
    Client.Inspected id after cursor pages history where
  flatten_eq := hflatten
  once record hmem hafter hle := by
    have hin : record ∈ pages.flatten := by
      rw [hflatten, List.mem_filter, decide_eq_true hafter, decide_eq_true hle]
      exact ⟨hmem, rfl⟩
    have hnodup : pages.flatten.Nodup := by
      rw [hflatten]
      exact (nodup_numbered hfit).filter _
    exact existsUnique_of_nodup_flatten hnodup hin
  unanswered := hunanswered

/-- Before its first poll a client has inspected nothing. -/
theorem Client.Inspected.start (hfit : history.length < UInt64.size) :
    Client.Inspected id after after [] history := by
  refine .of_flatten_eq hfit ?_ fun record hmem => absurd hmem List.not_mem_nil
  refine (List.filter_eq_nil_iff.mpr fun record _ => ?_).symm
  rw [Bool.and_eq_true, decide_eq_true_eq, decide_eq_true_eq]
  rintro ⟨hlt, hle⟩
  exact absurd hle (UInt64.not_le.mpr hlt)

/-- A page without the response, read while every signal after the cursor was there, extends what has
been inspected up to the last signal announced by then. -/
theorem Client.Inspected.poll (hlog : log.Retains history)
    (hinspected : Client.Inspected id after cursor pages history)
    (hfit : (history ++ later).length < UInt64.size) (hle : after ≤ cursor)
    (hcursor : cursor.toNat ≤ history.length) (hkept : history.length - log.capacity ≤ cursor.toNat)
    (hnone : ∀ record ∈ log.since cursor, record.signal.answers? ≠ some id) :
    Client.Inspected id after log.lastSeq (pages ++ [log.since cursor]) (history ++ later) := by
  have hlength : (history ++ later).length = history.length + later.length := List.length_append
  have hlast : log.lastSeq.toNat = history.length := hlog.toNat_lastSeq (by omega)
  have hnumbers := UInt64.le_iff_toNat_le.mp hle
  have hcut : (history.take cursor.toNat).length = cursor.toNat := List.length_take_of_le hcursor
  refine .of_flatten_eq hfit ?_ ?_
  · have hsplit : numbered history = numbered (history.take cursor.toNat) ++
        numberedFrom cursor.toNat (history.drop cursor.toNat) := by
      have happend := numbered_append (history.take cursor.toNat) (history.drop cursor.toNat)
      rwa [List.take_append_drop, hcut] at happend
    have hpage : log.since cursor = numberedFrom cursor.toNat (history.drop cursor.toNat) := by
      rw [hlog.since_eq (by omega) cursor, Nat.max_eq_left hkept, numbered, drop_numberedFrom,
        Nat.zero_add]
    have hdrop : (numbered history).drop after.toNat =
        (numbered (history.take cursor.toNat)).drop after.toNat ++
          numberedFrom cursor.toNat (history.drop cursor.toNat) := by
      rw [hsplit, List.drop_append_of_le_length (by rw [length_numbered]; omega)]
    rw [filter_numbered_between hfit (by omega), hlast, List.take_left', hdrop, List.flatten_append,
      hinspected.flatten_eq, filter_numbered_between (by omega) hcursor, List.flatten_singleton, hpage]
    rfl
  · intro record hmem
    rw [List.flatten_append, List.flatten_singleton] at hmem
    rcases List.mem_append.mp hmem with hmem | hmem
    · exact hinspected.unanswered record hmem
    · exact hnone record hmem

end Pages

end DaemonBridge
