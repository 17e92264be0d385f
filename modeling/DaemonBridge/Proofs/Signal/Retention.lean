import DaemonBridge.Proofs.Signal.Numbering
import DaemonBridge.Signal.Log

/-!
# What a signal log retains

A log in which a history of signals was announced holds the end of that history, numbered, and the
number of its last signal. Every question that a client asks of the log is answered from these two
facts (`SignalLog.Retains`), so no later argument looks at how the log drops its oldest record.
-/

namespace DaemonBridge

namespace SignalLog

/-- Announce signals one after the other. -/
def announceAll (log : SignalLog) (signals : List Signal) : SignalLog :=
  signals.foldl (fun log signal => (log.announce signal).2) log

/-- The log holds the last signals of a history, at most as many as its capacity, and the number of
the last one. -/
structure Retains (log : SignalLog) (history : List Signal) : Prop where
  capacity_pos : 0 < log.capacity
  records_eq : log.records = (numbered history).drop (history.length - log.capacity)
  lastSeq_eq : log.lastSeq = UInt64.ofNat history.length

/-- The log of a capacity that holds the end of a history. -/
def ofHistory (capacity : Nat) (history : List Signal) : SignalLog where
  capacity := capacity
  records := (numbered history).drop (history.length - capacity)
  lastSeq := .ofNat history.length

/-- A log that retains a history is the one that holds its end. -/
theorem Retains.eq_ofHistory {log : SignalLog} {history : List Signal} (h : log.Retains history) :
    log = .ofHistory log.capacity history :=
  congrArg₂ (SignalLog.mk log.capacity) h.records_eq h.lastSeq_eq

/-- A fresh log retains the empty history. -/
theorem retains_ofCapacity (capacity : Nat) : (ofCapacity capacity).Retains [] :=
  ⟨Nat.lt_of_lt_of_le Nat.one_pos (Nat.le_max_right capacity 1), List.drop_nil.symm, rfl⟩

/-- Announcing a signal keeps the capacity. -/
theorem announce_capacity (log : SignalLog) (signal : Signal) :
    (log.announce signal).2.capacity = log.capacity := rfl

/-- Announcing a signal extends the history that a log retains. -/
theorem Retains.announce {log : SignalLog} {history : List Signal} (h : log.Retains history)
    (signal : Signal) : (log.announce signal).2.Retains (history ++ [signal]) := by
  have hseq : log.lastSeq + 1 = UInt64.ofNat (history.length + 1) := by
    rw [h.lastSeq_eq, UInt64.ofNat_add]
    rfl
  refine ⟨h.capacity_pos, ?_, ?_⟩
  · have hlen : log.records.length = history.length - (history.length - log.capacity) := by
      rw [h.records_eq, List.length_drop, length_numbered]
    have hkept : (if log.capacity ≤ log.records.length then log.records.drop 1 else log.records) =
        (numbered history).drop (history.length + 1 - log.capacity) := by
      split
      · next hfull =>
        rw [h.records_eq, List.drop_drop]
        congr 1
        have := h.capacity_pos
        omega
      · next hroom =>
        rw [h.records_eq]
        congr 1
        omega
    have hdrop : history.length + 1 - log.capacity ≤ (numbered history).length := by
      have := h.capacity_pos
      rw [length_numbered]
      omega
    change (if log.capacity ≤ log.records.length then log.records.drop 1 else log.records) ++
        [⟨log.lastSeq + 1, signal⟩] =
      (numbered (history ++ [signal])).drop ((history ++ [signal]).length - log.capacity)
    rw [hkept, hseq, numbered_append, List.length_append, List.length_singleton,
      List.drop_append_of_le_length hdrop]
    rfl
  · change log.lastSeq + 1 = _
    rw [hseq, List.length_append, List.length_singleton]

/-- Announcing signals extends the history that a log retains by them. -/
theorem Retains.announceAll {log : SignalLog} {history : List Signal} (h : log.Retains history)
    (signals : List Signal) : (log.announceAll signals).Retains (history ++ signals) := by
  induction signals generalizing log history with
  | nil =>
    rw [List.append_nil]
    exact h
  | cons signal rest ih =>
    have hrest := ih (h.announce signal)
    rwa [List.append_assoc, List.singleton_append] at hrest

/-- A log that starts out empty retains exactly what has been announced. -/
theorem retains_announceAll (capacity : Nat) (history : List Signal) :
    ((ofCapacity capacity).announceAll history).Retains history := by
  simpa only [List.nil_append] using (retains_ofCapacity capacity).announceAll history

/-- Announcing signals keeps the capacity. -/
@[simp] theorem announceAll_capacity (log : SignalLog) (signals : List Signal) :
    (log.announceAll signals).capacity = log.capacity := by
  induction signals generalizing log with
  | nil => rfl
  | cons signal rest ih => exact (ih (log.announce signal).2).trans (announce_capacity log signal)

/-- The records after a number are those that are kept and have a greater number. -/
theorem mem_since_iff (log : SignalLog) (after : UInt64) (record : SignalRecord) :
    record ∈ log.since after ↔ record ∈ log.records ∧ after < record.seq := by
  rw [since, List.mem_filter, decide_eq_true_eq]

namespace Retains

variable {log : SignalLog} {history : List Signal}

/-- The number of the last signal is the length of the history. -/
theorem toNat_lastSeq (h : log.Retains history) (hfit : history.length < UInt64.size) :
    log.lastSeq.toNat = history.length := by
  rw [h.lastSeq_eq]
  exact UInt64.toNat_ofNat_of_lt' hfit

/-- A retained record is a numbered signal of the history. -/
theorem mem_numbered (h : log.Retains history) {record : SignalRecord} (hmem : record ∈ log.records) :
    record ∈ numbered history := by
  rw [h.records_eq] at hmem
  exact List.mem_of_mem_drop hmem

/-- The records after a number are the end of the history behind both the number and what the log has
dropped. -/
theorem since_eq (h : log.Retains history) (hfit : history.length < UInt64.size) (after : UInt64) :
    log.since after =
      (numbered history).drop (max after.toNat (history.length - log.capacity)) := by
  have hdrop : (numbered history).drop (history.length - log.capacity) =
      numberedFrom (history.length - log.capacity) (history.drop (history.length - log.capacity)) := by
    rw [numbered, drop_numberedFrom, Nat.zero_add]
  have hfit' : history.length - log.capacity +
      (history.drop (history.length - log.capacity)).length < UInt64.size := by
    rw [List.length_drop]
    omega
  rw [since, h.records_eq, hdrop, filter_numberedFrom after hfit', ← hdrop, List.drop_drop]
  congr 1
  omega

/-- Asking for what comes after the last number goes on with the history, as long as the log can hold
what is new. -/
theorem numbered_append_since (h : log.Retains history) {later : SignalLog} {new : List Signal}
    (hlater : later.Retains (history ++ new)) (hroom : new.length ≤ later.capacity)
    (hfit : (history ++ new).length < UInt64.size) :
    numbered history ++ later.since log.lastSeq = numbered (history ++ new) := by
  have hlength : (history ++ new).length = history.length + new.length := List.length_append
  have hplace : max log.lastSeq.toNat ((history ++ new).length - later.capacity) = history.length := by
    rw [h.toNat_lastSeq (by omega)]
    omega
  rw [hlater.since_eq hfit, hplace, numbered_append, List.drop_left' (length_numbered _)]

/-- A record of the history is still there exactly when its number is among the last ones. -/
theorem mem_records_iff (h : log.Retains history) (hfit : history.length < UInt64.size)
    {record : SignalRecord} (hmem : record ∈ numbered history) :
    record ∈ log.records ↔ history.length - log.capacity < record.seq.toNat := by
  constructor
  · intro hkept
    rw [h.records_eq, numbered, drop_numberedFrom, Nat.zero_add] at hkept
    exact (seq_of_mem_numberedFrom (by rw [List.length_drop]; omega) hkept).1
  · intro hlate
    have hsplit : record ∈ (numbered history).filter fun r =>
        UInt64.ofNat (history.length - log.capacity) < r.seq := by
      refine List.mem_filter.mpr ⟨hmem, decide_eq_true (UInt64.lt_iff_toNat_lt.mpr ?_)⟩
      rwa [UInt64.toNat_ofNat_of_lt' (by omega)]
    rw [numbered, filter_numberedFrom _ (by omega), UInt64.toNat_ofNat_of_lt' (by omega),
      Nat.sub_zero] at hsplit
    rw [h.records_eq]
    exact hsplit

/-- Some signal after a number is gone exactly when the number lies before what the log has dropped. -/
theorem exists_evicted_iff (h : log.Retains history) (hfit : history.length < UInt64.size)
    (after : UInt64) :
    (∃ record ∈ numbered history, after < record.seq ∧ record ∉ log.records) ↔
      after.toNat < history.length - log.capacity := by
  constructor
  · rintro ⟨record, hmem, hlt, hgone⟩
    rw [h.mem_records_iff hfit hmem] at hgone
    have := UInt64.lt_iff_toNat_lt.mp hlt
    omega
  · intro hlt
    have hplace : after.toNat < history.length := by omega
    have hget : (numbered history)[after.toNat]? =
        some ⟨UInt64.ofNat (after.toNat + 1), history[after.toNat]⟩ := by
      rw [numbered, getElem?_numberedFrom, List.getElem?_eq_getElem hplace, Nat.zero_add]
      rfl
    have hnat : (UInt64.ofNat (after.toNat + 1)).toNat = after.toNat + 1 :=
      UInt64.toNat_ofNat_of_lt' (by omega)
    have hmem := List.mem_of_getElem? hget
    refine ⟨_, hmem, UInt64.lt_iff_toNat_lt.mpr (by simp only [hnat]; omega), ?_⟩
    rw [h.mem_records_iff hfit hmem]
    simp only [hnat]
    omega

end Retains

end SignalLog

namespace SignalBus

/-- Announce signals one after the other. -/
def emitAll (bus : SignalBus) (signals : List Signal) : SignalBus :=
  signals.foldl (fun bus signal => (bus.emit signal).2) bus

/-- The log of a bus keeps what the bus announces. -/
theorem emitAll_log (bus : SignalBus) (signals : List Signal) :
    (bus.emitAll signals).log = bus.log.announceAll signals := by
  induction signals generalizing bus with
  | nil => rfl
  | cons signal rest ih => exact ih (bus.emit signal).2

/-- The log of a bus that starts out empty retains what the bus has announced. -/
theorem retains_emitAll (capacity : Nat) (signals : List Signal) :
    ((ofCapacity capacity).emitAll signals).log.Retains signals := by
  rw [emitAll_log]
  exact SignalLog.retains_announceAll capacity signals

end SignalBus

end DaemonBridge
