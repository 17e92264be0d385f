import DaemonBridge.Proofs.Signal.Retention
import Mathlib.Algebra.Ring.Nat

/-!
# The ring of past signals

A log that keeps `capacity` signals, and one if that is zero, is described completely by what has been
announced: the k-th announcement is told the number k, the log holds the last signals with their numbers,
and asking for what comes after a number cuts the history behind it. A client that polls goes on after
the last number (`SignalBus.batches`). Its batches put together are the history exactly when no more
signals than the log holds were announced between two polls.
-/

namespace DaemonBridge

/-- Without their numbers the records are the signals. -/
theorem map_signal_numberedFrom (last : Nat) (signals : List Signal) :
    (numberedFrom last signals).map SignalRecord.signal = signals := by
  induction signals generalizing last with
  | nil => rfl
  | cons signal rest ih => simp [numberedFrom, ih]

/-- The numbers go up by one, as long as they fit into a word. -/
theorem map_seq_numberedFrom {last : Nat} {signals : List Signal}
    (hfit : last + signals.length < UInt64.size) :
    (numberedFrom last signals).map (fun record => record.seq.toNat) =
      List.range' (last + 1) signals.length := by
  induction signals generalizing last with
  | nil => rfl
  | cons signal rest ih =>
    rw [List.length_cons] at hfit
    have hseq : (UInt64.ofNat (last + 1)).toNat = last + 1 := UInt64.toNat_ofNat_of_lt' (by omega)
    rw [numberedFrom, List.map_cons, ih (by omega), List.length_cons, List.range'_succ, hseq]

namespace SignalBus

/-- What a client is given who polls after each of the bursts and then goes on after the last number. -/
def batches (bus : SignalBus) (cursor : UInt64) : List (List Signal) → List (List SignalRecord)
  | [] => []
  | burst :: rest =>
    let later := bus.emitAll burst
    later.since cursor :: later.batches later.lastSeq rest

variable {bus : SignalBus} {earlier : List Signal}

/-- Announcing signals keeps the capacity of the log. -/
@[simp] theorem emitAll_log_capacity (bus : SignalBus) (signals : List Signal) :
    (bus.emitAll signals).log.capacity = bus.log.capacity := by
  rw [emitAll_log, SignalLog.announceAll_capacity]

/-- The log of a bus goes on retaining what the bus announces. -/
theorem retains_emitAll_of_retains (h : bus.log.Retains earlier) (signals : List Signal) :
    (bus.emitAll signals).log.Retains (earlier ++ signals) := by
  rw [emitAll_log]
  exact h.announceAll signals

/-- An announcement is told the number after those of the history. -/
theorem toNat_emit (h : bus.log.Retains earlier) (hfit : earlier.length + 1 < UInt64.size)
    (signal : Signal) : (bus.emit signal).1.toNat = earlier.length + 1 := by
  have hseq : (bus.emit signal).1 = UInt64.ofNat earlier.length + 1 := congrArg (· + 1) h.lastSeq_eq
  rw [hseq, show UInt64.ofNat earlier.length + 1 = UInt64.ofNat (earlier.length + 1) from
    (UInt64.ofNat_add earlier.length 1).symm]
  exact UInt64.toNat_ofNat_of_lt' hfit

/-- A poll that goes on after the history gives the last signals of the burst that came since. -/
theorem since_emitAll (h : bus.log.Retains earlier) (burst : List Signal)
    (hfit : earlier.length + burst.length < UInt64.size) :
    (bus.emitAll burst).since bus.lastSeq =
      (numberedFrom earlier.length burst).drop (burst.length - bus.log.capacity) := by
  have hlater := retains_emitAll_of_retains h burst
  have hcursor : bus.lastSeq.toNat = earlier.length := h.toNat_lastSeq (by omega)
  have hpast : (numbered earlier).length ≤
      max earlier.length ((earlier ++ burst).length - (bus.emitAll burst).log.capacity) :=
    (length_numbered earlier).trans_le (Nat.le_max_left _ _)
  rw [since, hlater.since_eq (by rwa [List.length_append]), hcursor, numbered_append, List.drop_append,
    List.drop_eq_nil_of_le hpast, List.nil_append, emitAll_log_capacity, length_numbered,
    List.length_append]
  congr 1
  omega

/-- Bursts that the log can hold are polled completely. -/
theorem flatten_batches (h : bus.log.Retains earlier) {bursts : List (List Signal)}
    (hfit : earlier.length + bursts.flatten.length < UInt64.size)
    (hhold : ∀ burst ∈ bursts, burst.length ≤ bus.log.capacity) :
    (bus.batches bus.lastSeq bursts).flatten = numberedFrom earlier.length bursts.flatten := by
  induction bursts generalizing bus earlier with
  | nil => rfl
  | cons burst rest ih =>
    rw [List.flatten_cons, List.length_append] at hfit
    obtain ⟨hburst, hrest⟩ := List.forall_mem_cons.mp hhold
    have hnow := since_emitAll h burst (by omega)
    rw [Nat.sub_eq_zero_of_le hburst, List.drop_zero] at hnow
    have hlater := ih (retains_emitAll_of_retains h burst) (by rw [List.length_append]; omega)
      (by simpa using hrest)
    rw [batches, List.flatten_cons, hnow, hlater, List.flatten_cons, numberedFrom_append,
      List.length_append]

/-- Of each burst a poll gives at most as many signals as the log holds. -/
theorem length_flatten_batches (h : bus.log.Retains earlier) {bursts : List (List Signal)}
    (hfit : earlier.length + bursts.flatten.length < UInt64.size) :
    (bus.batches bus.lastSeq bursts).flatten.length =
      (bursts.map fun burst => min burst.length bus.log.capacity).sum := by
  induction bursts generalizing bus earlier with
  | nil => rfl
  | cons burst rest ih =>
    rw [List.flatten_cons, List.length_append] at hfit
    have hnow := congrArg List.length (since_emitAll h burst (by omega))
    rw [List.length_drop, length_numberedFrom] at hnow
    have hlater := ih (retains_emitAll_of_retains h burst) (by rw [List.length_append]; omega)
    rw [emitAll_log_capacity] at hlater
    rw [batches, List.flatten_cons, List.length_append, hnow, hlater, List.map_cons, List.sum_cons]
    omega

/-- Parts that are cut to a length make up the whole only if none of them is longer. -/
theorem forall_length_le_of_sum_min {α : Type} {parts : List (List α)} {bound : Nat}
    (h : (parts.map fun part => min part.length bound).sum = parts.flatten.length) :
    ∀ part ∈ parts, part.length ≤ bound := by
  have hle (parts : List (List α)) :
      (parts.map fun part => min part.length bound).sum ≤ parts.flatten.length := by
    induction parts with
    | nil => simp
    | cons part rest ih =>
      simp only [List.map_cons, List.sum_cons, List.flatten_cons, List.length_append]
      omega
  induction parts with
  | nil => simp
  | cons part rest ih =>
    simp only [List.map_cons, List.sum_cons, List.flatten_cons, List.length_append] at h
    have hrest := hle rest
    exact List.forall_mem_cons.mpr ⟨by omega, ih (by omega)⟩

/-- The log is a ring of the last signals.

Let fewer than 2^64 signals be announced on a fresh bus. Numbered, they are themselves with the numbers
1, 2, 3 and so on. Each announcement is told its number, and the last number is how many there were. The
log holds the last ones, as many as its capacity, which is at least one; the records after a number are
those of them with a greater number, and so the end of the history behind both the number and what the
log has dropped. A client that polls after each of some bursts, and each time goes on after the last
number, is given every signal exactly once and in order, if and only if the log can hold each burst. -/
theorem log_is_ring (capacity : Nat) (signals : List Signal) (hfit : signals.length < UInt64.size) :
    let kept := max capacity 1
    let bus := (ofCapacity capacity).emitAll signals
    ((numbered signals).map SignalRecord.signal = signals ∧
      (numbered signals).map (fun record => record.seq.toNat) = List.range' 1 signals.length) ∧
    (∀ (place : Nat) (hplace : place < signals.length),
      (((ofCapacity capacity).emitAll (signals.take place)).emit signals[place]).1.toNat = place + 1) ∧
    bus.lastSeq.toNat = signals.length ∧
    bus.log.records = (numbered signals).drop (signals.length - kept) ∧
    bus.log.records.length = min signals.length kept ∧
    (∀ after : UInt64,
      bus.since after = bus.log.records.filter (fun record => after < record.seq) ∧
      bus.since after = (numbered signals).drop (max after.toNat (signals.length - kept))) ∧
    ∀ bursts : List (List Signal), bursts.flatten = signals →
      (((ofCapacity capacity).batches 0 bursts).flatten = numbered signals ↔
        ∀ burst ∈ bursts, burst.length ≤ kept) := by
  intro kept bus
  have hempty : (ofCapacity capacity).log.Retains [] := SignalLog.retains_ofCapacity capacity
  have hfull : bus.log.Retains signals := retains_emitAll capacity signals
  have hcapacity : bus.log.capacity = kept := emitAll_log_capacity _ signals
  have hrecords : bus.log.records = (numbered signals).drop (signals.length - kept) :=
    hcapacity ▸ hfull.records_eq
  refine ⟨⟨map_signal_numberedFrom 0 signals, map_seq_numberedFrom (by omega)⟩, fun place hplace => ?_,
    hfull.toNat_lastSeq hfit, hrecords, ?_, fun after => ⟨rfl, ?_⟩, ?_⟩
  · have htaken : (signals.take place).length = place := List.length_take_of_le (by omega)
    have hemit := toNat_emit (retains_emitAll capacity (signals.take place)) (by omega) signals[place]
    rwa [htaken] at hemit
  · rw [hrecords, List.length_drop, length_numbered]
    omega
  · rw [← hcapacity]
    exact hfull.since_eq hfit after
  · rintro bursts rfl
    have hstart : ([] : List Signal).length + bursts.flatten.length < UInt64.size := by simpa using hfit
    constructor
    · intro hall
      have hlength := length_flatten_batches hempty hstart
      rw [show (ofCapacity capacity).lastSeq = 0 from rfl, hall, length_numbered] at hlength
      exact forall_length_le_of_sum_min hlength.symm
    · exact fun hhold => flatten_batches hempty hstart hhold

/-- A log of capacity zero holds the last signal. A client that polls after the first of three signals and
again after the other two is given the first and the last one; the second is lost. -/
theorem log_is_ring_zero :
    let done (name : String) : Signal := .verificationDone ⟨"alice", "@bob:home", "B1", name⟩
    let signals := [done "a", done "b", done "c"]
    signals.length < UInt64.size ∧
      ((ofCapacity 0).emitAll signals).log.records = [⟨3, done "c"⟩] ∧
      ((ofCapacity 0).emitAll signals).since 2 = [⟨3, done "c"⟩] ∧
      ((ofCapacity 0).batches 0 [[done "a"], [done "b", done "c"]]).flatten =
        [⟨1, done "a"⟩, ⟨3, done "c"⟩] ∧
      ((ofCapacity 0).batches 0 [[done "a"], [done "b"], [done "c"]]).flatten = numbered signals := by
  intro done signals
  have hfit : signals.length < UInt64.size := by decide
  obtain ⟨-, -, -, hrecords, -, hsince, hbatches⟩ := log_is_ring 0 signals hfit
  refine ⟨hfit, hrecords, (hsince 2).2, rfl, (hbatches [[done "a"], [done "b"], [done "c"]] rfl).mpr ?_⟩
  simp

end SignalBus

end DaemonBridge
