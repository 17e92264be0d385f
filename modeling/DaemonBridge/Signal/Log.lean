import DaemonBridge.Signal

/-!
# The signal log

Signals numbered 1, 2, 3, … as they are announced, of which a bounded number is kept. Clients poll
the log for what was announced after the last number they know (`SignalLog.since`); subscribers are
fed from a ring of their own and learn how many signals they have lost (`SignalBus.receive`).
-/

namespace DaemonBridge

/-- The last signals announced, at most `capacity` of them, and the number of the last one. -/
structure SignalLog where
  capacity : Nat
  records : List SignalRecord := []
  lastSeq : UInt64 := 0
  deriving DecidableEq, Repr

namespace SignalLog

/-- An empty log; it keeps at least one signal. -/
def ofCapacity (capacity : Nat) : SignalLog :=
  { capacity := max capacity 1 }

/-- Keep a record, at the cost of the oldest one if the log is full. -/
def keep (log : SignalLog) (record : SignalRecord) : SignalLog :=
  { log with
    records := (if log.capacity ≤ log.records.length then log.records.drop 1 else log.records) ++ [record]
    lastSeq := record.seq }

/-- Number a signal and keep it. -/
def announce (log : SignalLog) (signal : Signal) : SignalRecord × SignalLog :=
  let record := ⟨log.lastSeq + 1, signal⟩
  (record, log.keep record)

/-- The records kept with a number above `after`. -/
def since (log : SignalLog) (after : UInt64) : List SignalRecord :=
  log.records.filter fun record => after < record.seq

end SignalLog

/-- The least power of two that is not below a number. -/
def ringSize (capacity : Nat) : Nat :=
  if capacity ≤ 1 then 1 else 1 <<< ((capacity - 1).log2 + 1)

/-- Where signals are announced: the log that clients poll and the ring that feeds subscribers. -/
structure SignalBus where
  log : SignalLog
  ring : SignalLog
  deriving DecidableEq, Repr

/-- Someone who receives every signal announced after the one with this number. -/
structure Subscription where
  position : UInt64
  deriving DecidableEq, Repr

/-- What a subscriber finds. -/
inductive Receipt where
  | empty
  | record (record : SignalRecord)
  | lagged (lost : UInt64)
  deriving DecidableEq, Repr

namespace SignalBus

/-- A bus that keeps `capacity` signals for clients. -/
def ofCapacity (capacity : Nat) : SignalBus :=
  ⟨.ofCapacity capacity, .ofCapacity (ringSize (max capacity 1))⟩

/-- Announce a signal and return its number. -/
def emit (bus : SignalBus) (signal : Signal) : UInt64 × SignalBus :=
  let (record, log) := bus.log.announce signal
  (record.seq, ⟨log, bus.ring.keep record⟩)

/-- The records kept with a number above `after`. -/
def since (bus : SignalBus) (after : UInt64) : List SignalRecord :=
  bus.log.since after

/-- The number of the last signal, zero before the first. -/
def lastSeq (bus : SignalBus) : UInt64 :=
  bus.log.lastSeq

/-- Receive every signal announced from now on. -/
def subscribe (bus : SignalBus) : Subscription :=
  ⟨bus.lastSeq⟩

/-- The next signal for a subscriber. One who has fallen behind the ring is told once how many signals
are lost and goes on with the oldest one left. -/
def receive (bus : SignalBus) (s : Subscription) : Receipt × Subscription :=
  match bus.ring.since s.position with
  | [] => (.empty, s)
  | record :: _ =>
    if record.seq = s.position + 1 then (.record record, ⟨record.seq⟩)
    else (.lagged (record.seq - 1 - s.position), ⟨record.seq - 1⟩)

/-- The bounds within which a bus of records of `recordSize` bytes can be made: the ring's capacity is
at most half of the word size and the log's memory less than half of the address space. -/
def Allocatable (recordSize capacity : Nat) : Prop :=
  1 ≤ max capacity 1 ∧ max capacity 1 < UInt64.size / 2 ∧
    max capacity 1 * recordSize < UInt64.size / 2

end SignalBus

end DaemonBridge
