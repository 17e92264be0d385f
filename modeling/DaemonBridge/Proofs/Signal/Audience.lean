import DaemonBridge.Proofs.Signal.History
import Mathlib.Algebra.Ring.Nat
import Mathlib.Data.List.Nodup

/-!
# Subscribers

Subscribers are fed from a ring that keeps as many signals as the log or more, and are told how many they
have lost when they fall behind it. What one look may bring is said once (`SignalBus.Receives`). Over a run
in which signals are announced and subscribers come and look in any sequence, everything a subscriber was
told takes it from where it joined to where it stands (`Listener.Follows`): each record is the one after
all that was received or lost before. A subscriber that has lost signals may lose more before it looks
again, so one loss may follow another (`Audience.lagged_twice`).
-/

namespace DaemonBridge

/-- Records of a history with the same number are the same. -/
theorem eq_of_seq_eq {history : List Signal} (hfit : history.length < UInt64.size)
    {a b : SignalRecord} (ha : a ∈ numbered history) (hb : b ∈ numbered history)
    (hseq : a.seq = b.seq) : a = b := by
  have hnodup : ((numbered history).map fun record => record.seq.toNat).Nodup := by
    rw [numbered, map_seq_numberedFrom (by omega)]
    exact List.nodup_range'
  exact List.inj_on_of_nodup_map hnodup ha hb (congrArg UInt64.toNat hseq)

/-- What is found in a list with one more element at its end was there before, or is that element. -/
theorem getElem?_concat_cases {α : Type} {list : List α} {last found : α} {i : Nat}
    (h : (list ++ [last])[i]? = some found) :
    list[i]? = some found ∧ i < list.length ∨ i = list.length ∧ last = found := by
  obtain ⟨hlt, heq⟩ := List.getElem?_eq_some_iff.mp h
  rw [List.length_append, List.length_singleton] at hlt
  by_cases hold : i < list.length
  · rw [List.getElem?_append_left hold] at h
    exact .inl ⟨h, hold⟩
  · obtain rfl : i = list.length := by omega
    rw [List.getElem_concat_length rfl] at heq
    exact .inr ⟨rfl, heq⟩

/-! ## The size of the ring -/

/-- It is a power of two. -/
theorem exists_ringSize_eq (capacity : Nat) : ∃ exponent, ringSize capacity = 2 ^ exponent := by
  unfold ringSize
  split
  · exact ⟨0, rfl⟩
  · exact ⟨_, Nat.one_shiftLeft _⟩

/-- It is not below the number. -/
theorem le_ringSize (capacity : Nat) : capacity ≤ ringSize capacity := by
  unfold ringSize
  split
  · assumption
  · have := Nat.lt_log2_self (n := capacity - 1)
    rw [Nat.one_shiftLeft]
    omega

/-- No lesser power of two is not below the number. -/
theorem ringSize_le {capacity exponent : Nat} (h : capacity ≤ 2 ^ exponent) :
    ringSize capacity ≤ 2 ^ exponent := by
  unfold ringSize
  split
  · exact Nat.one_le_two_pow
  · rw [Nat.one_shiftLeft]
    exact Nat.pow_le_pow_right (by decide) ((Nat.log2_lt (by omega)).mpr (by omega))

/-! ## Receipts -/

namespace Receipt

/-- The record received. -/
def record? : Receipt → Option SignalRecord
  | .record found => some found
  | _ => none

/-- The number of signals lost. -/
def lost : Receipt → Nat
  | .lagged lost => lost.toNat
  | _ => 0

/-- The number of signals that are accounted for, as received or as lost. -/
def accounted (receipts : List Receipt) : Nat :=
  (receipts.filterMap record?).length + (receipts.map lost).sum

/-- Receipts account for signals one after the other. -/
@[simp] theorem accounted_append (earlier later : List Receipt) :
    accounted (earlier ++ later) = accounted earlier + accounted later := by
  simp only [accounted, List.filterMap_append, List.map_append, List.length_append, List.sum_append]
  omega

/-- More receipts account for more. -/
theorem accounted_mono {earlier later : List Receipt} (h : earlier <+: later) :
    accounted earlier ≤ accounted later := by
  obtain ⟨more, rfl⟩ := h
  rw [accounted_append]
  omega

/-- An empty receipt accounts for nothing. -/
@[simp] theorem accounted_empty : accounted [.empty] = 0 := rfl

/-- A record accounts for itself. -/
@[simp] theorem accounted_record (found : SignalRecord) : accounted [.record found] = 1 := rfl

/-- A loss accounts for what is lost. -/
@[simp] theorem accounted_lagged (lag : UInt64) : accounted [.lagged lag] = lag.toNat := by
  simp [accounted, record?, lost]

/-- So do losses one after the other. -/
theorem accounted_map_lagged (lags : List UInt64) :
    accounted (lags.map .lagged) = (lags.map UInt64.toNat).sum := by
  induction lags with
  | nil => rfl
  | cons lag rest ih =>
    rw [List.map_cons, ← List.singleton_append, accounted_append, ih, accounted_lagged, List.map_cons,
      List.sum_cons]

end Receipt

/-! ## What a look brings -/

/-- What comes after a number begins with the oldest signal held that comes after it, unless the number is
the last one. -/
theorem SignalLog.Retains.since_cases {log : SignalLog} {history : List Signal}
    (h : log.Retains history) (hfit : history.length < UInt64.size) {after : UInt64}
    (hafter : after.toNat ≤ history.length) :
    (log.since after = [] ∧ after.toNat = history.length) ∨
      ∃ record rest, log.since after = record :: rest ∧ record ∈ numbered history ∧
        record.seq.toNat = max after.toNat (history.length - log.capacity) + 1 := by
  have hsince := h.since_eq hfit after
  have hcapacity := h.capacity_pos
  by_cases hend : max after.toNat (history.length - log.capacity) < history.length
  · obtain ⟨rest, hdrop⟩ := drop_numbered_eq_cons history hend
    exact .inr ⟨_, rest, hsince.trans hdrop, List.mem_of_mem_drop (hdrop ▸ List.mem_cons_self),
      UInt64.toNat_ofNat_of_lt' (by omega)⟩
  · refine .inl ⟨hsince.trans (List.drop_eq_nil_of_le ?_), by omega⟩
    rw [length_numbered]
    omega

namespace SignalBus

/-- The log and the ring of the bus retain the history. -/
structure Retains (bus : SignalBus) (history : List Signal) : Prop where
  log : bus.log.Retains history
  ring : bus.ring.Retains history

/-- A fresh bus retains the empty history. -/
theorem retains_ofCapacity (capacity : Nat) : (ofCapacity capacity).Retains [] :=
  ⟨SignalLog.retains_ofCapacity _, SignalLog.retains_ofCapacity _⟩

/-- The ring keeps the records that the log keeps, so both go on retaining the same history. -/
theorem Retains.emit {bus : SignalBus} {history : List Signal} (h : bus.Retains history)
    (signal : Signal) : (bus.emit signal).2.Retains (history ++ [signal]) := by
  have hring : (bus.emit signal).2.ring = (bus.ring.announce signal).2 :=
    congrArg (fun seq => bus.ring.keep ⟨seq + 1, signal⟩) (h.log.lastSeq_eq.trans h.ring.lastSeq_eq.symm)
  exact ⟨h.log.announce signal, hring ▸ h.ring.announce signal⟩

/-- Announcing signals extends the history that the log and the ring retain by them. -/
theorem Retains.emitAll {bus : SignalBus} {history : List Signal} (h : bus.Retains history)
    (signals : List Signal) : (bus.emitAll signals).Retains (history ++ signals) := by
  induction signals generalizing bus history with
  | nil =>
    rw [List.append_nil]
    exact h
  | cons signal rest ih =>
    have hrest := ih (h.emit signal)
    rwa [List.append_assoc, List.singleton_append] at hrest

/-- Announcing signals keeps the capacity of the ring. -/
@[simp] theorem emitAll_ring_capacity (bus : SignalBus) (signals : List Signal) :
    (bus.emitAll signals).ring.capacity = bus.ring.capacity := by
  induction signals generalizing bus with
  | nil => rfl
  | cons signal rest ih => exact ih (bus.emit signal).2

/-- The ring of a fresh bus holds as many signals as the log could, rounded up to a power of two. -/
theorem ofCapacity_ring_capacity (capacity : Nat) :
    (ofCapacity capacity).ring.capacity = ringSize (max capacity 1) :=
  Nat.max_eq_left ((Nat.le_max_right capacity 1).trans (le_ringSize _))

/-- A bus of a capacity carries a history. Numbered from 1, the last of its signals are in the log and in
the ring of the subscribers, and whoever asks for what comes after a number is given those behind it that
the log holds. -/
structure Carries (bus : SignalBus) (capacity : Nat) (history : List Signal) : Prop where
  log : bus.log = .ofHistory (max capacity 1) history
  ring : bus.ring = .ofHistory (ringSize (max capacity 1)) history
  since : history.length < UInt64.size → ∀ after : UInt64,
    bus.since after = (numbered history).drop (max after.toNat (history.length - max capacity 1))

/-- A bus that starts out empty carries what it has announced. -/
theorem carries_emitAll (capacity : Nat) (signals : List Signal) :
    ((ofCapacity capacity).emitAll signals).Carries capacity signals := by
  have h := (retains_ofCapacity capacity).emitAll signals
  have hlog : ((ofCapacity capacity).emitAll signals).log.capacity = max capacity 1 :=
    emitAll_log_capacity _ signals
  have hring := (emitAll_ring_capacity _ signals).trans (ofCapacity_ring_capacity capacity)
  rw [List.nil_append] at h
  constructor
  · rw [← hlog]
    exact h.log.eq_ofHistory
  · rw [← hring]
    exact h.ring.eq_ofHistory
  · intro hfit after
    rw [← hlog]
    exact h.log.since_eq hfit after

/-- What a subscriber may find: nothing, if it has come to the end of the history; the next record, if the
ring still holds it; or else how many signals it has lost, and it goes on with the oldest one held. -/
inductive Receives (bus : SignalBus) (history : List Signal) (s : Subscription) :
    Receipt → Subscription → Prop
  | nothing (ended : s.position.toNat = history.length) : Receives bus history s .empty s
  | next (record : SignalRecord) (mem : record ∈ numbered history)
      (seq_eq : record.seq.toNat = s.position.toNat + 1)
      (held : history.length ≤ s.position.toNat + bus.ring.capacity) :
      Receives bus history s (.record record) ⟨record.seq⟩
  | behind (lost : UInt64) (later : Subscription) (lost_pos : 0 < lost.toNat)
      (oldest : s.position.toNat + lost.toNat + bus.ring.capacity = history.length)
      (position_eq : later.position.toNat = s.position.toNat + lost.toNat) :
      Receives bus history s (.lagged lost) later

namespace Receives

variable {bus : SignalBus} {history : List Signal} {s later : Subscription} {receipt : Receipt}

/-- The subscriber goes on after what it has been told. -/
theorem position_eq (h : bus.Receives history s receipt later) :
    later.position.toNat = s.position.toNat + Receipt.accounted [receipt] := by
  cases h with
  | nothing ended => rw [Receipt.accounted_empty, Nat.add_zero]
  | next record mem seq_eq held => rw [Receipt.accounted_record, seq_eq]
  | behind lost later lost_pos oldest position_eq => rw [Receipt.accounted_lagged, position_eq]

/-- It stays within the history. -/
theorem position_le (h : bus.Receives history s receipt later) (hfit : history.length < UInt64.size) :
    later.position.toNat ≤ history.length := by
  cases h with
  | nothing ended => exact Nat.le_of_eq ended
  | next record mem seq_eq held => exact (seq_of_mem_numbered hfit mem).2
  | behind lost later lost_pos oldest position_eq => omega

/-- After a loss there is something to receive. -/
theorem position_lt {lost : UInt64} (h : bus.Receives history s (.lagged lost) later)
    (hcapacity : 0 < bus.ring.capacity) : later.position.toNat < history.length := by
  cases h with
  | behind lost later lost_pos oldest position_eq => omega

/-- It finds nothing only at the end of the history. -/
theorem ended (h : bus.Receives history s .empty later) : s.position.toNat = history.length := by
  cases h with
  | nothing ended => exact ended

/-- A record is the one after its position. -/
theorem record_next {record : SignalRecord} (h : bus.Receives history s (.record record) later) :
    record ∈ numbered history ∧ record.seq.toNat = s.position.toNat + 1 := by
  cases h with
  | next record mem seq_eq held => exact ⟨mem, seq_eq⟩

end Receives

/-- A subscriber that stands within the history finds one of the three. -/
theorem Retains.receives {bus : SignalBus} {history : List Signal} (h : bus.Retains history)
    (hfit : history.length < UInt64.size) {s : Subscription}
    (hposition : s.position.toNat ≤ history.length) :
    bus.Receives history s (bus.receive s).1 (bus.receive s).2 := by
  rcases h.ring.since_cases hfit hposition with ⟨hnone, hend⟩ | ⟨record, rest, hsome, hmem, hseq⟩
  · rw [receive, hnone]
    exact .nothing hend
  · have hreceive : bus.receive s =
        if record.seq = s.position + 1 then (.record record, ⟨record.seq⟩)
        else (.lagged (record.seq - 1 - s.position), ⟨record.seq - 1⟩) := by
      rw [receive, hsome]
    have hrecord := (seq_of_mem_numbered hfit hmem).2
    have hnext : (s.position + 1).toNat = s.position.toNat + 1 := by
      rw [UInt64.toNat_add, UInt64.toNat_one]
      exact Nat.mod_eq_of_lt (Nat.lt_of_le_of_lt (by omega) hfit)
    rw [hreceive]
    by_cases heq : record.seq = s.position + 1
    · rw [if_pos heq]
      rw [heq] at hseq
      exact .next record hmem (heq ▸ hnext) (by omega)
    · have hne : record.seq.toNat ≠ s.position.toNat + 1 := fun hsame =>
        heq (UInt64.toNat_inj.mp (hsame.trans hnext.symm))
      have hlater : (record.seq - 1).toNat = record.seq.toNat - 1 :=
        UInt64.toNat_sub_of_le _ _ (UInt64.le_iff_toNat_le.mpr (by rw [UInt64.toNat_one]; omega))
      have hlost : (record.seq - 1 - s.position).toNat = record.seq.toNat - 1 - s.position.toNat := by
        rw [UInt64.toNat_sub_of_le _ _ (UInt64.le_iff_toNat_le.mpr (by omega)), hlater]
      rw [if_neg heq]
      exact .behind _ _ (by omega) (by omega) (by simp only [hlater]; omega)

end SignalBus

/-! ## Runs -/

/-- A subscriber: the number of the last signal before it joined, its subscription, and what it was told,
in order. -/
structure Listener where
  joined : UInt64
  subscription : Subscription
  heard : List Receipt := []
  deriving DecidableEq, Repr

/-- A bus and its subscribers, who are known by their positions. -/
structure Audience where
  bus : SignalBus
  listeners : List Listener := []

/-- Something that happens on a bus. -/
inductive AudienceStep where
  /-- A signal is announced. -/
  | emit (signal : Signal)
  /-- Someone subscribes. -/
  | subscribe
  /-- A subscriber looks for the next signal. -/
  | receive (listener : Nat)

/-- The signals announced, in order. -/
def emittedIn (steps : List AudienceStep) : List Signal :=
  steps.filterMap fun
    | .emit signal => some signal
    | _ => none

/-- A subscriber looks for the next signal. -/
def Listener.receive (l : Listener) (bus : SignalBus) : Listener :=
  { l with
    subscription := (bus.receive l.subscription).2
    heard := l.heard ++ [(bus.receive l.subscription).1] }

namespace Audience

/-- A fresh bus without subscribers. -/
def ofCapacity (capacity : Nat) : Audience :=
  ⟨.ofCapacity capacity, []⟩

/-- Let something happen. -/
def step (a : Audience) : AudienceStep → Audience
  | .emit signal => { a with bus := (a.bus.emit signal).2 }
  | .subscribe => { a with listeners := a.listeners ++ [⟨a.bus.lastSeq, a.bus.subscribe, []⟩] }
  | .receive listener => { a with listeners := a.listeners.modify listener (·.receive a.bus) }

/-- Let a sequence of things happen. -/
def run (a : Audience) (steps : List AudienceStep) : Audience :=
  steps.foldl step a

end Audience

namespace Listener

/-- What the subscriber was told takes it through the history from where it joined to where it stands. -/
structure Follows (l : Listener) (history : List Signal) : Prop where
  position_eq : l.subscription.position.toNat = l.joined.toNat + Receipt.accounted l.heard
  position_le : l.subscription.position.toNat ≤ history.length
  /-- A record is the one after all that was accounted for before. -/
  record_next : ∀ (i : Nat) (record : SignalRecord), l.heard[i]? = some (.record record) →
    record ∈ numbered history ∧
      record.seq.toNat = l.joined.toNat + Receipt.accounted (l.heard.take i) + 1
  /-- After a loss there is something to receive. -/
  behind : ∀ lost, l.heard.getLast? = some (.lagged lost) →
    l.subscription.position.toNat < history.length
  not_empty : ∀ (i : Nat) (lost : UInt64), l.heard[i]? = some (.lagged lost) →
    l.heard[i + 1]? ≠ some .empty

variable {l : Listener} {history : List Signal}

/-- Someone who subscribes stands at the end of the history. -/
theorem follows_subscribe {bus : SignalBus} (h : bus.Retains history)
    (hfit : history.length < UInt64.size) :
    (⟨bus.lastSeq, bus.subscribe, []⟩ : Listener).Follows history where
  position_eq := rfl
  position_le := Nat.le_of_eq (h.log.toNat_lastSeq hfit)
  record_next := by simp
  behind := by simp
  not_empty := by simp

namespace Follows

/-- A subscriber follows a history that has become longer. -/
theorem mono (h : l.Follows history) {later : List Signal} (hlater : history <+: later) :
    l.Follows later where
  position_eq := h.position_eq
  position_le := h.position_le.trans hlater.length_le
  record_next i record hrecord :=
    ⟨(isPrefix_numbered hlater).subset (h.record_next i record hrecord).1, (h.record_next i record hrecord).2⟩
  behind lost hlost := (h.behind lost hlost).trans_le hlater.length_le
  not_empty := h.not_empty

/-- Whatever a subscriber finds, it goes on following the history. -/
theorem receive (h : l.Follows history) {bus : SignalBus} (hbus : bus.Retains history)
    (hfit : history.length < UInt64.size) : (l.receive bus).Follows history := by
  have hreceives := hbus.receives hfit h.position_le
  have hposition := hreceives.position_eq
  unfold Listener.receive
  generalize (bus.receive l.subscription).1 = receipt at hreceives hposition ⊢
  generalize (bus.receive l.subscription).2 = later at hreceives hposition ⊢
  rw [h.position_eq] at hposition
  refine ⟨?_, hreceives.position_le hfit, fun i record hrecord => ?_, fun lost hlast => ?_,
    fun i lost hlost hempty => ?_⟩
  · rw [Receipt.accounted_append, ← Nat.add_assoc]
    exact hposition
  · rcases getElem?_concat_cases hrecord with ⟨hold, hlt⟩ | ⟨rfl, rfl⟩
    · rw [List.take_append_of_le_length (Nat.le_of_lt hlt)]
      exact h.record_next i record hold
    · rw [List.take_left, ← h.position_eq]
      exact hreceives.record_next
  · rw [List.getLast?_append, List.getLast?_singleton, Option.some_or] at hlast
    obtain rfl := Option.some.inj hlast
    exact hreceives.position_lt hbus.ring.capacity_pos
  · rcases getElem?_concat_cases hlost with ⟨hfirst, hlt⟩ | ⟨hend, -⟩
    · rcases getElem?_concat_cases hempty with ⟨hold, -⟩ | ⟨hlast, rfl⟩
      · exact h.not_empty i lost hfirst hold
      · -- the receipt before this one is a loss, after which the subscriber was behind
        have hbehind := h.behind lost (by
          rw [List.getLast?_eq_getElem?, ← hlast, Nat.add_sub_cancel]
          exact hfirst)
        exact absurd hreceives.ended (Nat.ne_of_lt hbehind)
    · have hnone : (l.heard ++ [receipt])[i + 1]? = none := by
        rw [List.getElem?_eq_none_iff, List.length_append, List.length_singleton, hend]
      exact nomatch hnone.symm.trans hempty

/-- The records received have growing numbers, all after that of the last signal before joining. -/
theorem ascending (h : l.Follows history) :
    (l.heard.filterMap Receipt.record?).Pairwise (fun a b => a.seq < b.seq) ∧
      ∀ record ∈ l.heard.filterMap Receipt.record?, l.joined < record.seq ∧ record ∈ numbered history := by
  have hheard {receipt : Receipt} {record : SignalRecord} (hrecord : receipt.record? = some record) :
      receipt = .record record := by
    cases receipt <;> simp_all [Receipt.record?]
  constructor
  · rw [List.pairwise_filterMap, List.pairwise_iff_getElem]
    intro i j hi hj hij a ha b hb
    have hfirst := List.getElem?_eq_some_iff.mpr ⟨hi, hheard ha⟩
    have hsecond := List.getElem?_eq_some_iff.mpr ⟨hj, hheard hb⟩
    have hmore : Receipt.accounted (l.heard.take i) + 1 ≤ Receipt.accounted (l.heard.take j) := by
      have hpart : l.heard.take (i + 1) <+: l.heard.take j := List.take_prefix_take_left hij
      have hle := Receipt.accounted_mono hpart
      rwa [List.take_succ_eq_append_getElem hi, hheard ha, Receipt.accounted_append,
        Receipt.accounted_record] at hle
    have hseq := (h.record_next i a hfirst).2
    have hseq' := (h.record_next j b hsecond).2
    exact UInt64.lt_iff_toNat_lt.mpr (by omega)
  · intro record hmem
    obtain ⟨receipt, hreceipt, hrecord⟩ := List.mem_filterMap.mp hmem
    obtain ⟨i, hi⟩ := List.mem_iff_getElem?.mp hreceipt
    rw [hheard hrecord] at hi
    obtain ⟨hnumbered, hseq⟩ := h.record_next i record hi
    exact ⟨UInt64.lt_iff_toNat_lt.mpr (by omega), hnumbered⟩

end Follows

end Listener

namespace Audience

/-- The bus retains the history, and every subscriber follows it. -/
structure Sound (a : Audience) (size : Nat) (history : List Signal) : Prop where
  retains : a.bus.Retains history
  size_eq : a.bus.ring.capacity = size
  follows : ∀ l ∈ a.listeners, l.Follows history

/-- A fresh bus has no history. -/
theorem sound_ofCapacity (capacity : Nat) : (ofCapacity capacity).Sound (ringSize (max capacity 1)) [] where
  retains := SignalBus.retains_ofCapacity capacity
  size_eq := SignalBus.ofCapacity_ring_capacity capacity
  follows := nofun

variable {a : Audience} {size : Nat} {history : List Signal}

/-- Whatever happens on a bus, its subscribers go on following its history. -/
theorem Sound.step (h : a.Sound size history) (step : AudienceStep)
    (hfit : (history ++ emittedIn [step]).length < UInt64.size) :
    (a.step step).Sound size (history ++ emittedIn [step]) := by
  cases step with
  | emit signal =>
    exact ⟨h.retains.emit signal, h.size_eq, fun l hl => (h.follows l hl).mono (List.prefix_append _ _)⟩
  | subscribe =>
    rw [show emittedIn [.subscribe] = [] from rfl, List.append_nil] at hfit ⊢
    refine ⟨h.retains, h.size_eq, List.forall_mem_append.mpr ⟨h.follows, ?_⟩⟩
    exact List.forall_mem_singleton.mpr (Listener.follows_subscribe h.retains hfit)
  | receive listener =>
    rw [show emittedIn [.receive listener] = [] from rfl, List.append_nil] at hfit ⊢
    refine ⟨h.retains, h.size_eq, fun l hl => ?_⟩
    obtain ⟨i, hi⟩ := List.mem_iff_getElem?.mp hl
    rw [Audience.step, List.getElem?_modify] at hi
    obtain ⟨before, hbefore, rfl⟩ := Option.map_eq_some_iff.mp hi
    have hfollows := h.follows before (List.mem_of_getElem? hbefore)
    split
    · exact hfollows.receive h.retains hfit
    · exact hfollows

/-- After any run, the subscribers follow the history of the bus. -/
theorem Sound.run (h : a.Sound size history) (steps : List AudienceStep)
    (hfit : (history ++ emittedIn steps).length < UInt64.size) :
    (a.run steps).Sound size (history ++ emittedIn steps) := by
  induction steps generalizing a history with
  | nil =>
    rw [show emittedIn [] = [] from rfl, List.append_nil]
    exact h
  | cons step rest ih =>
    have hsplit : emittedIn (step :: rest) = emittedIn [step] ++ emittedIn rest := by
      rw [emittedIn, emittedIn, emittedIn, ← List.filterMap_append, List.singleton_append]
    rw [hsplit, ← List.append_assoc] at hfit ⊢
    refine ih (h.step step ?_) hfit
    rw [List.length_append] at hfit
    omega

/-- A subscriber that looks finds nothing only when everything is accounted for. It has lost signals only
when more of them waited than the ring holds, and finds the next one if it looks again at once. -/
theorem Sound.receives (h : a.Sound size history) (hfit : history.length < UInt64.size) {l : Listener}
    (hl : l ∈ a.listeners) :
    (∀ later, a.bus.receive l.subscription = (.empty, later) →
      l.joined.toNat + Receipt.accounted l.heard = history.length) ∧
    ∀ lost later, a.bus.receive l.subscription = (.lagged lost, later) →
      l.joined.toNat + Receipt.accounted l.heard + size < history.length ∧
      ∃ record, (a.bus.receive later).1 = .record record ∧
        record.seq.toNat = l.joined.toNat + Receipt.accounted l.heard + lost.toNat + 1 := by
  have hfollows := h.follows l hl
  have hposition := hfollows.position_eq
  have hcapacity := h.retains.ring.capacity_pos
  have hsize := h.size_eq
  have hreceives := h.retains.receives hfit hfollows.position_le
  refine ⟨fun later hempty => ?_, fun lost later hlost => ?_⟩
  · rw [hempty] at hreceives
    exact hposition.symm.trans hreceives.ended
  · simp only [hlost] at hreceives
    cases hreceives with
    | behind lost later lost_pos oldest position_eq =>
      refine ⟨by omega, ?_⟩
      have hagain := h.retains.receives hfit (s := later) (by omega)
      generalize (a.bus.receive later).1 = receipt at hagain ⊢
      generalize (a.bus.receive later).2 = last at hagain
      cases hagain with
      | nothing ended => omega
      | next record mem seq_eq held => exact ⟨record, rfl, by omega⟩
      | behind lost' last lost_pos' oldest' => omega

/-- Everyone who listens has subscribed at some point of the run. -/
theorem exists_joined (capacity : Nat) (steps : List AudienceStep) :
    ∀ l ∈ ((ofCapacity capacity).run steps).listeners, ∃ earlier, earlier ++ [.subscribe] <+: steps ∧
      l.joined = ((ofCapacity capacity).run earlier).bus.lastSeq := by
  induction steps using List.reverseRecOn with
  | nil => exact nofun
  | append_singleton steps step ih =>
    intro l hl
    have hlater {l' : Listener} (hjoined : l'.joined = l.joined)
        (hl' : l' ∈ ((ofCapacity capacity).run steps).listeners) :
        ∃ earlier, earlier ++ [.subscribe] <+: steps ++ [step] ∧
          l.joined = ((ofCapacity capacity).run earlier).bus.lastSeq := by
      obtain ⟨earlier, hearlier, heq⟩ := ih l' hl'
      exact ⟨earlier, hearlier.trans (List.prefix_append _ _), hjoined ▸ heq⟩
    rw [run, List.foldl_append, List.foldl_cons, List.foldl_nil, ← run] at hl
    cases step with
    | emit signal => exact hlater rfl hl
    | subscribe =>
      rcases List.mem_append.mp hl with hold | hnew
      · exact hlater rfl hold
      · exact ⟨steps, List.prefix_refl _, by rw [List.mem_singleton.mp hnew]⟩
    | receive listener =>
      obtain ⟨i, hi⟩ := List.mem_iff_getElem?.mp hl
      rw [Audience.step, List.getElem?_modify] at hi
      obtain ⟨before, hbefore, rfl⟩ := Option.map_eq_some_iff.mp hi
      refine hlater ?_ (List.mem_of_getElem? hbefore)
      split
      · rfl
      · rfl

/-- Subscribers and clients that poll see the same stream.

Let signals be announced, subscribers join and come to look in any sequence. The ring holds as many
signals as the log could, rounded up to a power of two. Whoever listens joined at some point, after the
signals announced before it. The records that a subscriber receives have growing numbers, from after where
it joined; each is the record of the history with that number, and no client that polls is ever given
another one. A record that comes directly after losses is the one after what was accounted for before
them and what they count. A look after a loss does not come back empty. When a look comes back empty, what
was received and what was lost add up to what was announced since joining. A loss is reported only when
more signals waited than the ring holds; who looks again at once receives the next record after it. -/
theorem subscribers_follow_history (capacity : Nat) (steps : List AudienceStep)
    (hfit : (emittedIn steps).length < UInt64.size) :
    let audience := (ofCapacity capacity).run steps
    let history := emittedIn steps
    let size := ringSize (max capacity 1)
    ((∃ exponent, size = 2 ^ exponent) ∧ max capacity 1 ≤ size ∧
      ∀ exponent, max capacity 1 ≤ 2 ^ exponent → size ≤ 2 ^ exponent) ∧
    ∀ l ∈ audience.listeners,
      let received := l.heard.filterMap Receipt.record?
      (∃ earlier, earlier ++ [.subscribe] <+: steps ∧
        l.joined = ((ofCapacity capacity).run earlier).bus.lastSeq ∧
        l.joined.toNat = (emittedIn earlier).length) ∧
      received.Pairwise (fun a b => a.seq < b.seq) ∧
      (∀ record ∈ received, l.joined < record.seq ∧ record ∈ numbered history ∧
        ∀ earlier : List AudienceStep, earlier <+: steps → ∀ after : UInt64,
          ∀ polled ∈ ((ofCapacity capacity).run earlier).bus.since after,
            polled.seq = record.seq → polled = record) ∧
      (∀ (before : List Receipt) (lags : List UInt64) (record : SignalRecord) (more : List Receipt),
        l.heard = before ++ lags.map .lagged ++ .record record :: more →
          record.seq.toNat =
            l.joined.toNat + Receipt.accounted before + (lags.map UInt64.toNat).sum + 1) ∧
      (∀ (before : List Receipt) (lost : UInt64) (receipt : Receipt) (more : List Receipt),
        l.heard = before ++ .lagged lost :: receipt :: more → receipt ≠ .empty) ∧
      (∀ later, audience.bus.receive l.subscription = (.empty, later) →
        l.joined.toNat + received.length + (l.heard.map Receipt.lost).sum = history.length) ∧
      ∀ lost later, audience.bus.receive l.subscription = (.lagged lost, later) →
        l.joined.toNat + Receipt.accounted l.heard + size < history.length ∧
        ∃ record, (audience.bus.receive later).1 = .record record ∧
          record.seq.toNat = l.joined.toNat + Receipt.accounted l.heard + lost.toNat + 1 := by
  intro audience history size
  have hstart := sound_ofCapacity capacity
  have hsound : audience.Sound size history := hstart.run steps hfit
  -- the run up to some point has announced a part of the history
  have hthen {earlier : List AudienceStep} (hearlier : earlier <+: steps) :
      emittedIn earlier <+: history ∧
        ((ofCapacity capacity).run earlier).Sound size (emittedIn earlier) := by
    obtain ⟨rest, rfl⟩ := hearlier
    have hsplit : history = emittedIn earlier ++ emittedIn rest := List.filterMap_append
    have hpart : emittedIn earlier <+: history := ⟨_, hsplit.symm⟩
    exact ⟨hpart, hstart.run earlier (hpart.length_le.trans_lt hfit)⟩
  refine ⟨⟨exists_ringSize_eq _, le_ringSize _, fun exponent => ringSize_le⟩, fun l hl => ?_⟩
  intro received
  have hfollows := hsound.follows l hl
  obtain ⟨hascending, hreceived⟩ := hfollows.ascending
  obtain ⟨hempty, hlagged⟩ := hsound.receives hfit hl
  refine ⟨?_, hascending, fun record hrecord => ?_, fun before lags record more hsplit => ?_,
    fun before lost receipt more hsplit hnone => ?_, fun later hlater => ?_, hlagged⟩
  · obtain ⟨earlier, hearlier, hjoined⟩ := exists_joined capacity steps l hl
    obtain ⟨hpart, hearly⟩ := hthen ((List.prefix_append _ _).trans hearlier)
    exact ⟨earlier, hearlier, hjoined,
      hjoined ▸ hearly.retains.log.toNat_lastSeq (hpart.length_le.trans_lt hfit)⟩
  · obtain ⟨hjoined, hnumbered⟩ := hreceived record hrecord
    refine ⟨hjoined, hnumbered, fun earlier hearlier after polled hpolled hseq => ?_⟩
    obtain ⟨hpart, hearly⟩ := hthen hearlier
    have hmem := hearly.retains.log.mem_numbered ((SignalLog.mem_since_iff _ _ _).mp hpolled).1
    exact eq_of_seq_eq hfit ((isPrefix_numbered hpart).subset hmem) hnumbered hseq
  · have hplace : l.heard[(before ++ lags.map Receipt.lagged).length]? = some (.record record) := by
      rw [hsplit, List.getElem?_append_right (Nat.le_refl _), Nat.sub_self, List.getElem?_cons_zero]
    have hnext := (hfollows.record_next _ record hplace).2
    rw [hsplit, List.take_left, Receipt.accounted_append, Receipt.accounted_map_lagged] at hnext
    omega
  · have hlost : l.heard[before.length]? = some (.lagged lost) := by
      rw [hsplit, List.getElem?_append_right (Nat.le_refl _), Nat.sub_self, List.getElem?_cons_zero]
    refine hfollows.not_empty before.length lost hlost ?_
    have hplace : before.length + 1 - before.length = 1 := Nat.add_sub_cancel_left _ _
    rw [hsplit, List.getElem?_append_right (by omega), hplace, hnone, List.getElem?_cons_succ,
      List.getElem?_cons_zero]
  · have hall := hempty later hlater
    rw [Receipt.accounted, ← Nat.add_assoc] at hall
    exact hall

/-- One subscriber of a bus that keeps three signals, with a ring of four, looks after the first signal
and again after five more: it has lost one, and goes on with the third. -/
theorem subscribers_follow_history_behind :
    let done (name : String) : Signal := .verificationDone ⟨"alice", "@bob:home", "B1", name⟩
    let steps : List AudienceStep :=
      [.emit (done "z"), .subscribe, .emit (done "a"), .receive 0, .emit (done "b"), .emit (done "c"),
        .emit (done "d"), .emit (done "e"), .emit (done "f"), .receive 0, .receive 0]
    (emittedIn steps).length < UInt64.size ∧
      ∃ l ∈ ((ofCapacity 3).run steps).listeners,
        l.heard = [.record ⟨2, done "a"⟩, .lagged 1, .record ⟨4, done "c"⟩] ∧
        (4 : UInt64).toNat = l.joined.toNat + 1 + 1 + 1 := by
  intro done steps
  have hfit : (emittedIn steps).length < UInt64.size := by decide
  obtain ⟨-, hlisteners⟩ := subscribers_follow_history 3 steps hfit
  have hmem : ⟨1, ⟨4⟩, [.record ⟨2, done "a"⟩, .lagged 1, .record ⟨4, done "c"⟩]⟩ ∈
      ((ofCapacity 3).run steps).listeners := by decide +kernel
  obtain ⟨-, -, -, hrecord, -⟩ := hlisteners _ hmem
  exact ⟨hfit, _, hmem, rfl, hrecord [.record ⟨2, done "a"⟩] [1] ⟨4, done "c"⟩ [] rfl⟩

/-- After a loss that a subscriber has been told of, more may be lost before it looks again: a record need
not come next, and when it comes it is not the one that the first loss announces. -/
theorem lagged_twice :
    let done (name : String) : Signal := .verificationDone ⟨"alice", "@bob:home", "B1", name⟩
    let steps : List AudienceStep :=
      [.subscribe, .emit (done "a"), .emit (done "b"), .receive 0, .emit (done "c"), .receive 0, .receive 0]
    ∃ l ∈ ((ofCapacity 1).run steps).listeners,
      l.heard = [.lagged 1, .lagged 1, .record ⟨3, done "c"⟩] ∧
      ¬ ∀ (before : List Receipt) (lost : UInt64) (more : List Receipt),
        l.heard = before ++ .lagged lost :: more →
          ∃ record ∈ (more.filterMap Receipt.record?).head?,
            record.seq.toNat = l.joined.toNat + Receipt.accounted before + lost.toNat + 1 := by
  intro done steps
  have hmem : ⟨0, ⟨3⟩, [.lagged 1, .lagged 1, .record ⟨3, done "c"⟩]⟩ ∈
      ((ofCapacity 1).run steps).listeners := by decide +kernel
  refine ⟨_, hmem, rfl, fun hnext => ?_⟩
  obtain ⟨record, hrecord, hseq⟩ := hnext [] 1 [.lagged 1, .record ⟨3, done "c"⟩] rfl
  obtain rfl : (⟨3, done "c"⟩ : SignalRecord) = record := Option.some.inj hrecord
  exact absurd hseq (by decide)

end Audience

end DaemonBridge
