import DaemonBridge.Proofs.Bridge.Progress

/-!
# Exactly once and in order

Events are sent, ticks handle them, orders are issued and questions are asked in any sequence, and the
store may be another one each time that it is read. What a single occurrence does to the relay
(`Run.relays_occur`) carries over to any number of them by induction, and the records that someone sees
who looks after each occurrence add up to the numbered signals of the events handled.
-/

namespace DaemonBridge

/-- Something that happens around a run. Whatever reads the store finds the one that is there then. -/
inductive Occurrence where
  /-- Someone on the side of the worker sends an event. -/
  | send (event : Event)
  /-- The run takes a step, such as a tick or an answer to a question. -/
  | run (step : RunStep)
  /-- Someone issues an order. -/
  | submit (account : String) (order : Order)
  /-- The user picks an action of a notification. -/
  | click (index : Nat) (key : String)
  /-- The worker takes the next command. -/
  | takeCommand
  /-- The logins are refreshed. -/
  | refreshLogins (store : Store)
  /-- The devices are refreshed. -/
  | refreshDevices (store : Store)

/-- The event that is sent. -/
def Occurrence.event? : Occurrence → Option Event
  | .send event => some event
  | _ => none

/-- The events sent, in order. -/
def sentIn (occurrences : List Occurrence) : List Event :=
  occurrences.filterMap Occurrence.event?

/-- What one more occurrence sends comes last. -/
theorem sentIn_cons (occurrence : Occurrence) (rest : List Occurrence) :
    sentIn (occurrence :: rest) = sentIn [occurrence] ++ sentIn rest := by
  rw [sentIn, sentIn, sentIn, ← List.filterMap_append, List.singleton_append]

namespace Run

/-- Another bridge takes the place of the bridge. -/
def withBridge (r : Run) (bridge : Bridge) : Run :=
  { r with bridge := bridge }

/-- Let something happen. -/
def occur (r : Run) : Occurrence → Run
  | .send event => r.withBridge (r.bridge.receive event)
  | .run step => r.step step
  | .submit account order => r.withBridge (r.bridge.submit account order).2
  | .click index key => r.withBridge (r.bridge.click index key).2
  | .takeCommand => r.withBridge r.bridge.takeCommand?.2
  | .refreshLogins store => r.withBridge (r.bridge.refreshLogins store)
  | .refreshDevices store => r.withBridge (r.bridge.refreshDevices store)

/-- Let a sequence of things happen. -/
def occurAll (r : Run) (occurrences : List Occurrence) : Run :=
  occurrences.foldl occur r

/-- What happens is a tick that handles an event. -/
def dispatches (r : Run) : Occurrence → Bool
  | .run (.tick store runtime) => (r.bridge.tick store runtime).1 = .dispatched
  | _ => false

/-- The number of ticks that handle an event. -/
def dispatchedIn (r : Run) : List Occurrence → Nat
  | [] => 0
  | occurrence :: rest => (r.dispatches occurrence).toNat + (r.occur occurrence).dispatchedIn rest

/-- Every record announced, as someone sees it who looks after each thing that happens. -/
def announcedIn (r : Run) : List Occurrence → List SignalRecord
  | [] => []
  | occurrence :: rest =>
    (r.occur occurrence).bridge.bus.since r.bridge.bus.lastSeq ++ (r.occur occurrence).announcedIn rest

variable {r : Run} {capacity : Nat} {sent : List Event} {count : Nat}

/-- An occurrence other than a tick and an event that is sent leaves the relay as it is. -/
theorem relays_of_quiet (h : r.bridge.Relays capacity sent count) {occurrence : Occurrence}
    (hsilent : occurrence.event? = none) (hquiet : r.dispatches occurrence = false)
    {b : Bridge} (hinbound : b.inbound = r.bridge.inbound) (hbus : b.bus = r.bridge.bus) :
    b.Relays capacity (sent ++ sentIn [occurrence]) (count + (r.dispatches occurrence).toNat) := by
  rw [sentIn, List.filterMap_cons_none hsilent, List.filterMap_nil, List.append_nil, hquiet]
  exact h.of_eq hinbound hbus

/-- Whatever happens, the bridge has relayed what was dispatched of what was sent. -/
theorem relays_occur (h : r.bridge.Relays capacity sent count) (occurrence : Occurrence) :
    (r.occur occurrence).bridge.Relays capacity (sent ++ sentIn [occurrence])
      (count + (r.dispatches occurrence).toNat) := by
  cases occurrence with
  | send event => exact h.receive event
  | run step =>
    cases step with
    | tick store runtime =>
      rw [sentIn, List.filterMap_cons_none rfl, List.filterMap_nil, List.append_nil]
      by_cases hnil : r.bridge.inbound.waiting = []
      · have htick := Bridge.Relays.tick_of_waiting_eq_nil hnil store runtime
        simp only [occur, step, dispatches, htick]
        exact h
      · have htick := h.tick_of_waiting_ne_nil hnil store runtime
        simp only [occur, step, dispatches, htick.1]
        exact htick.2
    | call _ | enter _ | requestStop | begin | answer | finish =>
      apply relays_of_quiet h rfl rfl
      · exact congrArg Bridge.inbound (r.step_bridge fun _ _ => RunStep.noConfusion)
      · exact congrArg Bridge.bus (r.step_bridge fun _ _ => RunStep.noConfusion)
  | submit account order => exact relays_of_quiet h rfl rfl rfl rfl
  | click index key =>
    apply relays_of_quiet h rfl rfl
    all_goals
      simp only [occur, withBridge, Bridge.click]
      split <;> rfl
  | takeCommand =>
    apply relays_of_quiet h rfl rfl
    all_goals
      simp only [occur, withBridge, Bridge.takeCommand?]
      split <;> rfl
  | refreshLogins store => exact relays_of_quiet h rfl rfl rfl rfl
  | refreshDevices store => exact relays_of_quiet h rfl rfl rfl rfl

/-- After any run, the bridge has relayed what was dispatched of what was sent. -/
theorem relays_occurAll (h : r.bridge.Relays capacity sent count) (occurrences : List Occurrence) :
    (r.occurAll occurrences).bridge.Relays capacity (sent ++ sentIn occurrences)
      (count + r.dispatchedIn occurrences) := by
  induction occurrences generalizing r sent count with
  | nil =>
    rw [sentIn, List.filterMap_nil, List.append_nil]
    exact h
  | cons occurrence rest ih =>
    have hrest := ih (relays_occur h occurrence)
    rwa [List.append_assoc, ← sentIn_cons, Nat.add_assoc] at hrest

/-- The records that come up in one step continue the numbered signals of what was dispatched before. -/
theorem numbered_append_since_occur (h : r.bridge.Relays capacity sent count) (occurrence : Occurrence)
    (hfit : (signalsOf ((sent ++ sentIn [occurrence]).take
      (count + (r.dispatches occurrence).toNat))).length < UInt64.size) :
    numbered (signalsOf (sent.take count)) ++
        (r.occur occurrence).bridge.bus.since r.bridge.bus.lastSeq =
      numbered (signalsOf ((sent ++ sentIn [occurrence]).take
        (count + (r.dispatches occurrence).toNat))) := by
  have hnow := (relays_occur h occurrence).retains
  have hsplit : (sent ++ sentIn [occurrence]).take (count + (r.dispatches occurrence).toNat) =
      sent.take count ++
        ((sent ++ sentIn [occurrence]).drop count).take (r.dispatches occurrence).toNat := by
    rw [List.take_add, List.take_append_of_le_length h.count_le]
  generalize hnew : ((sent ++ sentIn [occurrence]).drop count).take (r.dispatches occurrence).toNat =
    new at hsplit
  have hone : (signalsOf new).length ≤ 1 := by
    apply (length_signalsOf_le new).trans
    rw [← hnew]
    exact (List.length_take_le _ _).trans (Bool.toNat_le _)
  rw [hsplit, signalsOf_append] at hfit hnow ⊢
  exact h.retains.numbered_append_since hnow (hone.trans hnow.capacity_pos) hfit

/-- The records that come up in a run continue the numbered signals of what was dispatched before. -/
theorem numbered_append_announcedIn (h : r.bridge.Relays capacity sent count)
    (occurrences : List Occurrence)
    (hfit : (signalsOf ((sent ++ sentIn occurrences).take
      (count + r.dispatchedIn occurrences))).length < UInt64.size) :
    numbered (signalsOf (sent.take count)) ++ r.announcedIn occurrences =
      numbered (signalsOf ((sent ++ sentIn occurrences).take
        (count + r.dispatchedIn occurrences))) := by
  induction occurrences generalizing r sent count with
  | nil =>
    rw [announcedIn, List.append_nil, sentIn, List.filterMap_nil, List.append_nil]
    rfl
  | cons occurrence rest ih =>
    rw [sentIn_cons, ← List.append_assoc, dispatchedIn, ← Nat.add_assoc] at hfit ⊢
    have hrest := ih (relays_occur h occurrence) hfit
    have hshorter : (signalsOf ((sent ++ sentIn [occurrence]).take
        (count + (r.dispatches occurrence).toNat))).length < UInt64.size := by
      have hlen := congrArg List.length hrest
      rw [List.length_append, length_numbered, length_numbered] at hlen
      omega
    rw [announcedIn, ← List.append_assoc, numbered_append_since_occur h occurrence hshorter, hrest]

/-- Every event is relayed exactly once and in order.

After any run of a fresh bridge, the events that wait are those sent without the dispatched ones, and
both counts of unfinished events are the difference. The bus is the one that announces, in order, the
signals that the dispatched events call for; as long as their numbers fit into a word, the records
announced are these signals with the numbers 1, 2, 3 and so on. A tick is idle exactly when no event
waits, and then changes nothing. -/
theorem relay_exactly_once (settings : Settings) (store : Store) (desktop : Desktop)
    (occurrences : List Occurrence) :
    let fresh := ofBridge (.start settings store desktop)
    let bridge := (fresh.occurAll occurrences).bridge
    let sent := sentIn occurrences
    let count := fresh.dispatchedIn occurrences
    count ≤ sent.length ∧ bridge.inbound.waiting = sent.drop count ∧
      bridge.inbound.waiting.length = sent.length - count ∧
      bridge.inbound.pending = sent.length - count ∧
      (∃ signals, Relayed (sent.take count) signals ∧
        bridge.bus = (SignalBus.ofCapacity settings.pace.signalHistory.toNat).emitAll signals ∧
        bridge.bus.lastSeq = UInt64.ofNat signals.length ∧
        (signals.length < UInt64.size → fresh.announcedIn occurrences = numbered signals)) ∧
      ∀ (now : Store) (runtime : Bool),
        ((bridge.tick now runtime).1 = .idle ↔ bridge.inbound.waiting = []) ∧
          (bridge.inbound.waiting = [] → bridge.tick now runtime = (.idle, bridge)) := by
  intro fresh bridge sent count
  have hstart : fresh.bridge.Relays settings.pace.signalHistory.toNat [] 0 :=
    Bridge.relays_start settings store desktop
  have h := relays_occurAll hstart occurrences
  rw [List.nil_append, Nat.zero_add] at h
  refine ⟨h.count_le, h.waiting_eq, ?_, h.unfinished_eq,
    ⟨signalsOf (sent.take count), relayed_signalsOf _, h.bus_eq, h.retains.lastSeq_eq, fun hfit => ?_⟩,
    fun now runtime => ⟨?_, fun hnil => Bridge.Relays.tick_of_waiting_eq_nil hnil now runtime⟩⟩
  · exact (congrArg List.length h.waiting_eq).trans List.length_drop
  · have hrecords := numbered_append_announcedIn hstart occurrences (by
      rw [List.nil_append, Nat.zero_add]
      exact hfit)
    rwa [List.take_nil, List.nil_append, Nat.zero_add] at hrecords
  · constructor
    · intro hidle
      by_contra hne
      exact absurd (hidle.symm.trans (h.tick_of_waiting_ne_nil hne now runtime).1) (by decide)
    · intro hnil
      rw [Bridge.Relays.tick_of_waiting_eq_nil hnil now runtime]

end Run

end DaemonBridge
