import DaemonBridge.Bridge
import DaemonBridge.Proofs.Queue.Join
import DaemonBridge.Proofs.Signal.Retention

/-!
# The relay from events to signals

A bridge passes each event of the worker on exactly once and in order. `Bridge.Relays` says how far it
has come: the events that it has not handled wait in its queue, they are what the count of unfinished
events counts, and its bus is the one that results from announcing the signals of the handled ones.
Each thing that a bridge does either leaves this as it is or moves it on by one event.

Which signal an event calls for is said a second time, field by field and without the functions of the
bridge (`Raises`), and carried over to whole sequences of events (`Relayed`).
-/

namespace DaemonBridge

/-- The signal that an event calls for. -/
inductive Raises : Event → Signal → Prop
  | messageHeld (account room roomName : String) :
      Raises (.messageHeld ⟨account, room, roomName⟩) (.unverifiedDevices ⟨account, room, roomName⟩)
  | verificationInvited (account user device transaction : String) :
      Raises (.verificationInvited ⟨account, user, device, transaction⟩)
        (.verificationInvite ⟨account, user, device, transaction⟩)
  | symbolsReady (account user device transaction : String) (symbols : List Symbol)
      (pairs : List (String × String))
      (inOrder : List.Forall₂ (fun symbol pair => pair = (symbol.emoji, symbol.description))
        symbols pairs) :
      Raises (.symbolsReady ⟨account, user, device, transaction⟩ symbols)
        (.verificationString ⟨account, user, device, transaction⟩ pairs)
  | verificationDone (account user device transaction : String) :
      Raises (.verificationDone ⟨account, user, device, transaction⟩)
        (.verificationDone ⟨account, user, device, transaction⟩)
  | verificationCanceled (account user device transaction reason code : String) :
      Raises (.verificationCanceled ⟨account, user, device, transaction⟩ reason code)
        (.verificationCancel ⟨account, user, device, transaction⟩ reason code)
  | answered (id : CommandId) (account code text : String) (message : Dict String)
      (entries : message.entries = [("code", code), ("message", text)]) :
      Raises (.answered ⟨id, account, code, text⟩) (.response id account message)

/-- The events that call for no signal. -/
inductive Silent : Event → Prop
  | usersChanged : Silent .usersChanged
  | devicesChanged : Silent .devicesChanged
  | unrecognized : Silent .unrecognized

/-- The signals that a sequence of events calls for, in order. -/
inductive Relayed : List Event → List Signal → Prop
  | nil : Relayed [] []
  | silent {event : Event} {events : List Event} {signals : List Signal} (quiet : Silent event)
      (rest : Relayed events signals) : Relayed (event :: events) signals
  | raised {event : Event} {signal : Signal} {events : List Event} {signals : List Signal}
      (raises : Raises event signal) (rest : Relayed events signals) :
      Relayed (event :: events) (signal :: signals)

/-- A response carries the code and the text of the answer and nothing else. -/
theorem Answer.message_entries (code text : String) :
    (Dict.ofList [("code", code), ("message", text)]).entries =
      [("code", code), ("message", text)] := by
  have hback : ¬ "message" < "code" := by decide
  have hfront : "code" < "message" := by decide
  change Dict.insertEntry "message" text (Dict.insertEntry "code" code []) = _
  rw [Dict.insertEntry, Dict.insertEntry, if_neg hback, if_pos hfront, Dict.insertEntry]

/-- The bridge raises the signal that an event calls for. -/
theorem raises_of_signal?_eq_some {event : Event} {signal : Signal} (h : event.signal? = some signal) :
    Raises event signal := by
  cases event with
  | usersChanged => contradiction
  | devicesChanged => contradiction
  | unrecognized => contradiction
  | messageHeld held =>
    cases h
    exact .messageHeld held.account held.room held.roomName
  | verificationInvited v =>
    cases h
    exact .verificationInvited v.account v.user v.device v.transaction
  | symbolsReady v symbols =>
    cases h
    refine .symbolsReady v.account v.user v.device v.transaction symbols _ ?_
    induction symbols with
    | nil => exact List.Forall₂.nil
    | cons symbol rest ih => exact List.Forall₂.cons rfl ih
  | verificationDone v =>
    cases h
    exact .verificationDone v.account v.user v.device v.transaction
  | verificationCanceled v reason code =>
    cases h
    exact .verificationCanceled v.account v.user v.device v.transaction reason code
  | answered answer =>
    cases h
    exact .answered answer.id answer.account answer.code answer.message _
      (Answer.message_entries answer.code answer.message)

/-- The bridge raises no signal only for an event that calls for none. -/
theorem silent_of_signal?_eq_none {event : Event} (h : event.signal? = none) : Silent event := by
  cases event with
  | usersChanged => exact .usersChanged
  | devicesChanged => exact .devicesChanged
  | unrecognized => exact .unrecognized
  | _ => contradiction

/-- The signals of a sequence of events. -/
def signalsOf (events : List Event) : List Signal :=
  events.filterMap Event.signal?

/-- The signals of two sequences follow each other. -/
theorem signalsOf_append (earlier later : List Event) :
    signalsOf (earlier ++ later) = signalsOf earlier ++ signalsOf later :=
  List.filterMap_append

/-- An event has at most one signal. -/
theorem length_signalsOf_le (events : List Event) : (signalsOf events).length ≤ events.length :=
  List.length_filterMap_le _ _

/-- What the bridge raises for a sequence of events is what the sequence calls for. -/
theorem relayed_signalsOf (events : List Event) : Relayed events (signalsOf events) := by
  induction events with
  | nil => exact .nil
  | cons event rest ih =>
    cases hsignal : event.signal? with
    | none =>
      rw [signalsOf, List.filterMap_cons_none hsignal]
      exact .silent (silent_of_signal?_eq_none hsignal) ih
    | some signal =>
      rw [signalsOf, List.filterMap_cons_some hsignal]
      exact .raised (raises_of_signal?_eq_some hsignal) ih

namespace Bridge

/-- Of the events sent to it, the bridge has handled the first `count`. -/
structure Relays (b : Bridge) (capacity : Nat) (sent : List Event) (count : Nat) : Prop where
  count_le : count ≤ sent.length
  receiverOpen : b.inbound.receiverOpen = true
  waiting_eq : b.inbound.waiting = sent.drop count
  unfinished_eq : b.inbound.unfinished = sent.length - count
  bus_eq : b.bus = (SignalBus.ofCapacity capacity).emitAll (signalsOf (sent.take count))

/-- Handling an event leaves the queue of events alone. -/
theorem handle_inbound (b : Bridge) (store : Store) (runtime : Bool) (event : Event) :
    (b.handle store runtime event).inbound = b.inbound := by
  unfold handle notify announce refreshFor
  split <;> split <;> split <;> rfl

/-- Handling an event announces its signal and nothing else. -/
theorem handle_bus (b : Bridge) (store : Store) (runtime : Bool) (event : Event) :
    (b.handle store runtime event).bus = b.bus.emitAll (signalsOf [event]) := by
  unfold handle notify announce refreshFor
  cases event <;> simp only [Event.signal?, signalsOf] <;> split <;> rfl

/-- Handling an event makes the refresh that it calls for and no other. -/
theorem handle_cache (b : Bridge) (store : Store) (runtime : Bool) (event : Event) :
    (b.handle store runtime event).cache = (b.refreshFor store event).cache ∧
      (b.handle store runtime event).settings = (b.refreshFor store event).settings := by
  unfold handle notify announce
  split <;> split <;> exact ⟨rfl, rfl⟩

/-- A refresh depends on the cache before it and on the settings alone. -/
theorem refreshFor_congr {b b' : Bridge} (hcache : b.cache = b'.cache)
    (hsettings : b.settings = b'.settings) (store : Store) (event : Event) :
    (b.refreshFor store event).cache = (b'.refreshFor store event).cache ∧
      (b.refreshFor store event).settings = (b'.refreshFor store event).settings := by
  cases event with
  | usersChanged => simp only [refreshFor, refreshLogins, hcache, hsettings, and_self]
  | devicesChanged => simp only [refreshFor, refreshDevices, hcache, hsettings, and_self]
  | _ => exact ⟨hcache, hsettings⟩

namespace Relays

variable {b : Bridge} {capacity : Nat} {sent : List Event} {count : Nat}

/-- What touches neither the queue of events nor the bus changes nothing. -/
theorem of_eq (h : b.Relays capacity sent count) {b' : Bridge} (hinbound : b'.inbound = b.inbound)
    (hbus : b'.bus = b.bus) : b'.Relays capacity sent count := by
  constructor
  · exact h.count_le
  · rw [hinbound]
    exact h.receiverOpen
  · rw [hinbound]
    exact h.waiting_eq
  · rw [hinbound]
    exact h.unfinished_eq
  · rw [hbus]
    exact h.bus_eq

/-- An event that is sent joins the end of the queue. -/
theorem receive (h : b.Relays capacity sent count) (event : Event) :
    (b.receive event).Relays capacity (sent ++ [event]) count := by
  have hpush : (b.receive event).inbound =
      { b.inbound with
        waiting := b.inbound.waiting ++ [event]
        unfinished := b.inbound.unfinished + 1 } := by
    simp only [Bridge.receive, EventQueue.send, EventQueue.push, EventQueue.announce, h.receiverOpen,
      if_true]
  have hle := h.count_le
  constructor
  · rw [List.length_append]
    omega
  · rw [hpush]
    exact h.receiverOpen
  · rw [hpush, List.drop_append_of_le_length hle]
    exact congrArg (· ++ [event]) h.waiting_eq
  · rw [hpush, List.length_append, List.length_singleton]
    change b.inbound.unfinished + 1 = _
    rw [h.unfinished_eq]
    omega
  · rw [List.take_append_of_le_length hle]
    exact h.bus_eq

/-- The log retains the signals of the handled events. -/
theorem retains (h : b.Relays capacity sent count) :
    b.bus.log.Retains (signalsOf (sent.take count)) := by
  rw [h.bus_eq]
  exact SignalBus.retains_emitAll capacity _

/-- Nothing waits exactly when every event has been handled. -/
theorem waiting_eq_nil_iff (h : b.Relays capacity sent count) :
    b.inbound.waiting = [] ↔ count = sent.length := by
  have := h.count_le
  rw [h.waiting_eq, List.drop_eq_nil_iff]
  omega

/-- A tick without waiting events is idle and changes nothing. -/
theorem tick_of_waiting_eq_nil (hnil : b.inbound.waiting = []) (store : Store) (runtime : Bool) :
    b.tick store runtime = (.idle, b) := by
  simp only [Bridge.tick, EventQueue.next?, hnil]

/-- A tick with waiting events handles the first one. -/
theorem tick_of_waiting_ne_nil (h : b.Relays capacity sent count) (hne : b.inbound.waiting ≠ [])
    (store : Store) (runtime : Bool) :
    (b.tick store runtime).1 = .dispatched ∧
      (b.tick store runtime).2.Relays capacity sent (count + 1) := by
  have hlt : count < sent.length := by
    have := h.count_le
    have := mt h.waiting_eq_nil_iff.mpr hne
    omega
  have hdrop : sent.drop count = sent[count] :: sent.drop (count + 1) :=
    List.drop_eq_getElem_cons hlt
  have htake : sent.take (count + 1) = sent.take count ++ [sent[count]] :=
    List.take_succ_eq_append_getElem hlt
  have hwaiting := h.waiting_eq.trans hdrop
  have htick : b.tick store runtime =
      (.dispatched,
        let b' := { b with inbound := { b.inbound with waiting := sent.drop (count + 1) } }.handle
          store runtime sent[count]
        { b' with inbound := b'.inbound.taskDone }) := by
    simp only [Bridge.tick, EventQueue.next?, hwaiting]
  rw [htick]
  refine ⟨rfl, ?_⟩
  have hdone := EventQueue.taskDone_waiting
  constructor
  · omega
  · simp only [hdone, handle_inbound, h.receiverOpen]
  · simp only [hdone, handle_inbound]
  · simp only [hdone, handle_inbound, h.unfinished_eq]
    omega
  · simp only [handle_bus, h.bus_eq]
    rw [htake, signalsOf_append, SignalBus.emitAll, SignalBus.emitAll, SignalBus.emitAll,
      List.foldl_append]

end Relays

/-- A bridge that has just started has relayed nothing. -/
theorem relays_start (settings : Settings) (store : Store) (desktop : Desktop) :
    (start settings store desktop).Relays settings.pace.signalHistory.toNat [] 0 :=
  ⟨Nat.le_refl 0, rfl, rfl, rfl, rfl⟩

end Bridge

end DaemonBridge
