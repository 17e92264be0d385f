import DaemonBridge.Proofs.Bridge.Caching
import DaemonBridge.Proofs.Signal.Audience

/-!
# Waiting until everything has been handled

Senders, ticks and those who wait for the bridge take turns in any sequence. A send is an announcement
and a push, a tick takes an event, handles it and marks it as done, and a wait is made of single steps;
other things may happen between the parts of each (`Flush.step_send`, `Flush.step_tick`,
`Flush.step_poll`). An event counts from its announcement until its handling is marked as done, so a
count of zero means that no part of any send or tick is left over (`Flush.Sound`). A wait ends only at
such a moment, and each such moment ends every wait that is polled.

What it means that an event has been handled is said without the functions of the bridge: the signals
that the events handled call for are the records announced, numbered from 1, and the cache holds the
latest snapshots of the stores that the handlings of changes have found (`Flush.Visible`).
-/

namespace DaemonBridge

/-- An event that a tick has handled, with the store and the runtime that the tick has found. -/
structure Handling where
  event : Event
  store : Store
  runtime : Bool

/-- The stores that the handlings of an event have found, in order. -/
def storesOf (event : Event) (handlings : List Handling) : List Store :=
  (handlings.filter fun handling => handling.event = event).map Handling.store

/-- The stores of two sequences of handlings follow each other. -/
theorem storesOf_append (event : Event) (earlier later : List Handling) :
    storesOf event (earlier ++ later) = storesOf event earlier ++ storesOf event later := by
  simp only [storesOf, List.filter_append, List.map_append]

namespace Bridge

/-- Handle events one after the other. -/
def handleAll (b : Bridge) (handlings : List Handling) : Bridge :=
  handlings.foldl (fun b handling => b.handle handling.store handling.runtime handling.event) b

/-- Another queue takes the place of the queue of events. -/
def withInbound (b : Bridge) (inbound : EventQueue) : Bridge :=
  { b with inbound := inbound }

/-- Handling one more event. -/
theorem handleAll_append (b : Bridge) (handlings : List Handling) (handling : Handling) :
    b.handleAll (handlings ++ [handling]) =
      (b.handleAll handlings).handle handling.store handling.runtime handling.event :=
  List.foldl_append

/-- A refresh does not look at the queue of events. -/
theorem refreshFor_withInbound (b : Bridge) (inbound : EventQueue) (store : Store) (event : Event) :
    (b.withInbound inbound).refreshFor store event =
      (b.refreshFor store event).withInbound inbound := by
  cases event <;> rfl

/-- An announcement does not look at the queue of events. -/
theorem announce_withInbound (b : Bridge) (inbound : EventQueue) (event : Event) :
    (b.withInbound inbound).announce event = (b.announce event).withInbound inbound := by
  simp only [announce]
  split <;> rfl

/-- A notification does not look at the queue of events. -/
theorem notify_withInbound (b : Bridge) (inbound : EventQueue) (runtime : Bool) (event : Event) :
    (b.withInbound inbound).notify runtime event = (b.notify runtime event).withInbound inbound := by
  simp only [notify, withInbound]
  split <;> rfl

/-- Handling an event does not look at the queue of events. -/
theorem handle_withInbound (b : Bridge) (inbound : EventQueue) (store : Store) (runtime : Bool)
    (event : Event) : (b.withInbound inbound).handle store runtime event =
      (b.handle store runtime event).withInbound inbound := by
  rw [handle, refreshFor_withInbound, announce_withInbound, notify_withInbound, handle]

/-- Handling events announces their signals, in order. -/
theorem handleAll_bus (b : Bridge) (handlings : List Handling) :
    (b.handleAll handlings).bus = b.bus.emitAll (signalsOf (handlings.map Handling.event)) := by
  induction handlings using List.reverseRecOn with
  | nil => rfl
  | append_singleton handlings handling ih =>
    rw [handleAll_append, handle_bus, ih, List.map_append, signalsOf_append, SignalBus.emitAll,
      SignalBus.emitAll, SignalBus.emitAll, List.foldl_append]
    rfl

namespace Caches

variable {b : Bridge} {servers : List String} {loginStores deviceStores : List Store}

/-- Handling a change of the logins or the devices is one more attempt at them. -/
theorem handle (h : b.Caches servers loginStores deviceStores) (handling : Handling) :
    (b.handle handling.store handling.runtime handling.event).Caches servers
      (loginStores ++ storesOf .usersChanged [handling])
      (deviceStores ++ storesOf .devicesChanged [handling]) := by
  obtain ⟨event, store, runtime⟩ := handling
  obtain ⟨hcache, hsettings⟩ := b.handle_cache store runtime event
  cases event with
  | usersChanged =>
    rw [show storesOf .devicesChanged [⟨.usersChanged, store, runtime⟩] = [] from rfl, List.append_nil]
    exact (h.refreshLogins store).of_eq hsettings hcache
  | devicesChanged =>
    rw [show storesOf .usersChanged [⟨.devicesChanged, store, runtime⟩] = [] from rfl, List.append_nil]
    exact (h.refreshDevices store).of_eq hsettings hcache
  | _ =>
    simp only [storesOf, List.filter_cons, List.filter_nil, reduceCtorEq, decide_false,
      Bool.false_eq_true, if_false, List.map_nil, List.append_nil]
    exact h.of_eq hsettings hcache

/-- After events have been handled, the cache holds the latest snapshots. -/
theorem handleAll (h : b.Caches servers loginStores deviceStores) (handlings : List Handling) :
    (b.handleAll handlings).Caches servers (loginStores ++ storesOf .usersChanged handlings)
      (deviceStores ++ storesOf .devicesChanged handlings) := by
  induction handlings generalizing b loginStores deviceStores with
  | nil =>
    simp only [storesOf, List.filter_nil, List.map_nil, List.append_nil]
    exact h
  | cons first rest ih =>
    have hrest := ih (h.handle first)
    rwa [List.append_assoc, List.append_assoc, ← storesOf_append, ← storesOf_append] at hrest

end Caches

end Bridge

/-- How far the tick that is under way has come. -/
inductive TickStage where
  | idle
  | taken (event : Event)
  | handled

namespace TickStage

/-- The event that has been taken and not handled. -/
def event? : TickStage → Option Event
  | .taken event => some event
  | _ => none

/-- The number of events that have been taken and not marked as done. -/
def count : TickStage → Nat
  | .idle => 0
  | _ => 1

end TickStage

/-- A bridge, the tick under way, the events that have been announced and not pushed, and everyone who
waits or has waited. What has been sent and what has been handled is only remembered. -/
structure Flush where
  bridge : Bridge
  stage : TickStage := .idle
  underway : List Event := []
  joins : List Join := []
  sent : List Event := []
  handled : List Handling := []

/-- Something that happens around a bridge for which someone waits. -/
inductive FlushStep where
  /-- Someone sends an event. -/
  | send (event : Event)
  /-- Someone begins to send an event. -/
  | announce (event : Event)
  /-- The send at a place among those under way is brought to its end. -/
  | push (place : Nat)
  /-- At most one event is handled, unless a tick is under way. -/
  | tick (store : Store) (runtime : Bool)
  /-- A tick begins. -/
  | take
  /-- The tick under way handles its event. -/
  | handle (store : Store) (runtime : Bool)
  /-- The tick under way ends. -/
  | done
  /-- Someone begins to wait. -/
  | join
  /-- Whoever waits at a place takes one step. -/
  | advance (place : Nat)
  /-- Whoever waits at a place is polled. -/
  | poll (place : Nat)

/-- A send begins. -/
def FlushStep.beginsSend : FlushStep → Bool
  | .send _ | .announce _ => true
  | _ => false

namespace Flush

/-- A bridge for which nobody waits yet. -/
def ofBridge (bridge : Bridge) : Flush := { bridge := bridge }

/-- The queue of events. -/
def inbound (w : Flush) : EventQueue := w.bridge.inbound

/-- Another queue takes the place of the queue of events. -/
def withInbound (w : Flush) (inbound : EventQueue) : Flush :=
  { w with bridge := w.bridge.withInbound inbound }

/-- The event that a tick would handle, as a list, and the store and the runtime that it would find. -/
def nextHandling (w : Flush) (store : Store) (runtime : Bool) : List Handling :=
  (w.inbound.waiting.head?.map fun event => ⟨event, store, runtime⟩).toList

/-- Let something happen. -/
def step (w : Flush) : FlushStep → Flush
  | .send event => { w with bridge := w.bridge.receive event, sent := w.sent ++ [event] }
  | .announce event =>
    { w.withInbound w.inbound.announce with underway := w.underway ++ [event] }
  | .push place =>
    match w.underway[place]? with
    | some event =>
      { w.withInbound (w.inbound.push event) with
        underway := w.underway.eraseIdx place
        sent := w.sent ++ [event] }
    | none => w
  | .tick store runtime =>
    match w.stage with
    | .idle =>
      { w with
        bridge := (w.bridge.tick store runtime).2
        handled := w.handled ++ w.nextHandling store runtime }
    | _ => w
  | .take =>
    match w.stage, w.inbound.next? with
    | .idle, some (event, inbound) => { w.withInbound inbound with stage := .taken event }
    | _, _ => w
  | .handle store runtime =>
    match w.stage with
    | .taken event =>
      { w with
        bridge := w.bridge.handle store runtime event
        stage := .handled
        handled := w.handled ++ [⟨event, store, runtime⟩] }
    | _ => w
  | .done =>
    match w.stage with
    | .handled => { w.withInbound w.inbound.taskDone with stage := .idle }
    | _ => w
  | .join => { w with joins := w.joins ++ [.ready] }
  | .advance place => { w with joins := w.joins.modify place (Join.step w.inbound) }
  | .poll place => { w with joins := w.joins.modify place (Join.poll w.inbound) }

/-- Let a sequence of things happen. -/
def run (w : Flush) (steps : List FlushStep) : Flush :=
  steps.foldl step w

/-- Things happen one after the other. -/
theorem run_append (w : Flush) (earlier later : List FlushStep) :
    w.run (earlier ++ later) = (w.run earlier).run later :=
  List.foldl_append

/-- A wait at a place ends. -/
def Completes (w : Flush) (step : FlushStep) (place : Nat) : Prop :=
  w.joins[place]? ≠ some .finished ∧ (w.step step).joins[place]? = some .finished

/-- The signals that the bridge raises for what has been handled. -/
def raised (w : Flush) : List Signal :=
  signalsOf (w.handled.map Handling.event)

/-- Every record announced, as someone sees it who looks after each thing that happens. -/
def announcedIn (w : Flush) : List FlushStep → List SignalRecord
  | [] => []
  | step :: rest =>
    (w.step step).bridge.bus.since w.bridge.bus.lastSeq ++ (w.step step).announcedIn rest

/-- Every event has been handled: no send and no tick is under way, nothing waits, and the events handled
are those sent, in order. -/
structure Flushed (w : Flush) : Prop where
  underway : w.underway = []
  stage : w.stage = .idle
  waiting : w.inbound.waiting = []
  handled : w.handled.map Handling.event = w.sent

/-- What has been handled can be seen. The signals that it calls for, numbered from 1, are the records
announced, the last of which are in the log and in the ring of the subscribers. The logins and the devices
are what the last store that did not fail has given, of the one at the start and those found when they had
changed, and questions are answered from them. -/
structure Visible (settings : Settings) (store : Store) (announced : List SignalRecord) (w : Flush) :
    Prop where
  signals : ∃ signals, Relayed (w.handled.map Handling.event) signals ∧
    w.bridge.bus.Carries settings.pace.signalHistory.toNat signals ∧
    (signals.length < UInt64.size → announced = numbered signals)
  logins : IsLatest (Store.GivesLogins · settings.serverNames) (Store.FailsLogins · settings.serverNames) ∅
    (store :: storesOf .usersChanged w.handled) w.bridge.cache.logins
  devices : IsLatest Store.GivesDevices Store.FailsDevices ∅
    (store :: storesOf .devicesChanged w.handled) w.bridge.cache.devices
  serversAnswer : w.bridge.cache.answer .servers = .servers w.bridge.cache.logins
  devicesAnswer : ∀ account, ∃ found, w.bridge.cache.answer (.devices account) = .devices found ∧
    ∀ device, device ∈ found ↔ ∃ user id records users,
      w.bridge.cache.devices.find? account = some users ∧ users.find? user = some records ∧
        records.find? id = some device
  userDevicesAnswer : ∀ account user, ∃ found,
    w.bridge.cache.answer (.userDevices account user) = .devices found ∧
      ∀ device, device ∈ found ↔ ∃ id records users,
        w.bridge.cache.devices.find? account = some users ∧ users.find? user = some records ∧
          records.find? id = some device

/-! ## Sends, ticks and polls in parts -/

/-- A send is an announcement and a push. -/
theorem step_send (w : Flush) (event : Event) :
    w.step (.send event) = w.run [.announce event, .push w.underway.length] := by
  have hplace : (w.underway ++ [event])[w.underway.length]? = some event :=
    List.getElem?_concat_length
  have herase : (w.underway ++ [event]).eraseIdx w.underway.length = w.underway := by
    rw [List.eraseIdx_append_of_length_le (Nat.le_refl _), Nat.sub_self]
    exact List.append_nil _
  simp only [run, List.foldl_cons, List.foldl_nil, step, withInbound, hplace, herase]
  rfl

/-- A tick takes an event, handles it and marks it as done. -/
theorem step_tick (w : Flush) (hidle : w.stage = .idle) (store : Store) (runtime : Bool) :
    w.step (.tick store runtime) = w.run [.take, .handle store runtime, .done] := by
  obtain ⟨bridge, stage, underway, joins, sent, handled⟩ := w
  subst hidle
  cases hwaiting : bridge.inbound.waiting with
  | nil =>
    simp [run, step, inbound, nextHandling, EventQueue.next?, Bridge.tick, hwaiting]
  | cons event rest =>
    simp [run, step, inbound, nextHandling, EventQueue.next?, Bridge.tick, hwaiting, withInbound]
    rfl

/-- A poll is several steps. -/
theorem step_poll (w : Flush) (place : Nat) :
    w.step (.poll place) = w.run (List.replicate 4 (.advance place)) := by
  have hpoll : Join.poll w.inbound = (Join.step w.inbound)^[4] :=
    funext (Join.poll_eq_iterate_step w.inbound)
  have hjoins : w.joins.modify place (Join.poll w.inbound) =
      (((w.joins.modify place (Join.step w.inbound)).modify place (Join.step w.inbound)).modify place
        (Join.step w.inbound)).modify place (Join.step w.inbound) := by
    simp only [List.modify_modify_eq, hpoll]
    rfl
  exact congrArg (fun joins => { w with joins := joins }) hjoins

/-! ## What always holds -/

/-- What has been sent has been handled, is being handled or waits, in this order; what counts is what a
send or a tick has not brought to its end; the bridge has done nothing but handle events; and nobody who
waits has missed a drain. -/
structure Sound (fresh : Bridge) (w : Flush) : Prop where
  receiverOpen : w.inbound.receiverOpen = true
  sent_eq : w.sent = w.handled.map Handling.event ++ (w.stage.event?.toList ++ w.inbound.waiting)
  unfinished_eq : w.inbound.unfinished = w.underway.length + w.stage.count + w.inbound.waiting.length
  bridge_eq : ∀ q, w.bridge.withInbound q = (fresh.handleAll w.handled).withInbound q
  timely : ∀ join ∈ w.joins, join.Timely w.inbound

namespace Sound

variable {fresh : Bridge} {w : Flush}

/-- At the start nobody waits and nothing has been sent. -/
theorem start (settings : Settings) (store : Store) (desktop : Desktop) :
    (ofBridge (.start settings store desktop)).Sound (.start settings store desktop) :=
  ⟨rfl, rfl, rfl, fun _ => rfl, List.forall_mem_nil _⟩

/-- A queue that has drained in no other way than it should leaves everyone timely. -/
theorem timely_of_drainsInto (h : w.Sound fresh) {q : EventQueue} (hinto : w.inbound.DrainsInto q) :
    ∀ join ∈ w.joins, join.Timely q :=
  fun join hmem => (h.timely join hmem).mono hinto

/-- A step that changes nothing changes nothing. -/
theorem of_step_eq (h : w.Sound fresh) {step : FlushStep} (hstep : w.step step = w) :
    (w.step step).Sound fresh := by
  rw [hstep]
  exact h

/-- An announced event counts. -/
theorem announce (h : w.Sound fresh) (event : Event) : (w.step (.announce event)).Sound fresh where
  receiverOpen := h.receiverOpen
  sent_eq := h.sent_eq
  unfinished_eq := by
    have hcount := h.unfinished_eq
    show w.inbound.unfinished + 1 = (w.underway ++ [event]).length + w.stage.count +
      w.inbound.waiting.length
    rw [List.length_append, List.length_singleton]
    omega
  bridge_eq := h.bridge_eq
  timely := h.timely_of_drainsInto (.announce w.inbound)

/-- A pushed event has been sent and waits. -/
theorem push (h : w.Sound fresh) (place : Nat) : (w.step (.push place)).Sound fresh := by
  simp only [Flush.step]
  split
  · next event hevent =>
    obtain ⟨hlt, -⟩ := List.getElem?_eq_some_iff.mp hevent
    have hcount := h.unfinished_eq
    rw [EventQueue.push_of_receiverOpen h.receiverOpen event]
    exact
      { receiverOpen := h.receiverOpen
        sent_eq := by
          show w.sent ++ [event] = w.handled.map Handling.event ++
            (w.stage.event?.toList ++ (w.inbound.waiting ++ [event]))
          rw [h.sent_eq, List.append_assoc, List.append_assoc]
        unfinished_eq := by
          show w.inbound.unfinished = (w.underway.eraseIdx place).length + w.stage.count +
            (w.inbound.waiting ++ [event]).length
          rw [List.length_eraseIdx_of_lt hlt, List.length_append, List.length_singleton]
          omega
        bridge_eq := h.bridge_eq
        timely := h.timely_of_drainsInto (.of_eq rfl rfl) }
  · exact h

/-- An event that a tick has taken goes on counting. -/
theorem take (h : w.Sound fresh) : (w.step .take).Sound fresh := by
  cases hstage : w.stage with
  | idle =>
    cases hwaiting : w.inbound.waiting with
    | nil =>
      have hstep : w.step .take = w := by simp only [Flush.step, EventQueue.next?, hstage, hwaiting]
      exact h.of_step_eq hstep
    | cons event rest =>
      have hstep : w.step .take =
          { w.withInbound { w.inbound with waiting := rest } with stage := .taken event } := by
        simp only [Flush.step, EventQueue.next?, hstage, hwaiting]
      have hsent := h.sent_eq
      have hcount := h.unfinished_eq
      rw [hstage, hwaiting] at hsent hcount
      rw [hstep]
      exact
        { receiverOpen := h.receiverOpen
          sent_eq := hsent
          unfinished_eq := by
            show w.inbound.unfinished = w.underway.length + 1 + rest.length
            rw [hcount, List.length_cons]
            show _ + 0 + _ = _
            omega
          bridge_eq := h.bridge_eq
          timely := h.timely_of_drainsInto (.of_eq rfl rfl) }
  | taken _ | handled =>
    have hstep : w.step .take = w := by simp only [Flush.step, hstage]
    exact h.of_step_eq hstep

/-- The event that has been taken is handled. -/
theorem handle (h : w.Sound fresh) (store : Store) (runtime : Bool) :
    (w.step (.handle store runtime)).Sound fresh := by
  cases hstage : w.stage with
  | taken event =>
    have hstep : w.step (.handle store runtime) =
        { w with
          bridge := w.bridge.handle store runtime event
          stage := .handled
          handled := w.handled ++ [⟨event, store, runtime⟩] } := by
      simp only [Flush.step, hstage]
    have hinbound : (w.bridge.handle store runtime event).inbound = w.inbound :=
      w.bridge.handle_inbound store runtime event
    have hsent := h.sent_eq
    have hcount := h.unfinished_eq
    rw [hstage] at hsent hcount
    rw [hstep]
    constructor
    · simp only [inbound, hinbound]
      exact h.receiverOpen
    · simp only [inbound, hinbound, List.map_append, List.append_assoc]
      exact hsent
    · simp only [inbound, hinbound]
      exact hcount
    · intro q
      rw [Bridge.handleAll_append, ← Bridge.handle_withInbound, h.bridge_eq,
        Bridge.handle_withInbound]
    · simp only [inbound, hinbound]
      exact h.timely
  | idle | handled =>
    have hstep : w.step (.handle store runtime) = w := by simp only [Flush.step, hstage]
    exact h.of_step_eq hstep

/-- An event that is marked as done no longer counts. -/
theorem done (h : w.Sound fresh) : (w.step .done).Sound fresh := by
  cases hstage : w.stage with
  | handled =>
    have hstep : w.step .done = { w.withInbound w.inbound.taskDone with stage := .idle } := by
      simp only [Flush.step, hstage]
    obtain ⟨hwaiting, hopen, hless⟩ := w.inbound.taskDone_waiting
    have hsent := h.sent_eq
    have hcount := h.unfinished_eq
    rw [hstage] at hsent hcount
    rw [hstep]
    constructor
    · exact hopen.trans h.receiverOpen
    · show w.sent = w.handled.map Handling.event ++ ([] ++ w.inbound.taskDone.waiting)
      rw [hwaiting]
      exact hsent
    · show w.inbound.taskDone.unfinished = w.underway.length + 0 + w.inbound.taskDone.waiting.length
      rw [hwaiting, hless, hcount]
      show _ + 1 + _ - 1 = _
      omega
    · exact h.bridge_eq
    · exact h.timely_of_drainsInto (.taskDone w.inbound)
  | idle | taken _ =>
    have hstep : w.step .done = w := by simp only [Flush.step, hstage]
    exact h.of_step_eq hstep

/-- Someone who begins to wait has missed nothing. -/
theorem join (h : w.Sound fresh) : (w.step .join).Sound fresh :=
  { h with timely := List.forall_mem_append.mpr ⟨h.timely, List.forall_mem_singleton.mpr trivial⟩ }

/-- Nobody misses a drain by a step of a wait. -/
theorem advance (h : w.Sound fresh) (place : Nat) : (w.step (.advance place)).Sound fresh :=
  { h with
    timely := by
      intro join hmem
      obtain ⟨other, hother⟩ := List.mem_iff_getElem?.mp hmem
      simp only [Flush.step, List.getElem?_modify, Option.map_eq_map, Option.map_eq_some_iff] at hother
      obtain ⟨before, hbefore, rfl⟩ := hother
      have htimely := h.timely before (List.mem_of_getElem? hbefore)
      split
      · exact htimely.step
      · exact htimely }

/-- Whatever happens, nothing is lost and nobody misses a drain. -/
theorem step (h : w.Sound fresh) (step : FlushStep) : (w.step step).Sound fresh := by
  cases step with
  | send event =>
    rw [step_send]
    exact (h.announce event).push _
  | announce event => exact h.announce event
  | push place => exact h.push place
  | tick store runtime =>
    cases hstage : w.stage with
    | idle =>
      rw [step_tick w hstage]
      exact (h.take.handle store runtime).done
    | taken _ | handled => exact h.of_step_eq (by simp only [Flush.step, hstage])
  | take => exact h.take
  | handle store runtime => exact h.handle store runtime
  | done => exact h.done
  | join => exact h.join
  | advance place => exact h.advance place
  | poll place =>
    rw [step_poll]
    exact (((h.advance place).advance place).advance place).advance place

/-- After any run, nothing is lost and nobody has missed a drain. -/
theorem run (h : w.Sound fresh) (steps : List FlushStep) : (w.run steps).Sound fresh := by
  induction steps generalizing w with
  | nil => exact h
  | cons step steps ih => exact ih (h.step step)

/-- While nothing counts, everything has been handled. -/
theorem flushed (h : w.Sound fresh) (hzero : w.inbound.unfinished = 0) : w.Flushed := by
  have hcount := h.unfinished_eq.symm.trans hzero
  have hwaiting : w.inbound.waiting = [] := List.eq_nil_of_length_eq_zero (by omega)
  have hstage : w.stage = .idle := by
    cases hstage : w.stage with
    | idle => rfl
    | taken _ | handled =>
      rw [hstage] at hcount
      have hone : _ + 1 + _ = 0 := hcount
      omega
  refine ⟨List.eq_nil_of_length_eq_zero (by omega), hstage, hwaiting, ?_⟩
  have hall := h.sent_eq
  rw [hstage, hwaiting] at hall
  exact (hall.trans (List.append_nil _)).symm

/-- While nothing counts and no send begins, nothing comes to count. -/
theorem unfinished_step (h : w.Sound fresh) (hzero : w.inbound.unfinished = 0) {step : FlushStep}
    (hsilent : step.beginsSend = false) : (w.step step).inbound.unfinished = 0 := by
  have hflushed := h.flushed hzero
  cases step with
  | send event => contradiction
  | announce event => contradiction
  | push place =>
    simp only [Flush.step, hflushed.underway, List.getElem?_nil]
    exact hzero
  | tick store runtime =>
    have htick : w.bridge.tick store runtime = (.idle, w.bridge) :=
      Bridge.Relays.tick_of_waiting_eq_nil hflushed.waiting store runtime
    simp only [Flush.step, hflushed.stage, htick]
    exact hzero
  | take =>
    simp only [Flush.step, hflushed.stage, EventQueue.next?, hflushed.waiting]
    exact hzero
  | handle store runtime =>
    simp only [Flush.step, hflushed.stage]
    exact hzero
  | done =>
    simp only [Flush.step, hflushed.stage]
    exact hzero
  | join | advance _ | poll _ => exact hzero

/-- So it is for as long as no send begins. -/
theorem unfinished_run (h : w.Sound fresh) (hzero : w.inbound.unfinished = 0) {steps : List FlushStep}
    (hsilent : ∀ step ∈ steps, step.beginsSend = false) :
    (w.run steps).inbound.unfinished = 0 := by
  induction steps generalizing w with
  | nil => exact hzero
  | cons step steps ih =>
    obtain ⟨hstep, hsteps⟩ := List.forall_mem_cons.mp hsilent
    exact ih (h.step step) (h.unfinished_step hzero hstep) hsteps

end Sound

/-! ## What can be seen -/

/-- At most one event more has been handled after something has happened. -/
theorem exists_handled_step (w : Flush) (step : FlushStep) :
    ∃ new, (w.step step).handled = w.handled ++ new ∧ new.length ≤ 1 := by
  have hnone : ∃ new, w.handled = w.handled ++ new ∧ new.length ≤ 1 :=
    ⟨[], (List.append_nil _).symm, Nat.zero_le 1⟩
  cases step with
  | tick store runtime =>
    simp only [Flush.step]
    split
    · exact ⟨w.nextHandling store runtime, rfl, Option.length_toList_le⟩
    · exact hnone
  | handle store runtime =>
    simp only [Flush.step]
    split
    · exact ⟨[_], rfl, Nat.le_refl 1⟩
    · exact hnone
  | push place | take | done =>
    simp only [Flush.step]
    split <;> exact hnone
  | send _ | announce _ | join | advance _ | poll _ => exact hnone

/-- What has been handled stays handled. -/
theorem isPrefix_handled_run (w : Flush) (steps : List FlushStep) : w.handled <+: (w.run steps).handled := by
  induction steps generalizing w with
  | nil => exact List.prefix_refl _
  | cons step rest ih =>
    obtain ⟨new, hnew, -⟩ := w.exists_handled_step step
    have hprefix : w.handled <+: (w.step step).handled := ⟨new, hnew.symm⟩
    exact hprefix.trans (ih (w.step step))

namespace Sound

variable {fresh : Bridge} {w : Flush}

/-- The bus has announced the signals of what has been handled. -/
theorem bus_eq (h : w.Sound fresh) : w.bridge.bus = fresh.bus.emitAll w.raised :=
  (congrArg Bridge.bus (h.bridge_eq w.inbound)).trans (fresh.handleAll_bus w.handled)

/-- The cache holds the latest snapshots that the handlings of changes have found. -/
theorem caches (h : w.Sound fresh) {servers : List String} {loginStores deviceStores : List Store}
    (hfresh : fresh.Caches servers loginStores deviceStores) :
    w.bridge.Caches servers (loginStores ++ storesOf .usersChanged w.handled)
      (deviceStores ++ storesOf .devicesChanged w.handled) := by
  have hsettings : w.bridge.settings = (fresh.handleAll w.handled).settings :=
    (congrArg Bridge.settings (h.bridge_eq w.inbound) :)
  have hcache : w.bridge.cache = (fresh.handleAll w.handled).cache :=
    (congrArg Bridge.cache (h.bridge_eq w.inbound) :)
  exact (hfresh.handleAll w.handled).of_eq hsettings hcache

/-- The log retains the signals of what has been handled. -/
theorem retains (h : w.Sound fresh) (hfresh : fresh.bus.log.Retains []) :
    w.bridge.bus.log.Retains w.raised := by
  rw [h.bus_eq]
  exact SignalBus.retains_emitAll_of_retains hfresh w.raised

/-- The records that come up in one step continue the numbered signals of what was handled before. -/
theorem numbered_append_since (h : w.Sound fresh) (hfresh : fresh.bus.log.Retains []) (step : FlushStep)
    (hfit : (w.step step).raised.length < UInt64.size) :
    numbered w.raised ++ (w.step step).bridge.bus.since w.bridge.bus.lastSeq =
      numbered (w.step step).raised := by
  have hlater := (h.step step).retains hfresh
  obtain ⟨new, hnew, hone⟩ := w.exists_handled_step step
  have hraised : (w.step step).raised = w.raised ++ signalsOf (new.map Handling.event) := by
    rw [raised, hnew, List.map_append, signalsOf_append, raised]
  have hroom : (signalsOf (new.map Handling.event)).length ≤ 1 := by
    apply (length_signalsOf_le _).trans
    rwa [List.length_map]
  rw [hraised] at hfit hlater ⊢
  exact (h.retains hfresh).numbered_append_since hlater (hroom.trans hlater.capacity_pos) hfit

/-- The records that come up in a run continue the numbered signals of what was handled before. -/
theorem numbered_append_announcedIn (h : w.Sound fresh) (hfresh : fresh.bus.log.Retains [])
    (steps : List FlushStep) (hfit : (w.run steps).raised.length < UInt64.size) :
    numbered w.raised ++ w.announcedIn steps = numbered (w.run steps).raised := by
  induction steps generalizing w with
  | nil => exact List.append_nil _
  | cons step rest ih =>
    have hrest := ih (h.step step) hfit
    have hshorter : (w.step step).raised.length < UInt64.size := by
      have hlength := congrArg List.length hrest
      rw [List.length_append, length_numbered, length_numbered] at hlength
      exact Nat.lt_of_le_of_lt (hlength ▸ Nat.le_add_right _ _) hfit
    rw [announcedIn, ← List.append_assoc, h.numbered_append_since hfresh step hshorter, hrest]
    rfl

end Sound

/-- Whatever has happened around a bridge since its start, what has been handled can be seen. -/
theorem visible (settings : Settings) (store : Store) (desktop : Desktop) (steps : List FlushStep) :
    ((ofBridge (.start settings store desktop)).run steps).Visible settings store
      ((ofBridge (.start settings store desktop)).announcedIn steps) := by
  have hstart := Sound.start settings store desktop
  have hlog : (Bridge.start settings store desktop).bus.log.Retains [] := SignalLog.retains_ofCapacity _
  have h := hstart.run steps
  have hcaches := h.caches (Bridge.caches_start settings store desktop)
  refine ⟨⟨_, relayed_signalsOf _, ?_, fun hfit => ?_⟩, hcaches.logins, hcaches.devices, rfl,
    fun account => ⟨_, rfl, Cache.mem_devicesOf _ account⟩,
    fun account user => ⟨_, rfl, Cache.mem_userDevices _ account user⟩⟩
  · rw [h.bus_eq]
    exact SignalBus.carries_emitAll _ _
  · exact hstart.numbered_append_announcedIn hlog steps hfit

/-! ## The end of a wait -/

/-- Waits begin and take steps; nothing else changes them. -/
theorem joins_step (w : Flush) (step : FlushStep) :
    (w.step step).joins = w.joins ∨ (w.step step).joins = w.joins ++ [.ready] ∨
      ∃ place change, (change = Join.step w.inbound ∨ change = Join.poll w.inbound) ∧
        (w.step step).inbound = w.inbound ∧ (w.step step).joins = w.joins.modify place change := by
  cases step with
  | send event => exact .inl rfl
  | announce event => exact .inl rfl
  | push place =>
    simp only [Flush.step]
    split <;> exact .inl rfl
  | tick store runtime =>
    simp only [Flush.step]
    split <;> exact .inl rfl
  | take =>
    simp only [Flush.step]
    split <;> exact .inl rfl
  | handle store runtime =>
    simp only [Flush.step]
    split <;> exact .inl rfl
  | done =>
    simp only [Flush.step]
    split <;> exact .inl rfl
  | join => exact .inr (.inl rfl)
  | advance place => exact .inr (.inr ⟨place, _, .inl rfl, rfl, rfl⟩)
  | poll place => exact .inr (.inr ⟨place, _, .inr rfl, rfl, rfl⟩)

/-- Nobody who waits is forgotten. -/
theorem length_joins_run (w : Flush) (steps : List FlushStep) :
    w.joins.length ≤ (w.run steps).joins.length := by
  induction steps generalizing w with
  | nil => exact Nat.le_refl _
  | cons step steps ih =>
    refine Nat.le_trans ?_ (ih (w.step step))
    rcases w.joins_step step with hsame | hone | ⟨place, change, -, -, hchange⟩
    · rw [hsame]
    · rw [hone, List.length_append]
      exact Nat.le_add_right _ _
    · rw [hchange, List.length_modify]

/-- A wait ends only while nothing counts. -/
theorem Completes.unfinished_eq_zero {w : Flush} {step : FlushStep} {place : Nat}
    (h : w.Completes step place) : (w.step step).inbound.unfinished = 0 := by
  obtain ⟨hbefore, hafter⟩ := h
  rcases w.joins_step step with hsame | hone | ⟨other, change, hways, hinbound, hchange⟩
  · exact absurd (hsame ▸ hafter) hbefore
  · rw [hone, List.getElem?_append] at hafter
    split at hafter
    · exact absurd hafter hbefore
    · exact absurd (List.mem_singleton.mp (List.mem_of_getElem? hafter)) (by decide)
  · rw [hchange, List.getElem?_modify, Option.map_eq_map, Option.map_eq_some_iff] at hafter
    obtain ⟨join, hjoin, hend⟩ := hafter
    have hwaits : join ≠ .finished := fun heq => hbefore (heq ▸ hjoin)
    rw [hinbound]
    split at hend
    · rcases hways with rfl | rfl
      · exact Join.unfinished_eq_zero_of_step_eq_finished hwaits hend
      · exact Join.unfinished_eq_zero_of_poll_eq_finished hwaits hend
    · exact absurd hend hwaits

/-- While nothing counts, whoever waits has been notified. -/
theorem Sound.notified {fresh : Bridge} {w : Flush} (h : w.Sound fresh) (hzero : w.inbound.unfinished = 0)
    {since : Nat} (hmem : .waiting since ∈ w.joins) : (Join.waiting since).notified w.inbound = true :=
  (h.timely _ hmem).notified hzero

/-- While nothing counts, a poll ends a wait. -/
theorem Sound.joins_poll {fresh : Bridge} {w : Flush} (h : w.Sound fresh)
    (hzero : w.inbound.unfinished = 0) {place : Nat} (hplace : place < w.joins.length) :
    (w.step (.poll place)).joins[place]? = some .finished := by
  have hpoll := (h.timely _ (List.getElem_mem hplace)).poll_eq_finished hzero
  simp only [Flush.step, List.getElem?_modify, List.getElem?_eq_getElem hplace, if_true, Option.map_eq_map,
    Option.map_some, hpoll]

/-- Waiting is a barrier for everything that has been sent.

After any run from a fresh bridge: a wait ends only at a moment when every event sent has been handled,
and from that moment on, whatever happens next, the signals and the refreshes of these events can be seen.
While nothing counts, whoever waits has been notified, and every wait that is polled before another send
begins comes to its end. A wait that is polled while something counts goes on without having been
notified; when the count is zero again it has been, and the next poll ends it. What is sent after the
bridge has gone does not count. -/
theorem join_is_barrier (settings : Settings) (store : Store) (desktop : Desktop)
    (steps : List FlushStep) :
    let fresh := ofBridge (.start settings store desktop)
    let w := fresh.run steps
    (∀ step place, w.Completes step place →
        let ended := w.step step
        ended.Flushed ∧ ∀ more, ended.handled <+: (ended.run more).handled ∧
          (ended.run more).Visible settings store (fresh.announcedIn (steps ++ step :: more))) ∧
      (w.inbound.pending = 0 →
        (∀ since, .waiting since ∈ w.joins → (Join.waiting since).notified w.inbound = true) ∧
          ∀ place < w.joins.length, ∀ more, (∀ step ∈ more, FlushStep.beginsSend step = false) →
            (w.run more).inbound.pending = 0 ∧
              ((w.run more).step (.poll place)).joins[place]? = some .finished) ∧
      (w.inbound.pending ≠ 0 → ∀ place since, w.joins[place]? = some (.waiting since) →
        let polled := w.step (.poll place)
        (∃ again, polled.joins[place]? = some (.waiting again) ∧
            (Join.waiting again).notified polled.inbound = false) ∧
          ∀ more, (polled.run more).inbound.pending = 0 →
            (∀ again, (polled.run more).joins[place]? = some (.waiting again) →
                (Join.waiting again).notified (polled.run more).inbound = true) ∧
              ((polled.run more).step (.poll place)).joins[place]? = some .finished) ∧
      ∀ events : List Event,
        (events.foldl EventQueue.send w.inbound.closeReceiver).pending = w.inbound.pending := by
  intro fresh w
  have h : w.Sound fresh.bridge := (Sound.start settings store desktop).run steps
  refine ⟨fun step place hends => ?_, fun hzero => ⟨fun since hmem => ?_, ?_⟩, ?_, ?_⟩
  · refine ⟨(h.step step).flushed hends.unfinished_eq_zero, fun more => ⟨isPrefix_handled_run _ more, ?_⟩⟩
    have hvisible := visible settings store desktop (steps ++ step :: more)
    rwa [run_append] at hvisible
  · exact h.notified hzero hmem
  · intro place hplace more hsilent
    have hstill := h.unfinished_run hzero hsilent
    have hthere : place < (w.run more).joins.length :=
      Nat.lt_of_lt_of_le hplace (w.length_joins_run more)
    exact ⟨hstill, (h.run more).joins_poll hstill hthere⟩
  · intro hne place since hwaits polled
    obtain ⟨again, hpoll, hlate⟩ := Join.exists_poll_eq_waiting w.inbound since hne
    have hpolled : polled.joins[place]? = some (.waiting again) := by
      simp only [polled, step, List.getElem?_modify, hwaits, if_true, Option.map_eq_map,
        Option.map_some, hpoll]
    refine ⟨⟨again, hpolled, hlate⟩, fun more hzero => ⟨fun later hlater => ?_, ?_⟩⟩
    · exact ((h.step _).run more).notified hzero (List.mem_of_getElem? hlater)
    · obtain ⟨hplace, -⟩ := List.getElem?_eq_some_iff.mp hpolled
      have hthere : place < (polled.run more).joins.length :=
        Nat.lt_of_lt_of_le hplace (polled.length_joins_run more)
      exact ((h.step _).run more).joins_poll hzero hthere
  · exact w.inbound.pending_foldl_send_closeReceiver

end Flush

end DaemonBridge
