import DaemonBridge.Cache
import DaemonBridge.Notification.Notifier
import DaemonBridge.Queue.Inbound
import DaemonBridge.Settings
import DaemonBridge.Signal.Log

/-!
# The bridge

The bridge works through the worker's events one at a time: changes of the stored state refresh the
cache, and every other known event is announced as a signal and, if it wants the user's attention,
shown as a notification. In between it issues commands and answers questions from its cache.
-/

namespace DaemonBridge

/-- What a tick has done. -/
inductive Tick where
  | idle
  | dispatched
  deriving DecidableEq, Repr

/-- A bridge; `display` holds what the desktop was given to show and has not yet let go of. -/
structure Bridge where
  settings : Settings
  desk : Desk := {}
  inbound : EventQueue := {}
  cache : Cache := {}
  bus : SignalBus
  notifier : Notifier
  display : List Notification := []
  deriving DecidableEq, Repr

/-- Something that the start of a bridge fails at. -/
inductive StartFault where
  | ring
  | log
  | clock
  deriving DecidableEq, Repr

namespace Settings

/-- The milliseconds between two ticks. -/
def period (s : Settings) : UInt64 :=
  max s.pace.tickInterval 1

/-- What the start fails at first, if a record takes up `recordSize` bytes. The ring has a capacity of one
at least and of half the word size at most, the log takes less than half of the address space, and the clock
has a period. -/
def startFault? (recordSize : Nat) (s : Settings) : Option StartFault :=
  let capacity := (SignalBus.ofCapacity s.pace.signalHistory.toNat).log.capacity
  if capacity = 0 ∨ UInt64.size / 2 ≤ capacity then some .ring
  else if UInt64.size / 2 ≤ capacity * recordSize then some .log
  else if s.period = 0 then some .clock
  else none

end Settings

namespace Bridge

/-- Refresh the logins of the configured servers. -/
def refreshLogins (b : Bridge) (store : Store) : Bridge :=
  { b with cache := b.cache.orKeep (b.cache.refreshLogins store b.settings.serverNames) }

/-- Refresh the devices. -/
def refreshDevices (b : Bridge) (store : Store) : Bridge :=
  { b with cache := b.cache.orKeep (b.cache.refreshDevices store) }

/-- A bridge with the given settings; it fills its cache from the store and probes the desktop. -/
def start (settings : Settings) (store : Store) (desktop : Desktop) : Bridge :=
  let bridge : Bridge :=
    { settings := settings
      bus := .ofCapacity settings.pace.signalHistory.toNat
      notifier := .start settings.notifications.enabled desktop }
  (bridge.refreshLogins store).refreshDevices store

/-- Refresh what an event says has changed. -/
def refreshFor (b : Bridge) (store : Store) : Event → Bridge
  | .usersChanged => b.refreshLogins store
  | .devicesChanged => b.refreshDevices store
  | _ => b

/-- Announce the signal of an event. -/
def announce (b : Bridge) (event : Event) : Bridge :=
  match event.signal? with
  | some signal => { b with bus := (b.bus.emit signal).2 }
  | none => b

/-- Show the notification of an event. -/
def notify (b : Bridge) (runtime : Bool) (event : Event) : Bridge :=
  match (Notification.ofEvent? event).bind (b.notifier.forDesktop? runtime) with
  | some notification => { b with display := b.display ++ [notification] }
  | none => b

/-- Handle an event. -/
def handle (b : Bridge) (store : Store) (runtime : Bool) (event : Event) : Bridge :=
  ((b.refreshFor store event).announce event).notify runtime event

/-- Handle at most one event. -/
def tick (b : Bridge) (store : Store) (runtime : Bool) : Tick × Bridge :=
  match b.inbound.next? with
  | none => (.idle, b)
  | some (event, inbound) =>
    let b := { b with inbound := inbound }.handle store runtime event
    (.dispatched, { b with inbound := b.inbound.taskDone })

/-- Tick a number of times and count the events handled. -/
def ticks (b : Bridge) (store : Store) : Nat → Nat × Bridge
  | 0 => (0, b)
  | n + 1 =>
    match b.tick store true with
    | (.idle, b) => (0, b)
    | (.dispatched, b) =>
      let (count, b) := b.ticks store n
      (count + 1, b)

/-- Tick until no event is left and count the events handled. -/
def settle (b : Bridge) (store : Store) : Nat × Bridge :=
  b.ticks store b.inbound.waiting.length

/-- Issue an order for an account. -/
def submit (b : Bridge) (account : String) (order : Order) : CommandId × Bridge :=
  let (id, desk) := b.desk.submit account order
  (id, { b with desk := desk })

/-- The worker sends an event. -/
def receive (b : Bridge) (event : Event) : Bridge :=
  { b with inbound := b.inbound.send event }

/-- The worker takes the next command. -/
def takeCommand? (b : Bridge) : Option Command × Bridge :=
  match b.desk.queue.take? with
  | some (command, queue) => (some command, { b with desk := { b.desk with queue := queue } })
  | none => (none, b)

/-- The worker takes every command that waits. -/
def takeCommands (b : Bridge) : List Command × Bridge :=
  let (commands, queue) := b.desk.queue.takeAll
  (commands, { b with desk := { b.desk with queue := queue } })

/-- The worker takes every command that waits and answers each of them. -/
def answerAll (b : Bridge) (code message : String) : List Command × Bridge :=
  let (commands, b) := b.takeCommands
  (commands, commands.foldl (fun b command => b.receive (command.answer code message)) b)

/-- The worker goes. What it has sent is still handled, and commands are no longer kept. -/
def loseWorker (b : Bridge) : Bridge :=
  { b with
    desk := { b.desk with queue := b.desk.queue.closeReceiver }
    inbound := b.inbound.closeSender }

/-- The desktop lets go of every notification. -/
def takeNotifications (b : Bridge) : List Notification × Bridge :=
  (b.display, { b with display := [] })

/-- The user picks an action of the notification at a position, which then is gone. -/
def click (b : Bridge) (index : Nat) (key : String) : Option CommandId × Bridge :=
  match b.display[index]? with
  | none => (none, b)
  | some notification =>
    let (id, desk) := notification.trigger key b.desk
    (id, { b with desk := desk, display := b.display.eraseIdx index })

end Bridge

end DaemonBridge
