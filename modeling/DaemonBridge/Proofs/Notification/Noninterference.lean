import DaemonBridge.Notification.NotifySend
import DaemonBridge.Proofs.Bridge.Activity

/-!
# Notifications do not interfere

What a bridge shows on a desktop has no effect on anything else that it does. Leaving out of a run all that
has to do with notifications, the settings, the notifier and what is on display (`Run.unshown`), leaves a
run of its own, which does the same activities but for those at the display (`Run.unshown_actAll`). Two runs
that differ in nothing but notifications leave the same run behind, and so agree in all that the rest of the
world sees of them.

What is handed to the desktop is told from the events dispatched alone (`Run.handed_actAll`).
-/

namespace DaemonBridge

/-- Where no action is triggered, no order is issued. -/
theorem Notification.trigger_of_none {n : Notification} {key : String} {desk : Desk}
    (h : (n.trigger key desk).1 = none) : (n.trigger key desk).2 = desk := by
  unfold trigger at h ⊢
  cases haction : n.action? key with
  | none => rfl
  | some action =>
    rw [haction] at h
    exact nomatch h

/-! ## Bridges -/

namespace Bridge

/-- The bridge without anything about notifications. -/
def unshown (b : Bridge) : Bridge :=
  { b with
    settings := { b.settings with notifications := {} }
    notifier := .disabled
    display := [] }

/-- Bridges that are the same without notifications have the rest in common. -/
theorem eq_of_unshown_eq {b b' : Bridge} (h : b.unshown = b'.unshown) :
    b.bus = b'.bus ∧ b.cache = b'.cache ∧ b.inbound = b'.inbound ∧ b.desk = b'.desk :=
  ⟨(congrArg Bridge.bus h :), (congrArg Bridge.cache h :), (congrArg Bridge.inbound h :),
    (congrArg Bridge.desk h :)⟩

/-- Refreshing the logins has nothing to do with notifications. -/
theorem unshown_refreshLogins (b : Bridge) (store : Store) :
    (b.refreshLogins store).unshown = b.unshown.refreshLogins store := rfl

/-- Neither has refreshing the devices. -/
theorem unshown_refreshDevices (b : Bridge) (store : Store) :
    (b.refreshDevices store).unshown = b.unshown.refreshDevices store := rfl

/-- Neither has a refresh that an event calls for. -/
theorem unshown_refreshFor (b : Bridge) (store : Store) (event : Event) :
    (b.refreshFor store event).unshown = b.unshown.refreshFor store event := by
  cases event with
  | usersChanged => exact b.unshown_refreshLogins store
  | devicesChanged => exact b.unshown_refreshDevices store
  | _ => rfl

/-- Neither has the signal of an event. -/
theorem unshown_announce (b : Bridge) (event : Event) :
    (b.announce event).unshown = b.unshown.announce event := by
  unfold announce
  cases event.signal? <;> rfl

/-- A notification is shown or not. -/
theorem unshown_notify (b : Bridge) (runtime : Bool) (event : Event) :
    (b.notify runtime event).unshown = b.unshown := by
  unfold notify
  split <;> rfl

/-- A bridge without a notifier shows none. -/
theorem notify_unshown (b : Bridge) (runtime : Bool) (event : Event) :
    b.unshown.notify runtime event = b.unshown := by
  unfold notify
  cases Notification.ofEvent? event <;> rfl

/-- Handling an event does the same whether or not its notification is shown. -/
theorem unshown_handle (b : Bridge) (store : Store) (runtime runtime' : Bool) (event : Event) :
    (b.handle store runtime event).unshown = b.unshown.handle store runtime' event := by
  rw [handle, handle, unshown_notify, unshown_announce, unshown_refreshFor]
  rw [← unshown_refreshFor, ← unshown_announce, notify_unshown]

/-- So does a tick. -/
theorem unshown_tick (b : Bridge) (store : Store) (runtime runtime' : Bool) :
    (b.tick store runtime).1 = (b.unshown.tick store runtime').1 ∧
      (b.tick store runtime).2.unshown = (b.unshown.tick store runtime').2 := by
  have hnext : b.unshown.inbound = b.inbound := rfl
  unfold tick
  rw [hnext]
  cases b.inbound.next? with
  | none => exact ⟨rfl, rfl⟩
  | some next =>
    obtain ⟨event, inbound⟩ := next
    have hdone : ∀ b : Bridge, ({ b with inbound := b.inbound.taskDone } : Bridge).unshown =
        { b.unshown with inbound := b.unshown.inbound.taskDone } := fun _ => rfl
    exact ⟨rfl, (hdone _).trans
      (congrArg (fun b : Bridge => { b with inbound := b.inbound.taskDone })
        (unshown_handle { b with inbound := inbound } store runtime runtime' event))⟩

/-- The worker takes the next command all the same. -/
theorem unshown_takeCommand? (b : Bridge) : b.takeCommand?.2.unshown = b.unshown.takeCommand?.2 := by
  have hqueue : b.unshown.desk = b.desk := rfl
  unfold takeCommand?
  rw [hqueue]
  cases b.desk.queue.take? <;> rfl

/-- A click that triggers no action makes a notification go at most. -/
theorem unshown_click (b : Bridge) {index : Nat} {key : String} (h : (b.click index key).1 = none) :
    (b.click index key).2.unshown = b.unshown := by
  unfold click at h ⊢
  cases hshown : b.display[index]? with
  | none => rfl
  | some notification =>
    rw [hshown] at h
    show ({ b with desk := (notification.trigger key b.desk).2, display := b.display.eraseIdx index }
      : Bridge).unshown = b.unshown
    rw [Notification.trigger_of_none h]
    rfl

/-- A bridge starts alike, whatever the settings say about notifications and whatever desktop there is. -/
theorem unshown_start (settings : Settings) (notifications : NotificationSettings) (store : Store)
    (desktop desktop' : Desktop) :
    (start { settings with notifications := notifications } store desktop').unshown =
      (start settings store desktop).unshown := rfl

end Bridge

/-! ## Runs -/

namespace Activity

/-- What an activity is to those who see no notifications: nothing at all if it concerns the display, and
a tick may as well have a runtime to show notifications in. -/
def unseen? : Activity → Option Activity
  | .occur (.click ..) | .dismiss => none
  | .occur (.run (.tick store _)) => some (.occur (.run (.tick store true)))
  | activity => some activity

end Activity

namespace Run

/-- Entering the line has nothing to do with the bridge. -/
theorem enter_withBridge (r : Run) (b : Bridge) (caller : Nat) :
    (r.withBridge b).enter caller = (r.enter caller).withBridge b := by
  have hcalls : (r.withBridge b).calls = r.calls := rfl
  unfold enter
  rw [hcalls]
  split
  · by_cases hover : r.phase = .over
    · simp only [withBridge, hover, if_true, setStage]
    · by_cases hroom : r.line.length < lineLength
      · simp only [withBridge, hover, hroom, if_true, if_false, setStage]
      · simp only [withBridge, hover, hroom, if_false]
  · rfl

/-- An answer has to do with its cache alone. -/
theorem answerNext_withBridge (r : Run) {b : Bridge} (hcache : b.cache = r.bridge.cache) :
    (r.withBridge b).answerNext = r.answerNext.withBridge b := by
  have hline : (r.withBridge b).line = r.line := rfl
  have hcalls : (r.withBridge b).calls = r.calls := rfl
  have hbridge : (r.withBridge b).bridge.cache = r.bridge.cache := hcache
  unfold answerNext
  rw [hline, hcalls, hbridge]
  cases r.line with
  | nil => rfl
  | cons caller rest =>
    dsimp only
    cases r.calls[caller]? <;> rfl

/-- So has every step that is no tick. -/
theorem step_withBridge (r : Run) {b : Bridge} (hcache : b.cache = r.bridge.cache) {step : RunStep}
    (h : ∀ store runtime, step ≠ .tick store runtime) :
    (r.withBridge b).step step = (r.step step).withBridge b := by
  cases step with
  | tick store runtime => exact absurd rfl (h store runtime)
  | call inquiry => rfl
  | requestStop => rfl
  | enter caller => exact r.enter_withBridge b caller
  | begin => by_cases hphase : r.phase = .ready <;> simp [step, withBridge, hphase]
  | answer =>
    have hanswer := r.answerNext_withBridge hcache
    by_cases hphase : r.phase = .running
    · have hphase' : (r.withBridge b).phase = .running := hphase
      rw [step, step, if_pos hphase, if_pos hphase', hanswer]
    · have hphase' : ¬ (r.withBridge b).phase = .running := hphase
      rw [step, step, if_neg hphase, if_neg hphase']
  | finish =>
    by_cases hstops : r.phase = .running ∧ r.stopRequested <;> simp [step, withBridge, finish, hstops]

/-- The run without anything about notifications. -/
def unshown (r : Run) : Run :=
  r.withBridge r.bridge.unshown

/-- A step that is no tick has nothing to do with notifications. -/
theorem unshown_step (r : Run) {step : RunStep} (h : ∀ store runtime, step ≠ .tick store runtime) :
    (r.step step).unshown = r.unshown.step step := by
  rw [unshown, r.step_bridge h]
  exact (step_withBridge r (b := r.bridge.unshown) rfl h).symm

/-- A request on the control socket has nothing to do with notifications. -/
theorem unshown_arrive (r : Run) (uptime : UInt64) (request : Http.Request) :
    (Control.arrive r uptime request).2.unshown = (Control.arrive r.unshown uptime request).2 := by
  unfold Control.arrive
  cases Control.Operation.ofRequest request with
  | error refusal => rfl
  | ok operation => cases operation <;> rfl

/-- The command of the action that an activity triggers. -/
def triggered? (r : Run) : Activity → Option CommandId
  | .occur (.click index key) => (r.bridge.click index key).1
  | _ => none

/-- Whatever is done without triggering an action is the same to those who see no notifications. -/
theorem unshown_act (r : Run) {activity : Activity} (h : r.triggered? activity = none) :
    (r.act activity).unshown = (activity.unseen?.map r.unshown.act).getD r.unshown := by
  cases activity with
  | occur occurrence =>
    cases occurrence with
    | run step =>
      cases step with
      | tick store runtime =>
        exact congrArg r.withBridge (r.bridge.unshown_tick store runtime true).2
      | call | enter | requestStop | begin | answer | finish =>
        exact r.unshown_step fun _ _ => RunStep.noConfusion
    | click index key => exact congrArg r.withBridge (r.bridge.unshown_click h)
    | takeCommand => exact congrArg r.withBridge r.bridge.unshown_takeCommand?
    | send | submit | refreshLogins | refreshDevices => rfl
  | request uptime request => exact r.unshown_arrive uptime request
  | dismiss => rfl
  | loseWorker => rfl

/-- Whatever is done without triggering any action leaves a run behind that goes on without notifications. -/
theorem unshown_actAll (r : Run) {activities : List Activity}
    (h : r.gather triggered? activities = []) :
    (r.actAll activities).unshown = r.unshown.actAll (activities.filterMap Activity.unseen?) := by
  induction activities generalizing r with
  | nil => rfl
  | cons activity rest ih =>
    obtain ⟨hnow, hrest⟩ := List.append_eq_nil_iff.mp h
    have hact := r.unshown_act (Option.toList_eq_nil_iff.mp hnow)
    have hlater := ih (r.act activity) hrest
    rw [hact] at hlater
    refine hlater.trans ?_
    cases hseen : activity.unseen? with
    | none => rw [List.filterMap_cons_none hseen]; rfl
    | some seen => rw [List.filterMap_cons_some hseen]; rfl

/-- Read off something of each activity at the moment at which it is done, several things if need be. -/
def collect {α : Type} (read : Run → Activity → List α) (r : Run) : List Activity → List α
  | [] => []
  | activity :: rest => read r activity ++ collect read (r.act activity) rest

/-- What is read off can be put otherwise at once. -/
theorem map_collect {α β : Type} (f : α → β) (read : Run → Activity → List α) (r : Run)
    (activities : List Activity) :
    (r.collect read activities).map f =
      r.collect (fun r activity => (read r activity).map f) activities := by
  induction activities generalizing r with
  | nil => rfl
  | cons activity rest ih => rw [collect, collect, List.map_append, ih]

/-- What can be read off without the notifications, and not at all of what is done at the display, is the
same without them. -/
theorem collect_unshown {α : Type} {read : Run → Activity → List α}
    (hread : ∀ (r : Run) (activity : Activity), r.triggered? activity = none →
      read r activity = (activity.unseen?.map (read r.unshown)).getD []) (r : Run)
    {activities : List Activity} (h : r.gather triggered? activities = []) :
    r.collect read activities = r.unshown.collect read (activities.filterMap Activity.unseen?) := by
  induction activities generalizing r with
  | nil => rfl
  | cons activity rest ih =>
    obtain ⟨hnow, hrest⟩ := List.append_eq_nil_iff.mp h
    have hquiet := Option.toList_eq_nil_iff.mp hnow
    have hact := r.unshown_act hquiet
    rw [collect, ih (r.act activity) hrest, hact, hread r activity hquiet]
    cases hseen : activity.unseen? with
    | none => rw [List.filterMap_cons_none hseen]; rfl
    | some seen => rw [List.filterMap_cons_some hseen]; rfl

/-- What a tick returns. -/
def returnedTicks (r : Run) : Activity → List Tick
  | .occur (.run (.tick store runtime)) => [(r.bridge.tick store runtime).1]
  | _ => []

/-- The record announced: the last one that the log keeps, if its number is new. -/
def announced (r : Run) (activity : Activity) : List SignalRecord :=
  let log := (r.act activity).bridge.bus.log
  if log.lastSeq = r.bridge.bus.log.lastSeq then [] else log.records.getLast?.toList

/-- What is read off the bus shows no notifications. -/
theorem announced_unshown (r : Run) (activity : Activity) (h : r.triggered? activity = none) :
    r.announced activity = (activity.unseen?.map r.unshown.announced).getD [] := by
  have hact := r.unshown_act h
  have hbus : (r.act activity).bridge.bus =
      ((activity.unseen?.map r.unshown.act).getD r.unshown).bridge.bus := by
    rw [← hact]
    rfl
  rw [announced, hbus]
  cases activity.unseen? with
  | some seen => rfl
  | none => exact if_pos rfl

/-- What a tick returns shows none. -/
theorem returnedTicks_unshown (r : Run) (activity : Activity) (_ : r.triggered? activity = none) :
    r.returnedTicks activity = (activity.unseen?.map r.unshown.returnedTicks).getD [] := by
  cases activity with
  | occur occurrence =>
    cases occurrence with
    | run step =>
      cases step with
      | tick store runtime => exact congrArg (fun t => [t]) (r.bridge.unshown_tick store runtime true).1
      | call | enter | requestStop | begin | answer | finish => rfl
    | send | submit | click | takeCommand | refreshLogins | refreshDevices => rfl
  | request | dismiss | loseWorker => rfl

end Run

/-! ## What is handed to the desktop -/

namespace Bridge

/-- The notification that the desktop is given to show for an event. -/
def notification? (b : Bridge) (event : Event) (runtime : Bool) : Option Notification :=
  (Notification.ofEvent? event).bind (b.notifier.forDesktop? runtime)

/-- The second bridge has the notifier of the first, and its display has got some notifications more or
has lost some. -/
structure Hands (b b' : Bridge) (handed : List Notification) : Prop where
  notifier_eq : b'.notifier = b.notifier
  display : b'.display.drop b.display.length = handed

/-- What leaves the display alone or takes something away hands nothing over. -/
theorem Hands.of_length_le {b b' : Bridge} (hnotifier : b'.notifier = b.notifier)
    (hdisplay : b'.display.length ≤ b.display.length) : b.Hands b' [] :=
  ⟨hnotifier, List.drop_eq_nil_iff.mpr hdisplay⟩

/-- Handling an event hands over its notification. -/
theorem hands_handle (b : Bridge) (store : Store) (runtime : Bool) (event : Event) :
    b.Hands (b.handle store runtime event) (b.notification? event runtime).toList := by
  have hbefore : ((b.refreshFor store event).announce event).notifier = b.notifier ∧
      ((b.refreshFor store event).announce event).display = b.display := by
    cases event <;> exact ⟨rfl, rfl⟩
  rw [handle, notify, hbefore.1, ← notification?]
  cases b.notification? event runtime with
  | none => exact ⟨hbefore.1, List.drop_eq_nil_iff.mpr (Nat.le_of_eq (congrArg List.length hbefore.2))⟩
  | some notification =>
    refine ⟨rfl, ?_⟩
    show (((b.refreshFor store event).announce event).display ++ [notification]).drop b.display.length = _
    rw [hbefore.2]
    exact List.drop_left

/-- A click hands nothing over. -/
theorem hands_click (b : Bridge) (index : Nat) (key : String) :
    b.Hands (b.click index key).2 [] := by
  unfold click
  cases b.display[index]? with
  | none => exact .of_length_le rfl (Nat.le_refl _)
  | some notification => exact .of_length_le rfl (List.length_eraseIdx_le b.display index)

/-- A tick hands over the notification of the event that it dispatches. -/
theorem hands_tick (b : Bridge) (store : Store) (runtime : Bool) :
    b.Hands (b.tick store runtime).2
      ((b.inbound.waiting.take 1).filterMap fun event => b.notification? event runtime) := by
  cases hwaiting : b.inbound.waiting with
  | nil =>
    rw [Relays.tick_of_waiting_eq_nil hwaiting]
    exact .of_length_le rfl (Nat.le_refl _)
  | cons event rest =>
    have hhands := hands_handle { b with inbound := { b.inbound with waiting := rest } } store runtime event
    simp only [tick, EventQueue.next?, hwaiting]
    rw [List.take_succ_cons, List.take_zero, List.filterMap_cons, List.filterMap_nil]
    refine ⟨hhands.notifier_eq, hhands.display.trans ?_⟩
    show (b.notification? event runtime).toList = _
    cases b.notification? event runtime <;> rfl

end Bridge

namespace Run

/-- The events dispatched, each with whether there is a runtime to show its notification in. -/
def dispatched (r : Run) : Activity → List (Event × Bool)
  | .occur (.run (.tick _ runtime)) => (r.bridge.inbound.waiting.take 1).map fun event => (event, runtime)
  | _ => []

/-- The notifications handed to the desktop. -/
def handed (r : Run) (activity : Activity) : List Notification :=
  (r.act activity).bridge.display.drop r.bridge.display.length

/-- The events dispatched show no notifications. -/
theorem dispatched_unshown (r : Run) (activity : Activity) (_ : r.triggered? activity = none) :
    (r.dispatched activity).map Prod.fst =
      (activity.unseen?.map fun seen => (r.unshown.dispatched seen).map Prod.fst).getD [] := by
  cases activity with
  | occur occurrence =>
    cases occurrence with
    | run step =>
      cases step with
      | tick store runtime =>
        show List.map _ (List.map _ _) = List.map _ (List.map _ _)
        rw [List.map_map, List.map_map]
        rfl
      | call | enter | requestStop | begin | answer | finish => rfl
    | send | submit | click | takeCommand | refreshLogins | refreshDevices => rfl
  | request | dismiss | loseWorker => rfl

/-- Only a tick that dispatches an event hands something to the desktop. -/
theorem hands_act (r : Run) (activity : Activity) :
    r.bridge.Hands (r.act activity).bridge ((r.dispatched activity).filterMap fun dispatched =>
      r.bridge.notification? dispatched.1 dispatched.2) := by
  cases activity with
  | occur occurrence =>
    cases occurrence with
    | run step =>
      cases step with
      | tick store runtime =>
        have htick := r.bridge.hands_tick store runtime
        rw [dispatched, List.filterMap_map]
        exact htick
      | call | enter | requestStop | begin | answer | finish =>
        show r.bridge.Hands (r.step _).bridge []
        rw [r.step_bridge fun _ _ => RunStep.noConfusion]
        exact .of_length_le rfl (Nat.le_refl _)
    | click index key => exact r.bridge.hands_click index key
    | takeCommand =>
      show r.bridge.Hands r.bridge.takeCommand?.2 []
      unfold Bridge.takeCommand?
      cases r.bridge.desk.queue.take? <;> exact .of_length_le rfl (Nat.le_refl _)
    | send | submit | refreshLogins | refreshDevices => exact .of_length_le rfl (Nat.le_refl _)
  | request uptime request =>
    show r.bridge.Hands (Control.arrive r uptime request).2.bridge []
    unfold Control.arrive
    cases Control.Operation.ofRequest request with
    | error refusal => exact .of_length_le rfl (Nat.le_refl _)
    | ok operation => cases operation <;> exact .of_length_le rfl (Nat.le_refl _)
  | dismiss => exact .of_length_le rfl (Nat.zero_le _)
  | loseWorker => exact .of_length_le rfl (Nat.le_refl _)

/-- All that is handed to the desktop are the notifications of the events dispatched, in order. -/
theorem collect_handed (r : Run) (activities : List Activity) :
    r.collect handed activities = (r.collect dispatched activities).filterMap fun dispatched =>
      r.bridge.notification? dispatched.1 dispatched.2 := by
  induction activities generalizing r with
  | nil => rfl
  | cons activity rest ih =>
    have hact := r.hands_act activity
    have hsame : ∀ event runtime, (r.act activity).bridge.notification? event runtime =
        r.bridge.notification? event runtime := fun event runtime => by
      rw [Bridge.notification?, Bridge.notification?, hact.notifier_eq]
    rw [collect, collect, List.filterMap_append, ih, ← hact.display]
    simp only [hsame]
    rfl

end Run

/-- What the desktop is able to do, if notifications are switched on and it answers the probe. -/
def Desktop.capabilities? (desktop : Desktop) (enabled : Bool) : Option Capabilities :=
  if enabled then desktop.probe.toOption else none

/-- What a notification is on a desktop. -/
def Notification.shownBy (n : Notification) (capabilities : Capabilities) : Notification :=
  if capabilities.actions then n else { n with actions := [] }

/-- Without notifications being switched on and a desktop that answers there is nothing to show, and else
the notification of the event if there is a runtime. -/
theorem Bridge.notification?_start (settings : Settings) (store : Store) (desktop : Desktop) (event : Event)
    (runtime : Bool) :
    (start settings store desktop).notification? event runtime =
      (desktop.capabilities? settings.notifications.enabled).bind fun capabilities =>
        if runtime then (Notification.ofEvent? event).map (·.shownBy capabilities) else none := by
  have hnotifier : (start settings store desktop).notifier =
      .start settings.notifications.enabled desktop := rfl
  rw [notification?, hnotifier, Notifier.start, Desktop.capabilities?]
  cases settings.notifications.enabled with
  | false => cases Notification.ofEvent? event <;> rfl
  | true =>
    cases desktop.probe with
    | error reason => cases Notification.ofEvent? event <;> rfl
    | ok capabilities => cases Notification.ofEvent? event <;> cases runtime <;> rfl

/-- An event has a notification exactly if it is of one of five kinds. -/
theorem Notification.isSome_ofEvent?_iff (event : Event) :
    (ofEvent? event).isSome ↔
      event.kind ∈ [.messageHeld, .verificationInvited, .symbolsReady, .verificationDone,
        .verificationCanceled] := by
  cases event <;> simp [ofEvent?, Event.kind]

/-- A display that fails issues nothing. -/
theorem NotifySend.Program.desk_display {program : Program} {appName : String} {n : Notification}
    {desk : Desk} {reason : DisplayError} (h : (program.display appName n desk).1 = .error reason) :
    (program.display appName n desk).2 = desk := by
  unfold display at h ⊢
  cases hpick : program.pick (arguments appName n) with
  | error e => rfl
  | ok key =>
    rw [hpick] at h
    cases key <;> exact nomatch h

namespace Run

/-- What is read off a run that triggers no action depends on its start and its activities, as those see
them who see no notifications. -/
theorem collect_eq_of_unseen {α : Type} {read : Run → Activity → List α}
    (hread : ∀ (r : Run) (activity : Activity), r.triggered? activity = none →
      read r activity = (activity.unseen?.map (read r.unshown)).getD [])
    {r r' : Run} {activities activities' : List Activity} (hstart : r.unshown = r'.unshown)
    (hsame : activities.filterMap Activity.unseen? = activities'.filterMap Activity.unseen?)
    (h : r.gather triggered? activities = []) (h' : r'.gather triggered? activities' = []) :
    r.collect read activities = r'.collect read activities' := by
  rw [collect_unshown hread r h, collect_unshown hread r' h', hstart, hsame]

/-- Notifications do not interfere with anything else.

Two bridges start with the same store and settings that differ at most in what they say about
notifications, each on a desktop of its own, and the same is done around them, but for what happens at
their displays and for whether a tick has a runtime; no action of a notification is triggered. Then their
ticks return the same, they dispatch the same events and announce the same records, and in the end their
caches, their queues of events and of commands, the counts of unfinished events and of identifiers taken,
their signals and their callers are the same.

What the first one hands to its desktop are, in order, the notifications of the events that it dispatched
while there was a runtime, without their actions if the desktop offers none, and nothing at all if
notifications are switched off or the desktop did not answer. Five kinds of events have a notification.
A display that fails has no effect. -/
theorem notifications_noninterference (settings : Settings) (notifications : NotificationSettings)
    (store : Store) (desktop desktop' : Desktop) (activities activities' : List Activity) :
    let r := ofBridge (.start settings store desktop)
    let r' := ofBridge (.start { settings with notifications := notifications } store desktop')
    let later := r.actAll activities
    let later' := r'.actAll activities'
    activities.filterMap Activity.unseen? = activities'.filterMap Activity.unseen? →
    r.gather triggered? activities = [] → r'.gather triggered? activities' = [] →
      r.collect returnedTicks activities = r'.collect returnedTicks activities' ∧
      (r.collect dispatched activities).map Prod.fst = (r'.collect dispatched activities').map Prod.fst ∧
      r.collect announced activities = r'.collect announced activities' ∧
      later.bridge.bus = later'.bridge.bus ∧ later.bridge.cache = later'.bridge.cache ∧
      later.bridge.inbound = later'.bridge.inbound ∧
      later.bridge.inbound.pending = later'.bridge.inbound.pending ∧
      later.bridge.desk.issued = later'.bridge.desk.issued ∧
      later.bridge.desk.queue = later'.bridge.desk.queue ∧ later.calls = later'.calls ∧
      (r.collect handed activities =
        match desktop.capabilities? settings.notifications.enabled with
        | some capabilities =>
          ((r.collect dispatched activities).filter Prod.snd).filterMap fun dispatched =>
            (Notification.ofEvent? dispatched.1).map (·.shownBy capabilities)
        | none => []) ∧
      (∀ event, (Notification.ofEvent? event).isSome ↔
        event.kind ∈ [.messageHeld, .verificationInvited, .symbolsReady, .verificationDone,
          .verificationCanceled]) ∧
      ∀ (program : NotifySend.Program) (appName : String) (n : Notification) (desk : Desk)
        (reason : DisplayError), (program.display appName n desk).1 = .error reason →
          (program.display appName n desk).2 = desk := by
  intro r r' later later' hsame h h'
  have hstart : r.unshown = r'.unshown :=
    congrArg ofBridge (Bridge.unshown_start settings notifications store desktop desktop').symm
  have hlater : later.unshown = later'.unshown := by
    rw [unshown_actAll r h, unshown_actAll r' h', hsame, hstart]
  have hbridge : later.bridge.unshown = later'.bridge.unshown := congrArg Run.bridge hlater
  obtain ⟨hbus, hcache, hinbound, hdesk⟩ := Bridge.eq_of_unshown_eq hbridge
  have hcalls : later.unshown.calls = later'.unshown.calls := congrArg Run.calls hlater
  refine ⟨collect_eq_of_unseen returnedTicks_unshown hstart hsame h h', ?_,
    collect_eq_of_unseen announced_unshown hstart hsame h h', hbus, hcache, hinbound,
    congrArg EventQueue.pending hinbound, congrArg Desk.issued hdesk, congrArg Desk.queue hdesk, hcalls,
    ?_, Notification.isSome_ofEvent?_iff, fun _ _ _ _ _ => NotifySend.Program.desk_display⟩
  · rw [map_collect, map_collect]
    exact collect_eq_of_unseen dispatched_unshown hstart hsame h h'
  · rw [collect_handed]
    have hnotification : ∀ event runtime, r.bridge.notification? event runtime = _ :=
      Bridge.notification?_start settings store desktop
    simp only [hnotification]
    cases desktop.capabilities? settings.notifications.enabled with
    | none => exact List.filterMap_eq_nil_iff.mpr fun _ _ => rfl
    | some capabilities =>
      exact List.filterMap_filter.symm

/-- For instance, of a desktop with actions and one that is missing only the first is handed the
notification of a held message. -/
theorem notifications_noninterference_held :
    let held : HeldMessage := ⟨"alice", "!room", "Ops"⟩
    let store : Store := ⟨fun _ => .ok [], .ok [], .error (.unavailable "disk gone")⟩
    let desktop : Desktop := ⟨"recorder", .ok ⟨true⟩⟩
    let missing : Desktop := ⟨"recorder", .error (.unavailable "no server")⟩
    let r := ofBridge (.start {} store desktop)
    let r' := ofBridge (.start { ({} : Settings) with notifications := { enabled := false } } store missing)
    let common (runtime : Bool) : List Activity :=
      [.occur (.send (.messageHeld held)), .occur (.run (.tick store runtime)),
        .occur (.submit "alice" (.room .cancel "!room")), .occur (.run (.tick store runtime))]
    let activities := common true ++ [.occur (.click 0 "gone"), .dismiss]
    let activities' := common false
    activities.filterMap Activity.unseen? = activities'.filterMap Activity.unseen? ∧
      r.gather triggered? activities = [] ∧ r'.gather triggered? activities' = [] ∧
      r.collect returnedTicks activities = [.dispatched, .idle] ∧
      r'.collect announced activities' = [⟨1, .unverifiedDevices held⟩] ∧
      r.collect announced activities = r'.collect announced activities' ∧
      r.collect handed activities = (Notification.ofEvent? (.messageHeld held)).toList ∧
      r'.collect handed activities' = [] := by
  intro held store desktop missing r r' common activities activities'
  have hfirst := notifications_noninterference {} { enabled := false } store desktop missing activities
    activities' rfl rfl rfl
  exact ⟨rfl, rfl, rfl, rfl, rfl, hfirst.2.2.1, rfl, rfl⟩

end Run

end DaemonBridge
