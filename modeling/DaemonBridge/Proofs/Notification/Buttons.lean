import DaemonBridge.Proofs.Bridge.Issuing
import DaemonBridge.Proofs.Notification.Noninterference
import Mathlib.Data.List.Perm.Basic

/-!
# Buttons

What the buttons of a notification order is fixed by its event (`Event.Button`), but an order is issued
only when the user picks one, under the identifier that is the next one then. So it does not matter how
much was issued while the notification was on display. Nothing is picked from a notification twice: each
one that was shown has been picked from, has been let go of or is still there (`Run.display_actAll`). Once
the worker has gone, what a button orders takes an identifier and is dropped
(`Run.click_without_worker`).
-/

namespace DaemonBridge

/-- The buttons that an event calls for, each with its key, the account that it acts for and its order. -/
inductive Event.Button : Event → String → String → Order → Prop
  | send (held : HeldMessage) :
      Button (.messageHeld held) "send" held.account (.room .send held.room)
  | cancelSending (held : HeldMessage) :
      Button (.messageHeld held) "cancel" held.account (.room .cancel held.room)
  | accept (v : Verification) :
      Button (.verificationInvited v) "accept" v.account (.device .acceptVerification ⟨v.user, v.device⟩)
  | cancelInvited (v : Verification) :
      Button (.verificationInvited v) "cancel" v.account (.device .cancelVerification ⟨v.user, v.device⟩)
  | confirm (v : Verification) (symbols : List Symbol) :
      Button (.symbolsReady v symbols) "confirm" v.account (.device .confirmVerification ⟨v.user, v.device⟩)
  | cancelComparing (v : Verification) (symbols : List Symbol) :
      Button (.symbolsReady v symbols) "cancel" v.account (.device .cancelVerification ⟨v.user, v.device⟩)

namespace Desk

/-- An order was issued: it was told the next identifier, which then is taken, and its command, with that
identifier, is all that was enqueued, or it is dropped if the worker has gone. -/
structure Issues (desk : Desk) (account : String) (order : Order) (told : Option CommandId)
    (later : Desk) : Prop where
  told_eq : told = some desk.nextId
  nextId_eq : later.nextId = desk.nextId + 1
  waiting_eq : later.queue.waiting = desk.queue.waiting ++
    if desk.queue.receiverOpen then [⟨desk.nextId, account, order⟩] else []
  senderOpen_eq : later.queue.senderOpen = desk.queue.senderOpen
  receiverOpen_eq : later.queue.receiverOpen = desk.queue.receiverOpen

/-- That is how orders are issued. -/
theorem issues_submit (desk : Desk) (account : String) (order : Order) :
    desk.Issues account order (some (desk.submit account order).1) (desk.submit account order).2 := by
  have hqueue : (desk.submit account order).2.queue = desk.queue.send ⟨desk.nextId, account, order⟩ := rfl
  cases hopen : desk.queue.receiverOpen with
  | true =>
    rw [CommandQueue.send, if_pos hopen] at hqueue
    exact ⟨rfl, rfl, by simp [hqueue, hopen], by rw [hqueue], by rw [hqueue]⟩
  | false =>
    rw [CommandQueue.send, if_neg (by simp [hopen])] at hqueue
    exact ⟨rfl, rfl, by simp [hqueue, hopen], by rw [hqueue], by rw [hqueue]⟩

end Desk

/-- The user picks a key of what is shown for an event, on a desktop with or without buttons: the order of
the button with that key is issued; without such a button nothing happens. -/
inductive Event.Picks (event : Event) (buttons : Bool) (key : String) (desk : Desk) :
    Option CommandId → Desk → Prop
  | order {account : String} {order : Order} {told : Option CommandId} {later : Desk}
      (shown : buttons = true) (button : event.Button key account order)
      (issued : desk.Issues account order told later) : Picks event buttons key desk told later
  | nothing (missing : buttons = true → ∀ account order, ¬ event.Button key account order) :
      Picks event buttons key desk none desk

namespace Notification

/-- The first action with a key is the one that runs. -/
theorem trigger_first {n : Notification} {before after : List NotificationAction}
    {action : NotificationAction} (hactions : n.actions = before ++ action :: after)
    (hfirst : ∀ other ∈ before, other.key ≠ action.key) (desk : Desk) :
    n.trigger action.key desk =
      (some (action.effect.invoke desk).1, (action.effect.invoke desk).2) := by
  have hbefore : before.find? (fun other => other.key == action.key) = none :=
    List.find?_eq_none.mpr fun other hother => by simpa using hfirst other hother
  have haction : n.action? action.key = some action := by
    rw [action?, hactions, List.find?_append, hbefore, Option.none_or]
    exact List.find?_cons_of_pos (beq_self_eq_true action.key)
  rw [trigger, haction]

/-- A key that no action has does nothing. -/
theorem trigger_missing {n : Notification} {key : String}
    (hmissing : ∀ action ∈ n.actions, action.key ≠ key) (desk : Desk) :
    n.trigger key desk = (none, desk) := by
  have hnone : n.action? key = none :=
    List.find?_eq_none.mpr fun action haction => by simpa using hmissing action haction
  rw [trigger, hnone]

/-- Of two actions with different keys the one with the key is picked. -/
theorem picked?_of_two {n : Notification} {first second : NotificationAction} {account : String}
    {order order' : Order} (hactions : n.actions = [first, second]) (hne : first.key ≠ second.key)
    (hfirst : first.effect = .order account order) (hsecond : second.effect = .order account order')
    (key : String) (picked : String × Order) :
    n.picked? key = some picked ↔
      key = first.key ∧ picked = (account, order) ∨ key = second.key ∧ picked = (account, order') := by
  rw [picked?, action?, hactions]
  by_cases hfound : first.key = key
  · obtain rfl := hfound
    simpa [hfirst, hne] using eq_comm
  · by_cases hfound' : second.key = key
    · obtain rfl := hfound'
      simpa [hsecond, hne, hne.symm] using eq_comm
    · simp [hfound, hfound', Ne.symm hfound, Ne.symm hfound']

/-- What is picked from the notification of an event is the order of a button that the event calls for. -/
theorem picked?_ofEvent? {event : Event} {n : Notification} (h : ofEvent? event = some n) (key : String)
    (account : String) (order : Order) :
    n.picked? key = some (account, order) ↔ event.Button key account order := by
  cases event with
  | messageHeld held =>
    obtain rfl := Option.some.inj h
    rw [picked?_of_two rfl (by decide : "send" ≠ "cancel") rfl rfl]
    constructor
    · rintro (⟨rfl, heq⟩ | ⟨rfl, heq⟩) <;> cases heq
      · exact .send held
      · exact .cancelSending held
    · intro hbutton
      cases hbutton <;> simp
  | verificationInvited v =>
    obtain rfl := Option.some.inj h
    rw [picked?_of_two rfl (by decide : "accept" ≠ "cancel") rfl rfl]
    constructor
    · rintro (⟨rfl, heq⟩ | ⟨rfl, heq⟩) <;> cases heq
      · exact .accept v
      · exact .cancelInvited v
    · intro hbutton
      cases hbutton <;> simp [verificationAction, cancelAction]
  | symbolsReady v symbols =>
    obtain rfl := Option.some.inj h
    rw [picked?_of_two rfl (by decide : "confirm" ≠ "cancel") rfl rfl]
    constructor
    · rintro (⟨rfl, heq⟩ | ⟨rfl, heq⟩) <;> cases heq
      · exact .confirm v symbols
      · exact .cancelComparing v symbols
    · intro hbutton
      cases hbutton <;> simp [verificationAction, cancelAction]
  | verificationDone | verificationCanceled =>
    obtain rfl := Option.some.inj h
    exact ⟨nofun, nofun⟩
  | usersChanged | devicesChanged | answered | unrecognized => exact nomatch h

/-- A key of what a notifier shows for an event does what the buttons of the event say. -/
theorem picks_trigger {event : Event} {notifier : Notifier} {runtime : Bool} {n : Notification}
    (h : (ofEvent? event).bind (notifier.forDesktop? runtime) = some n) (key : String) (desk : Desk) :
    event.Picks notifier.capabilities.actions key desk (n.trigger key desk).1 (n.trigger key desk).2 := by
  obtain ⟨original, horiginal, hgiven⟩ := Option.bind_eq_some_iff.mp h
  unfold Notifier.forDesktop? at hgiven
  split at hgiven
  · obtain rfl := Option.some.inj hgiven
    cases hactions : notifier.capabilities.actions with
    | true =>
      rw [if_pos rfl]
      rcases OffersOrders.trigger_cases (offersOrders_ofEvent? horiginal) key desk with
        ⟨hpicked, htrigger⟩ | ⟨account, order, hpicked, htrigger⟩
      · rw [htrigger]
        refine .nothing fun _ account order hbutton => ?_
        rw [(picked?_ofEvent? horiginal key account order).mpr hbutton] at hpicked
        exact nomatch hpicked
      · rw [htrigger]
        exact .order rfl ((picked?_ofEvent? horiginal key account order).mp hpicked)
          (desk.issues_submit account order)
    | false =>
      rw [if_neg (by decide), trigger_missing (n := original.withoutActions) nofun]
      exact .nothing (by simp)
  · exact nomatch hgiven

end Notification

/-- A notifier that shows anything offers what its desktop does. -/
theorem Notifier.capabilities_start {desktop : Desktop} {enabled : Bool} {capabilities : Capabilities}
    (h : desktop.capabilities? enabled = some capabilities) :
    (start enabled desktop).capabilities = capabilities := by
  unfold Desktop.capabilities? at h
  cases enabled with
  | false => exact nomatch h
  | true =>
    rw [if_pos rfl] at h
    unfold start
    cases hprobe : desktop.probe with
    | error reason =>
      rw [hprobe] at h
      exact nomatch h
    | ok found =>
      rw [hprobe] at h
      exact Option.some.inj h

/-! ## What becomes of what is shown -/

namespace Bridge

/-- The notification of an event comes last on the display. -/
theorem display_notify (b : Bridge) (runtime : Bool) (event : Event) :
    (b.notify runtime event).display = b.display ++ (b.notification? event runtime).toList := by
  unfold notify
  rw [← notification?]
  cases b.notification? event runtime with
  | none => exact (List.append_nil _).symm
  | some notification => rfl

/-- After a tick that of the event dispatched comes last. -/
theorem display_tick (b : Bridge) (store : Store) (runtime : Bool) :
    (b.tick store runtime).2.display =
      b.display ++ (b.inbound.waiting.take 1).filterMap fun event => b.notification? event runtime := by
  cases hwaiting : b.inbound.waiting with
  | nil =>
    rw [Relays.tick_of_waiting_eq_nil hwaiting]
    exact (List.append_nil _).symm
  | cons event rest =>
    have hhandle (inbound : EventQueue) : ({ b with inbound := inbound }.handle store runtime event).display =
        b.display ++ (b.notification? event runtime).toList := by
      rw [handle, display_notify]
      cases event <;> rfl
    have htick : (b.tick store runtime).2.display = b.display ++ (b.notification? event runtime).toList := by
      simp only [tick, EventQueue.next?, hwaiting]
      exact hhandle _
    rw [htick, List.take_succ_cons, List.take_zero, List.filterMap_cons, List.filterMap_nil]
    cases b.notification? event runtime <;> rfl

end Bridge

namespace Run

/-- The notification from which the user picks. -/
def clicked? (r : Run) : Activity → Option Notification
  | .occur (.click index _) => r.bridge.display[index]?
  | _ => none

/-- The notifications that the desktop lets go of. -/
def dismissed (r : Run) : Activity → List Notification
  | .dismiss => r.bridge.display
  | _ => []

/-- The notifications that are shown for the events dispatched. -/
def shownFor (b : Bridge) (dispatched : List (Event × Bool)) : List Notification :=
  dispatched.filterMap fun (event, runtime) => b.notification? event runtime

/-- Whatever is done, a notification that was on display or is shown now has been picked from, has been let
go of, or is on display. -/
theorem display_act (r : Run) (activity : Activity) :
    ((r.clicked? activity).toList ++ r.dismissed activity ++ (r.act activity).bridge.display).Perm
      (r.bridge.display ++ shownFor r.bridge (r.dispatched activity)) := by
  have hsame {b : Bridge} (hdisplay : b.display = r.bridge.display) :
      b.display.Perm (r.bridge.display ++ []) := by
    rw [hdisplay, List.append_nil]
  cases activity with
  | occur occurrence =>
    cases occurrence with
    | run step =>
      cases step with
      | tick store runtime =>
        have htick : (r.act (.occur (.run (.tick store runtime)))).bridge.display =
            r.bridge.display ++ shownFor r.bridge (r.dispatched (.occur (.run (.tick store runtime)))) := by
          rw [dispatched, shownFor, List.filterMap_map]
          exact r.bridge.display_tick store runtime
        rw [htick]
        exact List.Perm.refl _
      | call | enter | requestStop | begin | answer | finish =>
        exact hsame (congrArg Bridge.display (r.step_bridge fun _ _ => RunStep.noConfusion))
    | click index key =>
      show (r.bridge.display[index]?.toList ++ [] ++ (r.bridge.click index key).2.display).Perm
        (r.bridge.display ++ [])
      rw [List.append_nil, List.append_nil]
      unfold Bridge.click
      cases hshown : r.bridge.display[index]? with
      | none => exact List.Perm.refl _
      | some notification =>
        obtain ⟨hindex, rfl⟩ := List.getElem?_eq_some_iff.mp hshown
        exact List.getElem_cons_eraseIdx_perm hindex
    | takeCommand =>
      refine hsame ?_
      show r.bridge.takeCommand?.2.display = r.bridge.display
      unfold Bridge.takeCommand?
      cases r.bridge.desk.queue.take? <;> rfl
    | send | submit | refreshLogins | refreshDevices => exact hsame rfl
  | request uptime request =>
    refine hsame ?_
    show (Control.arrive r uptime request).2.bridge.display = r.bridge.display
    unfold Control.arrive
    cases Control.Operation.ofRequest request with
    | error refusal => rfl
    | ok operation => cases operation <;> rfl
  | dismiss => exact List.Perm.refl _
  | loseWorker => exact hsame rfl

/-- So it is after any number of activities. -/
theorem display_actAll (r : Run) (activities : List Activity) :
    (r.gather clicked? activities ++ r.collect dismissed activities ++
        (r.actAll activities).bridge.display).Perm
      (r.bridge.display ++ shownFor r.bridge (r.collect dispatched activities)) := by
  induction activities generalizing r with
  | nil => exact List.perm_append_comm
  | cons activity rest ih =>
    have hnow := r.display_act activity
    have hlater := ih (r.act activity)
    have hnotifier : shownFor (r.act activity).bridge = shownFor r.bridge := by
      funext dispatched
      simp only [shownFor, Bridge.notification?, (r.hands_act activity).notifier_eq]
    rw [hnotifier] at hlater
    rw [gather, collect, collect]
    refine List.perm_iff_count.mpr fun notification => ?_
    have hcount := hnow.count_eq notification
    have hcount' := hlater.count_eq notification
    simp only [shownFor, List.filterMap_append, List.count_append] at hcount hcount' ⊢
    show _ + List.count notification (((r.act activity).actAll rest).bridge.display) = _
    omega

/-- Someone who picks a key of what was shown gets what the buttons of its event say, whatever has been
done in between, and the notification is gone. -/
theorem picks_click {r : Run} {event : Event} {runtime : Bool} {index : Nat} {n : Notification}
    (hshown : r.bridge.display[index]? = some n)
    (hevent : r.bridge.notification? event runtime = some n) (key : String) :
    event.Picks r.bridge.notifier.capabilities.actions key r.bridge.desk (r.bridge.click index key).1
        (r.bridge.click index key).2.desk ∧
      (r.bridge.click index key).2.display = r.bridge.display.eraseIdx index := by
  have hpicks := Notification.picks_trigger hevent key r.bridge.desk
  have hclick : r.bridge.click index key = ((n.trigger key r.bridge.desk).1,
      { r.bridge with
        desk := (n.trigger key r.bridge.desk).2
        display := r.bridge.display.eraseIdx index }) := by
    rw [Bridge.click, hshown]
  rw [hclick]
  exact ⟨hpicks, rfl⟩

/-- A bridge keeps its notifier. -/
theorem notifier_actAll (r : Run) (activities : List Activity) :
    (r.actAll activities).bridge.notifier = r.bridge.notifier := by
  induction activities generalizing r with
  | nil => rfl
  | cons activity rest ih => exact (ih (r.act activity)).trans (r.hands_act activity).notifier_eq

/-- What is on display after a run is the notification of an event that was dispatched while there was a
runtime. -/
theorem exists_event_of_display (settings : Settings) (store : Store) (desktop : Desktop)
    (activities : List Activity) {n : Notification}
    (hn : n ∈ ((ofBridge (.start settings store desktop)).actAll activities).bridge.display) :
    ∃ event capabilities, (event, true) ∈
        (ofBridge (.start settings store desktop)).collect dispatched activities ∧
      desktop.capabilities? settings.notifications.enabled = some capabilities ∧
      (Notification.ofEvent? event).map (·.shownBy capabilities) = some n := by
  have hall := (ofBridge (.start settings store desktop)).display_actAll activities
  have hmem := hall.subset (List.mem_append_right _ hn)
  rw [show (ofBridge (.start settings store desktop)).bridge.display = [] from rfl, List.nil_append] at hmem
  obtain ⟨⟨event, runtime⟩, hdispatched, hshown⟩ := List.mem_filterMap.mp hmem
  have hstart : (Bridge.start settings store desktop).notification? event runtime = some n := hshown
  rw [Bridge.notification?_start] at hstart
  obtain ⟨capabilities, hcapabilities, hgiven⟩ := Option.bind_eq_some_iff.mp hstart
  cases runtime with
  | true => exact ⟨event, capabilities, hdispatched, hcapabilities, hgiven⟩
  | false => exact nomatch hgiven

/-- Buttons order what their event calls for.

Of the actions of any notification the first one with the key runs, and a key that no action has does
nothing. Whatever a notifier shows for an event: at any time, and whatever has been issued by then, a key
issues the order of the button that the event calls for, under the next identifier, if the desktop offers
buttons; every other key does nothing.

In a run of a bridge each notification shown has been picked from once, has been let go of, or is on
display. What is on display is the notification of an event that was dispatched while there was a runtime;
the user who picks a key of it gets what the buttons of that event say, and it is gone. The next
identifier counts the orders issued so far, and as long as they are fewer than 2^64 it was never told to
anyone. -/
theorem buttons_issue_orders (settings : Settings) (store : Store) (desktop : Desktop)
    (activities : List Activity) :
    let fresh := ofBridge (.start settings store desktop)
    let later := fresh.actAll activities
    let orders := fresh.gather order? activities
    (∀ (n : Notification) (before after : List NotificationAction) (action : NotificationAction)
      (desk : Desk), n.actions = before ++ action :: after →
        (∀ other ∈ before, other.key ≠ action.key) →
        n.trigger action.key desk =
          (some (action.effect.invoke desk).1, (action.effect.invoke desk).2)) ∧
    (∀ (n : Notification) (key : String) (desk : Desk),
      (∀ action ∈ n.actions, action.key ≠ key) → n.trigger key desk = (none, desk)) ∧
    (∀ (event : Event) (notifier : Notifier) (runtime : Bool) (n : Notification),
      (Notification.ofEvent? event).bind (notifier.forDesktop? runtime) = some n →
        ∀ (key : String) (desk : Desk), event.Picks notifier.capabilities.actions key desk
          (n.trigger key desk).1 (n.trigger key desk).2) ∧
    (fresh.gather clicked? activities ++ fresh.collect dismissed activities ++ later.bridge.display).Perm
      (shownFor fresh.bridge (fresh.collect dispatched activities)) ∧
    (∀ (index : Nat) (n : Notification), later.bridge.display[index]? = some n →
      ∃ event capabilities, (event, true) ∈ fresh.collect dispatched activities ∧
        desktop.capabilities? settings.notifications.enabled = some capabilities ∧
        (Notification.ofEvent? event).map (·.shownBy capabilities) = some n ∧
        ∀ key, event.Picks capabilities.actions key later.bridge.desk (later.bridge.click index key).1
            (later.bridge.click index key).2.desk ∧
          (later.bridge.click index key).2.display = later.bridge.display.eraseIdx index) ∧
    later.bridge.desk.nextId = UInt64.ofNat orders.length ∧
    (orders.length < UInt64.size → later.bridge.desk.nextId ∉ fresh.gather returned? activities) := by
  intro fresh later orders
  have hoffers : fresh.bridge.Offers := Bridge.offers_start settings store desktop
  obtain ⟨hids, hnext⟩ := ids_actAll hoffers (show _ = UInt64.ofNat 0 from rfl) activities
  rw [Nat.zero_add] at hnext
  refine ⟨fun _ _ _ _ desk hactions hfirst => Notification.trigger_first hactions hfirst desk,
    fun _ _ desk hmissing => Notification.trigger_missing hmissing desk,
    fun _ _ _ _ hshown key desk => Notification.picks_trigger hshown key desk,
    fresh.display_actAll activities, fun index n hshown => ?_, hnext, fun hfit hold => ?_⟩
  · obtain ⟨event, capabilities, hdispatched, hcapabilities, hn⟩ :=
      exists_event_of_display settings store desktop activities (List.mem_of_getElem? hshown)
    have hnotifier : later.bridge.notifier = .start settings.notifications.enabled desktop :=
      notifier_actAll fresh activities
    have hevent : later.bridge.notification? event true = some n := by
      rw [Bridge.notification?, hnotifier, ← hn]
      have hstart := Bridge.notification?_start settings store desktop event true
      rw [hcapabilities] at hstart
      exact hstart
    have hsame : later.bridge.notifier.capabilities = capabilities := by
      rw [hnotifier]
      exact Notifier.capabilities_start hcapabilities
    exact ⟨event, capabilities, hdispatched, hcapabilities, hn, hsame ▸ picks_click hshown hevent⟩
  · rw [hids, hnext] at hold
    obtain ⟨number, hnumber, heq⟩ := List.mem_map.mp hold
    rw [← List.range_eq_range', List.mem_range] at hnumber
    have hnat := congrArg UInt64.toNat heq
    rw [UInt64.toNat_ofNat_of_lt' (hnumber.trans hfit), UInt64.toNat_ofNat_of_lt' hfit] at hnat
    exact absurd hnat (Nat.ne_of_lt hnumber)

/-- A held message is shown after one order was issued and picked from after another one; a desktop without
buttons has nothing to pick; and of two actions with the same key the first one runs. -/
theorem buttons_issue_orders_held :
    let held : HeldMessage := ⟨"alice", "!room", "Ops"⟩
    let store := ({} : Directory).store
    let desktop : Desktop := ⟨"desktop", .ok ⟨true⟩⟩
    let activities : List Activity :=
      [.occur (.submit "bob" (.room .send "!den")), .occur (.send (.messageHeld held)),
        .occur (.run (.tick store true)), .occur (.submit "bob" (.room .cancel "!den"))]
    let fresh := ofBridge (.start {} store desktop)
    let later := fresh.actAll activities
    let clicked := later.bridge.click 0 "cancel"
    let plain : Notifier := ⟨some "plain", ⟨false⟩⟩
    let twice : Notification :=
      { summary := "", body := "", actions := [⟨"ok", "First", .issued 7⟩, ⟨"ok", "Second", .issued 8⟩] }
    let desk : Desk := {}
    later.bridge.display[0]? = Notification.ofEvent? (.messageHeld held) ∧
      (∃ event, (event, true) ∈ fresh.collect dispatched activities ∧
        event.Picks true "cancel" later.bridge.desk clicked.1 clicked.2.desk) ∧
      clicked.1 = some 2 ∧
      clicked.2.desk.queue.waiting = [⟨0, "bob", .room .send "!den"⟩, ⟨1, "bob", .room .cancel "!den"⟩,
        ⟨2, "alice", .room .cancel "!room"⟩] ∧
      later.bridge.desk.nextId ∉ fresh.gather returned? activities ∧
      (∃ n, (Notification.ofEvent? (.messageHeld held)).bind (plain.forDesktop? true) = some n ∧
        (Event.messageHeld held).Picks false "cancel" desk (n.trigger "cancel" desk).1
          (n.trigger "cancel" desk).2) ∧
      twice.trigger "ok" desk = (some 7, desk) ∧ twice.trigger "no" desk = (none, desk) := by
  intro held store desktop activities fresh later clicked plain twice desk
  have hshown : later.bridge.display[0]? = Notification.ofEvent? (.messageHeld held) := rfl
  have hfit : (fresh.gather order? activities).length < UInt64.size :=
    Nat.lt_of_le_of_lt (fresh.length_gather_le order? activities) (by decide)
  obtain ⟨hfirst, hmissing, hpicks, -, hdisplay, -, hunused⟩ :=
    buttons_issue_orders {} store desktop activities
  obtain ⟨event, capabilities, hdispatched, hcapabilities, -, hclick⟩ := hdisplay 0 _ hshown
  obtain rfl : ⟨true⟩ = capabilities := Option.some.inj hcapabilities
  exact ⟨hshown, ⟨event, hdispatched, (hclick "cancel").1⟩, rfl, rfl, hunused hfit,
    ⟨_, rfl, hpicks _ plain true _ rfl "cancel" desk⟩,
    hfirst twice [] [⟨"ok", "Second", .issued 8⟩] ⟨"ok", "First", .issued 7⟩ desk rfl nofun,
    hmissing twice "no" desk (by decide)⟩

/-- Once the worker has gone, a button still takes an identifier, but no command is enqueued. -/
theorem click_without_worker :
    let held : HeldMessage := ⟨"alice", "!room", "Ops"⟩
    let store := ({} : Directory).store
    let activities : List Activity :=
      [.occur (.send (.messageHeld held)), .occur (.run (.tick store true)), .loseWorker]
    let later := (ofBridge (.start {} store ⟨"desktop", .ok ⟨true⟩⟩)).actAll activities
    let clicked := later.bridge.click 0 "send"
    later.bridge.display[0]? = Notification.ofEvent? (.messageHeld held) ∧
      (Event.messageHeld held).Button "send" "alice" (.room .send "!room") ∧ clicked.1 = some 0 ∧
      clicked.2.desk.nextId = later.bridge.desk.nextId + 1 ∧
      clicked.2.desk.queue.waiting ≠
        later.bridge.desk.queue.waiting ++ [⟨later.bridge.desk.nextId, "alice", .room .send "!room"⟩] := by
  intro held store activities later clicked
  exact ⟨rfl, .send held, rfl, rfl, by decide +kernel⟩

end Run

end DaemonBridge
