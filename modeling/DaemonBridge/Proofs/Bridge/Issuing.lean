import DaemonBridge.Proofs.Bridge.Activity
import DaemonBridge.Proofs.Control.Atomicity

/-!
# Orders are issued exactly once

Orders come from inside the process, from the control socket and from the buttons of notifications. What
one activity may do where commands are issued is said once (`Desk.Moves`), and everything else follows:
the identifiers count the orders, and up to the moment at which the worker goes, what it has received and
what waits are the commands of the orders, in sequence.
-/

namespace DaemonBridge

/-! ## Orders -/

/-- The order that a request on the control socket asks for, if it asks for one. -/
def Control.wanted? (request : Http.Request) : Option (String × Order) :=
  match Control.Operation.ofRequest request with
  | .ok (.submit account order) => some (account, order)
  | _ => none

/-- That is the order for which the request has the path, the method, the content type and the body. -/
theorem Control.wanted?_eq_some_iff (request : Http.Request) (account : String) (order : Order) :
    Control.wanted? request = some (account, order) ↔ Control.AsksFor request account order := by
  rw [← Control.ofRequest_eq_submit_iff, wanted?]
  split
  · next heq =>
    rw [heq]
    simp
  · next hother => exact ⟨nofun, fun h => absurd h (hother account order)⟩

/-- The order that an action of a notification stands for. -/
def Notification.picked? (n : Notification) (key : String) : Option (String × Order) :=
  match (n.action? key).map NotificationAction.effect with
  | some (.order account order) => some (account, order)
  | _ => none

/-- The order that the user picks. -/
def Bridge.picked? (b : Bridge) (index : Nat) (key : String) : Option (String × Order) :=
  b.display[index]?.bind fun notification => notification.picked? key

/-- The commands of some orders, numbered on from a number. -/
def commandsFrom (next : Nat) (orders : List (String × Order)) : List Command :=
  (orders.zipIdx next).map fun (order, number) => ⟨UInt64.ofNat number, order.1, order.2⟩

namespace Run

/-- The order that is issued. -/
def order? (r : Run) : Activity → Option (String × Order)
  | .occur (.submit account order) => some (account, order)
  | .occur (.click index key) => r.bridge.picked? index key
  | .request _ received => Control.wanted? received
  | _ => none

/-- The identifier that is returned to whoever issues an order. -/
def returned? (r : Run) : Activity → Option CommandId
  | .occur (.submit account order) => some (r.bridge.submit account order).1
  | .occur (.click index key) => (r.bridge.click index key).1
  | .request uptime received => (Control.arrive r uptime received).1.accepted?
  | _ => none

/-- The command that the worker receives. -/
def received? (r : Run) : Activity → Option Command
  | .occur .takeCommand => r.bridge.takeCommand?.1
  | _ => none

end Run

/-! ## Notifications offer orders -/

namespace Notification

/-- Every action of the notification stands for an order. -/
def OffersOrders (n : Notification) : Prop :=
  ∀ action ∈ n.actions, ∃ account order, action.effect = .order account order

/-- The actions of a notification of an event stand for orders. -/
theorem offersOrders_ofEvent? {event : Event} {n : Notification} (h : ofEvent? event = some n) :
    n.OffersOrders := by
  cases event with
  | messageHeld | verificationInvited | symbolsReady =>
    obtain rfl := Option.some.inj h
    exact List.forall_mem_cons.mpr ⟨⟨_, _, rfl⟩, List.forall_mem_cons.mpr ⟨⟨_, _, rfl⟩, nofun⟩⟩
  | verificationDone | verificationCanceled =>
    obtain rfl := Option.some.inj h
    exact nofun
  | usersChanged | devicesChanged | answered | unrecognized => exact nomatch h

/-- A key of a notification that offers orders issues the order that is picked, or does nothing. -/
theorem OffersOrders.trigger_cases {n : Notification} (h : n.OffersOrders) (key : String) (desk : Desk) :
    (n.picked? key = none ∧ n.trigger key desk = (none, desk)) ∨
    ∃ account order, n.picked? key = some (account, order) ∧
      n.trigger key desk = (some (desk.submit account order).1, (desk.submit account order).2) := by
  cases haction : n.action? key with
  | none =>
    left
    simp only [Notification.picked?, trigger, haction, Option.map_none]
    exact ⟨trivial, trivial⟩
  | some action =>
    obtain ⟨account, order, heffect⟩ := h action (List.mem_of_find?_eq_some haction)
    refine .inr ⟨account, order, ?_⟩
    simp only [Notification.picked?, trigger, haction, Option.map_some, heffect]
    exact ⟨trivial, rfl⟩

end Notification

namespace Bridge

/-- Every action of what the desktop shows stands for an order. -/
def Offers (b : Bridge) : Prop :=
  ∀ n ∈ b.display, n.OffersOrders

/-- A fresh bridge shows nothing. -/
theorem offers_start (settings : Settings) (store : Store) (desktop : Desktop) :
    (start settings store desktop).Offers :=
  nofun

/-- What is shown for an event offers orders. -/
theorem Offers.notify {b : Bridge} (h : b.Offers) (runtime : Bool) (event : Event) :
    (b.notify runtime event).Offers := by
  unfold Bridge.notify
  split
  · next n hshown =>
    obtain ⟨original, horiginal, hgiven⟩ := Option.bind_eq_some_iff.mp hshown
    have horders := Notification.offersOrders_ofEvent? horiginal
    have hn : n.OffersOrders := by
      unfold Notifier.forDesktop? at hgiven
      split at hgiven
      · obtain rfl := Option.some.inj hgiven
        split
        · exact horders
        · exact nofun
      · exact nomatch hgiven
    exact List.forall_mem_append.mpr ⟨h, List.forall_mem_singleton.mpr hn⟩
  · exact h

/-- So does what is shown after a tick. -/
theorem Offers.tick {b : Bridge} (h : b.Offers) (store : Store) (runtime : Bool) :
    (b.tick store runtime).2.Offers := by
  unfold Bridge.tick
  split
  · exact h
  · next event inbound _ =>
    have hannounced : ((({ b with inbound := inbound } : Bridge).refreshFor store event).announce
        event).Offers := by
      unfold announce refreshFor
      split <;> split <;> exact h
    exact hannounced.notify runtime event

/-- A user who picks an action of a notification that offers orders issues an order, or nothing
happens where commands are issued. -/
theorem Offers.click_cases {b : Bridge} (h : b.Offers) (index : Nat) (key : String) :
    (b.picked? index key = none ∧ (b.click index key).1 = none ∧
      (b.click index key).2.desk = b.desk) ∨
    ∃ account order, b.picked? index key = some (account, order) ∧
      (b.click index key).1 = some (b.desk.submit account order).1 ∧
      (b.click index key).2.desk = (b.desk.submit account order).2 := by
  unfold picked? click
  cases hshown : b.display[index]? with
  | none => exact .inl ⟨rfl, rfl, rfl⟩
  | some n =>
    have hn : n.OffersOrders := h n (List.mem_of_getElem? hshown)
    rcases hn.trigger_cases key b.desk with ⟨hpicked, htrigger⟩ | ⟨account, order, hpicked, htrigger⟩
    · simp only [Option.bind_some, hpicked, htrigger]
      exact .inl ⟨trivial, trivial, trivial⟩
    · simp only [Option.bind_some, hpicked, htrigger]
      exact .inr ⟨account, order, rfl, rfl, rfl⟩

end Bridge

/-! ## What one activity does where commands are issued -/

/-- What may happen at once where commands are issued: an order is issued, which takes the next
identifier and enqueues its command; the worker receives the next command; the worker goes; or nothing. -/
inductive Desk.Moves (desk : Desk) :
    Bool → Option (String × Order) → Option CommandId → Option Command → Desk → Prop
  | issue (account : String) (order : Order) :
    Moves desk false (some (account, order)) (some desk.nextId) none
      ⟨desk.nextId + 1, desk.queue.send ⟨desk.nextId, account, order⟩⟩
  | take {command : Command} {rest : List Command} (h : desk.queue.waiting = command :: rest) :
    Moves desk false none none (some command)
      { desk with queue := { desk.queue with waiting := rest } }
  | lose : Moves desk true none none none { desk with queue := desk.queue.closeReceiver }
  | rest : Moves desk false none none none desk

namespace Run

variable {r : Run}

/-- Whatever someone does, one of the moves is made. -/
theorem moves_act (h : r.bridge.Offers) (activity : Activity) :
    r.bridge.desk.Moves activity.isLoss (r.order? activity) (r.returned? activity)
      (r.received? activity) (r.act activity).bridge.desk := by
  cases activity with
  | occur occurrence =>
    cases occurrence with
    | send event => exact .rest
    | run step =>
      have hdesk : (r.step step).bridge.desk = r.bridge.desk := (r.progress_step step).desk_eq
      show r.bridge.desk.Moves _ _ _ _ (r.step step).bridge.desk
      rw [hdesk]
      exact .rest
    | submit account order => exact .issue account order
    | click index key =>
      show r.bridge.desk.Moves false (r.bridge.picked? index key) (r.bridge.click index key).1 none
        (r.bridge.click index key).2.desk
      rcases h.click_cases index key with ⟨hpicked, hid, hdesk⟩ | ⟨account, order, hpicked, hid, hdesk⟩
      · rw [hpicked, hid, hdesk]
        exact .rest
      · rw [hpicked, hid, hdesk]
        exact .issue account order
    | takeCommand =>
      show r.bridge.desk.Moves false none none r.bridge.takeCommand?.1 r.bridge.takeCommand?.2.desk
      cases hwaiting : r.bridge.desk.queue.waiting with
      | nil =>
        simp only [Bridge.takeCommand?, CommandQueue.take?, hwaiting]
        exact .rest
      | cons command rest =>
        simp only [Bridge.takeCommand?, CommandQueue.take?, hwaiting]
        exact .take hwaiting
    | refreshLogins store => exact .rest
    | refreshDevices store => exact .rest
  | request uptime received =>
    show r.bridge.desk.Moves false (Control.wanted? received)
      (Control.arrive r uptime received).1.accepted? none (Control.arrive r uptime received).2.bridge.desk
    unfold Control.wanted? Control.arrive
    cases Control.Operation.ofRequest received with
    | error refusal => exact .rest
    | ok operation =>
      cases operation with
      | health | stop | config | inquire | signals => exact .rest
      | submit account order => exact .issue account order
  | dismiss => exact .rest
  | loseWorker => exact .lose

/-- Whatever someone does, what the desktop shows offers orders. -/
theorem offers_act (h : r.bridge.Offers) (activity : Activity) : (r.act activity).bridge.Offers := by
  cases activity with
  | occur occurrence =>
    cases occurrence with
    | run step =>
      cases step with
      | tick store runtime => exact h.tick store runtime
      | call _ | enter _ | requestStop | begin | answer | finish =>
        show (r.step _).bridge.Offers
        rwa [r.step_bridge fun _ _ => RunStep.noConfusion]
    | click index key =>
      show (r.bridge.click index key).2.Offers
      unfold Bridge.click
      split
      · exact h
      · exact fun n hmem => h n (List.mem_of_mem_eraseIdx hmem)
    | takeCommand =>
      show r.bridge.takeCommand?.2.Offers
      unfold Bridge.takeCommand?
      split <;> exact h
    | send | submit | refreshLogins | refreshDevices => exact h
  | request uptime received =>
    show (Control.arrive r uptime received).2.bridge.Offers
    unfold Control.arrive
    cases Control.Operation.ofRequest received with
    | error refusal => exact h
    | ok operation => cases operation <;> exact h
  | dismiss => exact nofun
  | loseWorker => exact h

/-- So it is after any number of activities. -/
theorem offers_actAll (h : r.bridge.Offers) (activities : List Activity) :
    (r.actAll activities).bridge.Offers := by
  induction activities generalizing r with
  | nil => exact h
  | cons activity rest ih => exact ih (offers_act h activity)

end Run

namespace Desk.Moves

variable {desk next : Desk} {lost : Bool} {order : Option (String × Order)} {id : Option CommandId}
  {command : Option Command}

/-- An order takes the next identifier, and nothing else takes one. -/
theorem ids (h : desk.Moves lost order id command next) {count : Nat}
    (hnext : desk.nextId = UInt64.ofNat count) :
    id.toList = (List.range' count order.toList.length).map UInt64.ofNat ∧
      next.nextId = UInt64.ofNat (count + order.toList.length) := by
  cases h with
  | issue account order =>
    refine ⟨congrArg (fun id => [id]) hnext, ?_⟩
    rw [hnext, Option.toList_some, List.length_singleton, UInt64.ofNat_add]
    rfl
  | take | lose | rest => exact ⟨rfl, hnext⟩

/-- As long as the worker is there, what it receives and what waits are what waited, followed by the
command of the order. -/
theorem commands (h : desk.Moves lost order id command next) (hkept : lost = false)
    (hopen : desk.queue.receiverOpen = true) {count : Nat} (hnext : desk.nextId = UInt64.ofNat count) :
    next.queue.receiverOpen = true ∧
      command.toList ++ next.queue.waiting = desk.queue.waiting ++ commandsFrom count order.toList := by
  cases h with
  | issue account order =>
    have hsend : ∀ command, desk.queue.send command =
        { desk.queue with waiting := desk.queue.waiting ++ [command] } := fun command => by
      rw [CommandQueue.send, if_pos hopen]
    rw [hsend, hnext]
    exact ⟨hopen, rfl⟩
  | take hwaiting => exact ⟨hopen, by rw [hwaiting]; exact (List.append_nil _).symm⟩
  | lose => cases hkept
  | rest => exact ⟨hopen, (List.append_nil _).symm⟩

/-- Once the worker has gone, nothing waits and nothing is received. -/
theorem gone (h : desk.Moves lost order id command next)
    (hgone : lost = true ∨ desk.queue.receiverOpen = false ∧ desk.queue.waiting = []) :
    command = none ∧ next.queue.receiverOpen = false ∧ next.queue.waiting = [] := by
  cases h with
  | issue account order =>
    obtain ⟨hclosed, hnil⟩ := hgone.resolve_left (by decide)
    rw [CommandQueue.send, if_neg (by rw [hclosed]; decide)]
    exact ⟨rfl, hclosed, hnil⟩
  | take hwaiting =>
    have hnil := (hgone.resolve_left (by decide)).2
    cases hwaiting.symm.trans hnil
  | lose => exact ⟨rfl, rfl, rfl⟩
  | rest => exact ⟨rfl, hgone.resolve_left (by decide)⟩

/-- An order is issued under the next identifier. -/
theorem issued {account : String} {wanted : Order}
    (h : desk.Moves lost (some (account, wanted)) id command next) :
    id = some desk.nextId ∧
      next = ⟨desk.nextId + 1, desk.queue.send ⟨desk.nextId, account, wanted⟩⟩ := by
  cases h with
  | issue => exact ⟨rfl, rfl⟩

/-- Without an order no identifier is returned or taken and nothing is enqueued. -/
theorem silent (h : desk.Moves lost order id command next) (hnone : order = none) :
    id = none ∧ next.nextId = desk.nextId ∧ next.queue.waiting <:+ desk.queue.waiting := by
  cases h with
  | issue => exact nomatch hnone
  | take hwaiting => exact ⟨rfl, rfl, hwaiting ▸ List.suffix_cons _ _⟩
  | lose => exact ⟨rfl, rfl, List.nil_suffix⟩
  | rest => exact ⟨rfl, rfl, List.suffix_refl _⟩

end Desk.Moves

/-! ## Whole runs -/

/-- Later commands are numbered on. -/
theorem commandsFrom_append (count : Nat) (earlier later : List (String × Order)) :
    commandsFrom count (earlier ++ later) =
      commandsFrom count earlier ++ commandsFrom (count + earlier.length) later := by
  rw [commandsFrom, List.zipIdx_append, List.map_append]
  rfl

namespace Run

variable {r : Run} {count : Nat}

/-- The identifiers returned are consecutive, and the next one follows them. -/
theorem ids_actAll (h : r.bridge.Offers) (hnext : r.bridge.desk.nextId = UInt64.ofNat count)
    (activities : List Activity) :
    r.gather returned? activities =
        (List.range' count (r.gather order? activities).length).map UInt64.ofNat ∧
      (r.actAll activities).bridge.desk.nextId =
        UInt64.ofNat (count + (r.gather order? activities).length) := by
  induction activities generalizing r count with
  | nil => exact ⟨rfl, hnext⟩
  | cons activity rest ih =>
    obtain ⟨hids, hnext⟩ := (moves_act h activity).ids hnext
    obtain ⟨hrest, hlast⟩ := ih (offers_act h activity) hnext
    rw [gather, gather, List.length_append, hids, hrest, ← List.map_append, ← Nat.add_assoc]
    refine ⟨?_, hlast⟩
    rw [List.range'_append_1]

/-- As long as the worker is there, what it receives and what waits are what waited, followed by the
commands of the orders. -/
theorem commands_actAll (h : r.bridge.Offers) (hnext : r.bridge.desk.nextId = UInt64.ofNat count)
    (hopen : r.bridge.desk.queue.receiverOpen = true) {activities : List Activity}
    (hkept : ∀ activity ∈ activities, activity.isLoss = false) :
    r.gather received? activities ++ (r.actAll activities).bridge.desk.queue.waiting =
      r.bridge.desk.queue.waiting ++ commandsFrom count (r.gather order? activities) := by
  induction activities generalizing r count with
  | nil => exact (List.append_nil _).symm
  | cons activity rest ih =>
    have hmoves := moves_act h activity
    obtain ⟨hfirst, hrest⟩ := List.forall_mem_cons.mp hkept
    obtain ⟨hopen, hone⟩ := hmoves.commands hfirst hopen hnext
    have hall := ih (offers_act h activity) (hmoves.ids hnext).2 hopen hrest
    rw [gather, gather, commandsFrom_append, ← List.append_assoc, ← hone, List.append_assoc,
      List.append_assoc, ← hall]
    rfl

/-- Once the worker has gone, it receives nothing and nothing waits. -/
theorem lost_actAll (h : r.bridge.Offers) (hclosed : r.bridge.desk.queue.receiverOpen = false)
    (hnil : r.bridge.desk.queue.waiting = []) (activities : List Activity) :
    r.gather received? activities = [] ∧ (r.actAll activities).bridge.desk.queue.waiting = [] := by
  induction activities generalizing r with
  | nil => exact ⟨rfl, hnil⟩
  | cons activity rest ih =>
    obtain ⟨hcommand, hclosed, hnil⟩ := (moves_act h activity).gone (.inr ⟨hclosed, hnil⟩)
    obtain ⟨hrest, hlast⟩ := ih (offers_act h activity) hclosed hnil
    rw [gather, hcommand, hrest]
    exact ⟨rfl, hlast⟩

/-- Every order is issued exactly once, under the next identifier.

After any run of a fresh bridge in which fewer than 2^64 orders are issued, from wherever, the k-th of
them was told the identifier k, and as many identifiers have been taken. What the worker received,
followed by what waited when it went, or waits still, are the commands of the orders up to then, each
with its own identifier, account and order; afterwards nothing waits. At every moment an order takes the
next identifier and enqueues its command, which is dropped if the worker has gone, and whatever else is
done returns no identifier, takes none and enqueues nothing. A request on the control socket issues an
order exactly when it asks for one. -/
theorem issue_exactly_once (settings : Settings) (store : Store) (desktop : Desktop)
    (activities : List Activity) :
    let fresh := ofBridge (.start settings store desktop)
    let orders := fresh.gather order? activities
    let earlier := Activity.untilLoss activities
    orders.length < UInt64.size →
      (fresh.gather returned? activities).map UInt64.toNat = List.range orders.length ∧
      (fresh.actAll activities).bridge.desk.issued.toNat = orders.length ∧
      fresh.gather received? activities ++ (fresh.actAll earlier).bridge.desk.queue.waiting =
        commandsFrom 0 (fresh.gather order? earlier) ∧
      (earlier ≠ activities → (fresh.actAll activities).bridge.desk.queue.waiting = []) ∧
      ∀ (before : List Activity) (activity : Activity),
        let r := fresh.actAll before
        (∀ account order, r.order? activity = some (account, order) →
          r.returned? activity = some r.bridge.desk.nextId ∧
          (r.act activity).bridge.desk = ⟨r.bridge.desk.nextId + 1,
            r.bridge.desk.queue.send ⟨r.bridge.desk.nextId, account, order⟩⟩) ∧
        (r.order? activity = none →
          r.returned? activity = none ∧
          (r.act activity).bridge.desk.nextId = r.bridge.desk.nextId ∧
          (r.act activity).bridge.desk.queue.waiting <:+ r.bridge.desk.queue.waiting) ∧
        ∀ uptime request account order, r.order? (.request uptime request) = some (account, order) ↔
          Control.AsksFor request account order := by
  intro fresh orders earlier hfit
  have hoffers : fresh.bridge.Offers := Bridge.offers_start settings store desktop
  have hnext : fresh.bridge.desk.nextId = UInt64.ofNat 0 := rfl
  obtain ⟨hids, hissued⟩ := ids_actAll hoffers hnext activities
  have hkept : ∀ activity ∈ earlier, activity.isLoss = false := fun _ =>
    Activity.isLoss_of_mem_untilLoss
  have hcommands := commands_actAll hoffers hnext rfl hkept
  have hlater : fresh.gather received? activities = fresh.gather received? earlier ∧
      (earlier ≠ activities → (fresh.actAll activities).bridge.desk.queue.waiting = []) := by
    rcases Activity.eq_untilLoss_or activities with heq | ⟨rest, hsplit⟩
    · rw [show earlier = activities from heq.symm]
      exact ⟨rfl, fun hne => absurd rfl hne⟩
    · have hthen : (fresh.actAll earlier).bridge.Offers := offers_actAll hoffers earlier
      obtain ⟨-, hclosed, hnil⟩ := (moves_act hthen .loseWorker).gone (.inl rfl)
      obtain ⟨hnothing, hlast⟩ := lost_actAll (offers_act hthen .loseWorker) hclosed hnil rest
      rw [hsplit, gather_append, actAll_append, gather, hnothing]
      exact ⟨List.append_nil _, fun _ => hlast⟩
  refine ⟨?_, ?_, ?_, hlater.2, fun before activity => ⟨fun account order horder => ?_, fun hnone => ?_,
    fun _ request account order => Control.wanted?_eq_some_iff request account order⟩⟩
  · rw [hids, List.map_map, ← List.range_eq_range']
    refine (List.map_congr_left fun k hk => ?_).trans (List.map_id _)
    exact UInt64.toNat_ofNat_of_lt' (Nat.lt_trans (List.mem_range.mp hk) hfit)
  · rw [Desk.issued, hissued, Nat.zero_add]
    exact UInt64.toNat_ofNat_of_lt' hfit
  · rw [hlater.1, hcommands]
    rfl
  · have hmoves := moves_act (offers_actAll hoffers before) activity
    rw [horder] at hmoves
    exact hmoves.issued
  · exact (moves_act (offers_actAll hoffers before) activity).silent hnone

/-- Orders from inside the process, from a button and from the control socket, the worker that receives
one command and goes, and one more order: the identifiers go on. -/
theorem issue_exactly_once_mixed :
    let fresh := ofBridge (.start {} ({} : Directory).store ⟨"desktop", .ok ⟨true⟩⟩)
    let activities : List Activity :=
      [.occur (.submit "alice" (.device .verify ⟨"bob", "PHONE"⟩)),
        .occur (.send (.symbolsReady ⟨"alice", "bob", "PHONE", "t"⟩ [])),
        .occur (.run (.tick ({} : Directory).store true)), .occur (.click 0 "confirm"),
        .request 0 (Client.Call.command "alice" (.room .send "!room")).request, .occur .takeCommand,
        .loseWorker, .occur (.submit "alice" (.keys .exportKeys ⟨"keys.txt", ⟨"secret"⟩⟩))]
    (fresh.gather order? activities).length < UInt64.size ∧
      (fresh.gather returned? activities).map UInt64.toNat = [0, 1, 2, 3] ∧
      (fresh.actAll activities).bridge.desk.issued.toNat = 4 := by
  intro fresh activities
  have hfit : (fresh.gather order? activities).length < UInt64.size :=
    Nat.lt_of_le_of_lt (fresh.length_gather_le order? activities) (by decide)
  have hfour : (fresh.gather order? activities).length = 4 := by decide +kernel
  have h := issue_exactly_once {} ({} : Directory).store ⟨"desktop", .ok ⟨true⟩⟩ activities hfit
  exact ⟨hfit, h.1.trans (congrArg List.range hfour), h.2.1.trans hfour⟩

end Run

end DaemonBridge
