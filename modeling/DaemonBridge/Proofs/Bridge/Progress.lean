import DaemonBridge.Client.Connection
import DaemonBridge.Proofs.Bridge.Relay
import Mathlib.Data.List.Nodup

/-!
# What a bridge does in between

Whatever a bridge is asked to do, it only ever handles events that wait and issues orders
(`Bridge.Progress`). This is so for a tick, for a question from its cache, for a button of a
notification and for any request on the control socket, whether it is understood or not. The rest
follows from the two: the events handled so far grow, and the commands issued are numbered on.
-/

namespace DaemonBridge

/-! ## Issued commands -/

namespace Desk

/-- Issue orders one after the other. -/
def submitAll (desk : Desk) (orders : List (String × Order)) : Desk :=
  orders.foldl (fun desk order => (desk.submit order.1 order.2).2) desk

/-- Issuing orders in two parts is issuing them all. -/
theorem submitAll_append (desk : Desk) (earlier later : List (String × Order)) :
    desk.submitAll (earlier ++ later) = (desk.submitAll earlier).submitAll later :=
  List.foldl_append

/-- The commands issued so far, of which the worker has taken some, are numbered 0, 1, 2, …, and none has
been dropped. -/
structure Numbers (desk : Desk) (taken : List Command) : Prop where
  receiverOpen : desk.queue.receiverOpen = true
  nextId_eq : desk.nextId = UInt64.ofNat (taken ++ desk.queue.waiting).length
  ids_eq : (taken ++ desk.queue.waiting).map Command.id =
    (List.range (taken ++ desk.queue.waiting).length).map UInt64.ofNat

namespace Numbers

variable {desk : Desk} {taken : List Command}

/-- An order becomes the last command that waits. -/
theorem submit_waiting (h : desk.Numbers taken) (account : String) (order : Order) :
    (desk.submit account order).2.queue.waiting =
      desk.queue.waiting ++ [⟨desk.nextId, account, order⟩] := by
  simp only [submit, takeId, push, CommandQueue.send, h.receiverOpen, if_true]

/-- An order is numbered on. -/
theorem submit (h : desk.Numbers taken) (account : String) (order : Order) :
    (desk.submit account order).2.Numbers taken := by
  have hwaiting := h.submit_waiting account order
  have hlen : (taken ++ (desk.submit account order).2.queue.waiting).length =
      (taken ++ desk.queue.waiting).length + 1 := by
    rw [hwaiting, ← List.append_assoc, List.length_append, List.length_singleton]
  refine ⟨?_, ?_, ?_⟩
  · simp only [Desk.submit, takeId, push, CommandQueue.send, h.receiverOpen, if_true]
  · have hnext : (desk.submit account order).2.nextId = desk.nextId + 1 := rfl
    rw [hnext, hlen, h.nextId_eq, UInt64.ofNat_add]
    rfl
  · rw [hlen, hwaiting, ← List.append_assoc, List.map_append, h.ids_eq, List.range_succ,
      List.map_append, List.map_singleton, List.map_singleton, h.nextId_eq]

/-- Orders become the last commands that wait, and are numbered on. -/
theorem submitAll (h : desk.Numbers taken) (orders : List (String × Order)) :
    (desk.submitAll orders).Numbers taken ∧
      desk.queue.waiting <+: (desk.submitAll orders).queue.waiting := by
  induction orders generalizing desk with
  | nil => exact ⟨h, List.prefix_refl _⟩
  | cons order orders ih =>
    obtain ⟨hnumbers, hmore⟩ := ih (h.submit order.1 order.2)
    refine ⟨hnumbers, List.IsPrefix.trans ?_ hmore⟩
    rw [h.submit_waiting]
    exact List.prefix_append _ _

/-- The identifiers of fewer than 2^64 commands are all different. -/
theorem nodup_ids (h : desk.Numbers taken) (hfit : (taken ++ desk.queue.waiting).length < UInt64.size) :
    ((taken ++ desk.queue.waiting).map Command.id).Nodup := by
  rw [h.ids_eq]
  refine List.Nodup.map_on (fun i hi j hj heq => ?_) List.nodup_range
  have hlt : i < UInt64.size := Nat.lt_trans (List.mem_range.mp hi) hfit
  have hlt' : j < UInt64.size := Nat.lt_trans (List.mem_range.mp hj) hfit
  have hnat := congrArg UInt64.toNat heq
  rwa [UInt64.toNat_ofNat_of_lt' hlt, UInt64.toNat_ofNat_of_lt' hlt'] at hnat

/-- The next identifier is not among those of fewer than 2^64 commands. -/
theorem nextId_not_mem (h : desk.Numbers taken)
    (hfit : (taken ++ desk.queue.waiting).length < UInt64.size) :
    desk.nextId ∉ (taken ++ desk.queue.waiting).map Command.id := by
  rw [h.ids_eq, h.nextId_eq]
  intro hmem
  obtain ⟨i, hi, heq⟩ := List.mem_map.mp hmem
  have hlt := List.mem_range.mp hi
  have hnat := congrArg UInt64.toNat heq
  rw [UInt64.toNat_ofNat_of_lt' hfit, UInt64.toNat_ofNat_of_lt' (Nat.lt_trans hlt hfit)] at hnat
  omega

end Numbers

end Desk

/-! ## Progress -/

namespace Bridge

/-- The second bridge comes from the first by handling events and issuing the orders. -/
structure Progress (b b' : Bridge) (orders : List (String × Order)) : Prop where
  desk_eq : b'.desk = b.desk.submitAll orders
  relays : ∀ {capacity : Nat} {sent : List Event} {count : Nat}, b.Relays capacity sent count →
    ∃ count', count ≤ count' ∧ b'.Relays capacity sent count'

namespace Progress

variable {b b' b'' : Bridge} {orders later : List (String × Order)}

/-- Nothing happens. -/
theorem refl (b : Bridge) : b.Progress b [] :=
  ⟨rfl, fun h => ⟨_, Nat.le_refl _, h⟩⟩

/-- One thing happens after another. -/
theorem trans (h : b.Progress b' orders) (h' : b'.Progress b'' later) :
    b.Progress b'' (orders ++ later) where
  desk_eq := by rw [h'.desk_eq, h.desk_eq, Desk.submitAll_append]
  relays hrelays := by
    obtain ⟨count, hle, hcount⟩ := h.relays hrelays
    obtain ⟨count', hle', hcount'⟩ := h'.relays hcount
    exact ⟨count', Nat.le_trans hle hle', hcount'⟩

/-- Events are handled after something else, or nothing else happens after it. -/
theorem trans_silent (h : b.Progress b' orders) (h' : b'.Progress b'' []) : b.Progress b'' orders :=
  List.append_nil orders ▸ h.trans h'

/-- A bridge that is left alone makes no progress. -/
theorem of_eq (h : b' = b) : b.Progress b' [] :=
  h ▸ refl b

end Progress

/-- Handling an event issues no order. -/
theorem handle_desk (b : Bridge) (store : Store) (runtime : Bool) (event : Event) :
    (b.handle store runtime event).desk = b.desk := by
  unfold handle notify announce refreshFor
  split <;> split <;> split <;> rfl

/-- A tick handles at most one event. -/
theorem progress_tick (b : Bridge) (store : Store) (runtime : Bool) :
    b.Progress (b.tick store runtime).2 [] := by
  by_cases hnil : b.inbound.waiting = []
  · rw [Relays.tick_of_waiting_eq_nil hnil]
    exact .refl b
  · refine ⟨?_, fun h => ⟨_, Nat.le_succ _, (h.tick_of_waiting_ne_nil hnil store runtime).2⟩⟩
    unfold tick
    split
    · rfl
    · exact handle_desk _ store runtime _

/-- So does each of several ticks. -/
theorem progress_ticks (b : Bridge) (store : Store) (count : Nat) :
    b.Progress (b.ticks store count).2 [] := by
  induction count generalizing b with
  | zero => exact .refl b
  | succ count ih =>
    have hstep := b.progress_tick store true
    unfold ticks
    split
    · next heq => exact (by rw [heq] at hstep; exact hstep)
    · next next heq =>
      rw [heq] at hstep
      exact hstep.trans_silent (ih next)

/-- A bridge that settles handles every event that waits. -/
theorem progress_settle (b : Bridge) (store : Store) : b.Progress (b.settle store).2 [] :=
  b.progress_ticks store _

/-- Issuing an order does nothing else. -/
theorem progress_submit (b : Bridge) (account : String) (order : Order) :
    b.Progress (b.submit account order).2 [(account, order)] :=
  ⟨rfl, fun h => ⟨_, Nat.le_refl _, h.of_eq rfl rfl⟩⟩

/-- A button of a notification issues at most one order. -/
theorem progress_click (b : Bridge) (index : Nat) (key : String) :
    ∃ orders, b.Progress (b.click index key).2 orders := by
  unfold click
  split
  · exact ⟨[], .refl b⟩
  · next notification _ =>
    cases haction : notification.action? key with
    | none =>
      refine ⟨[], ?_, fun h => ⟨_, Nat.le_refl _, h.of_eq rfl rfl⟩⟩
      simp only [Notification.trigger, haction]
      rfl
    | some action =>
      cases heffect : action.effect with
      | issued id =>
        refine ⟨[], ?_, fun h => ⟨_, Nat.le_refl _, h.of_eq rfl rfl⟩⟩
        simp only [Notification.trigger, haction, heffect]
        rfl
      | order account order =>
        refine ⟨[(account, order)], ?_, fun h => ⟨_, Nat.le_refl _, h.of_eq rfl rfl⟩⟩
        simp only [Notification.trigger, haction, heffect]
        rfl

end Bridge

namespace Run

open Bridge (Progress)

/-- A caller who enters the line leaves the bridge alone. -/
theorem enter_bridge (r : Run) (caller : Nat) : (r.enter caller).bridge = r.bridge := by
  unfold enter
  split
  · split
    · rfl
    · split <;> rfl
  · rfl

/-- Answering a caller leaves the bridge alone. -/
theorem answerNext_bridge (r : Run) : r.answerNext.bridge = r.bridge := by
  unfold answerNext
  split
  · rfl
  · split <;> rfl

/-- A step of a run other than a tick leaves its bridge alone. -/
theorem step_bridge (r : Run) {step : RunStep} (h : ∀ store runtime, step ≠ .tick store runtime) :
    (r.step step).bridge = r.bridge := by
  cases step with
  | tick store runtime => exact absurd rfl (h store runtime)
  | call inquiry => rfl
  | enter caller => exact r.enter_bridge caller
  | requestStop => rfl
  | begin =>
    simp only [Run.step]
    split <;> rfl
  | answer =>
    simp only [Run.step]
    split
    · exact r.answerNext_bridge
    · rfl
  | finish =>
    simp only [Run.step]
    split <;> rfl

/-- A step of a run handles at most one event. -/
theorem progress_step (r : Run) (step : RunStep) : r.bridge.Progress (r.step step).bridge [] := by
  cases step with
  | tick store runtime => exact r.bridge.progress_tick store runtime
  | call _ | enter _ | requestStop | begin | answer | finish =>
    exact .of_eq (r.step_bridge fun _ _ => RunStep.noConfusion)

/-- Several steps handle events and nothing else. -/
theorem progress_steps (r : Run) (steps : List RunStep) :
    r.bridge.Progress (r.steps steps).bridge [] := by
  induction steps generalizing r with
  | nil => exact .refl _
  | cons step steps ih => exact (r.progress_step step).trans_silent (ih (r.step step))

/-- A run that comes to its end handles every event that waits. -/
theorem progress_conclude (r : Run) (store : Store) :
    r.bridge.Progress (r.conclude store).bridge [] := by
  unfold conclude
  split
  · exact (r.bridge.progress_settle store).trans_silent ((r.settle store).progress_steps _)
  · exact .refl _

/-- So does a question. -/
theorem progress_inquire (r : Run) (store : Store) (inquiry : Inquiry) :
    r.bridge.Progress (r.inquire store inquiry).2.bridge [] := by
  unfold inquire
  split
  · exact r.progress_steps _
  · exact (r.bridge.progress_settle store).trans_silent ((r.settle store).progress_steps _)

/-- What is asked for on the control socket issues at most one order. -/
theorem progress_perform (r : Run) (store : Store) (uptime : UInt64) (operation : Control.Operation) :
    ∃ orders, r.bridge.Progress (Control.perform r store uptime operation).2.bridge orders := by
  cases operation with
  | health => exact ⟨[], .refl _⟩
  | stop => exact ⟨[], .refl _⟩
  | config => exact ⟨[], .refl _⟩
  | inquire inquiry => exact ⟨[], r.progress_inquire store inquiry⟩
  | signals after => exact ⟨[], .refl _⟩
  | submit account order => exact ⟨_, r.bridge.progress_submit account order⟩

/-- So does any request on the control socket, understood or not. -/
theorem progress_serve (r : Run) (store : Store) (uptime : UInt64) (request : Http.Request) :
    ∃ orders, r.bridge.Progress (Control.serve r store uptime request).2.bridge orders := by
  have hrespond : ∃ orders, r.bridge.Progress
      (Control.respond r store uptime (Control.Operation.ofRequest request)).2.bridge orders := by
    cases Control.Operation.ofRequest request with
    | error refusal => exact ⟨[], .refl _⟩
    | ok operation =>
      have hsame : (Control.respond r store uptime (.ok operation)).2 =
          (Control.perform r store uptime operation).2 := by
        simp only [Control.respond]
        split <;> next heq => rw [heq]
      rw [hsame]
      exact r.progress_perform store uptime operation
  exact hrespond

/-- Delivering a request issues at most one order. -/
theorem progress_deliver (r : Run) (store : Store) (uptime : UInt64) (request : Http.Request) :
    ∃ orders, r.bridge.Progress (r.deliver store uptime request).2.bridge orders := by
  unfold deliver
  split
  · exact ⟨[], .refl _⟩
  · obtain ⟨orders, hserve⟩ := r.progress_serve store uptime request
    exact ⟨orders, hserve.trans_silent (progress_conclude _ store)⟩

end Run

end DaemonBridge
