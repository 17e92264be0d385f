import DaemonBridge.Client.Wait

/-!
# Dialogues, one exchange at a time

A dialogue that is not over waits for what comes of its next request, and hearing that brings it to the
request after it. Pauses are slept through: what a client waits for is seen only in what it hears next.
-/

namespace DaemonBridge.Client

namespace Dialogue

variable {α β : Type}

/-- Sleep through pauses. -/
def awake : Dialogue α → Dialogue α
  | .pause next => next.awake
  | dialogue => dialogue

/-- The request that a client sends next. -/
def request? : Dialogue α → Option Http.Request
  | .send request _ => some request
  | _ => none

/-- The result of a dialogue that is over. -/
def result? : Dialogue α → Option α
  | .done result => some result
  | _ => none

/-- Hear what has come of the request. -/
def hear (delivery : Delivery) : Dialogue α → Dialogue α
  | .send _ next => (next delivery).awake
  | dialogue => dialogue

/-- Send the next request to whoever delivers it, and hear what comes of it. -/
def exchange (deliver : Http.Request → Delivery) (dialogue : Dialogue α) : Dialogue α :=
  match dialogue.request? with
  | some request => dialogue.hear (deliver request)
  | none => dialogue

/-- The dialogue after a number of exchanges, each with whoever delivers requests at that time. -/
def exchanges (deliver : Nat → Http.Request → Delivery) (dialogue : Dialogue α) : Nat → Dialogue α
  | 0 => dialogue.awake
  | count + 1 => (dialogue.exchanges deliver count).exchange (deliver count)

/-- A dialogue that is over stays as it is. -/
theorem exchange_of_request?_eq_none {dialogue : Dialogue α} (h : dialogue.request? = none)
    (deliver : Http.Request → Delivery) : dialogue.exchange deliver = dialogue := by
  rw [exchange, h]

/-- A client that calls goes on with the answer it hears. -/
theorem hear_ask_of_ok {socket : String} {call : Call α} {delivery : Delivery} {answer : α}
    (h : call.result socket delivery = .ok answer) (next : α → Dialogue (Except ClientError β)) :
    (ask socket call next).hear delivery = (next answer).awake := by
  rw [ask, hear, h]

/-- A client whose call fails is at the end. -/
theorem hear_ask_of_error {socket : String} {call : Call α} {delivery : Delivery} {error : ClientError}
    (h : call.result socket delivery = .error error) (next : α → Dialogue (Except ClientError β)) :
    (ask socket call next).hear delivery = .done (.error error) := by
  rw [ask, hear, h]
  rfl

/-- Putting the result otherwise does not change what is asked. -/
theorem awake_map (f : α → β) (dialogue : Dialogue α) :
    (dialogue.map f).awake = dialogue.awake.map f := by
  induction dialogue with
  | done result => rfl
  | send request next ih => rfl
  | pause next ih => exact ih

/-- What is asked next is asked alike, however the result is put. -/
theorem request?_map (f : α → β) (dialogue : Dialogue α) : (dialogue.map f).request? = dialogue.request? := by
  cases dialogue <;> rfl

/-- A dialogue that is over is over, however the result is put. -/
theorem exists_of_map_eq_done {f : α → β} {dialogue : Dialogue α} {b : β} (h : dialogue.map f = .done b) :
    ∃ a, dialogue = .done a ∧ f a = b := by
  cases dialogue with
  | done result => exact ⟨result, rfl, done.inj h⟩
  | send request next => exact nomatch h
  | pause next => exact nomatch h

/-- What is heard is heard alike, however the result is put. -/
theorem hear_map (f : α → β) (delivery : Delivery) (dialogue : Dialogue α) :
    (dialogue.map f).hear delivery = (dialogue.hear delivery).map f := by
  cases dialogue with
  | done result => rfl
  | send request next => exact awake_map f (next delivery)
  | pause next => rfl

end Dialogue

section Polls

variable {socket : String} {id cursor : UInt64} {milliseconds : Nat} {delivery : Delivery}

/-- What a client does with a page of signals when some polls are left after this one. -/
def afterPage (socket : String) (id : CommandId) (milliseconds polls : Nat) (cursor : UInt64) :
    Inspection → Dialogue (Except ClientError SignalRecord)
  | .found record => .done (.ok record)
  | .missed => .done (.error (.missed id cursor))
  | .goOn next =>
    if polls = 0 then .done (.error (.timeout id milliseconds))
    else pollResponse socket id milliseconds polls next

/-- A client that waits for a response is awake: its next step is a poll. -/
theorem awake_pollResponse (polls : Nat) :
    (pollResponse socket id milliseconds polls cursor).awake =
      pollResponse socket id milliseconds polls cursor := by
  cases polls <;> rfl

/-- A poll asks for the signals after the cursor. -/
theorem request?_pollResponse (polls : Nat) :
    (pollResponse socket id milliseconds polls cursor).request? =
      some (Call.signals cursor).request := by
  cases polls <;> rfl

/-- A client that polls is not at the end. -/
theorem result?_pollResponse (polls : Nat) :
    (pollResponse socket id milliseconds polls cursor).result? = none := by
  cases polls <;> rfl

/-- A poll calls for signals, and the client acts on what it learns from the page. -/
theorem exists_ask_pollResponse (socket : String) (id cursor : UInt64) (milliseconds polls : Nat) :
    ∃ next, pollResponse socket id milliseconds (polls + 1) cursor = .ask socket (.signals cursor) next ∧
      ∀ page, (next page).awake = afterPage socket id milliseconds polls cursor (inspect id cursor page) := by
  refine ⟨_, rfl, fun page => ?_⟩
  cases inspect id cursor page with
  | found record => rfl
  | missed => rfl
  | goOn next =>
    by_cases hpolls : polls = 0
    · simp only [afterPage, if_pos hpolls]
      rfl
    · simp only [afterPage, if_neg hpolls]
      exact awake_pollResponse polls

/-- A client that hears a page acts on it so. -/
theorem hear_pollResponse {page : Control.SignalPage}
    (h : (Call.signals cursor).result socket delivery = .ok page) (polls : Nat) :
    (pollResponse socket id milliseconds (polls + 1) cursor).hear delivery =
      afterPage socket id milliseconds polls cursor (inspect id cursor page) := by
  obtain ⟨next, hpoll, hnext⟩ := exists_ask_pollResponse socket id cursor milliseconds polls
  rw [hpoll, Dialogue.hear_ask_of_ok h, hnext]

end Polls

end DaemonBridge.Client
