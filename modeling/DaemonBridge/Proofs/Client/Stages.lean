import DaemonBridge.CommandLine.Program
import DaemonBridge.Proofs.Client.Scene

/-!
# The stages of an invocation

An invocation that issues a command and waits reads the number of the last signal, issues the command
and then polls. Between two things that it does it stands at a stage: it is about to send a request or
is over (`Waits`), or a reply is under way (`Hears`). What happens around it leaves it where it stands.
-/

namespace DaemonBridge

namespace Client

open CommandLine (issue)

/-! ## The moments of an invocation -/

namespace Service

/-- The bridge enqueued the command for the request, and no other. -/
def Enqueues (service : Service) (command : Command) : Prop :=
  (service.run.deliver service.store service.uptime service.request).2.bridge.desk.queue.waiting =
    service.run.bridge.desk.queue.waiting ++ [command]

/-- The request is a poll for the signals after the cursor. -/
def Polls (service : Service) (cursor : UInt64) : Prop :=
  service.request = (Call.signals cursor).request

/-- The request is a poll that finds a signal after its cursor already gone from the log. -/
def FindsLoss (service : Service) : Prop :=
  ∃ cursor, service.Polls cursor ∧ ∃ record ∈ numbered service.announced,
    cursor < record.seq ∧ record ∉ service.run.bridge.bus.log.records

/-- The response to the command was not there yet. -/
def Vain (service : Service) (id : CommandId) : Prop :=
  service.announced.length < UInt64.size - 1 → ∀ signal ∈ service.announced, signal.answers? ≠ some id

end Service

/-- No signal up to the cursor is the response to the command. -/
def ClearUpTo (id : CommandId) (cursor : UInt64) (announced : List Signal) : Prop :=
  announced.length < UInt64.size - 1 → cursor.toNat ≤ announced.length ∧
    ∀ record ∈ numbered announced, record.seq ≤ cursor → record.signal.answers? ≠ some id

/-- The command is the only one that the bridge has enqueued for the invocation, and it had not been
answered before. -/
structure Scene.Owns (s : Scene) (account : String) (order : Order) (command : Command) : Prop where
  account_eq : command.account = account
  order_eq : command.order = order
  issued : ∃ service ∈ s.served, service.Enqueues command
  only : ∀ service ∈ s.served, ∀ other, service.Enqueues other →
    other = command ∧ ∀ signal ∈ service.announced, signal.answers? ≠ some command.id
  mem : command ∈ s.commands

/-- The record is the first response to the command, unless signals were lost in between. -/
def Scene.FirstUnlessLost (s : Scene) (id : CommandId) (record : SignalRecord) : Prop :=
  s.announced.length < UInt64.size - 1 → (∀ service ∈ s.served, ¬ service.FindsLoss) →
    ((numbered s.announced).find? fun r => r.answersCommand id) = some record

/-! ## The stages of an invocation -/

section Stages

variable (socket account : String) (order : Order) (seconds : UInt64)

/-- The time that an invocation waits, in milliseconds. -/
def patience : Nat := 1000 * seconds.toNat

/-- What the program prints of a wait. -/
def printed (result : Except ClientError SignalRecord) : Except ClientError String :=
  result.map fun record => record.toJson.prettyText

/-- The invocation issues its order, knowing the number of the last signal. -/
def ordering (last : UInt64) : Dialogue (Except ClientError String) :=
  .ask socket (.command account order) fun id =>
    (awaitResponse socket id last (patience seconds)).map printed

/-- The invocation polls. -/
def polling (id : CommandId) (polls : Nat) (cursor : UInt64) : Dialogue (Except ClientError String) :=
  (pollResponse socket id (patience seconds) polls cursor).map printed

/-- Where an invocation stands that is about to send a request or is over. -/
inductive Waits (s : Scene) : Prop where
  /-- It has done nothing yet. -/
  | begins (dialogue_eq : s.dialogue = issue socket account order (some seconds))
      (served_eq : s.served = [])
  /-- It knows a number up to which signals were announced, and has issued nothing. -/
  | orders (last : UInt64) (dialogue_eq : s.dialogue = ordering socket account order seconds last)
      (last_eq : ∃ count ≤ s.announced.length, last = UInt64.ofNat count)
      (length_eq : s.served.length = 1)
      (quiet : ∀ service ∈ s.served, ∀ command, ¬ service.Enqueues command)
  /-- It knows the identifier of its command, and all its polls so far were in vain. -/
  | polls (command : Command) (polls : Nat) (cursor : UInt64) (owns : s.Owns account order command)
      (dialogue_eq : s.dialogue = polling socket seconds command.id polls cursor)
      (clear : ClearUpTo command.id cursor s.announced)
      (vain : ∀ service ∈ s.served, service.Vain command.id)
      (length_eq : s.served.length + polls = 2 + pollsWithin (patience seconds))
      (last_poll : polls = 0 → seconds = 0)
  /-- It has printed a response to its command. -/
  | found (command : Command) (record : SignalRecord) (owns : s.Owns account order command)
      (dialogue_eq : s.dialogue = .done (.ok record.toJson.prettyText))
      (mem : record ∈ numbered s.announced) (answers : record.signal.answers? = some command.id)
      (first : s.FirstUnlessLost command.id record)
  /-- It has failed, and for one of three reasons. -/
  | failed (error : ClientError) (dialogue_eq : s.dialogue = .done (.error error))
      (reason : s.announced.length < UInt64.size - 1 →
        (∃ service ∈ s.served, service.run.phase = .over) ∨ (∃ service ∈ s.served, service.FindsLoss) ∨
          ∃ command, s.Owns account order command ∧ error = .timeout command.id (patience seconds) ∧
            2 + pollsWithin (patience seconds) ≤ s.served.length ∧
            (seconds = 0 ∨ ∀ service ∈ s.served, service.Vain command.id))

/-- Where an invocation stands for which a reply is under way. -/
inductive Hears (s : Scene) (delivery : Delivery) : Prop where
  /-- It is about to learn the number of the last signal. -/
  | health (health : Control.Health)
      (dialogue_eq : s.dialogue = issue socket account order (some seconds))
      (result_eq : Call.health.result socket delivery = .ok health)
      (last_eq : ∃ count ≤ s.announced.length, health.lastSignal = UInt64.ofNat count)
      (length_eq : s.served.length = 1)
      (quiet : ∀ service ∈ s.served, ∀ command, ¬ service.Enqueues command)
  /-- It is about to learn the identifier of its command. -/
  | issued (command : Command) (last : UInt64) (owns : s.Owns account order command)
      (dialogue_eq : s.dialogue = ordering socket account order seconds last)
      (result_eq : (Call.command account order).result socket delivery = .ok command.id)
      (clear : ClearUpTo command.id last s.announced) (length_eq : s.served.length = 2)
      (vain : ∀ service ∈ s.served, service.Vain command.id)
  /-- It is about to learn a page of signals. -/
  | page (command : Command) (polls : Nat) (cursor : UInt64) (earlier : List Service) (poll : Service)
      (owns : s.Owns account order command)
      (dialogue_eq : s.dialogue = polling socket seconds command.id polls cursor)
      (served_eq : s.served = earlier ++ [poll]) (is_poll : poll.Polls cursor)
      (result_eq : (Call.signals cursor).result socket delivery =
        .ok (.read poll.run.bridge.bus.log poll.run.bridge.bus.log cursor))
      (retains : poll.run.bridge.bus.log.Retains poll.announced)
      (clear : ClearUpTo command.id cursor poll.announced)
      (vain : ∀ service ∈ earlier, service.Vain command.id)
      (length_eq : earlier.length + polls = 2 + pollsWithin (patience seconds))
      (last_poll : polls = 0 → seconds = 0)
  /-- It is about to fail, since nobody listens on the socket. -/
  | fails (delivery_eq : delivery = .noSocket) (unfinished : s.dialogue.result? = none)
      (hear_eq : s.dialogue.hear .noSocket = .done (.error (.notRunning socket)))
      (ended : ∃ service ∈ s.served, service.run.phase = .over)

end Stages

/-! ## What stays as time goes on -/

section Later

variable {socket account : String} {order : Order} {seconds : UInt64} {s s' : Scene} {id : CommandId}
  {cursor : UInt64} {command : Command} {record : SignalRecord} {earlier later : List Signal}

/-- A poll of the invocation asks for the signals after its cursor. -/
theorem request?_polling (polls : Nat) (cursor : UInt64) :
    (polling socket seconds id polls cursor).request? = some (Call.signals cursor).request := by
  cases polls <;> rfl

/-- An invocation that polls is not at the end. -/
theorem result?_polling (polls : Nat) (cursor : UInt64) :
    (polling socket seconds id polls cursor).result? = none := by
  cases polls <;> rfl

/-- A number within a history of which no signal is the response is clear of it. -/
theorem clearUpTo_of_unanswered {announced : List Signal} {count : Nat}
    (hcount : count ≤ announced.length) (hnone : ∀ signal ∈ announced, signal.answers? ≠ some id) :
    ClearUpTo id (UInt64.ofNat count) announced := by
  intro hfit
  rw [UInt64.toNat_ofNat_of_lt' (by omega)]
  exact ⟨hcount, fun record hmem _ => hnone _ (signal_mem_of_mem_numbered hmem)⟩

/-- What is announced later comes after the cursor. -/
theorem ClearUpTo.mono (h : ClearUpTo id cursor earlier) (hlater : earlier <+: later) :
    ClearUpTo id cursor later := by
  obtain ⟨more, rfl⟩ := hlater
  intro hfit
  rw [List.length_append] at hfit
  obtain ⟨hle, hclear⟩ := h (by omega)
  refine ⟨by rw [List.length_append]; omega, fun r hmem hseq => ?_⟩
  rw [numbered_append] at hmem
  rcases List.mem_append.mp hmem with hmem | hmem
  · exact hclear r hmem hseq
  · have hpast := (seq_of_mem_numberedFrom (by omega) hmem).1
    have hnumbers := UInt64.le_iff_toNat_le.mp hseq
    omega

/-- What is announced later comes after the first response. -/
theorem Scene.FirstUnlessLost.mono (h : s.FirstUnlessLost id record) (hlater : s.Precedes s')
    (hserved : s'.served = s.served) : s'.FirstUnlessLost id record := by
  intro hfit hkept
  have hle := hlater.announced.length_le
  obtain ⟨more, hmore⟩ := isPrefix_numbered hlater.announced
  rw [← hmore, List.find?_append, h (by omega) (hserved ▸ hkept)]
  rfl

/-- The invocation's command stays its own. -/
theorem Scene.Owns.mono (h : s.Owns account order command) (hlater : s.Precedes s')
    (hserved : s'.served = s.served) : s'.Owns account order command where
  account_eq := h.account_eq
  order_eq := h.order_eq
  issued := hserved ▸ h.issued
  only := hserved ▸ h.only
  mem := hlater.commands.subset h.mem

/-- A request for which nothing is enqueued leaves the invocation's command its own. -/
theorem Scene.Owns.serve (h : s.Owns account order command) (hlater : s.Precedes s') {service : Service}
    (hserved : s'.served = s.served ++ [service]) (hquiet : ∀ other, ¬ service.Enqueues other) :
    s'.Owns account order command where
  account_eq := h.account_eq
  order_eq := h.order_eq
  issued := by
    obtain ⟨first, hmem, henqueues⟩ := h.issued
    exact ⟨first, hserved ▸ List.mem_append_left _ hmem, henqueues⟩
  only := by
    rw [hserved]
    intro other hmem command' henqueues
    rcases List.mem_append.mp hmem with hmem | hmem
    · exact h.only other hmem command' henqueues
    · rw [List.mem_singleton.mp hmem] at henqueues
      exact absurd henqueues (hquiet command')
  mem := hlater.commands.subset h.mem

/-- What does not touch the invocation leaves it where it stands. -/
theorem Waits.mono (h : Waits socket account order seconds s) (hlater : s.Precedes s')
    (hdialogue : s'.dialogue = s.dialogue) (hserved : s'.served = s.served) :
    Waits socket account order seconds s' := by
  have hle := hlater.announced.length_le
  cases h with
  | begins hat hnone => exact .begins (hdialogue.trans hat) (hserved.trans hnone)
  | orders last hat hlast hlength hquiet =>
    obtain ⟨count, hcount, hlast⟩ := hlast
    rw [← hserved] at hlength hquiet
    exact .orders last (hdialogue.trans hat) ⟨count, Nat.le_trans hcount hle, hlast⟩ hlength hquiet
  | polls command polls cursor howns hat hclear hvain hlength hlast =>
    exact .polls command polls cursor (howns.mono hlater hserved) (hdialogue.trans hat)
      (hclear.mono hlater.announced) (hserved ▸ hvain) (hserved ▸ hlength) hlast
  | found command record howns hat hmem hanswers hfirst =>
    exact .found command record (howns.mono hlater hserved) (hdialogue.trans hat)
      ((isPrefix_numbered hlater.announced).subset hmem) hanswers (hfirst.mono hlater hserved)
  | failed error hat hreason =>
    refine .failed error (hdialogue.trans hat) fun hfit => ?_
    rw [hserved]
    rcases hreason (by omega) with hover | hloss | ⟨command, howns, hrest⟩
    · exact .inl hover
    · exact .inr (.inl hloss)
    · exact .inr (.inr ⟨command, howns.mono hlater hserved, hrest⟩)

/-- What does not touch the invocation leaves the reply on its way. -/
theorem Hears.mono {delivery : Delivery} (h : Hears socket account order seconds s delivery)
    (hlater : s.Precedes s') (hdialogue : s'.dialogue = s.dialogue) (hserved : s'.served = s.served) :
    Hears socket account order seconds s' delivery := by
  have hle := hlater.announced.length_le
  cases h with
  | health health hat hresult hlast hlength hquiet =>
    obtain ⟨count, hcount, hlast⟩ := hlast
    rw [← hserved] at hlength hquiet
    exact .health health (hdialogue.trans hat) hresult ⟨count, Nat.le_trans hcount hle, hlast⟩ hlength
      hquiet
  | issued command last howns hat hresult hclear hlength hvain =>
    exact .issued command last (howns.mono hlater hserved) (hdialogue.trans hat) hresult
      (hclear.mono hlater.announced) (hserved ▸ hlength) (hserved ▸ hvain)
  | page command polls cursor earlier poll howns hat hsplit hpoll hresult hretains hclear hvain
      hlength hlast =>
    exact .page command polls cursor earlier poll (howns.mono hlater hserved) (hdialogue.trans hat)
      (hserved.trans hsplit) hpoll hresult hretains hclear hvain hlength hlast
  | fails hnone hunfinished hhear hover =>
    exact .fails hnone (hdialogue ▸ hunfinished) (hdialogue ▸ hhear) (hserved ▸ hover)

end Later

end Client

end DaemonBridge
