import DaemonBridge.Proofs.Client.Moments
import DaemonBridge.Proofs.Json.Pretty

/-!
# What the program prints

A task that goes to a bridge prints what it has heard, as pretty text or as a plain number. That text is
read back as what the bridge held: the logins or devices that the cache held when the run answered the
question, the signals and the number of the last one when the request for them arrived, the response to a
command that the log held when the last poll arrived, and the identifier under which a command was enqueued
(`Task.Shows`). On the way lie the compact text of the bridge, the value that the client reads from it, and
the pretty text of that value.
-/

namespace DaemonBridge

open Client (Call ClientError Dialogue Talk TalkStep)
open Control (Health SignalPage)

/-! ## Reading what is printed -/

namespace CommandLine

namespace Outcome

/-- The program has ended well, and what it has printed is read as a value. -/
def Reads {α : Type} (outcome : Outcome) (decoder : Json.Decoder α) (a : α) : Prop :=
  outcome.code = 0 ∧
    (Json.Document.ofBytes (Text.encode outcome.output.toList)).decode decoder = .ok a

/-- The program has ended well and has printed a number on a line. -/
def ReadsNumber (outcome : Outcome) (n : UInt64) : Prop :=
  outcome.code = 0 ∧ ∃ line : String, outcome.output = line ++ "\n" ∧ Text.readUInt64? line.toList = some n

/-- What is read from the tree of a value is read from its pretty text on a line of its own. -/
theorem reads_printed {α : Type} {v : Json.Value} {decoder : Json.Decoder α} {a : α} (hplain : v.IsPlain)
    (hnum : ∀ n, v ≠ .num n) (h : decoder .document v.tree = .ok a) :
    (printed v.prettyText).Reads decoder a := by
  have houtput : (printed v.prettyText).output.toList = v.pretty 0 ++ Json.lineEnd.1 := by
    rw [printed, Json.Value.prettyText, String.toList_append, String.toList_ofList]
    rfl
  refine ⟨rfl, ?_⟩
  rw [houtput]
  exact Json.decode_ofBytes_of_isWrittenAs (v.isWrittenAs_pretty hplain Json.lineEnd) hnum h

/-- An empty list is printed on a line. -/
example : (printed (Control.devicesToJson []).prettyText).output = "[]\n" := by decide

/-- The printed state of a bridge is read back. -/
theorem reads_health (h : Health) : (printed h.toJson.prettyText).Reads Health.decoder h :=
  reads_printed h.isPlain_toJson (fun n => by simp [Health.toJson]) h.decoder_tree

/-- A printed page of signals is read back. -/
theorem reads_signals (page : SignalPage) : (printed page.toJson.prettyText).Reads SignalPage.decoder page :=
  reads_printed page.isPlain_toJson (fun n => by simp [SignalPage.toJson]) page.decoder_tree

/-- A printed record is read back. -/
theorem reads_record (record : SignalRecord) :
    (printed record.toJson.prettyText).Reads SignalRecord.decoder record :=
  reads_printed record.isPlain_toJson (fun n => by simp [SignalRecord.toJson])
    (record.decoder_tree rfl (Nat.le_add_left 2 124))

/-- A printed identifier is read back. -/
theorem readsNumber_id (id : CommandId) : (printed (toString id)).ReadsNumber id :=
  ⟨rfl, _, rfl, by rw [Control.toList_toString, Text.readUInt64?_decimal]⟩

end Outcome

end CommandLine

namespace Inquiry

open CommandLine (Outcome)

/-- The answers to a question, as they are printed. -/
def decoder : (inquiry : Inquiry) → Json.Decoder inquiry.Answer
  | .servers => LoginsByServer.decoder
  | .devices _ => Json.list Device.decoder
  | .userDevices _ _ => Json.list Device.decoder

/-- An answer to a question as JSON. -/
def write : (inquiry : Inquiry) → inquiry.Answer → Json.Value
  | .servers => LoginsByServer.toJson
  | .devices _ => Control.devicesToJson
  | .userDevices _ _ => Control.devicesToJson

/-- A printed answer to a question is read back. -/
theorem reads_answer (inquiry : Inquiry) (answer : inquiry.Answer) :
    (Outcome.printed (inquiry.write answer).prettyText).Reads inquiry.decoder answer := by
  have hdevices : ∀ found : List Device,
      (Outcome.printed (Control.devicesToJson found).prettyText).Reads (Json.list Device.decoder) found :=
    fun found => Outcome.reads_printed (Control.isPlain_devicesToJson found)
      (fun n => by simp [Control.devicesToJson]) (Control.devices_tree rfl rfl found)
  cases inquiry with
  | servers =>
    exact Outcome.reads_printed (LoginsByServer.isPlain_toJson answer)
      (fun n => by simp [write, LoginsByServer.toJson, Dict.toJson])
      (LoginsByServer.decoder_tree answer rfl rfl rfl)
  | devices account => exact hdevices answer
  | userDevices account user => exact hdevices answer

end Inquiry

/-! ## What a task shows -/

namespace CommandLine

section Shows

variable {α : Type} (start : Talk α) (steps : List TalkStep) (outcome : Outcome)

/-- The run answers a question of the client at some moment, and what is printed is read as what the cache
held then. -/
def ShowsAnswer (inquiry : Inquiry) : Prop :=
  ∃ before uptime between rest,
    steps = before ++ .send uptime :: (between ++ .act (.occur (.run .answer)) :: rest) ∧
    (start.after before).Asks inquiry.call ∧
    let moment := (start.after (before ++ .send uptime :: between)).run
    moment.Answers (start.after before).run.calls.length inquiry ∧
    outcome.Reads inquiry.decoder (moment.bridge.cache.tell inquiry)

/-- The command is enqueued with the next identifier. -/
def Enqueues (account : String) (order : Order) (run later : Run) : Prop :=
  later.bridge.desk.queue = run.bridge.desk.queue.send ⟨run.bridge.desk.nextId, account, order⟩

/-- The order is issued at some moment and a poll arrives at a later one, and what is printed is read as the
first response to the command that the log held after some number then. -/
def ShowsResponse (account : String) (order : Order) : Prop :=
  ∃ before uptime between polled rest cursor record,
    steps = before ++ .send uptime :: (between ++ .send polled :: rest) ∧
    (start.after before).Asks (.command account order) ∧
    let run := (start.after before).run
    Enqueues account order run (start.after (before ++ [.send uptime])).run ∧
    let moment := start.after (before ++ .send uptime :: between)
    let kept := moment.run.bridge.bus.since cursor
    moment.Asks (.signals cursor) ∧
    kept.find? (fun r => r.answersCommand run.bridge.desk.nextId) = some record ∧
    outcome.Reads SignalRecord.decoder record

/-- What a task that goes to a bridge has printed, against what the bridge held. -/
def Task.Shows : Task → Prop
  | .serve _ => False
  | .config _ false => False
  | .config _ true => start.AtArrival steps .config fun run _ _ =>
    outcome = .printed (String.ofList run.bridge.settings.toToml)
  | .stop => start.AtArrival steps .stop fun run _ later =>
    later = run.step .requestStop ∧ outcome = .printed "Shutdown initiated"
  | .health => start.AtArrival steps .health fun run uptime _ =>
    outcome.Reads Health.decoder (Control.healthOf run.bridge uptime)
  | .servers => ShowsAnswer start steps outcome .servers
  | .devices account none => ShowsAnswer start steps outcome (.devices account)
  | .devices account (some user) => ShowsAnswer start steps outcome (.userDevices account user)
  | .signals after => start.AtArrival steps (.signals after) fun run _ _ =>
    outcome.Reads SignalPage.decoder ⟨run.bridge.bus.since after, run.bridge.bus.lastSeq⟩
  | .command account order none => start.AtArrival steps (.command account order) fun run _ later =>
    Enqueues account order run later ∧ outcome.ReadsNumber run.bridge.desk.nextId
  | .command account order (some _) => ShowsResponse start steps outcome account order

/-- The task waits for a response. -/
def Task.waits : Task → Bool
  | .command _ _ (some _) => true
  | _ => false

variable {start steps outcome}

/-- What a task shows does not depend on how its result is put. -/
theorem Task.shows_map {β : Type} (f : α → β) (task : Task) (h : task.Shows start steps outcome) :
    task.Shows (start.map f) steps outcome := by
  cases task with
  | serve snapshot => exact h
  | config shown remote =>
    cases remote with
    | false => exact h
    | true => simpa only [Shows, Talk.AtArrival, Talk.after_map, Talk.asks_map, Talk.run_map] using h
  | stop | health | signals after =>
    simpa only [Shows, Talk.AtArrival, Talk.after_map, Talk.asks_map, Talk.run_map] using h
  | servers => simpa only [Shows, ShowsAnswer, Talk.after_map, Talk.asks_map, Talk.run_map] using h
  | devices account user =>
    cases user <;> simpa only [Shows, ShowsAnswer, Talk.after_map, Talk.asks_map, Talk.run_map] using h
  | command account order wait =>
    cases wait with
    | none => simpa only [Shows, Talk.AtArrival, Talk.after_map, Talk.asks_map, Talk.run_map] using h
    | some seconds => simpa only [Shows, ShowsResponse, Talk.after_map, Talk.asks_map, Talk.run_map] using h

end Shows

/-! ## Every task -/

section Tasks

variable {t : Talk (Except ClientError String)} {socket : String} {steps : List TalkStep} {text : String}

/-- A client that has ended with the answer to a question shows it. -/
theorem showsAnswer_of_done (inquiry : Inquiry) (horderly : t.run.Orderly) (harrival : t.arrival = none)
    (hdialogue : t.dialogue =
      .ask socket inquiry.call fun answer => .done (.ok (inquiry.write answer).prettyText))
    (hdone : (t.after steps).dialogue = .done (.ok text)) :
    ShowsAnswer t steps (.printed text) inquiry := by
  obtain ⟨before, uptime, between, rest, hsplit, hasks, hanswers, rfl⟩ :=
    Talk.eq_of_done_question horderly harrival hdialogue hdone
  exact ⟨before, uptime, between, rest, hsplit, hasks, hanswers, inquiry.reads_answer _⟩

/-- A client that waits for a response is awake: it polls. -/
theorem awake_awaitResponse (socket : String) (id : CommandId) (last seconds : UInt64) :
    ((Client.awaitResponse socket id last (Client.patience seconds)).map Client.printed).awake =
      Client.polling socket seconds id (Client.pollsWithin (Client.patience seconds)) last :=
  (Dialogue.awake_map _ _).trans (congrArg (Dialogue.map Client.printed) (Client.awake_pollResponse _))

/-- A client that has ended behind its polls has printed the response that a poll found. -/
theorem exists_printed_of_done {seconds : UInt64} {id : CommandId} {polls : Nat} {cursor : UInt64}
    (harrival : t.arrival = none) (hdialogue : t.dialogue = Client.polling socket seconds id polls cursor)
    (hdone : (t.after steps).dialogue = .done (.ok text)) :
    ∃ before uptime rest cursor record, steps = before ++ .send uptime :: rest ∧
      (t.after before).Asks (.signals cursor) ∧
      ((t.after before).run.bridge.bus.since cursor).find? (fun r => r.answersCommand id) = some record ∧
      text = record.toJson.prettyText := by
  let plain : Talk (Except ClientError SignalRecord) :=
    { run := t.run, dialogue := Client.pollResponse socket id (Client.patience seconds) polls cursor }
  have hplain : t = plain.map Client.printed := Talk.eq_map harrival hdialogue
  rw [hplain, Talk.after_map] at hdone
  obtain ⟨result, hend, hprinted⟩ := Dialogue.exists_of_map_eq_done hdone
  cases result with
  | error error => exact nomatch hprinted
  | ok record =>
    obtain ⟨before, uptime, rest, cursor, hsplit, hasks, hfind⟩ := Talk.exists_poll_of_done rfl rfl hend
    rw [hplain]
    simp only [Talk.after_map, Talk.asks_map]
    exact ⟨before, uptime, rest, cursor, record, hsplit, hasks, hfind, (Except.ok.inj hprinted).symm⟩

/-- A client that has ended behind its order shows the response. -/
theorem showsResponse_of_ordering {account : String} {order : Order} {seconds last : UInt64}
    (harrival : t.arrival = none) (hdialogue : t.dialogue = Client.ordering socket account order seconds last)
    (hdone : (t.after steps).dialogue = .done (.ok text)) :
    ShowsResponse t steps (.printed text) account order := by
  obtain ⟨before, uptime, between, rest, run, rfl, hasks, henqueues, hissued⟩ :=
    Talk.exists_arrival_of_done (Call.isPrompt_command account order) harrival hdialogue hdone
  have hpolling : (t.after (before ++ .send uptime :: between)).dialogue = Client.polling socket seconds
      (t.after before).run.bridge.desk.nextId (Client.pollsWithin (Client.patience seconds)) last := by
    rw [hissued]
    exact awake_awaitResponse ..
  have hsplit : before ++ .send uptime :: (between ++ rest) =
      (before ++ .send uptime :: between) ++ rest := by
    rw [List.append_assoc, List.cons_append]
  rw [hsplit, Talk.after_append] at hdone
  obtain ⟨polls, polled, rest, cursor, record, rfl, hpolls, hfind, rfl⟩ :=
    exists_printed_of_done (congrArg Talk.arrival hissued) hpolling hdone
  rw [← Talk.after_append, List.append_assoc, List.cons_append] at hpolls hfind
  exact ⟨before, uptime, between ++ polls, polled, rest, cursor, record, by simp, hasks,
    by rw [henqueues]; rfl, hpolls, hfind, Outcome.reads_record record⟩

/-- A client that has ended behind the wait for a response shows the response. -/
theorem showsResponse_of_done {account : String} {order : Order} {seconds : UInt64}
    (harrival : t.arrival = none) (hdialogue : t.dialogue = issue socket account order (some seconds))
    (hdone : (t.after steps).dialogue = .done (.ok text)) :
    ShowsResponse t steps (.printed text) account order := by
  obtain ⟨first, uptime, between, rest, run, hsteps, -, -, hknows⟩ :=
    Talk.exists_arrival_of_done Call.isPrompt_health harrival hdialogue hdone
  have hsplit : steps = (first ++ .send uptime :: between) ++ rest := by
    rw [hsteps, List.append_assoc, List.cons_append]
  -- How the client came to know the number of the last signal does not matter from here on.
  generalize first ++ .send uptime :: between = learning at hknows hsplit
  rw [hsplit, Talk.after_append] at hdone
  obtain ⟨before, issuing, between, polled, rest, cursor, record, rfl, hasks, henqueues, hpolls, hfind,
      hreads⟩ := showsResponse_of_ordering (congrArg Talk.arrival hknows) (congrArg Talk.dialogue hknows) hdone
  simp only [← Talk.after_append] at hasks henqueues hpolls hfind
  refine ⟨learning ++ before, issuing, between, polled, rest, cursor, record, by rw [hsplit]; simp, hasks,
    ?_, ?_⟩
  · rw [List.append_assoc]
    exact henqueues
  · rw [List.append_assoc]
    exact ⟨hpolls, hfind, hreads⟩

/-- A task that has ended well shows what the bridge held. -/
theorem Task.shows_of_done {task : Task} (horderly : t.run.Orderly) (harrival : t.arrival = none)
    (hdialogue : task.dialogue? socket = some t.dialogue)
    (hdone : (t.after steps).dialogue = .done (.ok text)) : task.Shows t steps (.printed text) := by
  cases task with
  | serve snapshot => exact nomatch hdialogue
  | config shown remote =>
    cases remote with
    | false => exact nomatch hdialogue
    | true =>
      obtain ⟨before, uptime, rest, hsplit, hasks, -, rfl⟩ := Talk.atArrival_of_done Call.isPrompt_config
        harrival (Option.some.inj hdialogue).symm hdone
      exact ⟨before, uptime, rest, hsplit, hasks, rfl⟩
  | stop =>
    obtain ⟨before, uptime, rest, hsplit, hasks, hrun, rfl⟩ := Talk.atArrival_of_done Call.isPrompt_stop
      harrival (Option.some.inj hdialogue).symm hdone
    exact ⟨before, uptime, rest, hsplit, hasks, hrun, rfl⟩
  | health =>
    obtain ⟨before, uptime, rest, hsplit, hasks, -, rfl⟩ := Talk.atArrival_of_done Call.isPrompt_health
      harrival (Option.some.inj hdialogue).symm hdone
    exact ⟨before, uptime, rest, hsplit, hasks, Outcome.reads_health _⟩
  | servers =>
    exact showsAnswer_of_done .servers horderly harrival (Option.some.inj hdialogue).symm hdone
  | devices account user =>
    cases user with
    | none =>
      exact showsAnswer_of_done (.devices account) horderly harrival
        (Option.some.inj hdialogue).symm hdone
    | some user =>
      exact showsAnswer_of_done (.userDevices account user) horderly harrival
        (Option.some.inj hdialogue).symm hdone
  | signals after =>
    obtain ⟨before, uptime, rest, hsplit, hasks, -, rfl⟩ := Talk.atArrival_of_done
      (Call.isPrompt_signals after) harrival (Option.some.inj hdialogue).symm hdone
    exact ⟨before, uptime, rest, hsplit, hasks, Outcome.reads_signals _⟩
  | command account order wait =>
    cases wait with
    | none =>
      obtain ⟨before, uptime, rest, hsplit, hasks, hrun, rfl⟩ := Talk.atArrival_of_done
        (Call.isPrompt_command account order) harrival (Option.some.inj hdialogue).symm hdone
      exact ⟨before, uptime, rest, hsplit, hasks, by rw [hrun]; rfl, Outcome.readsNumber_id _⟩
    | some seconds => exact showsResponse_of_done harrival (Option.some.inj hdialogue).symm hdone

/-! ### Answers can come -/

/-- What others do so that the run answers the next caller: it begins, and answers everyone in its line. -/
def answering (run : Run) : List Activity :=
  (run.answeringSteps run.calls.length).map fun step => .occur (.run step)

/-- Nothing but the steps of the run is done. -/
theorem actAll_answering (run asked : Run) :
    asked.actAll (answering run) = asked.steps (run.answeringSteps run.calls.length) :=
  List.foldl_map

/-- A call that is answered at once can be answered. -/
theorem exists_done_of_prompt {α : Type} {call : Client.Call α} {answer : Run → UInt64 → α}
    {nextRun : Run → Run} {write : α → String} (hprompt : call.IsPrompt answer nextRun)
    (harrival : t.arrival = none)
    (hdialogue : t.dialogue = .ask socket call fun answer => .done (.ok (write answer)))
    (uptime : UInt64) (done : List Activity) :
    ∃ text, (t.after (.send uptime :: (done.map .act ++ [.hear]))).dialogue = .done (.ok text) :=
  ⟨_, congrArg Talk.dialogue
    (Talk.after_heard harrival hdialogue uptime done (hprompt.heard?_eq t.run uptime socket _))⟩

/-- A question can be answered as long as the run is not over. -/
theorem exists_done_of_question (inquiry : Inquiry) {write : inquiry.Answer → String}
    (horderly : t.run.Orderly) (hphase : t.run.phase ≠ .over) (harrival : t.arrival = none)
    (hdialogue : t.dialogue = .ask socket inquiry.call fun answer => .done (.ok (write answer)))
    (uptime : UInt64) :
    ∃ text, (t.after (.send uptime :: ((answering t.run).map .act ++ [.hear]))).dialogue =
      .done (.ok text) := by
  have hheard : (Control.arrive t.run uptime inquiry.call.request).1.heard? inquiry.call socket
      ((Control.arrive t.run uptime inquiry.call.request).2.actAll (answering t.run)) =
        some (.ok (t.run.bridge.cache.tell inquiry)) := by
    rw [inquiry.arrive_call, heard?_asks, actAll_answering, horderly.outcome?_answeringSteps hphase]
    exact congrArg some (inquiry.result_answer socket _)
  exact ⟨_, congrArg Talk.dialogue
    (Talk.after_heard harrival hdialogue uptime (answering t.run) hheard)⟩

/-- As long as the run is not over, a task that waits for no response can end well at once. -/
theorem Task.exists_done {task : Task} (hwaits : task.waits = false) (horderly : t.run.Orderly)
    (hphase : t.run.phase ≠ .over) (harrival : t.arrival = none)
    (hdialogue : task.dialogue? socket = some t.dialogue) (uptime : UInt64) :
    ∃ text, (t.after (.send uptime :: ((answering t.run).map .act ++ [.hear]))).dialogue =
      .done (.ok text) := by
  cases task with
  | serve snapshot => exact nomatch hdialogue
  | config shown remote =>
    cases remote with
    | false => exact nomatch hdialogue
    | true =>
      exact exists_done_of_prompt Call.isPrompt_config harrival (Option.some.inj hdialogue).symm uptime _
  | stop => exact exists_done_of_prompt Call.isPrompt_stop harrival (Option.some.inj hdialogue).symm uptime _
  | health =>
    exact exists_done_of_prompt Call.isPrompt_health harrival (Option.some.inj hdialogue).symm uptime _
  | servers =>
    exact exists_done_of_question .servers horderly hphase harrival
      (Option.some.inj hdialogue).symm uptime
  | devices account user =>
    cases user with
    | none =>
      exact exists_done_of_question (.devices account) horderly hphase harrival
        (Option.some.inj hdialogue).symm uptime
    | some user =>
      exact exists_done_of_question (.userDevices account user) horderly hphase harrival
        (Option.some.inj hdialogue).symm uptime
  | signals after =>
    exact exists_done_of_prompt (Call.isPrompt_signals after) harrival
      (Option.some.inj hdialogue).symm uptime _
  | command account order wait =>
    cases wait with
    | none =>
      exact exists_done_of_prompt (Call.isPrompt_command account order) harrival
        (Option.some.inj hdialogue).symm uptime _
    | some seconds => exact nomatch hwaits

/-- A client that is to wait for a response comes to poll, once it has heard the number of the last signal and
the identifier of its command. -/
theorem after_exchanges {account : String} {order : Order} {seconds : UInt64} (harrival : t.arrival = none)
    (hdialogue : t.dialogue = issue socket account order (some seconds)) (first second : UInt64) :
    t.after [.send first, .hear, .send second, .hear] =
      { run := t.run.occur (.submit account order)
        dialogue := Client.polling socket seconds t.run.bridge.desk.nextId
          (Client.pollsWithin (Client.patience seconds)) t.run.bridge.bus.lastSeq } := by
  have hknows : t.after [.send first, .hear] =
      { run := t.run
        dialogue := Client.ordering socket account order seconds t.run.bridge.bus.lastSeq } := by
    refine (Talk.after_heard harrival hdialogue first []
      (Call.isPrompt_health.heard?_eq t.run first socket _)).trans ?_
    rw [Call.isPrompt_health.run_eq]
    rfl
  have hprompt := Call.isPrompt_command account order
  have hordered := Talk.after_heard (congrArg Talk.arrival hknows) (congrArg Talk.dialogue hknows) second []
    (hprompt.heard?_eq _ second socket _)
  rw [hknows, hprompt.run_eq] at hordered
  have hsplit : t.after [.send first, .hear, .send second, .hear] =
      (t.after [.send first, .hear]).after [.send second, .hear] :=
    t.after_append [.send first, .hear] [.send second, .hear]
  rw [hsplit, hknows]
  exact hordered.trans (congrArg (Talk.mk _ · none) (awake_awaitResponse ..))

/-- A client with a poll left that can find the response prints it. -/
theorem done_of_find? {seconds : UInt64} {id : CommandId} {polls : Nat} {cursor : UInt64}
    {record : SignalRecord} (harrival : t.arrival = none)
    (hdialogue : t.dialogue = Client.polling socket seconds id (polls + 1) cursor)
    (hfind : (t.run.bridge.bus.since cursor).find? (fun r => r.answersCommand id) = some record)
    (uptime : UInt64) :
    (t.after [.send uptime, .hear]).dialogue = .done (.ok record.toJson.prettyText) := by
  let plain : Talk (Except ClientError SignalRecord) :=
    { run := t.run, dialogue := Client.pollResponse socket id (Client.patience seconds) (polls + 1) cursor }
  have hplain : t = plain.map Client.printed := Talk.eq_map harrival hdialogue
  obtain ⟨next, hpoll, hnext⟩ :=
    Client.exists_ask_pollResponse socket id cursor (Client.patience seconds) polls
  have hheard := Talk.after_heard (t := plain) rfl hpoll uptime []
    ((Call.isPrompt_signals cursor).heard?_eq t.run uptime socket _)
  have hinspect : Client.inspect id cursor ⟨t.run.bridge.bus.since cursor, t.run.bridge.bus.lastSeq⟩ =
      .found record := by
    rw [Client.inspect, hfind]
  rw [hnext, hinspect] at hheard
  have hend : (plain.after [.send uptime, .hear]).dialogue = .done (.ok record) :=
    congrArg Talk.dialogue hheard
  rw [hplain, Talk.after_map, Talk.dialogue_map, hend]
  rfl

end Tasks

/-! ## The program -/

/-- An invocation that talks to a bridge holds the dialogue of its task. -/
theorem Invocation.exists_dialogue_of_plan {i : Invocation} {settings : Settings} {socket : String}
    {dialogue : Dialogue Outcome} (h : i.plan settings = .talk socket dialogue) :
    ∃ asks, i.task.dialogue? socket = some asks ∧ dialogue = asks.map Outcome.ofResult := by
  simp only [Invocation.plan] at h
  split at h
  · next asks hasks =>
    obtain ⟨rfl, rfl⟩ := Plan.talk.inj h
    exact ⟨asks, hasks, rfl⟩
  · split at h <;> exact nomatch h

/-- A client that has ended well prints its text on a line. -/
theorem dialogue_after_map_ofResult {t : Talk (Except ClientError String)} {steps : List TalkStep}
    {text : String} (h : (t.after steps).dialogue = .done (.ok text)) :
    ((t.map Outcome.ofResult).after steps).dialogue = .done (.printed text) := by
  rw [Talk.after_map, Talk.dialogue_map, h]
  rfl

/-- A page of signals is printed as it was read. -/
theorem hear_signals {socket : String} {after : UInt64} {asks : Dialogue (Except ClientError String)}
    (h : (Task.signals after).dialogue? socket = some asks) (page : SignalPage) :
    (asks.map Outcome.ofResult).hear (.ofResponse (Control.response 200 (.signals page))) =
      .done (.printed page.toJson.prettyText) := by
  obtain rfl := Option.some.inj h
  have hresult : (Call.signals after).result socket (.ofResponse (Control.response 200 (.signals page))) =
      .ok page := Call.result_ofResponse (.signals after) socket page.decode_toJson
  rw [Dialogue.hear_map, Dialogue.hear_ask_of_ok hresult]
  rfl

/-- What an invocation prints is what the bridge holds.

For every state that a run has reached, and whatever anybody does while the program talks to the bridge: if
the program ends well, what it has printed is read as the logins or devices that the cache held when the run
answered the question, the signals and the number of the last one when their request arrived, the response
that the log held when a poll arrived, or the identifier under which the command was enqueued. As long as the
run is not over, a program that waits for no response can end so at once. One that is to wait comes to poll
with its second answer, for the signals after the number of the last one that it heard before, and with a poll
left that can find the response it prints it. A page of signals that were read before the number of the last
one is printed as it was read. -/
theorem Invocation.prints_what_bridge_holds (i : Invocation) (settings : Settings) {socket : String}
    {dialogue : Dialogue Outcome} (h : i.plan settings = .talk socket dialogue) (bridge : Bridge)
    (earlier : List Activity) :
    let start : Talk Outcome := { run := (Run.ofBridge bridge).actAll earlier, dialogue := dialogue }
    (∀ steps outcome, (start.after steps).dialogue = .done outcome → outcome.code = 0 →
      i.task.Shows start steps outcome) ∧
    (i.task.waits = false → start.run.phase ≠ .over → ∀ uptime, ∃ outcome,
      (start.after (.send uptime :: ((answering start.run).map .act ++ [.hear]))).dialogue = .done outcome ∧
        outcome.code = 0) ∧
    (∀ account order seconds, i.task = .command account order (some seconds) → ∀ first second,
      start.after [.send first, .hear, .send second, .hear] =
        { run := start.run.occur (.submit account order)
          dialogue := (Client.polling socket seconds start.run.bridge.desk.nextId
            (Client.pollsWithin (Client.patience seconds)) start.run.bridge.bus.lastSeq).map
              Outcome.ofResult }) ∧
    (∀ steps, let now := start.after steps
      ∀ seconds id polls cursor record uptime, now.arrival = none →
      now.dialogue = (Client.polling socket seconds id (polls + 1) cursor).map Outcome.ofResult →
      (now.run.bridge.bus.since cursor).find? (fun r => r.answersCommand id) = some record →
      ∃ outcome, (now.after [.send uptime, .hear]).dialogue = .done outcome ∧
        outcome.Reads SignalRecord.decoder record) ∧
    ∀ first second after, i.task = .signals after →
      ∃ outcome, dialogue.hear (.ofResponse (Control.response 200 (.signals (.read first second after)))) =
        .done outcome ∧ outcome.Reads SignalPage.decoder ⟨first.since after, second.lastSeq⟩ := by
  intro start
  have horderly : start.run.Orderly := (Run.orderly_ofBridge bridge).actAll earlier
  obtain ⟨asks, hasks, rfl⟩ := exists_dialogue_of_plan h
  let plain : Talk (Except ClientError String) := { run := start.run, dialogue := asks }
  have hplain : start = plain.map Outcome.ofResult := rfl
  refine ⟨fun steps outcome hdone hcode => ?_, fun hwaits hphase uptime => ?_,
    fun account order seconds htask first second => ?_, fun steps => ?_, fun first second after htask => ?_⟩
  · rw [hplain, Talk.after_map] at hdone
    obtain ⟨result, hend, rfl⟩ := Dialogue.exists_of_map_eq_done hdone
    cases result with
    | error error => exact nomatch hcode
    | ok text => exact i.task.shows_map Outcome.ofResult (Task.shows_of_done horderly rfl hasks hend)
  · obtain ⟨text, hdone⟩ := Task.exists_done (t := plain) hwaits horderly hphase rfl hasks uptime
    exact ⟨.printed text, dialogue_after_map_ofResult hdone, rfl⟩
  · rw [htask] at hasks
    rw [hplain, Talk.after_map, after_exchanges rfl (Option.some.inj hasks).symm]
    rfl
  · intro now seconds id polls cursor record uptime harrival hdialogue hfind
    refine ⟨.printed record.toJson.prettyText, ?_, Outcome.reads_record record⟩
    rw [Talk.eq_map harrival hdialogue]
    exact dialogue_after_map_ofResult (done_of_find? rfl rfl hfind uptime)
  · rw [htask] at hasks
    exact ⟨_, hear_signals hasks (.read first second after), Outcome.reads_signals _⟩

/-- The devices of a user without a name, as known to an account with every character that means something in
a query, are printed and read back. -/
theorem Invocation.prints_what_bridge_holds_odd_names :
    let account := "a&b=c+d%2f#e/?é"
    let device : Device := { user := "", device := "PHONE" }
    let bridge := Bridge.start {} (({} : Directory).putDevice account device).store ⟨"desktop", .ok ⟨true⟩⟩
    let i : Invocation := ⟨defaultConfigPath, 0, none, .devices account (some "")⟩
    let dialogue := (Dialogue.ask defaultSocketPath (.devices account (some "")) fun found =>
      .done (.ok (Control.devicesToJson found).prettyText)).map Outcome.ofResult
    let start : Talk Outcome := { run := Run.ofBridge bridge, dialogue := dialogue }
    let steps := .send 0 :: ((answering start.run).map .act ++ [.hear])
    i.plan {} = .talk defaultSocketPath dialogue ∧ bridge.cache.userDevices account "" = [device] ∧
      ∃ outcome, (start.after steps).dialogue = .done outcome ∧ outcome.code = 0 ∧
        i.task.Shows start steps outcome := by
  intro account device bridge i dialogue start steps
  have hplan : i.plan {} = .talk defaultSocketPath dialogue := rfl
  have hholds := Invocation.prints_what_bridge_holds i {} hplan bridge []
  obtain ⟨outcome, hdone, hcode⟩ := hholds.2.1 rfl (by decide) 0
  exact ⟨hplan, by decide +kernel, outcome, hdone, hcode, hholds.1 steps outcome hdone hcode⟩

end CommandLine

end DaemonBridge
