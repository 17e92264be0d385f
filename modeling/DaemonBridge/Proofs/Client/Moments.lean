import DaemonBridge.Proofs.Client.Hearing
import DaemonBridge.Proofs.Client.Talk

/-!
# The moments behind what a client ends with

A call that is dealt with as soon as its request arrives (`Call.IsPrompt`) is answered with what the bridge
holds at that moment. A question is answered with what the cache holds when the run answers it
(`Run.Answers`). Whatever others do meanwhile, a client that has ended well behind a call has heard what the
bridge held at such a moment, and a client that has found the response to its command has found it in the log
at the moment of its last poll.
-/

namespace DaemonBridge.Client

open Control (arrive Arrival Operation Reply undertake)

variable {α β : Type}

/-! ## Calls that are answered at once -/

/-- What a call is answered with, and what becomes of the run, as soon as its request arrives. -/
structure Call.IsPrompt (call : Call α) (answer : Run → UInt64 → α) (next : Run → Run) : Prop where
  run_eq : ∀ run uptime, (arrive run uptime call.request).2 = next run
  heard?_eq : ∀ run uptime socket later,
    (arrive run uptime call.request).1.heard? call socket later = some (.ok (answer run uptime))

namespace Call

/-- A call is answered at once if its request is understood as an operation that is, and the answer is read
back. -/
theorem isPrompt_of_undertake {call : Call α} {operation : Operation} {reply : Run → UInt64 → Reply}
    {answer : Run → UInt64 → α} {next : Run → Run}
    (hrequest : Operation.ofRequest call.request = .ok operation)
    (hundertake : ∀ run uptime, undertake run uptime operation = (.answered (reply run uptime), next run))
    (hdecode : ∀ run uptime, (Json.Document.ofBytes (Text.encode (reply run uptime).toJson.compact)).decode
      call.decoder = .ok (answer run uptime)) :
    call.IsPrompt answer next := by
  have harrive : ∀ run uptime, arrive run uptime call.request =
      (.answered (reply run uptime), next run) := by
    intro run uptime
    rw [arrive, hrequest]
    exact hundertake run uptime
  refine ⟨fun run uptime => congrArg Prod.snd (harrive run uptime), fun run uptime socket later => ?_⟩
  rw [harrive]
  exact heard?_answered call socket later (hdecode run uptime)

/-- Health is told at once. -/
theorem isPrompt_health : health.IsPrompt (fun run uptime => Control.healthOf run.bridge uptime) id :=
  isPrompt_of_undertake Control.ofRequest_health (fun _ _ => rfl) fun _ _ => Control.Health.decode_toJson _

/-- A bridge says at once that it will stop. -/
theorem isPrompt_stop : stop.IsPrompt (fun _ _ => ⟨true, "Shutdown initiated"⟩) (Run.step · .requestStop) :=
  isPrompt_of_undertake Control.ofRequest_stop (fun _ _ => rfl) fun _ _ => Control.decode_stopping _

/-- The settings in use are told at once. -/
theorem isPrompt_config : config.IsPrompt (fun run _ => String.ofList run.bridge.settings.toToml) id :=
  isPrompt_of_undertake Control.ofRequest_config (fun _ _ => rfl) fun _ _ => Control.decode_config _

/-- Signals are told at once. -/
theorem isPrompt_signals (after : UInt64) : (signals after).IsPrompt
    (fun run _ => ⟨run.bridge.bus.since after, run.bridge.bus.lastSeq⟩) id :=
  isPrompt_of_undertake (Control.ofRequest_signals after) (fun _ _ => rfl) fun _ _ =>
    Control.SignalPage.decode_toJson _

/-- An order is issued at once. -/
theorem isPrompt_command (account : String) (order : Order) : (command account order).IsPrompt
    (fun run _ => (run.bridge.submit account order).1) (Run.occur · (.submit account order)) :=
  isPrompt_of_undertake (Control.ofRequest_command account order) (fun _ _ => rfl) fun _ _ =>
    Control.decode_accepted _

end Call

namespace Talk

variable {socket : String} {steps : List TalkStep}

/-- A client that has ended well behind a call that is answered at once has gone on with what the bridge held
when its request arrived. -/
theorem exists_arrival_of_done {t : Talk (Except ClientError β)} {call : Call α}
    {answer : Run → UInt64 → α} {nextRun : Run → Run} {next : α → Dialogue (Except ClientError β)} {b : β}
    (hprompt : call.IsPrompt answer nextRun) (harrival : t.arrival = none)
    (hdialogue : t.dialogue = .ask socket call next) (hdone : (t.after steps).dialogue = .done (.ok b)) :
    ∃ before uptime between rest run, steps = before ++ .send uptime :: (between ++ rest) ∧
      (t.after before).Asks call ∧ (t.after (before ++ [.send uptime])).run = nextRun (t.after before).run ∧
      t.after (before ++ .send uptime :: between) =
        ⟨run, (next (answer (t.after before).run uptime)).awake, none⟩ := by
  obtain ⟨before, uptime, between, last, rest, heard, hsplit, hasks, hquiet, hheard, hnext⟩ :=
    exists_answer_of_done harrival hdialogue hdone
  rw [hprompt.heard?_eq] at hheard
  obtain rfl := Except.ok.inj (Option.some.inj hheard)
  refine ⟨before, uptime, between ++ [last], rest, _, ?_, hasks, ?_, hnext⟩
  · rw [hsplit, List.append_assoc, List.singleton_append]
  · rw [hquiet [] List.nil_prefix, hprompt.run_eq]
    rfl

/-- The request of a call arrives at some moment, of which something holds: of the run that it finds, of the
seconds that the bridge has run, and of what becomes of the run. -/
def AtArrival (t : Talk β) (steps : List TalkStep) (call : Call α)
    (holds : Run → UInt64 → Run → Prop) : Prop :=
  ∃ before uptime rest, steps = before ++ .send uptime :: rest ∧ (t.after before).Asks call ∧
    holds (t.after before).run uptime (t.after (before ++ [.send uptime])).run

/-- A client that asks nothing after that has ended with it. -/
theorem atArrival_of_done {t : Talk (Except ClientError β)} {call : Call α} {answer : Run → UInt64 → α}
    {nextRun : Run → Run} {write : α → β} {b : β} (hprompt : call.IsPrompt answer nextRun)
    (harrival : t.arrival = none)
    (hdialogue : t.dialogue = .ask socket call fun answer => .done (.ok (write answer)))
    (hdone : (t.after steps).dialogue = .done (.ok b)) :
    t.AtArrival steps call fun run uptime later => later = nextRun run ∧ b = write (answer run uptime) := by
  obtain ⟨before, uptime, between, rest, run, rfl, hasks, hrun, hnext⟩ :=
    exists_arrival_of_done hprompt harrival hdialogue hdone
  refine ⟨before, uptime, between ++ rest, rfl, hasks, hrun, ?_⟩
  have hend := eq_of_done (congrArg Talk.dialogue hnext) (by rw [List.append_assoc, List.cons_append]) hdone
  exact (Except.ok.inj hend).symm

/-! ## Questions -/

/-- A client that has ended with the answer to a question has ended with what the cache held when the run
answered the question. -/
theorem eq_of_done_question {t : Talk (Except ClientError β)} {inquiry : Inquiry}
    {write : inquiry.Answer → β} {b : β} (horderly : t.run.Orderly) (harrival : t.arrival = none)
    (hdialogue : t.dialogue = .ask socket inquiry.call fun answer => .done (.ok (write answer)))
    (hdone : (t.after steps).dialogue = .done (.ok b)) :
    ∃ before uptime between rest,
      steps = before ++ .send uptime :: (between ++ .act (.occur (.run .answer)) :: rest) ∧
      (t.after before).Asks inquiry.call ∧
      let moment := (t.after (before ++ .send uptime :: between)).run
      moment.Answers (t.after before).run.calls.length inquiry ∧
      b = write (moment.bridge.cache.tell inquiry) := by
  obtain ⟨before, uptime, between, last, rest, heard, rfl, hasks, hquiet, hheard, hnext⟩ :=
    exists_answer_of_done harrival hdialogue hdone
  let asking := (t.after before).run
  have hbefore : asking.Orderly := orderly_after horderly before
  rw [inquiry.arrive_call asking] at hquiet hheard
  rw [heard?_asks] at hheard
  obtain ⟨told, htold, hresult⟩ := Option.map_eq_some_iff.mp hheard
  cases told with
  | none => cases (Call.result_ofProblem inquiry.call socket notRunningText).symm.trans hresult
  | some finding =>
    obtain ⟨earlier, later, hactivities, hanswers, rfl⟩ := hbefore.exists_answers_of_outcome? inquiry htold
    obtain ⟨waiting, since, rfl, rfl⟩ := exists_split_of_activities hactivities
    have hmoment := hquiet waiting (List.prefix_append _ _)
    refine ⟨before, uptime, waiting, since ++ last :: rest, by simp, hasks, ?_⟩
    rw [hmoment]
    refine ⟨hanswers, ?_⟩
    obtain rfl := Except.ok.inj ((inquiry.result_answer socket _).symm.trans hresult)
    let answer : TalkStep := .act (.occur (.run .answer))
    have hsplit : before ++ .send uptime :: (waiting ++ answer :: since ++ last :: rest) =
        (before ++ .send uptime :: (waiting ++ answer :: since ++ [last])) ++ rest := by
      simp
    exact (Except.ok.inj (eq_of_done (congrArg Talk.dialogue hnext) hsplit hdone)).symm

/-! ## Polls -/

/-- A client that has found the response to its command has found it when a poll arrived: it was the oldest
one that the log held after the cursor of the poll. -/
theorem exists_poll_of_done {t : Talk (Except ClientError SignalRecord)} {id : CommandId}
    {milliseconds polls : Nat} {cursor : UInt64} {record : SignalRecord} (harrival : t.arrival = none)
    (hdialogue : t.dialogue = pollResponse socket id milliseconds polls cursor)
    (hdone : (t.after steps).dialogue = .done (.ok record)) :
    ∃ before uptime rest cursor, steps = before ++ .send uptime :: rest ∧
      (t.after before).Asks (.signals cursor) ∧
      ((t.after before).run.bridge.bus.since cursor).find? (fun r => r.answersCommand id) = some record := by
  induction polls generalizing t cursor steps with
  | zero =>
    -- The poll for which no time is left fails whatever it finds.
    rcases after_unsent harrival hdialogue steps with
      hsame | ⟨before, rest, delivery, hsplit, -, -, hend⟩ |
      ⟨before, uptime, between, last, rest, delivery, hsplit, -, -, -, -, hend⟩
    · cases hsame.symm.trans hdone
    · exact (false_of_failed hend hsplit hdone).elim
    · have hsplit' : steps = (before ++ .send uptime :: (between ++ [last])) ++ rest := by
        rw [hsplit]
        simp
      exact (false_of_failed (congrArg Talk.dialogue hend) hsplit' hdone).elim
  | succ polls ih =>
    obtain ⟨next, hpoll, hnext⟩ := exists_ask_pollResponse socket id cursor milliseconds polls
    obtain ⟨before, uptime, between, rest, run, rfl, hasks, -, hheard⟩ :=
      exists_arrival_of_done (Call.isPrompt_signals cursor) harrival (hdialogue.trans hpoll) hdone
    have hsplit : before ++ .send uptime :: (between ++ rest) =
        (before ++ .send uptime :: between) ++ rest := by
      rw [List.append_assoc, List.cons_append]
    have hidle : (t.after (before ++ .send uptime :: between)).arrival = none := by rw [hheard]
    have hpage : (t.after (before ++ .send uptime :: between)).dialogue =
        afterPage socket id milliseconds polls cursor
          (inspect id cursor (pageOf (t.after before).run.bridge.bus.log cursor)) := by
      rw [hheard, hnext]
      rfl
    cases hinspect : inspect id cursor (pageOf (t.after before).run.bridge.bus.log cursor) with
    | found found =>
      rw [hinspect] at hpage
      obtain rfl := Except.ok.inj (eq_of_done hpage hsplit hdone)
      exact ⟨before, uptime, between ++ rest, cursor, rfl, hasks, (mem_of_inspect_eq_found hinspect).2.2⟩
    | missed =>
      rw [hinspect] at hpage
      exact (false_of_failed hpage hsplit hdone).elim
    | goOn later =>
      rw [hinspect, afterPage] at hpage
      by_cases hpolls : polls = 0
      · rw [if_pos hpolls] at hpage
        exact (false_of_failed hpage hsplit hdone).elim
      · rw [if_neg hpolls] at hpage
        rw [hsplit, after_append] at hdone
        obtain ⟨polled, uptime', rest', cursor', rfl, hasks', hfind⟩ := ih hidle hpage hdone
        rw [← after_append] at hasks' hfind
        exact ⟨_, uptime', rest', cursor', hsplit.trans (List.append_assoc _ _ _).symm, hasks', hfind⟩

end Talk

end DaemonBridge.Client
