import DaemonBridge.Proofs.Client.Exchange
import DaemonBridge.Proofs.Client.InProcess

/-!
# A client among everything else

A client holds a dialogue with a bridge. Its requests arrive among whatever else is done, a question waits
until the run has answered it, and the client hears a response some time after there is one; or it hears that
its request or the response has failed. What a client makes of a call it can only have made of a response
(`Talk.exists_answer_of_done`), so that what it ends with leads back to the moment at which each of its
requests arrived.
-/

namespace DaemonBridge.Client

open Control (arrive Arrival)

/-- What comes of a request is not a response. -/
def Delivery.isFailure : Delivery → Bool
  | .received (.response _) => false
  | _ => true

/-- A failure answers no call. -/
theorem Call.exists_result_of_isFailure {α : Type} {delivery : Delivery} (h : delivery.isFailure = true)
    (call : Call α) (socket : String) : ∃ error, call.result socket delivery = .error error := by
  cases delivery with
  | noSocket => exact ⟨_, rfl⟩
  | refused reason => exact ⟨_, rfl⟩
  | received reading =>
    cases reading with
    | response response => exact nomatch h
    | noHead => exact ⟨_, rfl⟩
    | noBody => exact ⟨_, rfl⟩

/-- A run and a client that talks to it, with what has become of the request of the client since it arrived. -/
structure Talk (α : Type) where
  run : Run
  dialogue : Dialogue α
  arrival : Option Arrival := none

/-- Something that happens while a client talks to a bridge. -/
inductive TalkStep where
  /-- Someone does something. -/
  | act (activity : Activity)
  /-- The request of the client arrives. -/
  | send (uptime : UInt64)
  /-- The client hears the response to its request. -/
  | hear
  /-- The client hears that its request or the response has failed. -/
  | fail (delivery : Delivery)

/-- What is done by someone else. -/
def TalkStep.activity? : TalkStep → Option Activity
  | .act activity => some activity
  | _ => none

namespace Talk

variable {α β : Type}

/-- Let something happen. -/
def step (t : Talk α) : TalkStep → Talk α
  | .act activity => { t with run := t.run.act activity }
  | .send uptime =>
    match t.arrival, t.dialogue.request? with
    | none, some request =>
      { t with
        run := (arrive t.run uptime request).2
        arrival := some (arrive t.run uptime request).1 }
    | _, _ => t
  | .hear =>
    match t.arrival.bind (Arrival.response? t.run) with
    | some response => { t with dialogue := t.dialogue.hear (.ofResponse response), arrival := none }
    | none => t
  | .fail delivery =>
    if delivery.isFailure then { t with dialogue := t.dialogue.hear delivery, arrival := none } else t

/-- Let a sequence of things happen. -/
def after (t : Talk α) (steps : List TalkStep) : Talk α :=
  steps.foldl step t

/-- What others do in a sequence of things. -/
def activities (steps : List TalkStep) : List Activity :=
  steps.filterMap TalkStep.activity?

/-- Things that happen one after the other happen in two parts. -/
theorem after_append (t : Talk α) (earlier later : List TalkStep) :
    t.after (earlier ++ later) = (t.after earlier).after later :=
  List.foldl_append

/-- The client is about to send the request of a call. -/
def Asks (t : Talk α) (call : Call β) : Prop :=
  t.arrival = none ∧ t.dialogue.request? = some call.request

/-- The client puts its result otherwise. -/
def map (f : α → β) (t : Talk α) : Talk β :=
  { t with dialogue := t.dialogue.map f }

/-- Its dialogue does. -/
@[simp]
theorem dialogue_map (f : α → β) (t : Talk α) : (t.map f).dialogue = t.dialogue.map f := rfl

/-- The run stays as it is. -/
@[simp]
theorem run_map (f : α → β) (t : Talk α) : (t.map f).run = t.run := rfl

/-- A client puts its result otherwise if its dialogue does. -/
theorem eq_map {f : α → β} {t : Talk β} {dialogue : Dialogue α} (harrival : t.arrival = none)
    (hdialogue : t.dialogue = dialogue.map f) : t = map f { run := t.run, dialogue := dialogue } := by
  obtain ⟨run, _, _⟩ := t
  obtain rfl := harrival
  obtain rfl := hdialogue
  rfl

/-- The client asks the same. -/
@[simp]
theorem asks_map (f : α → β) (t : Talk α) {γ : Type} (call : Call γ) : (t.map f).Asks call ↔ t.Asks call := by
  have hrequest : (t.map f).dialogue.request? = t.dialogue.request? := t.dialogue.request?_map f
  rw [Asks, Asks, hrequest]
  rfl

/-- The same happens. -/
theorem step_map (f : α → β) (t : Talk α) (step : TalkStep) : (t.map f).step step = (t.step step).map f := by
  have hrequest : (t.map f).dialogue.request? = t.dialogue.request? := t.dialogue.request?_map f
  cases step with
  | act activity => rfl
  | send uptime =>
    simp only [Talk.step, hrequest]
    show (match t.arrival, t.dialogue.request? with | none, some request => _ | _, _ => _) = _
    split <;> rfl
  | hear =>
    simp only [Talk.step]
    show (match t.arrival.bind (Arrival.response? t.run) with | some response => _ | none => _) = _
    cases t.arrival.bind (Arrival.response? t.run) with
    | none => rfl
    | some response => exact congrArg (Talk.mk t.run · none) (Dialogue.hear_map f _ t.dialogue)
  | fail delivery =>
    simp only [Talk.step]
    split
    · exact congrArg (Talk.mk t.run · none) (Dialogue.hear_map f _ t.dialogue)
    · rfl

/-- Whatever happens. -/
@[simp]
theorem after_map (f : α → β) (t : Talk α) (steps : List TalkStep) :
    (t.map f).after steps = (t.after steps).map f := by
  induction steps generalizing t with
  | nil => rfl
  | cons step rest ih =>
    show ((t.map f).step step).after rest = _
    rw [step_map, ih]
    rfl

/-- The line of the run stays in order. -/
theorem orderly_step {t : Talk α} (h : t.run.Orderly) (step : TalkStep) : (t.step step).run.Orderly := by
  cases step with
  | act activity => exact h.act activity
  | send uptime =>
    simp only [Talk.step]
    split
    · next request _ _ => exact h.act (.request uptime request)
    · exact h
  | hear =>
    simp only [Talk.step]
    split <;> exact h
  | fail delivery =>
    simp only [Talk.step]
    split <;> exact h

/-- Whatever happens. -/
theorem orderly_after {t : Talk α} (h : t.run.Orderly) (steps : List TalkStep) :
    (t.after steps).run.Orderly := by
  induction steps generalizing t with
  | nil => exact h
  | cons step rest ih => exact ih (orderly_step h step)

/-- A client that is at the end stays there. -/
theorem after_done {t : Talk α} {result : α} (h : t.dialogue = .done result) (steps : List TalkStep) :
    (t.after steps).dialogue = .done result := by
  induction steps generalizing t with
  | nil => exact h
  | cons step rest ih =>
    have hstep : (t.step step).dialogue = .done result := by
      cases step with
      | act activity => exact h
      | send uptime =>
        simp only [Talk.step, h, Dialogue.request?]
        cases t.arrival <;> exact h
      | hear =>
        simp only [Talk.step, h, Dialogue.hear]
        split
        · rfl
        · exact h
      | fail delivery =>
        simp only [Talk.step, h, Dialogue.hear]
        split
        · rfl
        · exact h
    exact ih hstep

/-- A client that has ended at some moment ends with the same result. -/
theorem eq_of_done {t : Talk α} {steps earlier rest : List TalkStep} {first last : α}
    (hend : (t.after earlier).dialogue = .done first) (hsplit : steps = earlier ++ rest)
    (hdone : (t.after steps).dialogue = .done last) : first = last := by
  rw [hsplit, after_append, after_done hend rest] at hdone
  exact Dialogue.done.inj hdone

/-- A client that has failed does not end well. -/
theorem false_of_failed {t : Talk (Except ClientError β)} {steps earlier rest : List TalkStep}
    {error : ClientError} {b : β} (hend : (t.after earlier).dialogue = .done (.error error))
    (hsplit : steps = earlier ++ rest) (hdone : (t.after steps).dialogue = .done (.ok b)) : False := by
  cases eq_of_done hend hsplit hdone

/-- What others do in a sequence of things is cut where the sequence is. -/
theorem exists_split_of_activities {steps : List TalkStep} {before after : List Activity}
    {activity : Activity} (h : activities steps = before ++ activity :: after) :
    ∃ earlier later, steps = earlier ++ .act activity :: later ∧ activities earlier = before := by
  obtain ⟨first, second, rfl, hfirst, hsecond⟩ := List.filterMap_eq_append_iff.mp h
  obtain ⟨quiet, step, rest, rfl, hquiet, hstep, -⟩ := List.filterMap_eq_cons_iff.mp hsecond
  have hact : step = .act activity := by
    cases step with
    | act other => exact congrArg TalkStep.act (Option.some.inj hstep)
    | send | hear | fail => exact nomatch hstep
  refine ⟨first ++ quiet, rest, by rw [hact, List.append_assoc], ?_⟩
  rw [activities, List.filterMap_append, hfirst, List.filterMap_eq_nil_iff.mpr hquiet, List.append_nil]

/-! ## One request -/

section Request

variable {t : Talk α} {request : Http.Request} {next : Delivery → Dialogue α} {arrival : Arrival}

/-- The client hears a failure, or the response that there is. -/
def Hears (arrival : Arrival) (run : Run) (delivery : Delivery) : Prop :=
  delivery.isFailure = true ∨ ∃ response, arrival.response? run = some response ∧
    delivery = .ofResponse response

/-- Before its request has arrived, a client waits, its request arrives, or it hears of a failure. -/
theorem step_of_unsent (harrival : t.arrival = none) (hdialogue : t.dialogue = .send request next)
    (step : TalkStep) :
    t.step step = { t with run := t.run.actAll (activities [step]) } ∨
      (∃ uptime, step = .send uptime ∧
        t.step step = ⟨(arrive t.run uptime request).2, t.dialogue, some (arrive t.run uptime request).1⟩) ∨
      ∃ delivery, delivery.isFailure = true ∧ t.step step = ⟨t.run, (next delivery).awake, none⟩ := by
  cases step with
  | act activity => exact .inl rfl
  | send uptime =>
    refine .inr (.inl ⟨uptime, rfl, ?_⟩)
    simp only [Talk.step, harrival, hdialogue, Dialogue.request?]
  | hear =>
    have hstays : t.step .hear = t := by
      simp only [Talk.step, harrival]
      rfl
    exact .inl hstays
  | fail delivery =>
    by_cases hfailure : delivery.isFailure = true
    · refine .inr (.inr ⟨delivery, hfailure, ?_⟩)
      simp only [Talk.step, if_pos hfailure, hdialogue, Dialogue.hear]
    · have hstays : t.step (.fail delivery) = t := if_neg hfailure
      exact .inl hstays

/-- Once its request has arrived, a client waits, or hears what has come of it. -/
theorem step_of_sent (harrival : t.arrival = some arrival) (hdialogue : t.dialogue = .send request next)
    (step : TalkStep) :
    t.step step = { t with run := t.run.actAll (activities [step]) } ∨
      ∃ delivery, Hears arrival t.run delivery ∧ t.step step = ⟨t.run, (next delivery).awake, none⟩ := by
  cases step with
  | act activity => exact .inl rfl
  | send uptime =>
    have hstays : t.step (.send uptime) = t := by simp only [Talk.step, harrival]
    exact .inl hstays
  | hear =>
    have hbind : t.arrival.bind (Arrival.response? t.run) = arrival.response? t.run := by
      rw [harrival]
      rfl
    cases hresponse : arrival.response? t.run with
    | none =>
      have hstays : t.step .hear = t := by simp only [Talk.step, hbind, hresponse]
      exact .inl hstays
    | some response =>
      refine .inr ⟨.ofResponse response, .inr ⟨response, hresponse, rfl⟩, ?_⟩
      simp only [Talk.step, hbind, hresponse, hdialogue, Dialogue.hear]
  | fail delivery =>
    by_cases hfailure : delivery.isFailure = true
    · refine .inr ⟨delivery, .inl hfailure, ?_⟩
      simp only [Talk.step, if_pos hfailure, hdialogue, Dialogue.hear]
    · have hstays : t.step (.fail delivery) = t := if_neg hfailure
      exact .inl hstays

/-- After one more thing that others do. -/
theorem actAll_activities_cons (run : Run) (step : TalkStep) (steps : List TalkStep) :
    run.actAll (activities (step :: steps)) = (run.actAll (activities [step])).actAll (activities steps) := by
  show run.actAll (activities ([step] ++ steps)) = _
  rw [activities, List.filterMap_append]
  exact run.actAll_append _ _

/-- Whatever happens once its request has arrived, the client is still waiting, or it has heard at some
moment what has come of the request; until then nothing but what others did has changed the run. -/
theorem after_sent (harrival : t.arrival = some arrival) (hdialogue : t.dialogue = .send request next)
    (steps : List TalkStep) :
    (t.after steps).dialogue = .send request next ∨
      ∃ before last rest delivery, steps = before ++ last :: rest ∧
        (∀ earlier, earlier <+: before →
          t.after earlier = { t with run := t.run.actAll (activities earlier) }) ∧
        Hears arrival (t.run.actAll (activities before)) delivery ∧
        t.after (before ++ [last]) = ⟨t.run.actAll (activities before), (next delivery).awake, none⟩ := by
  induction steps generalizing t with
  | nil => exact .inl hdialogue
  | cons step steps ih =>
    rcases step_of_sent harrival hdialogue step with hstays | ⟨delivery, hhears, hheard⟩
    · let later : Talk α := { t with run := t.run.actAll (activities [step]) }
      have hafter : ∀ steps, t.after (step :: steps) = later.after steps := fun steps =>
        congrArg (Talk.after · steps) hstays
      rcases ih (t := later) harrival hdialogue with
        hsame | ⟨before, last, rest, delivery, rfl, hquiet, hrest⟩
      · exact .inl (hafter steps ▸ hsame)
      · refine .inr ⟨step :: before, last, rest, delivery, rfl, fun earlier hprefix => ?_, ?_⟩
        · rcases List.prefix_cons_iff.mp hprefix with rfl | ⟨more, rfl, hmore⟩
          · rfl
          · rw [hafter, hquiet more hmore, actAll_activities_cons]
        · rw [List.cons_append, hafter, actAll_activities_cons]
          exact hrest
    · refine .inr ⟨[], step, steps, delivery, rfl, fun earlier hprefix => ?_, hhears, hheard⟩
      rw [List.prefix_nil.mp hprefix]
      rfl

/-- Whatever happens to a client that is about to send a request, it has heard nothing yet, or it has heard
of a failure, or its request has arrived at some moment and it has heard at another what has come of it; in
between nothing but what others did has changed the run. -/
theorem after_unsent (harrival : t.arrival = none) (hdialogue : t.dialogue = .send request next)
    (steps : List TalkStep) :
    (t.after steps).dialogue = .send request next ∨
      (∃ before rest delivery, steps = before ++ rest ∧ delivery.isFailure = true ∧
        (t.after before).arrival = none ∧ (t.after before).dialogue = (next delivery).awake) ∨
      ∃ before uptime between last rest delivery,
        steps = before ++ .send uptime :: (between ++ last :: rest) ∧
        (t.after before).arrival = none ∧ (t.after before).dialogue = t.dialogue ∧
        let arrived := arrive (t.after before).run uptime request
        (∀ earlier, earlier <+: between →
          (t.after (before ++ .send uptime :: earlier)).run = arrived.2.actAll (activities earlier)) ∧
        Hears arrived.1 (arrived.2.actAll (activities between)) delivery ∧
        t.after (before ++ .send uptime :: (between ++ [last])) =
          ⟨arrived.2.actAll (activities between), (next delivery).awake, none⟩ := by
  induction steps generalizing t with
  | nil => exact .inl hdialogue
  | cons step steps ih =>
    rcases step_of_unsent harrival hdialogue step with
      hstays | ⟨uptime, rfl, harrived⟩ | ⟨delivery, hfailure, hheard⟩
    · let later : Talk α := { t with run := t.run.actAll (activities [step]) }
      have hafter : ∀ steps, t.after (step :: steps) = later.after steps := fun steps =>
        congrArg (Talk.after · steps) hstays
      rcases ih (t := later) harrival hdialogue with
        hsame | ⟨before, rest, delivery, rfl, hrest⟩ |
        ⟨before, uptime, between, last, rest, delivery, rfl, hrest⟩
      · exact .inl (hafter steps ▸ hsame)
      · refine .inr (.inl ⟨step :: before, rest, delivery, rfl, ?_⟩)
        rw [hafter]
        exact hrest
      · refine .inr (.inr ⟨step :: before, uptime, between, last, rest, delivery, rfl, ?_⟩)
        simp only [List.cons_append, hafter]
        exact hrest
    · let later : Talk α :=
        ⟨(arrive t.run uptime request).2, t.dialogue, some (arrive t.run uptime request).1⟩
      have hafter : ∀ steps, t.after (.send uptime :: steps) = later.after steps := fun steps =>
        congrArg (Talk.after · steps) harrived
      rcases after_sent (t := later) rfl hdialogue steps with
        hsame | ⟨before, last, rest, delivery, rfl, hquiet, hhears, hheard⟩
      · exact .inl (hafter steps ▸ hsame)
      · refine .inr (.inr ⟨[], uptime, before, last, rest, delivery, rfl, harrival, rfl,
          fun earlier hprefix => ?_, hhears, ?_⟩)
        · rw [List.nil_append, hafter, hquiet earlier hprefix]
          rfl
        · rw [List.nil_append, hafter]
          exact hheard
    · have hafter : t.after [step] = ⟨t.run, (next delivery).awake, none⟩ := hheard
      refine .inr (.inl ⟨[step], steps, delivery, rfl, hfailure, ?_⟩)
      rw [hafter]
      exact ⟨rfl, rfl⟩

end Request

/-- A client that has ended well behind a call has heard an answer to the call: its request had arrived at
some moment, and at another the client heard the answer, with which it went on. In between nothing but what
others did has changed the run. -/
theorem exists_answer_of_done {t : Talk (Except ClientError β)} {socket : String} {call : Call α}
    {next : α → Dialogue (Except ClientError β)} (harrival : t.arrival = none)
    (hdialogue : t.dialogue = .ask socket call next) {steps : List TalkStep} {b : β}
    (hdone : (t.after steps).dialogue = .done (.ok b)) :
    ∃ before uptime between last rest answer,
      steps = before ++ .send uptime :: (between ++ last :: rest) ∧ (t.after before).Asks call ∧
      let arrived := arrive (t.after before).run uptime call.request
      (∀ earlier, earlier <+: between →
        (t.after (before ++ .send uptime :: earlier)).run = arrived.2.actAll (activities earlier)) ∧
      arrived.1.heard? call socket (arrived.2.actAll (activities between)) = some (.ok answer) ∧
      t.after (before ++ .send uptime :: (between ++ [last])) =
        ⟨arrived.2.actAll (activities between), (next answer).awake, none⟩ := by
  obtain ⟨hearing, hask, hhear⟩ : ∃ hearing, Dialogue.ask socket call next = .send call.request hearing ∧
      ∀ delivery, (hearing delivery).awake = (Dialogue.ask socket call next).hear delivery :=
    ⟨_, rfl, fun _ => rfl⟩
  have hsend := hdialogue.trans hask
  -- A failure is the end of the dialogue, so it cannot be what the client has heard.
  have hfailed : ∀ {delivery error earlier rest}, call.result socket delivery = .error error →
      (t.after earlier).dialogue = (hearing delivery).awake → steps = earlier ++ rest → False := by
    intro delivery error earlier rest hresult hheard hsplit
    rw [hhear, Dialogue.hear_ask_of_error hresult] at hheard
    exact false_of_failed hheard hsplit hdone
  rcases after_unsent harrival hsend steps with
    hsame | ⟨before, rest, delivery, hsplit, hfailure, -, hheard⟩ |
    ⟨before, uptime, between, last, rest, delivery, hsplit, hidle, hsame, hquiet, hhears, hheard⟩
  · rw [hsame] at hdone
    cases hdone
  · obtain ⟨error, hresult⟩ := Call.exists_result_of_isFailure hfailure call socket
    exact (hfailed hresult hheard hsplit).elim
  · have hsplit' : steps = (before ++ .send uptime :: (between ++ [last])) ++ rest := by
      rw [hsplit]
      simp
    cases hresult : call.result socket delivery with
    | error error => exact (hfailed hresult (congrArg Talk.dialogue hheard) hsplit').elim
    | ok answer =>
      rw [hhear, Dialogue.hear_ask_of_ok hresult] at hheard
      refine ⟨before, uptime, between, last, rest, answer, hsplit, ⟨hidle, ?_⟩, hquiet, ?_, hheard⟩
      · rw [hsame, hsend]
        rfl
      · rcases hhears with hfailure | ⟨response, hresponse, rfl⟩
        · obtain ⟨error, herror⟩ := Call.exists_result_of_isFailure hfailure call socket
          rw [herror] at hresult
          cases hresult
        · rw [Arrival.heard?, hresponse, Option.map_some, hresult]

/-- A client whose request arrives, and who hears an answer to the call after others have done something, goes
on with the answer. -/
theorem after_heard {t : Talk (Except ClientError β)} {socket : String} {call : Call α}
    {next : α → Dialogue (Except ClientError β)} (harrival : t.arrival = none)
    (hdialogue : t.dialogue = .ask socket call next) (uptime : UInt64) (done : List Activity) {answer : α}
    (hheard : (arrive t.run uptime call.request).1.heard? call socket
      ((arrive t.run uptime call.request).2.actAll done) = some (.ok answer)) :
    t.after (.send uptime :: (done.map .act ++ [.hear])) =
      ⟨(arrive t.run uptime call.request).2.actAll done, (next answer).awake, none⟩ := by
  generalize harrived : arrive t.run uptime call.request = arrived at hheard
  have hsend : t.step (.send uptime) = ⟨arrived.2, t.dialogue, some arrived.1⟩ := by
    have hrequest : t.dialogue.request? = some call.request := by rw [hdialogue]; rfl
    simp only [step, harrival, hrequest, harrived]
  have hwaits : ∀ (done : List Activity) (t : Talk (Except ClientError β)),
      t.after (done.map .act) = { t with run := t.run.actAll done } := by
    intro done
    induction done with
    | nil => exact fun t => rfl
    | cons activity done ih => exact fun t => ih _
  obtain ⟨response, hresponse, hresult⟩ := Option.map_eq_some_iff.mp hheard
  calc t.after (.send uptime :: (done.map .act ++ [.hear]))
      = ((t.step (.send uptime)).after (done.map .act)).step .hear := after_append _ _ [.hear]
    _ = step ⟨arrived.2.actAll done, t.dialogue, some arrived.1⟩ .hear := by rw [hsend, hwaits]
    _ = ⟨arrived.2.actAll done, (next answer).awake, none⟩ := by
      simp only [step, Option.bind_some, hresponse, hdialogue, Dialogue.hear_ask_of_ok hresult]

end Talk

end DaemonBridge.Client
