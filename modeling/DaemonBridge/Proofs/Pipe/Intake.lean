import DaemonBridge.Proofs.Pipe.Shuttle

/-!
# Every line once

Whatever the worker writes, and whatever else happens in between, the events that come out of the pipe
are those of the lines read so far, each once and in order (`Shuttle.Intake`). A malformed line is
counted; with it or without it everything else is the same, before and after.
-/

namespace DaemonBridge

namespace Shuttle

/-- The pipe has taken every line of what it has heard, and the events were pushed in order; the bridge
has taken the first of them. -/
structure Intake (s : Shuttle) (heard : List UInt8) (ended : Bool) (taken : List Event) : Prop where
  heard : s.pipe.Heard heard ended
  receiverOpen : s.events.receiverOpen = true
  events_eq : taken ++ s.events.waiting = s.pipe.events

variable {s : Shuttle}

namespace Intake

variable {heard heard' : List UInt8} {ended ended' : Bool} {taken : List Event}

/-- A new pipe has taken nothing. -/
theorem start : ({} : Shuttle).Intake [] false [] :=
  ⟨.start, rfl, rfl⟩

/-- What the pipe reads is pushed. -/
theorem through (h : s.Intake heard ended taken) {happening : PipeStep}
    (hheard : (s.pipe.step happening).Heard heard' ended') :
    (s.through happening).Intake heard' ended' taken := by
  obtain ⟨hopen, hwaiting⟩ := through_events h.receiverOpen happening
  obtain ⟨new, hnew⟩ := (s.pipe.steps happening).events_isPrefix
  refine ⟨?_, hopen, ?_⟩
  · rw [through_pipe]
    exact hheard
  · rw [hwaiting, through_pipe, ← hnew, List.drop_left, ← List.append_assoc, h.events_eq]

/-- Whatever happens, every line is taken once. -/
theorem step (h : s.Intake heard ended taken) (step : ShuttleStep) :
    (s.step step).Intake (heard ++ s.hears step) (ended || s.meetsEnd step)
      (taken ++ (s.takes? step).toList) := by
  cases step with
  | input bytes =>
    simp only [meetsEnd, takes?, Bool.or_false, Option.toList_none, List.append_nil]
    exact h.through (h.heard.input bytes)
  | inputEnds =>
    simp only [hears, takes?, Option.toList_none, List.append_nil]
    exact h.through h.heard.inputEnds
  | takeEvent =>
    simp only [hears, meetsEnd, takes?, Bool.or_false, List.append_nil]
    cases hwaiting : s.events.waiting with
    | nil =>
      simp only [Shuttle.step, EventQueue.next?, hwaiting, List.head?_nil, Option.toList_none,
        List.append_nil]
      exact h
    | cons event rest =>
      simp only [Shuttle.step, EventQueue.next?, hwaiting, List.head?_cons, Option.toList_some]
      refine ⟨h.heard, h.receiverOpen, ?_⟩
      rw [List.append_assoc, List.singleton_append, ← hwaiting]
      exact h.events_eq
  | takeCommand =>
    simp only [hears, meetsEnd, takes?, Bool.or_false, Option.toList_none, List.append_nil,
      Shuttle.step]
    split
    · next command commands _ =>
      have h' : ({ s with commands := commands } : Shuttle).Intake heard ended taken :=
        ⟨h.heard, h.receiverOpen, h.events_eq⟩
      exact h'.through (h.heard.other (fun _ => PipeStep.noConfusion) PipeStep.noConfusion)
    · split
      · exact h.through (h.heard.other (fun _ => PipeStep.noConfusion) PipeStep.noConfusion)
      · exact h
  | send _ | closeCommands =>
    simp only [hears, meetsEnd, takes?, Bool.or_false, Option.toList_none, List.append_nil]
    exact ⟨h.heard, h.receiverOpen, h.events_eq⟩
  | outputCloses | stop =>
    simp only [hears, meetsEnd, takes?, Bool.or_false, Option.toList_none, List.append_nil]
    exact h.through (h.heard.other (fun _ => PipeStep.noConfusion) PipeStep.noConfusion)

/-- After any run, every line has been taken once. -/
theorem run (h : s.Intake heard ended taken) (steps : List ShuttleStep) :
    (s.run steps).Intake (heard ++ s.heardIn steps) (ended || s.endMetIn steps)
      (taken ++ s.takenIn steps) := by
  induction steps generalizing s heard ended taken with
  | nil =>
    rw [heardIn, endMetIn, takenIn, List.append_nil, Bool.or_false, List.append_nil]
    exact h
  | cons step rest ih =>
    have hrest := ih (h.step step)
    rwa [List.append_assoc, Bool.or_assoc, List.append_assoc] at hrest

end Intake

/-! ## A malformed line -/

/-- The same with one more line that is no event. -/
def skipOne (s : Shuttle) : Shuttle :=
  { s with pipe := s.pipe.skipOne }

/-- What is read does not depend on how many lines were skipped before. -/
theorem carry_skipOne (s : Shuttle) (pipe : Pipe) : s.skipOne.carry pipe.skipOne = (s.carry pipe).skipOne := by
  unfold carry
  show (if pipe.status = .running then _ else _) = _
  split <;> rfl

/-- Nor does what happens to the pipe. -/
theorem through_skipOne (s : Shuttle) (happening : PipeStep) :
    s.skipOne.through happening = (s.through happening).skipOne := by
  have hstep : s.skipOne.pipe.step happening = (s.pipe.step happening).skipOne :=
    (s.pipe.steps happening).skipOne.eq
  rw [through, through, hstep, carry_skipOne]

/-- Nor does anything that happens. -/
theorem step_skipOne (s : Shuttle) (step : ShuttleStep) :
    s.skipOne.step step = (s.step step).skipOne := by
  cases step with
  | input bytes => exact s.through_skipOne _
  | inputEnds | outputCloses | stop => exact s.through_skipOne _
  | send _ | closeCommands => rfl
  | takeEvent =>
    have hevents : s.skipOne.events = s.events := rfl
    simp only [Shuttle.step, hevents]
    cases s.events.next? <;> rfl
  | takeCommand =>
    have hcommands : s.skipOne.commands = s.commands := rfl
    simp only [Shuttle.step, hcommands]
    cases s.commands.take? with
    | some taken => exact through_skipOne { s with commands := taken.2 } _
    | none =>
      simp only
      split
      · exact s.through_skipOne _
      · rfl

/-- Nor does any run. -/
theorem run_skipOne (s : Shuttle) (steps : List ShuttleStep) :
    s.skipOne.run steps = (s.run steps).skipOne := by
  induction steps generalizing s with
  | nil => rfl
  | cons step rest ih =>
    show (s.skipOne.step step).run rest = _
    rw [step_skipOne, ih]
    rfl

/-! ## Input in parts -/

/-- While the pipe runs, input is read and does not end it. -/
theorem pipe_step_input (hrunning : s.pipe.status = .running) (bytes : List UInt8) :
    s.pipe.step (.input bytes) = bytes.foldl Pipe.readByte s.pipe ∧
      (s.pipe.step (.input bytes)).status = .running := by
  have hstep := (Pipe.Steps.input bytes hrunning).eq
  exact ⟨hstep, hstep ▸ (Pipe.ReadsOn.readBytes s.pipe bytes).status_eq.trans hrunning⟩

/-- What happens after some input happens to the pipe that has read it. -/
theorem through_step_input (hrunning : s.pipe.status = .running) (bytes : List UInt8)
    (happening : PipeStep) : (s.step (.input bytes)).through happening =
      s.carry ((bytes.foldl Pipe.readByte s.pipe).step happening) := by
  obtain ⟨hstep, hstill⟩ := pipe_step_input hrunning bytes
  have hparts := carry_carry hstill (s.pipe.steps (.input bytes)).events_isPrefix
    ((s.pipe.step (.input bytes)).steps happening).events_isPrefix
  rw [hstep] at hparts
  rw [through, ← hparts]
  show (s.through _).carry ((s.through _).pipe.step happening) = _
  rw [through_pipe, through, hstep]

/-- Input comes in two parts or at once. -/
theorem step_input_append (s : Shuttle) (front back : List UInt8) :
    (s.step (.input front)).step (.input back) = s.step (.input (front ++ back)) := by
  by_cases hrunning : s.pipe.status = .running
  · obtain ⟨hfront, hstill⟩ := pipe_step_input hrunning front
    rw [hfront] at hstill
    show (s.step (.input front)).through _ = s.through _
    rw [through_step_input hrunning, (Pipe.Steps.input back hstill).eq, through,
      (pipe_step_input hrunning _).1, List.foldl_append]
  · show (s.through _).through _ = s.through _
    rw [through_of_ended hrunning, through_of_ended hrunning]
    refine through_of_ended ?_ _
    exact hrunning

/-- A malformed line that is read where a line begins is skipped. -/
theorem step_malformed (hrunning : s.pipe.status = .running) (hline : s.pipe.line = [])
    {bad : List UInt8} (hbad : IsMalformed bad) (hwhole : 0x0a ∉ bad) :
    s.step (.input (bad ++ [0x0a])) = s.skipOne := by
  have hskipped : s.pipe.skipOne.status = .running := hrunning
  have hnone : s.pipe.skipOne.events.drop s.pipe.events.length = [] := List.drop_length
  show s.through _ = _
  rw [through, (pipe_step_input hrunning _).1, Pipe.readBytes_malformed hline hbad hwhole, carry,
    if_pos hskipped, hnone]
  rfl

/-- A malformed line that is read as the last one is skipped. -/
theorem step_malformed_inputEnds (hrunning : s.pipe.status = .running) {bad : List UInt8}
    (hbad : IsMalformed bad) (hwhole : 0x0a ∉ bad) :
    (s.step (.input (0x0a :: bad))).step .inputEnds = (s.step .inputEnds).skipOne := by
  show (s.step _).through _ = (s.through _).skipOne
  rw [through_step_input hrunning, Pipe.step_inputEnds_malformed hrunning hbad hwhole]
  exact s.carry_skipOne _

/-- Every line that the worker writes is taken once and in order.

After any run, the events that came out of the pipe are those of the lines heard: all lines between the
line feeds, but for the last, which may go on, and that one too when the pipe has met the end of the
worker's output. They have been pushed in order, so that the bridge has taken the first of them and the
others wait; the pipe counts them, and it counts the lines that are neither blank nor events. No input
ends the pipe, and it is read in parts or at once. A malformed line, put in where a line begins or as the
last one before the end, changes nothing but the count of skipped lines, whatever happens afterwards. -/
theorem lines_taken_once (steps : List ShuttleStep) :
    let s := run {} steps
    let heard := heardIn {} steps
    let ended := endMetIn {} steps
    let lines := if ended then heard.splitOn 0x0a else (heard.splitOn 0x0a).dropLast
    s.pipe.events = lines.filterMap Event.ofLine? ∧
      takenIn {} steps ++ s.events.waiting = s.pipe.events ∧
      s.pipe.stats.eventsRead = UInt64.ofNat s.pipe.events.length ∧
      s.pipe.stats.linesSkipped = UInt64.ofNat (lines.countP (IsMalformed ·)) ∧
      (ended = true → s.pipe.status ≠ .running) ∧
      (∀ bytes, s.pipe.status = .running → (s.step (.input bytes)).pipe.status = .running) ∧
      (∀ front back, (s.step (.input front)).step (.input back) = s.step (.input (front ++ back))) ∧
      ∀ bad, IsMalformed bad → 0x0a ∉ bad → s.pipe.status = .running → ∀ more,
        (heard = [] ∨ heard.getLast? = some 0x0a →
            s.run (.input (bad ++ [0x0a]) :: more) = (s.run more).skipOne) ∧
          s.run (.input (0x0a :: bad) :: .inputEnds :: more) = (s.run (.inputEnds :: more)).skipOne := by
  intro s heard ended lines
  have h : s.Intake heard ended (takenIn {} steps) := Intake.start.run steps
  refine ⟨h.heard.took.events_eq, h.events_eq, h.heard.took.eventsRead_eq, h.heard.took.linesSkipped_eq,
    fun hended hrunning => ?_, fun bytes hrunning => ?_, s.step_input_append,
    fun bad hbad hwhole hrunning more => ⟨fun hbegins => ?_, ?_⟩⟩
  · exact Bool.noConfusion (hended.symm.trans (h.heard.reads hrunning).1)
  · show (s.through _).pipe.status = _
    rw [through_pipe]
    exact (pipe_step_input hrunning bytes).2
  · obtain ⟨-, taken, hreads⟩ := h.heard.reads hrunning
    show (s.step _).run more = _
    rw [step_malformed hrunning (hreads.line_eq_nil hbegins) hbad hwhole, run_skipOne]
  · show ((s.step _).step _).run more = ((s.step _).run more).skipOne
    rw [step_malformed_inputEnds hrunning hbad hwhole, run_skipOne]

end Shuttle

end DaemonBridge
