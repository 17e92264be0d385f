import DaemonBridge.Proofs.Command.Wire
import DaemonBridge.Proofs.Pipe.Shuttle

/-!
# Every command on a line of its own

What the pipe has written is the lines of the first commands that were sent, and while it runs, the
others wait (`Shuttle.Output`). Since the text of a command is a single line, whoever cuts the bytes at
the line feeds has these commands back.
-/

namespace DaemonBridge

namespace Pipe

/-- What happens other than a command writes nothing, and the pipe runs only if it did before. -/
theorem Steps.of_ne_command {p p' : Pipe} {step : PipeStep} (h : p.Steps step p')
    (hother : ∀ command, step ≠ .command command) :
    p'.written = p.written ∧ p'.stats.commandsWritten = p.stats.commandsWritten ∧
      (p'.status = .running → p.status = .running) := by
  cases h with
  | ended => exact ⟨rfl, rfl, id⟩
  | input bytes hrunning =>
    have hreads := ReadsOn.readBytes p bytes
    exact ⟨hreads.written_eq, hreads.commandsWritten_eq, fun _ => hrunning⟩
  | inputEnds hrunning =>
    have hreads := ReadsOn.takeLine p p.line.reverse
    exact ⟨hreads.written_eq, hreads.commandsWritten_eq, fun _ => hrunning⟩
  | write command | breaks command => exact absurd rfl (hother command)
  | outputCloses hrunning | commandsEnd hrunning | stop hrunning => exact ⟨rfl, rfl, fun _ => hrunning⟩

/-- The worker reads what is written to it. -/
structure HasReader (p : Pipe) : Prop where
  readerOpen : p.readerOpen = true
  status_ne : p.status ≠ .broken

/-- A pipe that is read from keeps its reader unless the worker no longer reads. -/
theorem HasReader.of_steps {p p' : Pipe} {step : PipeStep} (h : p.HasReader) (hsteps : p.Steps step p')
    (hopen : step ≠ .outputCloses) : p'.HasReader := by
  cases hsteps with
  | ended => exact h
  | input bytes =>
    have hreads := ReadsOn.readBytes p bytes
    exact ⟨hreads.readerOpen_eq.trans h.readerOpen, hreads.status_eq ▸ h.status_ne⟩
  | inputEnds =>
    have hreads := ReadsOn.takeLine p p.line.reverse
    exact ⟨hreads.readerOpen_eq.trans h.readerOpen, PipeStatus.noConfusion⟩
  | write => exact ⟨h.readerOpen, h.status_ne⟩
  | breaks _ _ hgone => exact absurd (hgone.symm.trans h.readerOpen) Bool.noConfusion
  | outputCloses => exact absurd rfl hopen
  | commandsEnd | stop => exact ⟨h.readerOpen, PipeStatus.noConfusion⟩

end Pipe

namespace Shuttle

/-- Of the commands sent, the first ones have been written and, while the pipe runs, the others wait. -/
structure Output (s : Shuttle) (sent written : List Command) : Prop where
  written_isPrefix : written <+: sent
  written_eq : s.pipe.written = written.flatMap Command.line
  commandsWritten_eq : s.pipe.stats.commandsWritten = UInt64.ofNat written.length
  waiting_eq : s.pipe.status = .running →
    s.commands.receiverOpen = true ∧ sent = written ++ s.commands.waiting

variable {s : Shuttle}

namespace Output

variable {sent written : List Command}

/-- A new pipe has written nothing. -/
theorem start : ({} : Shuttle).Output [] [] :=
  ⟨List.prefix_rfl, rfl, rfl, fun _ => ⟨rfl, rfl⟩⟩

/-- Where nothing is written and no command is taken, nothing changes. -/
theorem of_eq (h : s.Output sent written) {s' : Shuttle} (hwritten : s'.pipe.written = s.pipe.written)
    (hcount : s'.pipe.stats.commandsWritten = s.pipe.stats.commandsWritten)
    (hrunning : s'.pipe.status = .running → s.pipe.status = .running ∧ s'.commands = s.commands) :
    s'.Output sent written := by
  refine ⟨h.written_isPrefix, hwritten.trans h.written_eq, hcount.trans h.commandsWritten_eq, fun hstill => ?_⟩
  obtain ⟨hbefore, hcommands⟩ := hrunning hstill
  rw [hcommands]
  exact h.waiting_eq hbefore

/-- What happens at an end of the pipe, other than a command, writes nothing. -/
theorem through (h : s.Output sent written) {happening : PipeStep}
    (hother : ∀ command, happening ≠ .command command) : (s.through happening).Output sent written := by
  obtain ⟨hwritten, hcount, hbefore⟩ := (s.pipe.steps happening).of_ne_command hother
  refine h.of_eq ?_ ?_ fun hstill => ?_
  · rw [through_pipe, hwritten]
  · rw [through_pipe, hcount]
  · rw [through_pipe] at hstill
    exact ⟨hbefore hstill, through_commands hstill⟩

/-- The command at the head of the queue is written, unless the pipe has ended or breaks. -/
theorem through_command (h : s.Output sent written) {command : Command} {rest : List Command}
    (hwaiting : s.commands.waiting = command :: rest) :
    ∃ written', ({ s with commands := { s.commands with waiting := rest } }.through
      (.command command)).Output sent written' := by
  generalize hnext : ({ s with commands := { s.commands with waiting := rest } } : Shuttle) = next
  have hpipe : (next.through (.command command)).pipe = s.pipe.step (.command command) := by
    rw [through_pipe, ← hnext]
  have hlost : ∀ {pipe : Pipe}, s.pipe.step (.command command) = pipe → pipe.written = s.pipe.written →
      pipe.stats.commandsWritten = s.pipe.stats.commandsWritten → pipe.status ≠ .running →
      (next.through (.command command)).Output sent written := by
    rintro pipe rfl hwritten hcount hover
    rw [← hpipe] at hwritten hcount hover
    exact h.of_eq hwritten hcount fun hrunning => absurd hrunning hover
  by_cases hrunning : s.pipe.status = .running
  · cases hopen : s.pipe.readerOpen with
    | true =>
      have hstep := (Pipe.Steps.write command hrunning hopen).eq
      have hstill : (next.pipe.step (.command command)).status = .running := by
        rw [← through_pipe, hpipe, hstep]
        exact hrunning
      obtain ⟨hreceives, hsent⟩ := h.waiting_eq hrunning
      have hmore : sent = (written ++ [command]) ++ rest := by
        rw [hsent, hwaiting, List.append_assoc, List.singleton_append]
      refine ⟨written ++ [command], ⟨rest, hmore.symm⟩, ?_, ?_, fun _ => ?_⟩
      · rw [hpipe, hstep, List.flatMap_append, List.flatMap_singleton, ← h.written_eq]
      · rw [hpipe, hstep, List.length_append, List.length_singleton, UInt64.ofNat_add,
          ← h.commandsWritten_eq]
        rfl
      · rw [through_commands hstill, ← hnext]
        exact ⟨hreceives, hmore⟩
    | false =>
      exact ⟨written, hlost (Pipe.Steps.breaks command hrunning hopen).eq rfl rfl PipeStatus.noConfusion⟩
  · exact ⟨written, hlost (Pipe.Steps.ended _ hrunning).eq rfl rfl hrunning⟩

/-- The pipe turns to the commands. -/
theorem takeCommand (h : s.Output sent written) : ∃ written', (s.step .takeCommand).Output sent written' := by
  cases hwaiting : s.commands.waiting with
  | nil =>
    have htake : s.commands.take? = none := by simp only [CommandQueue.take?, hwaiting]
    simp only [Shuttle.step, htake]
    split
    · exact ⟨written, h.through fun _ => PipeStep.noConfusion⟩
    · exact ⟨written, h⟩
  | cons command rest =>
    have htake : s.commands.take? = some (command, { s.commands with waiting := rest }) := by
      simp only [CommandQueue.take?, hwaiting]
    simp only [Shuttle.step, htake]
    exact h.through_command hwaiting

/-- Whatever happens, the first commands have been written. -/
theorem step (h : s.Output sent written) (step : ShuttleStep) :
    ∃ written', (s.step step).Output (sent ++ commandsIn [step]) written' := by
  cases step with
  | send command =>
    refine ⟨written, h.written_isPrefix.trans (List.prefix_append _ _), h.written_eq, h.commandsWritten_eq,
      fun hrunning => ?_⟩
    obtain ⟨hopen, hsent⟩ := h.waiting_eq hrunning
    have hsend : s.commands.send command =
        { s.commands with waiting := s.commands.waiting ++ [command] } := if_pos hopen
    show (s.commands.send command).receiverOpen = true ∧
      sent ++ [command] = written ++ (s.commands.send command).waiting
    rw [hsend, hsent, List.append_assoc]
    exact ⟨hopen, rfl⟩
  | takeCommand =>
    show ∃ written', (s.step .takeCommand).Output (sent ++ []) written'
    rw [List.append_nil]
    exact h.takeCommand
  | closeCommands =>
    refine ⟨written, ?_⟩
    rw [commandsIn, List.filterMap_cons_none rfl, List.filterMap_nil, List.append_nil]
    exact ⟨h.written_isPrefix, h.written_eq, h.commandsWritten_eq, h.waiting_eq⟩
  | takeEvent =>
    refine ⟨written, ?_⟩
    rw [commandsIn, List.filterMap_cons_none rfl, List.filterMap_nil, List.append_nil]
    simp only [Shuttle.step]
    split
    · exact h.of_eq rfl rfl fun hrunning => ⟨hrunning, rfl⟩
    · exact h
  | input _ | inputEnds | outputCloses | stop =>
    refine ⟨written, ?_⟩
    rw [commandsIn, List.filterMap_cons_none rfl, List.filterMap_nil, List.append_nil]
    exact h.through fun _ => PipeStep.noConfusion

/-- After any run, the first commands have been written. -/
theorem run (h : s.Output sent written) (steps : List ShuttleStep) :
    ∃ written', (s.run steps).Output (sent ++ commandsIn steps) written' := by
  induction steps generalizing s sent written with
  | nil =>
    refine ⟨written, ?_⟩
    rw [commandsIn, List.filterMap_nil, List.append_nil]
    exact h
  | cons step rest ih =>
    obtain ⟨more, hstep⟩ := h.step step
    obtain ⟨all, hrest⟩ := ih hstep
    refine ⟨all, ?_⟩
    rw [commandsIn_cons, ← List.append_assoc]
    exact hrest

end Output

/-- A pipe that is read from to the end never breaks. -/
theorem hasReader_run (h : s.pipe.HasReader) {steps : List ShuttleStep}
    (hopen : .outputCloses ∉ steps) : (s.run steps).pipe.HasReader := by
  induction steps generalizing s with
  | nil => exact h
  | cons step rest ih =>
    obtain ⟨hstep, hrest⟩ := List.ne_and_not_mem_of_not_mem_cons hopen
    refine ih ?_ hrest
    have hthrough : ∀ {s' : Shuttle} {happening : PipeStep}, s'.pipe = s.pipe →
        happening ≠ .outputCloses → (s'.through happening).pipe.HasReader := by
      intro s' happening hpipe hother
      rw [through_pipe, hpipe]
      exact h.of_steps (s.pipe.steps happening) hother
    cases step with
    | input _ | inputEnds | stop => exact hthrough rfl PipeStep.noConfusion
    | outputCloses => exact absurd rfl hstep
    | send _ | closeCommands => exact h
    | takeEvent =>
      simp only [Shuttle.step]
      split <;> exact h
    | takeCommand =>
      simp only [Shuttle.step]
      split
      · exact hthrough rfl PipeStep.noConfusion
      · split
        · exact hthrough rfl PipeStep.noConfusion
        · exact h

/-! ## The bytes written -/

/-- Bytes that are the lines of commands are cut at their line feeds into the texts of the commands. -/
theorem splitOn_lines (commands : List Command) :
    (commands.flatMap Command.line).splitOn 0x0a =
      (commands.map fun command => Text.encode command.toJson.compact) ++ [[]] := by
  have hlines : commands.flatMap Command.line =
      (commands.map fun command => Text.encode command.toJson.compact).flatMap (· ++ [0x0a]) ++ [] := by
    rw [List.append_nil, List.flatMap_map]
    rfl
  rw [hlines]
  refine splitOn_flatMap_append (fun text hmem => ?_) List.not_mem_nil
  obtain ⟨command, -, rfl⟩ := List.mem_map.mp hmem
  exact command.isOneLine_compact.not_mem_encode

/-- The texts of commands are read back as the commands. -/
theorem map_decode_lines (commands : List Command) :
    (commands.map fun command => Text.encode command.toJson.compact).map
        (fun text => (Json.Document.ofBytes text).decode Command.decoder) =
      commands.map .ok := by
  rw [List.map_map]
  exact List.map_congr_left fun command _ => command.decode_toJson

/-- Commands reach the worker whole, once and in order.

After any run, the bytes written are the JSON texts of the first commands that were sent, each followed by
one line feed, and the pipe counts them. While the pipe runs, the other commands wait; it breaks only when
the worker no longer reads. No text of a command holds a line feed, neither as a character nor as a byte,
so that the bytes are cut at their line feeds into the texts, with nothing behind the last, and the texts
are read back as the commands written. -/
theorem commands_framed (steps : List ShuttleStep) :
    let s := run {} steps
    let sent := commandsIn steps
    ∃ written, written <+: sent ∧
      s.pipe.written = written.flatMap Command.line ∧
      s.pipe.stats.commandsWritten = UInt64.ofNat written.length ∧
      (s.pipe.status = .running → sent = written ++ s.commands.waiting) ∧
      (.outputCloses ∉ steps → s.pipe.status ≠ .broken) ∧
      (∀ command : Command, '\n' ∉ command.toJson.compact ∧ 0x0a ∉ Text.encode command.toJson.compact) ∧
      ∃ texts, s.pipe.written.splitOn 0x0a = texts ++ [[]] ∧
        texts.map (fun text => (Json.Document.ofBytes text).decode Command.decoder) =
          written.map .ok := by
  intro s sent
  obtain ⟨written, h⟩ : ∃ written, s.Output sent written := Output.start.run steps
  refine ⟨written, h.written_isPrefix, h.written_eq, h.commandsWritten_eq, fun hrunning => ?_, fun hopen => ?_,
    fun command => ⟨fun hmem => ?_, command.isOneLine_compact.not_mem_encode⟩, _, ?_,
    map_decode_lines written⟩
  · exact (h.waiting_eq hrunning).2
  · have hreader : ({} : Shuttle).pipe.HasReader := ⟨rfl, PipeStatus.noConfusion⟩
    exact (hasReader_run hreader hopen).status_ne
  · exact absurd (command.isOneLine_compact _ hmem) (by decide)
  · rw [h.written_eq]
    exact splitOn_lines written

end Shuttle

end DaemonBridge
