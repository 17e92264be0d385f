import DaemonBridge.Pipe
import Mathlib.Data.List.Basic

/-!
# Lines out of bytes

However the output of the worker is cut into pieces, the pipe takes the lines between its line feeds, one
after the other, and what it makes of a line depends on that line alone: nothing of a blank line, an event
of a line that is one, and a count of any other. `Pipe.Took` says what has come of the lines taken so far,
and `Pipe.Reads` says which lines these are.
-/

namespace DaemonBridge

/-- Items between separators are recovered from them. -/
theorem splitOn_flatMap_append {α : Type} [BEq α] [LawfulBEq α] {separator : α} {items : List (List α)}
    {last : List α} (hitems : ∀ item ∈ items, separator ∉ item) (hlast : separator ∉ last) :
    (items.flatMap (· ++ [separator]) ++ last).splitOn separator = items ++ [last] := by
  induction items with
  | nil => exact List.splitOn_eq_singleton hlast
  | cons item items ih =>
    obtain ⟨hitem, hitems⟩ := List.forall_mem_cons.mp hitems
    rw [List.flatMap_cons, List.append_assoc, List.append_assoc, List.singleton_append,
      List.splitOn_append_cons_self, List.splitOn_eq_singleton hitem, ih hitems,
      List.singleton_append, List.cons_append]

/-- The event that a line is. -/
def Event.ofLine? (line : List UInt8) : Option Event :=
  if line.all Text.isAsciiBlank then none else (Event.ofBytes line).toOption

/-- The line is neither blank nor an event. -/
def IsMalformed (line : List UInt8) : Prop :=
  line.all Text.isAsciiBlank = false ∧ ∃ reason, Event.ofBytes line = .error reason

instance : DecidablePred IsMalformed := fun line =>
  match h : Event.ofBytes line with
  | .ok _ => isFalse fun ⟨_, _, hreason⟩ => nomatch h.symm.trans hreason
  | .error reason =>
    decidable_of_iff (line.all Text.isAsciiBlank = false) ⟨fun hline => ⟨hline, reason, h⟩, And.left⟩

namespace Pipe

/-- The same pipe with one more line that is no event. -/
def skipOne (p : Pipe) : Pipe :=
  { p with stats.linesSkipped := p.stats.linesSkipped + 1 }

/-! ## One line -/

/-- What the pipe makes of a line. -/
inductive TakesLine (p : Pipe) (line : List UInt8) : Prop where
  | blank (none : Event.ofLine? line = none) (wellFormed : ¬ IsMalformed line)
      (eq : p.takeLine line = p)
  | event (event : Event) (some : Event.ofLine? line = some event) (wellFormed : ¬ IsMalformed line)
      (eq : p.takeLine line =
        { p with events := p.events ++ [event], stats.eventsRead := p.stats.eventsRead + 1 })
  | malformed (none : Event.ofLine? line = none) (malformed : IsMalformed line)
      (eq : p.takeLine line = p.skipOne)

/-- A line is blank, an event or malformed. -/
theorem takesLine (p : Pipe) (line : List UInt8) : p.TakesLine line := by
  cases hblank : line.all Text.isAsciiBlank with
  | true =>
    refine .blank (if_pos hblank) (fun hmalformed => ?_) (if_pos hblank)
    exact Bool.noConfusion (hblank.symm.trans hmalformed.1)
  | false =>
    have hnot : ¬ line.all Text.isAsciiBlank = true := ne_true_of_eq_false hblank
    cases hevent : Event.ofBytes line with
    | ok event =>
      refine .event event ?_ ?_ ?_
      · rw [Event.ofLine?, if_neg hnot, hevent]
        rfl
      · rintro ⟨-, reason, hreason⟩
        exact nomatch hevent.symm.trans hreason
      · rw [takeLine, if_neg hnot, hevent]
    | error reason =>
      refine .malformed ?_ ⟨hblank, reason, hevent⟩ ?_
      · rw [Event.ofLine?, if_neg hnot, hevent]
        rfl
      · rw [takeLine, if_neg hnot, hevent]
        rfl

/-! ## What reading leaves alone -/

/-- The second pipe has read more, and nothing else has happened to it. -/
structure ReadsOn (p p' : Pipe) : Prop where
  status_eq : p'.status = p.status
  written_eq : p'.written = p.written
  commandsWritten_eq : p'.stats.commandsWritten = p.stats.commandsWritten
  readerOpen_eq : p'.readerOpen = p.readerOpen
  events_isPrefix : p.events <+: p'.events

namespace ReadsOn

variable {p p' p'' : Pipe}

/-- Nothing is read. -/
theorem refl (p : Pipe) : p.ReadsOn p :=
  ⟨rfl, rfl, rfl, rfl, List.prefix_rfl⟩

/-- Something is read after something else. -/
theorem trans (h : p.ReadsOn p') (h' : p'.ReadsOn p'') : p.ReadsOn p'' where
  status_eq := h'.status_eq.trans h.status_eq
  written_eq := h'.written_eq.trans h.written_eq
  commandsWritten_eq := h'.commandsWritten_eq.trans h.commandsWritten_eq
  readerOpen_eq := h'.readerOpen_eq.trans h.readerOpen_eq
  events_isPrefix := h.events_isPrefix.trans h'.events_isPrefix

/-- A line is read. -/
theorem takeLine (p : Pipe) (line : List UInt8) : p.ReadsOn (p.takeLine line) := by
  cases p.takesLine line with
  | blank _ _ heq | malformed _ _ heq =>
    rw [heq]
    exact ⟨rfl, rfl, rfl, rfl, List.prefix_rfl⟩
  | event event _ _ heq =>
    rw [heq]
    exact ⟨rfl, rfl, rfl, rfl, List.prefix_append _ _⟩

/-- A byte is read. -/
theorem readByte (p : Pipe) (b : UInt8) : p.ReadsOn (p.readByte b) := by
  unfold Pipe.readByte
  split
  · exact (takeLine p p.line.reverse).trans ⟨rfl, rfl, rfl, rfl, List.prefix_rfl⟩
  · exact ⟨rfl, rfl, rfl, rfl, List.prefix_rfl⟩

/-- Bytes are read. -/
theorem readBytes (p : Pipe) (bytes : List UInt8) : p.ReadsOn (bytes.foldl Pipe.readByte p) := by
  induction bytes generalizing p with
  | nil => exact refl p
  | cons b bytes ih => exact (readByte p b).trans (ih (p.readByte b))

end ReadsOn

/-! ## One step -/

/-- What becomes of the pipe when something happens. -/
inductive Steps (p : Pipe) : PipeStep → Pipe → Prop where
  | ended (step : PipeStep) (done : p.status ≠ .running) : p.Steps step p
  | input (bytes : List UInt8) (running : p.status = .running) :
      p.Steps (.input bytes) (bytes.foldl readByte p)
  | inputEnds (running : p.status = .running) :
      p.Steps .inputEnds { p.takeLine p.line.reverse with line := [], status := .closed }
  | write (command : Command) (running : p.status = .running) (isOpen : p.readerOpen = true) :
      p.Steps (.command command)
        { p with
          written := p.written ++ command.line
          stats.commandsWritten := p.stats.commandsWritten + 1 }
  | breaks (command : Command) (running : p.status = .running) (isGone : p.readerOpen = false) :
      p.Steps (.command command) { p with status := .broken }
  | outputCloses (running : p.status = .running) : p.Steps .outputCloses { p with readerOpen := false }
  | commandsEnd (running : p.status = .running) : p.Steps .commandsEnd { p with status := .closed }
  | stop (running : p.status = .running) : p.Steps .stop { p with status := .closed }

/-- At the end, what is held is taken as a line; nothing at all is a blank one. -/
theorem readEnd_eq (p : Pipe) :
    p.readEnd = { p.takeLine p.line.reverse with line := [], status := .closed } := by
  obtain ⟨stats, line, events, written, readerOpen, status⟩ := p
  cases line <;> rfl

namespace Steps

variable {p p' : Pipe} {step : PipeStep}

/-- Nothing else becomes of it. -/
theorem eq (h : p.Steps step p') : p.step step = p' := by
  cases h with
  | ended _ hover =>
    unfold Pipe.step
    split
    · next hrunning => exact absurd hrunning hover
    · rfl
  | input bytes hrunning => simp only [Pipe.step, hrunning]
  | inputEnds hrunning => simp only [Pipe.step, hrunning, readEnd_eq]
  | write command hrunning hopen => simp only [Pipe.step, hrunning, Pipe.write, hopen, if_true]
  | breaks command hrunning hgone =>
    simp only [Pipe.step, hrunning, Pipe.write, hgone, Bool.false_eq_true, if_false]
  | outputCloses hrunning | commandsEnd hrunning | stop hrunning => simp only [Pipe.step, hrunning]

/-- No event that was read is lost. -/
theorem events_isPrefix (h : p.Steps step p') : p.events <+: p'.events := by
  cases h with
  | input bytes => exact (ReadsOn.readBytes p bytes).events_isPrefix
  | inputEnds => exact (ReadsOn.takeLine p p.line.reverse).events_isPrefix
  | ended | write | breaks | outputCloses | commandsEnd | stop => exact List.prefix_rfl

end Steps

/-- Something becomes of the pipe, whatever happens. -/
theorem steps (p : Pipe) (step : PipeStep) : p.Steps step (p.step step) := by
  suffices hsteps : ∃ p', p.Steps step p' by
    obtain ⟨p', h⟩ := hsteps
    exact h.eq ▸ h
  by_cases hrunning : p.status = .running
  · cases step with
    | input bytes => exact ⟨_, .input bytes hrunning⟩
    | inputEnds => exact ⟨_, .inputEnds hrunning⟩
    | command command =>
      cases hopen : p.readerOpen with
      | true => exact ⟨_, .write command hrunning hopen⟩
      | false => exact ⟨_, .breaks command hrunning hopen⟩
    | outputCloses => exact ⟨_, .outputCloses hrunning⟩
    | commandsEnd => exact ⟨_, .commandsEnd hrunning⟩
    | stop => exact ⟨_, .stop hrunning⟩
  · exact ⟨p, .ended step hrunning⟩

/-! ## The lines taken -/

/-- What has come through the pipe is what the lines are. -/
structure Took (p : Pipe) (lines : List (List UInt8)) : Prop where
  events_eq : p.events = lines.filterMap Event.ofLine?
  eventsRead_eq : p.stats.eventsRead = UInt64.ofNat p.events.length
  linesSkipped_eq : p.stats.linesSkipped = UInt64.ofNat (lines.countP (IsMalformed ·))

namespace Took

variable {p : Pipe} {lines : List (List UInt8)}

/-- Another line is taken. -/
theorem takeLine (h : p.Took lines) (line : List UInt8) : (p.takeLine line).Took (lines ++ [line]) := by
  cases p.takesLine line with
  | blank hnone hwell heq =>
    rw [heq]
    constructor
    · rw [List.filterMap_append, List.filterMap_cons_none hnone, List.filterMap_nil, List.append_nil]
      exact h.events_eq
    · exact h.eventsRead_eq
    · rw [List.countP_append, List.countP_singleton, decide_eq_false hwell]
      exact h.linesSkipped_eq
  | event event hsome hwell heq =>
    rw [heq]
    constructor
    · rw [List.filterMap_append, List.filterMap_cons_some hsome, List.filterMap_nil]
      exact congrArg (· ++ [event]) h.events_eq
    · show p.stats.eventsRead + 1 = UInt64.ofNat (p.events ++ [event]).length
      rw [h.eventsRead_eq, List.length_append, List.length_singleton, UInt64.ofNat_add]
      rfl
    · rw [List.countP_append, List.countP_singleton, decide_eq_false hwell]
      exact h.linesSkipped_eq
  | malformed hnone hmalformed heq =>
    rw [heq]
    constructor
    · rw [List.filterMap_append, List.filterMap_cons_none hnone, List.filterMap_nil, List.append_nil]
      exact h.events_eq
    · exact h.eventsRead_eq
    · show p.stats.linesSkipped + 1 = _
      rw [List.countP_append, List.countP_singleton, decide_eq_true hmalformed, h.linesSkipped_eq]
      exact (UInt64.ofNat_add _ _).symm

/-- Taking no part in what is read changes nothing. -/
theorem of_eq (h : p.Took lines) {p' : Pipe} (hevents : p'.events = p.events)
    (hread : p'.stats.eventsRead = p.stats.eventsRead)
    (hskipped : p'.stats.linesSkipped = p.stats.linesSkipped) : p'.Took lines := by
  constructor
  · rw [hevents, h.events_eq]
  · rw [hread, hevents, h.eventsRead_eq]
  · rw [hskipped, h.linesSkipped_eq]

end Took

/-- The pipe has taken the lines, which are what it has heard up to the last line feed, and holds the
start of the next one. -/
structure Reads (p : Pipe) (heard : List UInt8) (lines : List (List UInt8)) : Prop where
  took : p.Took lines
  heard_eq : heard = lines.flatMap (· ++ [0x0a]) ++ p.line.reverse
  lines_whole : ∀ line ∈ lines, 0x0a ∉ line
  line_open : 0x0a ∉ p.line

namespace Reads

variable {p : Pipe} {heard : List UInt8} {lines : List (List UInt8)}

/-- The lines are those between the line feeds, but for the last. -/
theorem splitOn_eq (h : p.Reads heard lines) : heard.splitOn 0x0a = lines ++ [p.line.reverse] := by
  rw [h.heard_eq]
  exact splitOn_flatMap_append h.lines_whole (mt List.mem_reverse.mp h.line_open)

/-- Nothing is held where a line begins. -/
theorem line_eq_nil (h : p.Reads heard lines) (hbegins : heard = [] ∨ heard.getLast? = some 0x0a) :
    p.line = [] := by
  cases hline : p.line with
  | nil => rfl
  | cons b rest =>
    have hheard := h.heard_eq
    rw [hline, List.reverse_cons, ← List.append_assoc] at hheard
    rcases hbegins with hnil | hlast
    · exact absurd (hheard.symm.trans hnil) (List.append_ne_nil_of_right_ne_nil _ (List.cons_ne_nil _ _))
    · rw [hheard, List.getLast?_concat] at hlast
      refine absurd ?_ h.line_open
      rw [hline, Option.some.inj hlast]
      exact List.mem_cons_self

/-- A byte ends the line or goes on with it. -/
theorem readByte (h : p.Reads heard lines) (b : UInt8) :
    ∃ lines', (p.readByte b).Reads (heard ++ [b]) lines' := by
  unfold Pipe.readByte
  split
  · next heq =>
    subst heq
    refine ⟨lines ++ [p.line.reverse], ?_, ?_, ?_, List.not_mem_nil⟩
    · exact (h.took.takeLine p.line.reverse).of_eq rfl rfl rfl
    · rw [h.heard_eq, List.flatMap_append, List.flatMap_singleton, List.reverse_nil, List.append_nil,
        List.append_assoc]
    · refine List.forall_mem_append.mpr ⟨h.lines_whole, List.forall_mem_singleton.mpr ?_⟩
      exact mt List.mem_reverse.mp h.line_open
  · next hne =>
    refine ⟨lines, h.took.of_eq rfl rfl rfl, ?_, h.lines_whole, ?_⟩
    · rw [h.heard_eq, List.reverse_cons, List.append_assoc]
    · exact fun hmem => (List.mem_cons.mp hmem).elim (fun heq => hne heq.symm) h.line_open

/-- So do several bytes. -/
theorem readBytes (h : p.Reads heard lines) (bytes : List UInt8) :
    ∃ lines', (bytes.foldl Pipe.readByte p).Reads (heard ++ bytes) lines' := by
  induction bytes generalizing p heard lines with
  | nil => exact ⟨lines, by rw [List.append_nil]; exact h⟩
  | cons b bytes ih =>
    obtain ⟨more, hmore⟩ := h.readByte b
    obtain ⟨all, hall⟩ := ih hmore
    exact ⟨all, by rw [List.append_assoc] at hall; exact hall⟩

/-- At the end, the last line is taken too. -/
theorem readEnd (h : p.Reads heard lines) :
    { p.takeLine p.line.reverse with line := [], status := .closed }.Took (heard.splitOn 0x0a) := by
  rw [h.splitOn_eq]
  exact (h.took.takeLine p.line.reverse).of_eq rfl rfl rfl

end Reads

/-- The lines that can be told from what has been heard: all but the last, which may go on, unless the end
has come. -/
def linesOf (heard : List UInt8) (ended : Bool) : List (List UInt8) :=
  if ended then heard.splitOn 0x0a else (heard.splitOn 0x0a).dropLast

/-- The pipe has taken every line of what it has heard, and goes on reading only before the end. -/
structure Heard (p : Pipe) (heard : List UInt8) (ended : Bool) : Prop where
  took : p.Took (linesOf heard ended)
  reads : p.status = .running → ended = false ∧ ∃ lines, p.Reads heard lines

namespace Heard

variable {p : Pipe} {heard : List UInt8} {ended : Bool}

/-- A new pipe has heard nothing. -/
theorem start : ({} : Pipe).Heard [] false :=
  have took : ({} : Pipe).Took [] := ⟨rfl, rfl, rfl⟩
  ⟨took, fun _ => ⟨rfl, [], took, rfl, List.forall_mem_nil _, List.not_mem_nil⟩⟩

/-- The lines read before the end are those that can be told. -/
theorem of_reads {lines : List (List UInt8)} (h : p.Reads heard lines) : p.Heard heard false := by
  have hlines : linesOf heard false = lines := by
    show (heard.splitOn 0x0a).dropLast = lines
    rw [h.splitOn_eq, List.dropLast_concat]
  exact ⟨hlines ▸ h.took, fun _ => ⟨rfl, lines, h⟩⟩

/-- What does not read changes nothing. -/
theorem of_eq (h : p.Heard heard ended) {p' : Pipe} (hline : p'.line = p.line)
    (hevents : p'.events = p.events) (hread : p'.stats.eventsRead = p.stats.eventsRead)
    (hskipped : p'.stats.linesSkipped = p.stats.linesSkipped)
    (hstatus : p'.status = .running → p.status = .running) : p'.Heard heard ended := by
  refine ⟨h.took.of_eq hevents hread hskipped, fun hrunning => ?_⟩
  obtain ⟨hended, lines, htook, hheard, hwhole, hopen⟩ := h.reads (hstatus hrunning)
  exact ⟨hended, lines, htook.of_eq hevents hread hskipped, hline ▸ hheard, hwhole, hline ▸ hopen⟩

/-- Bytes are heard while the pipe runs. -/
theorem input (h : p.Heard heard ended) (bytes : List UInt8) :
    (p.step (.input bytes)).Heard (heard ++ if p.status = .running then bytes else []) ended := by
  by_cases hrunning : p.status = .running
  · obtain ⟨rfl, lines, hlines⟩ := h.reads hrunning
    obtain ⟨more, hmore⟩ := hlines.readBytes bytes
    rw [if_pos hrunning, (Steps.input bytes hrunning).eq]
    exact of_reads hmore
  · rw [if_neg hrunning, List.append_nil, (Steps.ended _ hrunning).eq]
    exact h

/-- The end is met while the pipe runs. -/
theorem inputEnds (h : p.Heard heard ended) :
    (p.step .inputEnds).Heard heard (ended || decide (p.status = .running)) := by
  by_cases hrunning : p.status = .running
  · obtain ⟨rfl, lines, hlines⟩ := h.reads hrunning
    rw [decide_eq_true hrunning, (Steps.inputEnds hrunning).eq]
    exact ⟨hlines.readEnd, PipeStatus.noConfusion⟩
  · rw [decide_eq_false hrunning, Bool.or_false, (Steps.ended _ hrunning).eq]
    exact h

/-- Commands, what becomes of the writing end and requests to stop are nothing that is heard. -/
theorem other (h : p.Heard heard ended) {step : PipeStep} (hinput : ∀ bytes, step ≠ .input bytes)
    (hend : step ≠ .inputEnds) : (p.step step).Heard heard ended := by
  have hsteps := p.steps step
  generalize p.step step = p' at hsteps ⊢
  cases hsteps with
  | ended => exact h
  | input bytes => exact absurd rfl (hinput bytes)
  | inputEnds => exact absurd rfl hend
  | write _ hrunning | breaks _ hrunning | outputCloses hrunning | commandsEnd hrunning | stop hrunning =>
    exact h.of_eq rfl rfl rfl rfl fun _ => hrunning

end Heard

/-! ## A malformed line -/

/-- What is made of a line does not depend on how many lines were skipped before. -/
theorem takeLine_skipOne (p : Pipe) (line : List UInt8) :
    p.skipOne.takeLine line = (p.takeLine line).skipOne := by
  unfold takeLine
  split
  · rfl
  · split <;> rfl

/-- Nor does what is made of a byte. -/
theorem readByte_skipOne (p : Pipe) (b : UInt8) : p.skipOne.readByte b = (p.readByte b).skipOne := by
  unfold readByte
  split
  · exact congrArg (fun q : Pipe => { q with line := [] }) (p.takeLine_skipOne p.line.reverse)
  · rfl

/-- Nor does what is made of bytes. -/
theorem readBytes_skipOne (p : Pipe) (bytes : List UInt8) :
    bytes.foldl readByte p.skipOne = (bytes.foldl readByte p).skipOne := by
  induction bytes generalizing p with
  | nil => rfl
  | cons b bytes ih => rw [List.foldl_cons, readByte_skipOne, ih, List.foldl_cons]

/-- Nor does anything that happens. -/
theorem Steps.skipOne {p p' : Pipe} {step : PipeStep} (h : p.Steps step p') :
    p.skipOne.Steps step p'.skipOne := by
  cases h with
  | ended step hover => exact .ended step hover
  | input bytes hrunning => exact readBytes_skipOne p bytes ▸ .input bytes hrunning
  | inputEnds hrunning =>
    have hend : p.skipOne.Steps .inputEnds _ := .inputEnds hrunning
    rw [takeLine_skipOne] at hend
    exact hend
  | write command hrunning hopen => exact .write command hrunning hopen
  | breaks command hrunning hgone => exact .breaks command hrunning hgone
  | outputCloses hrunning => exact .outputCloses hrunning
  | commandsEnd hrunning => exact .commandsEnd hrunning
  | stop hrunning => exact .stop hrunning

/-- Bytes without a line feed go on with the line. -/
theorem readBytes_of_not_mem (p : Pipe) {bytes : List UInt8} (h : 0x0a ∉ bytes) :
    bytes.foldl readByte p = { p with line := bytes.reverse ++ p.line } := by
  induction bytes generalizing p with
  | nil => rfl
  | cons b bytes ih =>
    obtain ⟨hb, hbytes⟩ := List.ne_and_not_mem_of_not_mem_cons h
    rw [List.foldl_cons, readByte, if_neg hb.symm, ih _ hbytes, List.reverse_cons, List.append_assoc]
    rfl

/-- A malformed line is skipped. -/
theorem takeLine_of_isMalformed (p : Pipe) {line : List UInt8} (h : IsMalformed line) :
    p.takeLine line = p.skipOne := by
  cases p.takesLine line with
  | malformed _ _ heq => exact heq
  | blank _ hwell | event _ _ hwell => exact absurd h hwell

/-- A malformed line with its line feed, read where a line begins, is skipped. -/
theorem readBytes_malformed {p : Pipe} (hline : p.line = []) {bad : List UInt8} (hbad : IsMalformed bad)
    (hwhole : 0x0a ∉ bad) : (bad ++ [0x0a]).foldl readByte p = p.skipOne := by
  rw [List.foldl_append, p.readBytes_of_not_mem hwhole, hline, List.append_nil, List.foldl_cons,
    List.foldl_nil, readByte, if_pos rfl, List.reverse_reverse, takeLine_of_isMalformed _ hbad, ← hline]
  rfl

/-- A malformed line read as the last one, without a line feed, is skipped. -/
theorem step_inputEnds_malformed {p : Pipe} (hrunning : p.status = .running) {bad : List UInt8}
    (hbad : IsMalformed bad) (hwhole : 0x0a ∉ bad) :
    ((0x0a :: bad).foldl readByte p).step .inputEnds = (p.step .inputEnds).skipOne := by
  have hstill := (ReadsOn.readBytes p (0x0a :: bad)).status_eq.trans hrunning
  rw [(Steps.inputEnds hstill).eq, (Steps.inputEnds hrunning).eq, List.foldl_cons,
    readBytes_of_not_mem _ hwhole, readByte, if_pos rfl, List.append_nil, List.reverse_reverse,
    takeLine_of_isMalformed _ hbad]
  rfl

end Pipe

end DaemonBridge
