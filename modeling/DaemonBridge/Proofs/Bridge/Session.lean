import DaemonBridge.Proofs.Bridge.Callers

/-!
# The task that runs a bridge

A step of a run is done at once, while the task that runs a bridge goes about it in parts, and others do
something in between: a tick takes an event off the queue, handles it and marks it as done, and the end of
a run closes the line, turns away those who still stand in it one after the other, and then returns. A
question is answered only in between two turns of the task. `Session` is the run with the station of its
task; done without a break, the parts make up the steps (`Session.perform_tick`, `Session.perform_finish`).
-/

namespace DaemonBridge

/-- Where the task that runs a bridge stands. -/
inductive Station where
  /-- In between two turns, or outside of the run. -/
  | free
  /-- It has taken an event off the queue. -/
  | taken (event : Event)
  /-- It has handled the event. -/
  | handled
  /-- It has closed the line, and turns away those who stand in it. -/
  | draining
  deriving DecidableEq, Repr

/-- A run and the station of its task. -/
structure Session where
  run : Run
  station : Station := .free
  deriving DecidableEq, Repr

/-- Something that is done by the task, or around it by someone else. -/
inductive Deed where
  | around (activity : Activity)
  | begin
  | take
  | handle (store : Store) (runtime : Bool)
  | done
  | answer
  | close
  | drain
  | leave

/-- The activity is a part of the task itself. -/
def Activity.isTask (activity : Activity) : Bool :=
  match activity.step? with
  | none | some (.call _) | some (.enter _) | some .requestStop => false
  | some .begin | some (.tick ..) | some .answer | some .finish => true

/-- Turn away the caller at the head of the line. -/
def Run.dismissNext (r : Run) : Run :=
  match r.line with
  | [] => r
  | caller :: rest => { r.setStage caller .turnedAway with line := rest }

namespace Session

/-- A session of a bridge that has not begun. -/
def ofBridge (bridge : Bridge) : Session :=
  { run := .ofBridge bridge }

/-- Let something be done. The task does only what is next at its station, and nobody does its part. -/
def step (s : Session) : Deed → Session
  | .around activity => if activity.isTask then s else { s with run := s.run.act activity }
  | .begin => if s.station = .free then { s with run := s.run.step .begin } else s
  | .take =>
    match s.station, s.run.bridge.inbound.next? with
    | .free, some (event, inbound) =>
      { run := s.run.withBridge { s.run.bridge with inbound := inbound }, station := .taken event }
    | _, _ => s
  | .handle store runtime =>
    match s.station with
    | .taken event =>
      { run := s.run.withBridge (s.run.bridge.handle store runtime event), station := .handled }
    | _ => s
  | .done =>
    if s.station = .handled then
      { run := s.run.withBridge { s.run.bridge with inbound := s.run.bridge.inbound.taskDone } }
    else s
  | .answer => if s.station = .free then { s with run := s.run.step .answer } else s
  | .close =>
    if s.station = .free ∧ s.run.phase = .running ∧ s.run.stopRequested then
      { run := { s.run with phase := .over }, station := .draining }
    else s
  | .drain => if s.station = .draining then { s with run := s.run.dismissNext } else s
  | .leave => if s.station = .draining ∧ s.run.line = [] then { s with station := .free } else s

/-- Let things be done one after the other. -/
def perform (s : Session) (deeds : List Deed) : Session :=
  deeds.foldl step s

/-- The run has returned. -/
def Returned (s : Session) : Prop :=
  s.run.phase = .over ∧ s.station = .free

/-- What has been done in two parts has been done. -/
theorem perform_append (s : Session) (earlier later : List Deed) :
    s.perform (earlier ++ later) = (s.perform earlier).perform later :=
  List.foldl_append

/-! ## The parts make up the steps -/

/-- The parts of a tick, done without a break, are a tick. -/
theorem perform_tick {s : Session} (hfree : s.station = .free) (store : Store) (runtime : Bool) :
    s.perform [.take, .handle store runtime, .done] =
      { s with run := s.run.step (.tick store runtime) } := by
  obtain ⟨run, station⟩ := s
  obtain rfl : station = .free := hfree
  simp only [perform, List.foldl_cons, List.foldl_nil, step]
  cases hnext : run.bridge.inbound.next? with
  | none => simp [Run.step, Bridge.tick, hnext]
  | some next =>
    obtain ⟨event, inbound⟩ := next
    simp [Run.step, Bridge.tick, hnext, Run.withBridge]

/-- Bringing callers to a stage one after the other brings each of them there. -/
theorem getElem?_foldl_modify {α : Type} {f : α → α} (hf : ∀ a, f (f a) = f a) (line : List Nat)
    (calls : List α) (i : Nat) :
    (line.foldl (fun calls caller => calls.modify caller f) calls)[i]? =
      if i ∈ line then calls[i]?.map f else calls[i]? := by
  induction line generalizing calls with
  | nil => simp
  | cons caller line ih =>
    rw [List.foldl_cons, ih, List.getElem?_modify]
    by_cases hsame : caller = i
    · subst hsame
      cases calls[caller]? <;> simp [hf]
    · have hmem : i ∈ caller :: line ↔ i ∈ line := by simp [Ne.symm hsame]
      simp [hsame, hmem]

/-- A task that drains the line turns away everyone in it. -/
theorem perform_drain (run : Run) :
    perform ⟨run, .draining⟩ (List.replicate run.line.length .drain) =
      ⟨{ run with
          calls := run.line.foldl (fun calls caller =>
            calls.modify caller fun call => { call with stage := .turnedAway }) run.calls
          line := [] }, .draining⟩ := by
  obtain ⟨bridge, phase, stopRequested, calls, line⟩ := run
  induction line generalizing calls with
  | nil => rfl
  | cons caller line ih => exact ih _

/-- The parts of the end of a run, done without a break, are its end. -/
theorem perform_finish {s : Session} (hfree : s.station = .free) (horderly : s.run.Orderly)
    (hrunning : s.run.phase = .running) (hstop : s.run.stopRequested = true) :
    s.perform (.close :: List.replicate s.run.line.length .drain ++ [.leave]) =
      { s with run := s.run.step .finish } := by
  obtain ⟨run, station⟩ := s
  obtain rfl : station = .free := hfree
  have hclose : step ⟨run, .free⟩ .close = ⟨{ run with phase := .over }, .draining⟩ :=
    if_pos ⟨rfl, hrunning, hstop⟩
  have hfinish : run.step .finish = run.finish := if_pos ⟨hrunning, hstop⟩
  rw [perform_append]
  show ((step ⟨run, .free⟩ .close).perform (List.replicate run.line.length .drain)).step .leave = _
  rw [hclose, hfinish]
  rw [show run.line.length = ({ run with phase := .over } : Run).line.length from rfl, perform_drain]
  have hcalls : run.line.foldl (fun calls caller =>
      calls.modify caller fun call => { call with stage := .turnedAway }) run.calls =
        run.finish.calls := by
    apply List.ext_getElem?
    intro i
    have hmap : run.finish.calls[i]? = (run.calls[i]?).map fun call =>
        if call.stage = .inLine then { call with stage := .turnedAway } else call := List.getElem?_map
    rw [getElem?_foldl_modify (f := fun call : Call => { call with stage := .turnedAway }) fun _ => rfl,
      hmap]
    cases hcall : run.calls[i]? with
    | none => simp
    | some call =>
      have hmem : i ∈ run.line ↔ call.stage = .inLine := by
        rw [horderly.mem_line_iff, hcall]
        exact ⟨fun ⟨_, h⟩ => congrArg Call.stage (Option.some.inj h),
          fun h => ⟨call.inquiry, by rw [← h]⟩⟩
      by_cases hline : call.stage = .inLine <;> simp [hmem, hline]
  simp only [step, hcalls]
  rfl

/-! ## What is kept -/

/-- The line is in order; the task drains it only after the run, and has drained it when it is done. -/
structure Sound (s : Session) : Prop where
  orderly : s.run.Orderly
  over_of_draining : s.station = .draining → s.run.phase = .over
  line_of_over : s.run.phase = .over → s.station ≠ .draining → s.run.line = []

/-- A session that has not begun is sound. -/
theorem sound_ofBridge (bridge : Bridge) : (ofBridge bridge).Sound where
  orderly := Run.orderly_ofBridge bridge
  over_of_draining := nofun
  line_of_over _ _ := rfl

namespace Sound

variable {s : Session}

/-- Another bridge makes no difference. -/
theorem withBridge (h : s.Sound) (bridge : Bridge) {station : Station} (hfrom : s.station ≠ .draining)
    (hto : station ≠ .draining) : Sound ⟨s.run.withBridge bridge, station⟩ where
  orderly := ⟨h.orderly.mem_line_iff, h.orderly.nodup⟩
  over_of_draining hdraining := absurd hdraining hto
  line_of_over hover _ := h.line_of_over hover hfrom

/-- The end of a run keeps the task from the line until it is drained. -/
theorem close (h : s.Sound) : (s.step .close).Sound := by
  simp only [step]
  split
  · exact ⟨⟨h.orderly.mem_line_iff, h.orderly.nodup⟩, fun _ => rfl, fun _ hnot => absurd rfl hnot⟩
  · exact h

/-- Whoever is turned away leaves the line. -/
theorem drain (h : s.Sound) : (s.step .drain).Sound := by
  simp only [step]
  split
  · next hdraining =>
    have hover := h.over_of_draining hdraining
    unfold Run.dismissNext
    cases hline : s.run.line with
    | nil => exact h
    | cons caller rest =>
      exact ⟨h.orderly.leave hline CallStage.noConfusion, fun _ => hover, fun _ hnot => absurd hdraining hnot⟩
  · exact h

/-- The task is done with an empty line. -/
theorem leave (h : s.Sound) : (s.step .leave).Sound := by
  simp only [step]
  split
  · next hdone => exact ⟨h.orderly, Station.noConfusion, fun _ _ => hdone.2⟩
  · exact h

end Sound

end Session

/-- A step that does not end the run leaves one over only if it was, and then leaves the line alone. -/
theorem Run.line_step_of_over {r : Run} {step : RunStep} (hstep : step ≠ .finish)
    (hover : (r.step step).phase = .over) : r.phase = .over ∧ (r.step step).line = r.line := by
  cases step with
  | call | requestStop | tick => exact ⟨hover, rfl⟩
  | finish => exact absurd rfl hstep
  | enter caller =>
    rcases r.enter_cases caller with heq | ⟨_, -, ⟨hwas, heq⟩ | ⟨hnot, heq⟩⟩
    · exact ⟨heq ▸ hover, congrArg Run.line heq⟩
    · exact ⟨hwas, (congrArg Run.line heq :)⟩
    · have hphase : (r.enter caller).phase = r.phase := (congrArg Run.phase heq :)
      exact absurd (hphase.symm.trans hover) hnot
  | begin =>
    by_cases hready : r.phase = .ready
    · rw [show r.step .begin = { r with phase := .running } from if_pos hready] at hover
      exact nomatch hover
    · have heq : r.step .begin = r := if_neg hready
      exact ⟨heq ▸ hover, congrArg Run.line heq⟩
  | answer =>
    by_cases hrunning : r.phase = .running
    · have heq : r.step .answer = r.answerNext := if_pos hrunning
      have hphase : r.answerNext.phase = r.phase := by
        unfold Run.answerNext
        split
        · rfl
        · split <;> rfl
      exact absurd (hover.symm.trans ((congrArg Run.phase heq).trans (hphase.trans hrunning))) (by decide)
    · have heq : r.step .answer = r := if_neg hrunning
      exact ⟨heq ▸ hover, congrArg Run.line heq⟩

namespace Session

namespace Sound

variable {s : Session}

/-- What does not end the run keeps a session sound. -/
theorem runStep (h : s.Sound) {step : RunStep} (hstep : step ≠ .finish) :
    Sound { s with run := s.run.step step } where
  orderly := h.orderly.step step
  over_of_draining hdraining := Run.phase_step (h.over_of_draining hdraining) step
  line_of_over hover hnot := by
    obtain ⟨hwas, hline⟩ := Run.line_step_of_over hstep hover
    exact hline.trans (h.line_of_over hwas hnot)

/-- So does whatever is done around the task. -/
theorem around (h : s.Sound) (activity : Activity) : (s.step (.around activity)).Sound := by
  simp only [Session.step]
  split
  · exact h
  · next htask =>
    cases hstep : activity.step? with
    | none =>
      obtain ⟨bridge, heq⟩ := s.run.act_of_no_step hstep
      rw [heq]
      exact ⟨⟨h.orderly.mem_line_iff, h.orderly.nodup⟩, h.over_of_draining, h.line_of_over⟩
    | some step =>
      rw [Run.act_of_step? _ hstep]
      refine h.runStep ?_
      rintro rfl
      exact htask (by rw [Activity.isTask, hstep])

/-- Whatever is done, a session stays sound. -/
theorem step (h : s.Sound) (deed : Deed) : (s.step deed).Sound := by
  cases deed with
  | around activity => exact h.around activity
  | close => exact h.close
  | drain => exact h.drain
  | leave => exact h.leave
  | begin | answer =>
    simp only [Session.step]
    split
    · exact h.runStep RunStep.noConfusion
    · exact h
  | take =>
    simp only [Session.step]
    split
    · next hfree _ => exact h.withBridge _ (hfree ▸ Station.noConfusion) Station.noConfusion
    · exact h
  | handle store runtime =>
    simp only [Session.step]
    split
    · next hevent => exact h.withBridge _ (hevent ▸ Station.noConfusion) Station.noConfusion
    · exact h
  | done =>
    simp only [Session.step]
    split
    · next hhandled => exact h.withBridge _ (hhandled ▸ Station.noConfusion) Station.noConfusion
    · exact h

/-- A session stays sound for good. -/
theorem perform (h : s.Sound) (deeds : List Deed) : (s.perform deeds).Sound := by
  induction deeds generalizing s with
  | nil => exact h
  | cons deed rest ih => exact ih (h.step deed)

end Sound

/-! ## One caller -/

/-- What may become of a caller with a question when something is done. -/
inductive Becomes (s : Session) (deed : Deed) (inquiry : Inquiry) : CallStage → CallStage → Prop
  | stays (stage : CallStage) : Becomes s deed inquiry stage stage
  | enters : Becomes s deed inquiry .waitsForRoom .inLine
  | turnedAway {stage : CallStage} (isOpen : stage.isOpen = true) (isOver : (s.step deed).run.phase = .over) :
    Becomes s deed inquiry stage .turnedAway
  | answered (isAnswer : deed = .answer) (isFree : s.station = .free) (isRunning : s.run.phase = .running) :
    Becomes s deed inquiry .inLine (.answered (s.run.bridge.cache.answer inquiry))

variable {s : Session} {caller : Nat} {inquiry : Inquiry} {stage : CallStage}

/-- A step of the run that is done makes of a caller what it makes in the run. -/
theorem Sound.call_runStep (h : s.Sound) (hcall : s.run.calls[caller]? = some ⟨inquiry, stage⟩) {deed : Deed}
    {step : RunStep} (hdeed : s.step deed = { s with run := s.run.step step })
    (hanswer : step = .answer → deed = .answer ∧ s.station = .free) :
    ∃ next, (s.step deed).run.calls[caller]? = some ⟨inquiry, next⟩ ∧ s.Becomes deed inquiry stage next := by
  obtain ⟨next, hnext, hbecomes⟩ := h.orderly.call_step hcall step
  refine ⟨next, by rw [hdeed]; exact hnext, ?_⟩
  cases hbecomes with
  | stays => exact .stays stage
  | enters => exact .enters
  | turnedAway hopen hover => exact .turnedAway hopen (by rw [hdeed]; exact hover)
  | answered heq hrunning => exact .answered (hanswer heq).1 (hanswer heq).2 hrunning

/-- Nothing becomes of a caller of whom nothing is done. -/
theorem exists_stays (hcall : s.run.calls[caller]? = some ⟨inquiry, stage⟩) {deed : Deed}
    (hcalls : (s.step deed).run.calls = s.run.calls) :
    ∃ next, (s.step deed).run.calls[caller]? = some ⟨inquiry, next⟩ ∧ s.Becomes deed inquiry stage next :=
  ⟨stage, by rw [hcalls]; exact hcall, .stays stage⟩

/-- A task that drains the line may turn a caller away. -/
theorem Sound.call_drain (h : s.Sound) (hcall : s.run.calls[caller]? = some ⟨inquiry, stage⟩) :
    ∃ next, (s.step .drain).run.calls[caller]? = some ⟨inquiry, next⟩ ∧
      s.Becomes .drain inquiry stage next := by
  by_cases hdraining : s.station = .draining
  · have hstep : s.step .drain = { s with run := s.run.dismissNext } := if_pos hdraining
    cases hline : s.run.line with
    | nil => exact exists_stays hcall (by simp only [hstep, Run.dismissNext, hline])
    | cons head rest =>
      obtain ⟨asked, hhead⟩ := (h.orderly.mem_line_iff head).mp (hline ▸ List.mem_cons_self)
      have hrun : (s.step .drain).run = { s.run.setStage head .turnedAway with line := rest } := by
        simp only [hstep, Run.dismissNext, hline]
      have hcalls : (s.step .drain).run.calls[caller]? =
          (s.run.setStage head .turnedAway).calls[caller]? := by rw [hrun]
      rw [Run.getElem?_setStage, hcall] at hcalls
      by_cases hsame : head = caller
      · subst hsame
        obtain ⟨rfl, rfl⟩ := Call.mk.inj (Option.some.inj (hhead.symm.trans hcall))
        refine ⟨.turnedAway, by rw [hcalls, if_pos rfl]; rfl, .turnedAway rfl ?_⟩
        rw [hrun]
        exact h.over_of_draining hdraining
      · exact ⟨stage, by rw [hcalls, if_neg hsame], .stays stage⟩
  · have hstep : s.step .drain = s := if_neg hdraining
    exact exists_stays hcall (by rw [hstep])

/-- One of these things becomes of a caller, who keeps the question, whatever is done. -/
theorem Sound.call_step (h : s.Sound) (hcall : s.run.calls[caller]? = some ⟨inquiry, stage⟩) (deed : Deed) :
    ∃ next, (s.step deed).run.calls[caller]? = some ⟨inquiry, next⟩ ∧ s.Becomes deed inquiry stage next := by
  cases deed with
  | around activity =>
    cases htask : activity.isTask with
    | true =>
      have hstep : s.step (.around activity) = s := if_pos htask
      exact exists_stays hcall (by rw [hstep])
    | false =>
      have hdeed : s.step (.around activity) = { s with run := s.run.act activity } :=
        if_neg (ne_true_of_eq_false htask)
      cases hstep : activity.step? with
      | none =>
        obtain ⟨bridge, heq⟩ := s.run.act_of_no_step hstep
        exact exists_stays hcall (by rw [hdeed, heq]; rfl)
      | some step =>
        rw [Run.act_of_step? _ hstep] at hdeed
        refine h.call_runStep hcall hdeed ?_
        rintro rfl
        rw [Activity.isTask, hstep] at htask
        exact nomatch htask
  | begin =>
    by_cases hfree : s.station = .free
    · exact h.call_runStep hcall (if_pos hfree) RunStep.noConfusion
    · exact exists_stays hcall (by rw [show s.step .begin = s from if_neg hfree])
  | answer =>
    by_cases hfree : s.station = .free
    · exact h.call_runStep hcall (if_pos hfree) fun _ => ⟨rfl, hfree⟩
    · exact exists_stays hcall (by rw [show s.step .answer = s from if_neg hfree])
  | take | handle | done | close | leave =>
    refine exists_stays hcall ?_
    simp only [Session.step]
    split <;> rfl
  | drain => exact h.call_drain hcall

/-- What a caller with a question knows after some deeds: nothing yet, or that the run is over, or the
answer from the cache of a moment at which the running task answered it in between two turns. -/
inductive Knows (asked : Session) (caller : Nat) (deeds : List Deed) (inquiry : Inquiry) :
    CallStage → Prop
  | nothing {stage : CallStage} (isOpen : stage.isOpen = true) : Knows asked caller deeds inquiry stage
  | ended (isOver : (asked.perform deeds).run.phase = .over) :
    Knows asked caller deeds inquiry .turnedAway
  | answer (before after : List Deed) (split : deeds = before ++ .answer :: after)
    (isFree : (asked.perform before).station = .free) (isRunning : (asked.perform before).run.phase = .running)
    (isOpen : (asked.perform before).run.outcome? caller = none)
    (isTold : (asked.perform (before ++ [.answer])).run.outcome? caller =
      some (some ((asked.perform before).run.bridge.cache.answer inquiry))) :
    Knows asked caller deeds inquiry (.answered ((asked.perform before).run.bridge.cache.answer inquiry))

/-- A run that is over stays over. -/
theorem over_step (hover : s.run.phase = .over) (deed : Deed) : (s.step deed).run.phase = .over := by
  cases deed with
  | around activity =>
    simp only [step]
    split
    · exact hover
    · cases hstep : activity.step? with
      | none =>
        obtain ⟨bridge, heq⟩ := s.run.act_of_no_step hstep
        rw [heq]
        exact hover
      | some step =>
        rw [Run.act_of_step? _ hstep]
        exact Run.phase_step hover step
  | begin | answer =>
    simp only [step]
    split
    · exact Run.phase_step hover _
    · exact hover
  | take | handle | done | leave =>
    simp only [step]
    split <;> exact hover
  | close =>
    simp only [step]
    split
    · rfl
    · exact hover
  | drain =>
    simp only [step, Run.dismissNext]
    split
    · split <;> exact hover
    · exact hover

/-- It does so for good. -/
theorem over_perform (hover : s.run.phase = .over) (deeds : List Deed) :
    (s.perform deeds).run.phase = .over := by
  induction deeds generalizing s with
  | nil => exact hover
  | cons deed rest ih => exact ih (over_step hover deed)

/-- A task that is done with the line does not come back to it. -/
theorem station_step (hover : s.run.phase = .over) (hstation : s.station ≠ .draining) (deed : Deed) :
    (s.step deed).station ≠ .draining := by
  cases deed with
  | around | begin | answer | drain =>
    simp only [step]
    split <;> exact hstation
  | take | handle | done | leave =>
    simp only [step]
    split <;> first | exact hstation | exact Station.noConfusion
  | close =>
    have hrunning : ¬ (s.station = .free ∧ s.run.phase = .running ∧ s.run.stopRequested) :=
      fun h => nomatch hover.symm.trans h.2.1
    rw [show s.step .close = s from if_neg hrunning]
    exact hstation

/-- A caller who has been told something is told nothing else. -/
theorem Becomes.eq_of_told {deed : Deed} {next : CallStage} (h : s.Becomes deed inquiry stage next)
    (htold : stage.isOpen = false) : next = stage := by
  cases h with
  | stays => rfl
  | enters | answered => exact nomatch htold
  | turnedAway hopen => exact nomatch hopen.symm.trans htold

/-- So it remains. -/
theorem Sound.call_of_told (h : s.Sound) (hcall : s.run.calls[caller]? = some ⟨inquiry, stage⟩)
    (htold : stage.isOpen = false) (deeds : List Deed) :
    (s.perform deeds).run.calls[caller]? = some ⟨inquiry, stage⟩ := by
  induction deeds generalizing s with
  | nil => exact hcall
  | cons deed rest ih =>
    obtain ⟨next, hnext, hbecomes⟩ := h.call_step hcall deed
    rw [hbecomes.eq_of_told htold] at hnext
    exact ih (h.step deed) hnext

/-- A caller who has come learns nothing but what can be known, whatever is done. -/
theorem Sound.knows (h : s.Sound) (hcall : s.run.calls[caller]? = some ⟨inquiry, .waitsForRoom⟩)
    (deeds : List Deed) :
    ∃ stage, (s.perform deeds).run.calls[caller]? = some ⟨inquiry, stage⟩ ∧
      Knows s caller deeds inquiry stage := by
  induction deeds using List.reverseRecOn with
  | nil => exact ⟨_, hcall, .nothing rfl⟩
  | append_singleton deeds deed ih =>
    obtain ⟨stage, hstage, hknows⟩ := ih
    obtain ⟨next, hnext, hbecomes⟩ := (h.perform deeds).call_step hstage deed
    have hlast : s.perform (deeds ++ [deed]) = (s.perform deeds).step deed := s.perform_append deeds [deed]
    refine ⟨next, by rw [hlast]; exact hnext, ?_⟩
    cases hbecomes with
    | stays =>
      cases hknows with
      | nothing hopen => exact .nothing hopen
      | ended hover => exact .ended (by rw [hlast]; exact over_step hover deed)
      | answer before after hsplit hfree hrunning hopen htold =>
        exact .answer before (after ++ [deed]) (by rw [hsplit, List.append_assoc]; rfl) hfree hrunning hopen
          htold
    | enters => exact .nothing rfl
    | turnedAway _ hover => exact .ended (by rw [hlast]; exact hover)
    | answered hanswer hfree hrunning =>
      refine .answer deeds [] (by rw [hanswer]) hfree hrunning (Run.outcome?_eq hstage) ?_
      rw [← hanswer, hlast]
      exact Run.outcome?_eq hnext

/-! ## After the run -/

/-- A caller who has been told nothing when the task is done with the line waits for room or is turned
away. -/
theorem Sound.call_of_over (h : s.Sound) (hover : s.run.phase = .over) (hstation : s.station ≠ .draining)
    (hcall : s.run.calls[caller]? = some ⟨inquiry, .waitsForRoom⟩) (deeds : List Deed) :
    (s.perform deeds).run.calls[caller]? = some ⟨inquiry, .waitsForRoom⟩ ∨
      (s.perform deeds).run.calls[caller]? = some ⟨inquiry, .turnedAway⟩ := by
  induction deeds generalizing s with
  | nil => exact .inl hcall
  | cons deed rest ih =>
    obtain ⟨next, hnext, hbecomes⟩ := h.call_step hcall deed
    have hsound := h.step deed
    have hlater := over_step hover deed
    have hdone := station_step hover hstation deed
    cases hbecomes with
    | stays => exact ih hsound hlater hdone hnext
    | enters =>
      have hmem := (hsound.orderly.mem_line_iff caller).mpr ⟨inquiry, hnext⟩
      rw [hsound.line_of_over hlater hdone] at hmem
      exact absurd hmem List.not_mem_nil
    | turnedAway => exact .inr (hsound.call_of_told hnext rfl rest)

/-- A caller who enters the line when the run is over is turned away. -/
theorem call_enter_of_over (hover : s.run.phase = .over)
    (hcall : s.run.calls[caller]? = some ⟨inquiry, .waitsForRoom⟩) :
    (s.step (.around (.occur (.run (.enter caller))))).run.calls[caller]? =
      some ⟨inquiry, .turnedAway⟩ := by
  show (s.run.enter caller).calls[caller]? = _
  simp only [Run.enter, hcall, hover, if_true, Run.getElem?_setStage]
  rfl

/-- Who has been told something is told nothing else. -/
theorem Sound.outcome?_perform (h : s.Sound) (hcall : s.run.calls[caller]? = some ⟨inquiry, stage⟩)
    {outcome : Option Finding} (htold : s.run.outcome? caller = some outcome) (more : List Deed) :
    (s.perform more).run.outcome? caller = some outcome := by
  rw [Run.outcome?_eq hcall] at htold
  have hclosed : stage.isOpen = false := by
    cases hstill : stage.isOpen with
    | false => rfl
    | true => exact nomatch (CallStage.told?_of_isOpen hstill).symm.trans htold
  exact (Run.outcome?_eq (h.call_of_told hcall hclosed more)).trans htold

/-- Once the run has returned, whoever has been told nothing is told nothing but that the run is over, and
that as soon as the caller goes on. -/
theorem Sound.outcome?_of_returned (h : s.Sound) (hreturned : s.Returned)
    (hcall : s.run.calls[caller]? = some ⟨inquiry, stage⟩) (hnone : s.run.outcome? caller = none)
    (more : List Deed) :
    ((s.perform more).run.outcome? caller = none ∨ (s.perform more).run.outcome? caller = some none) ∧
      (.around (.occur (.run (.enter caller))) ∈ more →
        (s.perform more).run.outcome? caller = some none) := by
  have hstation : s.station ≠ .draining := hreturned.2 ▸ Station.noConfusion
  have hwaits : stage = .waitsForRoom := by
    rw [Run.outcome?_eq hcall] at hnone
    cases stage with
    | waitsForRoom => rfl
    | inLine =>
      have hmem := (h.orderly.mem_line_iff caller).mpr ⟨inquiry, hcall⟩
      rw [h.line_of_over hreturned.1 hstation] at hmem
      exact absurd hmem List.not_mem_nil
    | answered | turnedAway => exact nomatch hnone
  subst hwaits
  constructor
  · rcases h.call_of_over hreturned.1 hstation hcall more with hstays | hturned
    · exact .inl (Run.outcome?_eq hstays)
    · exact .inr (Run.outcome?_eq hturned)
  · intro hmem
    obtain ⟨earlier, rest, rfl⟩ := List.append_of_mem hmem
    have hsound := h.perform earlier
    have hover := over_perform hreturned.1 earlier
    rw [s.perform_append]
    show (((s.perform earlier).step _).perform rest).run.outcome? caller = some none
    rcases h.call_of_over hreturned.1 hstation hcall earlier with hstays | hturned
    · exact Run.outcome?_eq ((hsound.step _).call_of_told (call_enter_of_over hover hstays) rfl rest)
    · exact Run.outcome?_eq (hsound.call_of_told hturned rfl (_ :: rest))

/-- The end of a run leaves its bridge alone, and with it the commands and the events that wait. -/
theorem bridge_step_of_stop {deed : Deed} (hdeed : deed = .close ∨ deed = .drain ∨ deed = .leave)
    (s : Session) : (s.step deed).run.bridge = s.run.bridge := by
  rcases hdeed with rfl | rfl | rfl
  · simp only [step]
    split <;> rfl
  · simp only [step, Run.dismissNext]
    split
    · split <;> rfl
    · rfl
  · simp only [step]
    split <;> rfl

/-- Every question is answered at most once, or its caller is turned away when the run ends.

A caller puts a question to a session at any moment, before, during or after its run, among any number of
others. Whatever is done afterwards, the caller has been told nothing, or that the run is over and nothing
else, or the answer of the cache to that question, as it stood at a moment after the call at which the running
task answered it in between two turns, when the caller had been told nothing yet. Who has been told something
is never told anything else.

Once the run has returned its line is empty, and a caller who has been told nothing by then is told that the
run is over, as soon as the caller goes on; before that the caller is told nothing, whatever is done.
Ending the run leaves the bridge alone, its commands and its events that wait, and a run that someone has asked
to stop returns when its task does what is next, as in one step of the run. -/
theorem answered_once_or_turned_away (bridge : Bridge) (before deeds : List Deed) (inquiry : Inquiry) :
    let s := (ofBridge bridge).perform before
    let caller := s.run.calls.length
    let asked := s.step (.around (.occur (.run (.call inquiry))))
    let later := asked.perform deeds
    (later.run.outcome? caller = none ∨
      (later.run.phase = .over ∧ later.run.outcome? caller = some none) ∨
      ∃ earlier after, deeds = earlier ++ .answer :: after ∧
        let answering := asked.perform earlier
        answering.station = .free ∧ answering.run.phase = .running ∧
          answering.run.outcome? caller = none ∧
          (answering.step .answer).run.outcome? caller =
            some (some (answering.run.bridge.cache.answer inquiry)) ∧
          later.run.outcome? caller = some (some (answering.run.bridge.cache.answer inquiry))) ∧
    (∀ outcome more, later.run.outcome? caller = some outcome →
      (later.perform more).run.outcome? caller = some outcome) ∧
    (later.Returned → later.run.line = [] ∧ ∀ more, later.run.outcome? caller = none →
      ((later.perform more).run.outcome? caller = none ∨
          (later.perform more).run.outcome? caller = some none) ∧
        (.around (.occur (.run (.enter caller))) ∈ more →
          (later.perform more).run.outcome? caller = some none)) ∧
    (∀ deed, deed = .close ∨ deed = .drain ∨ deed = .leave →
      (later.step deed).run.bridge = later.run.bridge) ∧
    (later.station = .free → later.run.phase = .running → later.run.stopRequested = true →
      let returned := later.perform (.close :: List.replicate later.run.line.length .drain ++ [.leave])
      returned.Returned ∧ returned.run = later.run.step .finish) := by
  intro s caller asked later
  have hsound : asked.Sound := ((sound_ofBridge bridge).perform before).step _
  have hlater : later.Sound := hsound.perform deeds
  have hcall : asked.run.calls[caller]? = some ⟨inquiry, .waitsForRoom⟩ := List.getElem?_concat_length
  obtain ⟨stage, hstage, hknows⟩ := hsound.knows hcall deeds
  have houtcome : later.run.outcome? caller = stage.told? := Run.outcome?_eq hstage
  refine ⟨?_, fun outcome more htold => hlater.outcome?_perform hstage htold more,
    fun hreturned => ⟨hlater.line_of_over hreturned.1 (hreturned.2 ▸ Station.noConfusion),
      fun more hnone => hlater.outcome?_of_returned hreturned hstage hnone more⟩,
    fun deed hdeed => bridge_step_of_stop hdeed later, fun hfree hrunning hstop => ?_⟩
  · cases hknows with
    | nothing hopen => exact .inl (houtcome.trans (CallStage.told?_of_isOpen hopen))
    | ended hover => exact .inr (.inl ⟨hover, houtcome⟩)
    | answer earlier after hsplit hfree hrunning hnone htold =>
      rw [asked.perform_append] at htold
      exact .inr (.inr ⟨earlier, after, hsplit, hfree, hrunning, hnone, htold, houtcome⟩)
  · intro returned
    have hfinish : returned = { later with run := later.run.step .finish } :=
      perform_finish hfree hlater.orderly hrunning hstop
    have hover : later.run.step .finish = later.run.finish := if_pos ⟨hrunning, hstop⟩
    rw [hfinish]
    exact ⟨⟨by rw [hover]; rfl, hfree⟩, rfl⟩

/-- For instance, a caller who is answered before the run is stopped keeps that answer, and one who does not
get into the line before the run has returned is turned away. -/
theorem answered_once_or_turned_away_late :
    let store : Store := ⟨fun _ => .ok [], .ok [], .error (.unavailable "disk gone")⟩
    let bridge : Bridge := .start {} store ⟨"recorder", .ok ⟨true⟩⟩
    let asked := ((ofBridge bridge).perform [.begin]).step (.around (.occur (.run (.call .servers))))
    let entering : Deed := .around (.occur (.run (.enter 0)))
    let stopping : Deed := .around (.occur (.run .requestStop))
    let told := asked.perform [entering, .answer, stopping]
    let late := asked.perform [stopping, .close, .leave]
    told.run.outcome? 0 = some (some (bridge.cache.answer .servers)) ∧
      (told.perform [.close, .leave]).Returned ∧
      (told.perform [.close, .leave]).run.outcome? 0 = some (some (bridge.cache.answer .servers)) ∧
      late.Returned ∧ late.run.outcome? 0 = none ∧ late.run.line = [] ∧
      (late.perform [entering]).run.outcome? 0 = some none := by
  intro store bridge asked entering stopping told late
  have htold : told.run.outcome? 0 = some (some (bridge.cache.answer .servers)) := rfl
  have hlate : late.Returned := ⟨rfl, rfl⟩
  obtain ⟨-, hkept, -, -, hreturns⟩ :=
    answered_once_or_turned_away bridge [.begin] [entering, .answer, stopping] .servers
  obtain ⟨-, -, hturned, -, -⟩ :=
    answered_once_or_turned_away bridge [.begin] [stopping, .close, .leave] .servers
  obtain ⟨hline, hover⟩ := hturned hlate
  exact ⟨htold, (hreturns rfl rfl rfl).1, hkept _ [.close, .leave] htold, hlate, rfl, hline,
    (hover [entering] rfl).2 List.mem_cons_self⟩

end Session

end DaemonBridge
