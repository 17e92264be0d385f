import DaemonBridge.Proofs.Bridge.Activity

/-!
# Callers and their answers

A question that is put to a run is answered at most once, from the cache of the moment at which the run
answers it, whoever else asks and whatever else is done; it is turned away only when the run is over. The
line holds exactly the callers who stand in it (`Run.Orderly`), so that no answer goes to another caller.
-/

namespace DaemonBridge

/-- The caller has been told nothing yet. -/
def CallStage.isOpen : CallStage → Bool
  | .waitsForRoom | .inLine => true
  | .answered _ | .turnedAway => false

/-- What a caller at a stage has been told. -/
def CallStage.told? : CallStage → Option (Option Finding)
  | .answered finding => some (some finding)
  | .turnedAway => some none
  | _ => none

/-- Whoever is not done yet has been told nothing. -/
theorem CallStage.told?_of_isOpen {stage : CallStage} (h : stage.isOpen = true) : stage.told? = none := by
  cases stage with
  | waitsForRoom | inLine => rfl
  | answered | turnedAway => exact nomatch h

namespace Run

/-! ## The line -/

/-- The line holds, each once, the callers who stand in it. -/
structure Orderly (r : Run) : Prop where
  mem_line_iff : ∀ caller, caller ∈ r.line ↔ ∃ inquiry, r.calls[caller]? = some ⟨inquiry, .inLine⟩
  nodup : r.line.Nodup

/-- A fresh run has no callers. -/
theorem orderly_ofBridge (bridge : Bridge) : (ofBridge bridge).Orderly where
  mem_line_iff _ := ⟨nofun, fun ⟨_, h⟩ => nomatch h⟩
  nodup := List.nodup_nil

/-- A caller who is brought to a stage keeps the question, and the others stay where they are. -/
theorem getElem?_setStage (r : Run) (caller other : Nat) (stage : CallStage) :
    (r.setStage caller stage).calls[other]? =
      if caller = other then r.calls[other]?.map fun call => { call with stage := stage }
      else r.calls[other]? := by
  rw [setStage, List.getElem?_modify]
  split
  · rfl
  · exact id_map _

variable {r : Run}

/-- One more caller has come. -/
theorem Orderly.call (h : r.Orderly) (inquiry : Inquiry) : (r.step (.call inquiry)).Orderly where
  mem_line_iff caller := by
    show caller ∈ r.line ↔ ∃ asked, (r.calls ++ [⟨inquiry, .waitsForRoom⟩])[caller]? = some ⟨asked, .inLine⟩
    rw [h.mem_line_iff]
    refine exists_congr fun asked => ?_
    rcases Nat.lt_or_ge caller r.calls.length with hlt | hge
    · rw [List.getElem?_append_left hlt]
    · rw [List.getElem?_append_right hge, List.getElem?_eq_none hge]
      refine ⟨nofun, fun hnew => ?_⟩
      have hmem := List.mem_of_getElem? hnew
      exact nomatch congrArg Call.stage (List.mem_singleton.mp hmem)
  nodup := h.nodup

/-- A caller enters the line, is turned away, or goes on waiting. -/
theorem enter_cases (r : Run) (caller : Nat) :
    r.enter caller = r ∨
    ∃ inquiry, r.calls[caller]? = some ⟨inquiry, .waitsForRoom⟩ ∧
      ((r.phase = .over ∧ r.enter caller = r.setStage caller .turnedAway) ∨
        (r.phase ≠ .over ∧
          r.enter caller = { r.setStage caller .inLine with line := r.line ++ [caller] })) := by
  unfold enter
  split
  · next inquiry hcall =>
    split
    · next hover => exact .inr ⟨inquiry, hcall, .inl ⟨hover, rfl⟩⟩
    · next hover =>
      split
      · exact .inr ⟨inquiry, hcall, .inr ⟨hover, rfl⟩⟩
      · exact .inl rfl
  · exact .inl rfl

/-- Nobody is answered, or the caller at the head of the line is. -/
theorem Orderly.answerNext_cases (h : r.Orderly) :
    (r.line = [] ∧ r.answerNext = r) ∨
    ∃ caller rest inquiry, r.line = caller :: rest ∧ r.calls[caller]? = some ⟨inquiry, .inLine⟩ ∧
      r.answerNext = { r.setStage caller (.answered (r.bridge.cache.answer inquiry)) with line := rest } := by
  cases hline : r.line with
  | nil => exact .inl ⟨rfl, by simp only [answerNext, hline]⟩
  | cons caller rest =>
    obtain ⟨inquiry, hcall⟩ := (h.mem_line_iff caller).mp (hline ▸ List.mem_cons_self)
    exact .inr ⟨caller, rest, inquiry, rfl, hcall, by simp only [answerNext, hline, hcall]⟩

/-- Entering keeps the line in order. -/
theorem Orderly.enter (h : r.Orderly) (caller : Nat) : (r.enter caller).Orderly := by
  rcases r.enter_cases caller with heq | ⟨inquiry, hcall, ⟨-, heq⟩ | ⟨-, heq⟩⟩
  · rwa [heq]
  · rw [heq]
    refine ⟨fun other => ?_, h.nodup⟩
    show other ∈ r.line ↔ _
    rw [h.mem_line_iff, getElem?_setStage]
    split
    · next hsame =>
      subst hsame
      simp [hcall]
    · rfl
  · rw [heq]
    have hnot : caller ∉ r.line := fun hmem => by
      obtain ⟨_, hline⟩ := (h.mem_line_iff caller).mp hmem
      exact nomatch hcall.symm.trans hline
    refine ⟨fun other => ?_, ?_⟩
    · show other ∈ r.line ++ [caller] ↔ ∃ asked, (r.setStage caller .inLine).calls[other]? = _
      rw [List.mem_append, List.mem_singleton, h.mem_line_iff, getElem?_setStage]
      split
      · next hsame =>
        subst hsame
        simp [hcall]
      · next hne => simp [Ne.symm hne]
    · exact h.nodup.append (List.nodup_singleton _) (List.disjoint_singleton.mpr hnot)

/-- The line stays in order when the caller at its head leaves it for good. -/
theorem Orderly.leave (h : r.Orderly) {caller : Nat} {rest : List Nat} (hline : r.line = caller :: rest)
    {stage : CallStage} (hstage : stage ≠ .inLine) :
    ({ r.setStage caller stage with line := rest } : Run).Orderly := by
  have hnodup := hline ▸ h.nodup
  obtain ⟨hnot, hrest⟩ := List.nodup_cons.mp hnodup
  refine ⟨fun other => ?_, hrest⟩
  show other ∈ rest ↔ ∃ asked, (r.setStage caller _).calls[other]? = _
  have hmem := h.mem_line_iff other
  rw [hline, List.mem_cons] at hmem
  rw [getElem?_setStage]
  split
  · next hsame =>
    subst hsame
    simp [hstage, hnot]
  · next hne => rw [← hmem, or_iff_right (Ne.symm hne)]

/-- Answering keeps the line in order. -/
theorem Orderly.answerNext (h : r.Orderly) : r.answerNext.Orderly := by
  rcases h.answerNext_cases with ⟨-, heq⟩ | ⟨caller, rest, inquiry, hline, -, heq⟩
  · rwa [heq]
  · rw [heq]
    exact h.leave hline CallStage.noConfusion

/-- Whatever happens in a run, its line stays in order. -/
theorem Orderly.step (h : r.Orderly) (step : RunStep) : (r.step step).Orderly := by
  cases step with
  | call inquiry => exact h.call inquiry
  | enter caller => exact h.enter caller
  | requestStop | tick => exact ⟨h.mem_line_iff, h.nodup⟩
  | begin =>
    simp only [Run.step]
    split
    · exact ⟨h.mem_line_iff, h.nodup⟩
    · exact h
  | answer =>
    simp only [Run.step]
    split
    · exact h.answerNext
    · exact h
  | finish =>
    simp only [Run.step]
    split
    · refine ⟨fun caller => ⟨fun hmem => absurd hmem List.not_mem_nil, fun hline => ?_⟩,
        List.nodup_nil⟩
      obtain ⟨asked, hcall⟩ := hline
      obtain ⟨call, -, hmap⟩ := List.mem_map.mp (List.mem_of_getElem? hcall)
      split at hmap
      · cases congrArg Call.stage hmap
      · next hstage => exact absurd (congrArg Call.stage hmap) hstage
    · exact h

/-- So does whatever anybody does. -/
theorem Orderly.act (h : r.Orderly) (activity : Activity) : (r.act activity).Orderly := by
  cases hstep : activity.step? with
  | some step =>
    rw [r.act_of_step? hstep]
    exact h.step step
  | none =>
    obtain ⟨bridge, heq⟩ := r.act_of_no_step hstep
    rw [heq]
    exact ⟨h.mem_line_iff, h.nodup⟩

/-- The line is in order after any number of activities. -/
theorem Orderly.actAll (h : r.Orderly) (activities : List Activity) : (r.actAll activities).Orderly := by
  induction activities generalizing r with
  | nil => exact h
  | cons activity rest ih => exact ih (h.act activity)

/-! ## One caller -/

/-- A run that is over stays over. -/
theorem phase_step (hover : r.phase = .over) (step : RunStep) : (r.step step).phase = .over := by
  cases step with
  | call | requestStop | tick => exact hover
  | enter caller =>
    show (r.enter caller).phase = .over
    rcases r.enter_cases caller with heq | ⟨_, -, ⟨-, heq⟩ | ⟨hnot, -⟩⟩
    · rwa [heq]
    · rw [heq]
      exact hover
    · exact absurd hover hnot
  | begin | answer => simp only [Run.step, hover, reduceCtorEq, if_false]
  | finish => simp only [Run.step, hover, reduceCtorEq, false_and, if_false]

/-- What may become of a caller with a question in a step of the run: the caller stays, enters the line,
is turned away by a run that is over, or is answered from the cache. -/
inductive Becomes (r : Run) (step : RunStep) (inquiry : Inquiry) : CallStage → CallStage → Prop
  | stays (stage : CallStage) : Becomes r step inquiry stage stage
  | enters : Becomes r step inquiry .waitsForRoom .inLine
  | turnedAway {stage : CallStage} (hopen : stage.isOpen = true) (hover : (r.step step).phase = .over) :
    Becomes r step inquiry stage .turnedAway
  | answered (hstep : step = .answer) (hrunning : r.phase = .running) :
    Becomes r step inquiry .inLine (.answered (r.bridge.cache.answer inquiry))

variable {caller : Nat} {inquiry : Inquiry} {stage : CallStage}

/-- When somebody enters the line, a caller may. -/
theorem call_enter (hcall : r.calls[caller]? = some ⟨inquiry, stage⟩) (other : Nat) :
    ∃ next, (r.enter other).calls[caller]? = some ⟨inquiry, next⟩ ∧
      r.Becomes (.enter other) inquiry stage next := by
  rcases r.enter_cases other with heq | ⟨asked, hother, hentered⟩
  · rw [heq]
    exact ⟨stage, hcall, .stays stage⟩
  · have hstage : ∀ next, (r.setStage other next).calls[caller]? =
        some ⟨inquiry, if other = caller then next else stage⟩ := by
      intro next
      rw [getElem?_setStage, hcall]
      split <;> rfl
    rcases hentered with ⟨hover, heq⟩ | ⟨-, heq⟩
    · refine ⟨_, by rw [heq]; exact hstage .turnedAway, ?_⟩
      split
      · next hsame =>
        subst hsame
        obtain ⟨rfl, rfl⟩ := Call.mk.inj (Option.some.inj (hother.symm.trans hcall))
        exact .turnedAway rfl (phase_step hover _)
      · exact .stays stage
    · refine ⟨_, by rw [heq]; exact hstage .inLine, ?_⟩
      split
      · next hsame =>
        subst hsame
        obtain ⟨rfl, rfl⟩ := Call.mk.inj (Option.some.inj (hother.symm.trans hcall))
        exact .enters
      · exact .stays stage

/-- When the run answers somebody, it may be a caller in the line. -/
theorem Orderly.call_answer (h : r.Orderly) (hrunning : r.phase = .running)
    (hcall : r.calls[caller]? = some ⟨inquiry, stage⟩) :
    ∃ next, r.answerNext.calls[caller]? = some ⟨inquiry, next⟩ ∧
      r.Becomes .answer inquiry stage next := by
  rcases h.answerNext_cases with ⟨-, heq⟩ | ⟨head, rest, asked, -, hhead, heq⟩
  · rw [heq]
    exact ⟨stage, hcall, .stays stage⟩
  · rw [heq]
    show ∃ next, (r.setStage head _).calls[caller]? = _ ∧ _
    rw [getElem?_setStage, hcall]
    split
    · next hsame =>
      subst hsame
      obtain ⟨rfl, rfl⟩ := Call.mk.inj (Option.some.inj (hhead.symm.trans hcall))
      exact ⟨_, rfl, .answered rfl hrunning⟩
    · exact ⟨stage, rfl, .stays stage⟩

/-- When the run ends, a caller in the line is turned away. -/
theorem call_finish (hcall : r.calls[caller]? = some ⟨inquiry, stage⟩) :
    ∃ next, r.finish.calls[caller]? = some ⟨inquiry, next⟩ ∧
      (next = stage ∨ stage = .inLine ∧ next = .turnedAway) := by
  have hmap : r.finish.calls[caller]? = (r.calls[caller]?).map fun call =>
      if call.stage = .inLine then { call with stage := .turnedAway } else call := List.getElem?_map
  rw [hmap, hcall, Option.map_some]
  split
  · next hline => exact ⟨.turnedAway, rfl, .inr ⟨hline, rfl⟩⟩
  · exact ⟨stage, rfl, .inl rfl⟩

/-- In every step of the run one of these things becomes of a caller, who keeps the question. -/
theorem Orderly.call_step (h : r.Orderly) (hcall : r.calls[caller]? = some ⟨inquiry, stage⟩)
    (step : RunStep) : ∃ next, (r.step step).calls[caller]? = some ⟨inquiry, next⟩ ∧
      r.Becomes step inquiry stage next := by
  cases step with
  | call other =>
    have hlt := (List.getElem?_eq_some_iff.mp hcall).1
    exact ⟨stage, (List.getElem?_append_left hlt).trans hcall, .stays stage⟩
  | enter other => exact call_enter hcall other
  | requestStop | tick => exact ⟨stage, hcall, .stays stage⟩
  | begin =>
    refine ⟨stage, ?_, .stays stage⟩
    simp only [Run.step]
    split <;> exact hcall
  | answer =>
    by_cases hrunning : r.phase = .running
    · rw [show r.step .answer = r.answerNext from if_pos hrunning]
      exact h.call_answer hrunning hcall
    · rw [show r.step .answer = r from if_neg hrunning]
      exact ⟨stage, hcall, .stays stage⟩
  | finish =>
    by_cases hfinish : r.phase = .running ∧ r.stopRequested
    · have hstep : r.step .finish = r.finish := if_pos hfinish
      obtain ⟨next, hnext, rfl | ⟨rfl, rfl⟩⟩ := call_finish hcall
      · exact ⟨_, hstep ▸ hnext, .stays _⟩
      · exact ⟨_, hstep ▸ hnext, .turnedAway rfl (by rw [hstep]; rfl)⟩
    · rw [show r.step .finish = r from if_neg hfinish]
      exact ⟨stage, hcall, .stays stage⟩

/-- What a caller with a question knows after some activities: nothing yet, or that the run is over, or
the answer from the cache of a moment at which the run has answered it. -/
inductive Knows (asked : Run) (activities : List Activity) (inquiry : Inquiry) : CallStage → Prop
  | nothing {stage : CallStage} (hopen : stage.isOpen = true) : Knows asked activities inquiry stage
  | ended (hover : (asked.actAll activities).phase = .over) : Knows asked activities inquiry .turnedAway
  | answer (before after : List Activity) (hsplit : activities = before ++ .occur (.run .answer) :: after)
    (hrunning : (asked.actAll before).phase = .running) :
    Knows asked activities inquiry (.answered ((asked.actAll before).bridge.cache.answer inquiry))

/-- A caller who has come learns nothing but that, whatever anybody does. -/
theorem Orderly.knows (h : r.Orderly) (hcall : r.calls[caller]? = some ⟨inquiry, .waitsForRoom⟩)
    (activities : List Activity) :
    ∃ stage, (r.actAll activities).calls[caller]? = some ⟨inquiry, stage⟩ ∧
      Knows r activities inquiry stage := by
  induction activities using List.reverseRecOn with
  | nil => exact ⟨_, hcall, .nothing rfl⟩
  | append_singleton activities activity ih =>
    obtain ⟨stage, hstage, hknows⟩ := ih
    have horderly := h.actAll activities
    have hlast : r.actAll (activities ++ [activity]) = (r.actAll activities).act activity :=
      r.actAll_append activities [activity]
    have hover : (r.actAll activities).phase = .over →
        (r.actAll (activities ++ [activity])).phase = .over := by
      intro hover
      rw [hlast]
      cases hstep : activity.step? with
      | some step =>
        rw [act_of_step? _ hstep]
        exact phase_step hover step
      | none =>
        obtain ⟨bridge, heq⟩ := act_of_no_step (r.actAll activities) hstep
        rw [heq]
        exact hover
    have hkeep : Knows r (activities ++ [activity]) inquiry stage := by
      cases hknows with
      | nothing hopen => exact .nothing hopen
      | ended h => exact .ended (hover h)
      | answer before after hsplit hrunning =>
        exact .answer before (after ++ [activity]) (by rw [hsplit, List.append_assoc]; rfl) hrunning
    cases hstep : activity.step? with
    | none =>
      obtain ⟨bridge, heq⟩ := act_of_no_step (r.actAll activities) hstep
      rw [hlast, heq]
      exact ⟨stage, hstage, hkeep⟩
    | some step =>
      obtain ⟨next, hnext, hbecomes⟩ := horderly.call_step hstage step
      have hact := act_of_step? (r.actAll activities) hstep
      refine ⟨next, by rw [hlast, hact]; exact hnext, ?_⟩
      cases hbecomes with
      | stays => exact hkeep
      | enters => exact .nothing rfl
      | turnedAway _ hover => exact .ended (by rw [hlast, hact]; exact hover)
      | answered heq hrunning =>
        rw [heq, Activity.step?_eq_answer_iff] at hstep
        exact .answer activities [] (by rw [hstep]) hrunning

/-! ## Answers -/

/-- What a caller has been told depends on the stage alone. -/
theorem outcome?_eq (hcall : r.calls[caller]? = some ⟨inquiry, stage⟩) :
    r.outcome? caller = stage.told? := by
  rw [outcome?, hcall]
  cases stage <;> rfl

/-- Whatever anybody does after a question has been put, its caller has been told nothing, or that the
run is over, or what the cache answered at a moment at which the run answered a question. -/
theorem Orderly.outcome?_cases (h : r.Orderly) (inquiry : Inquiry) (activities : List Activity) :
    let asked := r.step (.call inquiry)
    let later := asked.actAll activities
    later.outcome? r.calls.length = none ∨
    (later.phase = .over ∧ later.outcome? r.calls.length = some none) ∨
    ∃ before after, activities = before ++ .occur (.run .answer) :: after ∧
      (asked.actAll before).phase = .running ∧
      later.outcome? r.calls.length =
        some (some ((asked.actAll before).bridge.cache.answer inquiry)) := by
  intro asked later
  have hcall : asked.calls[r.calls.length]? = some ⟨inquiry, .waitsForRoom⟩ :=
    List.getElem?_concat_length
  obtain ⟨stage, hstage, hknows⟩ := (h.call inquiry).knows hcall activities
  have houtcome := outcome?_eq hstage
  cases hknows with
  | nothing hopen => exact .inl (houtcome.trans (CallStage.told?_of_isOpen hopen))
  | ended hover => exact .inr (.inl ⟨hover, houtcome⟩)
  | answer before after hsplit hrunning => exact .inr (.inr ⟨before, after, hsplit, hrunning, houtcome⟩)

/-- At this moment the run answers a caller: until now the caller has been told nothing, and then what the
cache holds. -/
structure Answers (moment : Run) (caller : Nat) (inquiry : Inquiry) : Prop where
  waits : moment.outcome? caller = none
  told : (moment.step .answer).outcome? caller = some (some (moment.bridge.cache.answer inquiry))

/-- A caller who has been told a finding was told it at such a moment. -/
theorem Orderly.exists_answers_of_outcome? (h : r.Orderly) (inquiry : Inquiry) {activities : List Activity}
    {finding : Finding} (htold : ((r.step (.call inquiry)).actAll activities).outcome? r.calls.length =
      some (some finding)) :
    ∃ before after, activities = before ++ .occur (.run .answer) :: after ∧
      ((r.step (.call inquiry)).actAll before).Answers r.calls.length inquiry ∧
      finding = ((r.step (.call inquiry)).actAll before).bridge.cache.answer inquiry := by
  let asked := r.step (.call inquiry)
  have hcall : asked.calls[r.calls.length]? = some ⟨inquiry, .waitsForRoom⟩ := List.getElem?_concat_length
  induction activities using List.reverseRecOn with
  | nil => exact nomatch (outcome?_eq hcall).symm.trans htold
  | append_singleton activities activity ih =>
    obtain ⟨stage, hstage, -⟩ := (h.call inquiry).knows hcall activities
    have hbefore := outcome?_eq hstage
    have hlast : asked.actAll (activities ++ [activity]) = (asked.actAll activities).act activity :=
      asked.actAll_append activities [activity]
    rw [hlast] at htold
    -- Unless this is the moment, it was an earlier one.
    have hearlier : (asked.actAll activities).outcome? r.calls.length = some (some finding) →
        ∃ before after, activities ++ [activity] = before ++ .occur (.run .answer) :: after ∧
          (asked.actAll before).Answers r.calls.length inquiry ∧
          finding = (asked.actAll before).bridge.cache.answer inquiry := by
      intro htold
      obtain ⟨before, after, hsplit, hmoment⟩ := ih htold
      exact ⟨before, after ++ [activity], by rw [hsplit, List.append_assoc]; rfl, hmoment⟩
    cases hstep : activity.step? with
    | none =>
      obtain ⟨bridge, heq⟩ := act_of_no_step (asked.actAll activities) hstep
      rw [heq] at htold
      exact hearlier htold
    | some step =>
      obtain ⟨next, hnext, hbecomes⟩ := ((h.call inquiry).actAll activities).call_step hstage step
      have hafter := outcome?_eq hnext
      rw [act_of_step? _ hstep, hafter] at htold
      cases hbecomes with
      | stays => exact hearlier (hbefore.trans htold)
      | enters | turnedAway => exact nomatch htold
      | answered heq hrunning =>
        rw [heq, Activity.step?_eq_answer_iff] at hstep
        refine ⟨activities, [], by rw [hstep], ⟨hbefore, ?_⟩, (Option.some.inj (Option.some.inj htold)).symm⟩
        rw [← heq]
        exact hafter

/-- A running run that answers everyone in its line empties it, and leaves those outside alone. -/
theorem Orderly.steps_answer (h : r.Orderly) (hrunning : r.phase = .running)
    (hcall : r.calls[caller]? = some ⟨inquiry, .waitsForRoom⟩) :
    let emptied := r.steps (List.replicate r.line.length .answer)
    emptied.line = [] ∧ emptied.phase = .running ∧ emptied.bridge = r.bridge ∧
      emptied.calls[caller]? = some ⟨inquiry, .waitsForRoom⟩ := by
  generalize hlength : r.line.length = length
  induction length generalizing r with
  | zero => exact ⟨List.eq_nil_of_length_eq_zero hlength, hrunning, rfl, hcall⟩
  | succ length ih =>
    have hstep : r.step .answer = r.answerNext := if_pos hrunning
    rcases h.answerNext_cases with ⟨hnil, -⟩ | ⟨head, rest, asked, hline, hhead, heq⟩
    · rw [hnil] at hlength
      exact nomatch hlength
    · have hother : head ≠ caller := by
        rintro rfl
        exact nomatch hhead.symm.trans hcall
      have hkept : r.answerNext.calls[caller]? = some ⟨inquiry, .waitsForRoom⟩ := by
        rw [heq]
        show (r.setStage head _).calls[caller]? = _
        rw [getElem?_setStage, if_neg hother, hcall]
      have hrest : r.answerNext.line.length = length := by
        rw [heq]
        rw [hline] at hlength
        exact Nat.succ.inj hlength
      have hphase : r.answerNext.phase = .running := by
        rw [heq]
        exact hrunning
      obtain ⟨hempty, hstill, hbridge, hcaller⟩ := ih h.answerNext hphase hkept hrest
      have hall : r.steps (List.replicate (length + 1) .answer) =
          r.answerNext.steps (List.replicate length .answer) := congrArg (Run.steps · _) hstep
      rw [hall]
      exact ⟨hempty, hstill, hbridge.trans r.answerNext_bridge, hcaller⟩

/-- The steps of a run in which it begins, answers everyone in its line, and then answers a caller. -/
def answeringSteps (r : Run) (caller : Nat) : List RunStep :=
  .begin :: List.replicate r.line.length .answer ++ [.enter caller, .answer]

/-- As long as the run is not over, a caller who has put a question can be answered from the cache. -/
theorem Orderly.outcome?_answeringSteps (h : r.Orderly) (hphase : r.phase ≠ .over) (inquiry : Inquiry) :
    ((r.step (.call inquiry)).steps (r.answeringSteps r.calls.length)).outcome? r.calls.length =
      some (some (r.bridge.cache.answer inquiry)) := by
  have hcall : (r.step (.call inquiry)).calls[r.calls.length]? = some ⟨inquiry, .waitsForRoom⟩ :=
    List.getElem?_concat_length
  let begun := (r.step (.call inquiry)).step .begin
  have hbegun : begun.phase = .running ∧ begun.line = r.line ∧ begun.bridge = r.bridge ∧
      begun.calls[r.calls.length]? = some ⟨inquiry, .waitsForRoom⟩ := by
    by_cases hready : r.phase = .ready
    · rw [show begun = { r.step (.call inquiry) with phase := .running } from if_pos hready]
      exact ⟨rfl, rfl, rfl, hcall⟩
    · rw [show begun = r.step (.call inquiry) from if_neg hready]
      exact ⟨(RunPhase.ready_or_running hphase).resolve_left hready, rfl, rfl, hcall⟩
  obtain ⟨hrunning, hline, hbridge, hwaits⟩ := hbegun
  have horderly : begun.Orderly := (h.call inquiry).step .begin
  obtain ⟨hempty, hstill, hsame, hcaller⟩ := horderly.steps_answer hrunning hwaits
  rw [hline] at hempty hstill hsame hcaller
  have hsteps : (r.step (.call inquiry)).steps (r.answeringSteps r.calls.length) =
      (begun.steps (List.replicate r.line.length .answer)).steps [.enter r.calls.length, .answer] := by
    rw [answeringSteps, steps_append]
    rfl
  rw [hsteps, ← hbridge, ← hsame]
  generalize begun.steps (List.replicate r.line.length .answer) = emptied at hempty hstill hcaller
  have hentered : emptied.step (.enter r.calls.length) =
      { emptied.setStage r.calls.length .inLine with line := [r.calls.length] } := by
    simp [Run.step, Run.enter, hcaller, hstill, hempty, lineLength]
  show ((emptied.step (.enter r.calls.length)).step .answer).outcome? _ = _
  rw [hentered]
  simp [Run.step, setStage, Run.answerNext, hstill, hcaller, outcome?]

end Run

end DaemonBridge
