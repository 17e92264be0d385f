import DaemonBridge.Proofs.Control.Arrival
import Mathlib.Data.List.TakeWhile

/-!
# Everything around a bridge

What happens around a run (`Occurrence`), together with the requests of other programs on the control
socket, the desktop that lets go of its notifications, and the worker that goes. An activity is a step
of the run or changes nothing of it but the bridge (`Run.act_of_step?`, `Run.act_of_no_step`).
-/

namespace DaemonBridge

/-- Something that someone does. -/
inductive Activity where
  /-- Something happens around the run. -/
  | occur (occurrence : Occurrence)
  /-- A request arrives at the control socket. -/
  | request (uptime : UInt64) (request : Http.Request)
  /-- The desktop lets go of every notification. -/
  | dismiss
  /-- The worker goes. -/
  | loseWorker

namespace Activity

/-- The worker goes. -/
def isLoss : Activity → Bool
  | .loseWorker => true
  | _ => false

/-- The step of the run that is taken. -/
def step? : Activity → Option RunStep
  | .occur (.run step) => some step
  | .request _ received =>
    match Control.Operation.ofRequest received with
    | .ok (.inquire inquiry) => some (.call inquiry)
    | .ok .stop => some .requestStop
    | _ => none
  | _ => none

/-- What is done before the worker goes; everything if it stays. -/
def untilLoss (activities : List Activity) : List Activity :=
  activities.takeWhile fun activity => !activity.isLoss

/-- Before the worker goes it does not go. -/
theorem isLoss_of_mem_untilLoss {activities : List Activity} {activity : Activity}
    (h : activity ∈ untilLoss activities) : activity.isLoss = false := by
  have hnot := List.mem_takeWhile_imp h
  rwa [Bool.not_eq_true'] at hnot

/-- The worker stays, or goes at some moment. -/
theorem eq_untilLoss_or (activities : List Activity) :
    activities = untilLoss activities ∨
      ∃ rest, activities = untilLoss activities ++ .loseWorker :: rest := by
  induction activities with
  | nil => exact .inl rfl
  | cons activity rest ih =>
    cases activity with
    | loseWorker => exact .inr ⟨rest, rfl⟩
    | occur | request | dismiss =>
      rcases ih with heq | ⟨later, hsplit⟩
      · exact .inl (congrArg (_ :: ·) heq)
      · exact .inr ⟨later, congrArg (_ :: ·) hsplit⟩

/-- Only the run itself answers questions. -/
theorem step?_eq_answer_iff (activity : Activity) :
    activity.step? = some .answer ↔ activity = .occur (.run .answer) := by
  constructor
  · intro h
    cases activity with
    | occur occurrence =>
      cases occurrence with
      | run step => rw [Option.some.inj h]
      | send | submit | click | takeCommand | refreshLogins | refreshDevices => exact nomatch h
    | request uptime request =>
      simp only [step?] at h
      split at h <;> exact nomatch h
    | dismiss => exact nomatch h
    | loseWorker => exact nomatch h
  · rintro rfl
    rfl

end Activity

namespace Run

/-- Let someone do something. -/
def act (r : Run) : Activity → Run
  | .occur occurrence => r.occur occurrence
  | .request uptime request => (Control.arrive r uptime request).2
  | .dismiss => r.withBridge r.bridge.takeNotifications.2
  | .loseWorker => r.withBridge r.bridge.loseWorker

/-- Let things be done one after the other. -/
def actAll (r : Run) (activities : List Activity) : Run :=
  activities.foldl act r

/-- Things that are done one after the other are done in two parts. -/
theorem actAll_append (r : Run) (earlier later : List Activity) :
    r.actAll (earlier ++ later) = (r.actAll earlier).actAll later :=
  List.foldl_append

/-- Read off something of each activity at the moment at which it is done. -/
def gather {α : Type} (read : Run → Activity → Option α) (r : Run) : List Activity → List α
  | [] => []
  | activity :: rest => (read r activity).toList ++ gather read (r.act activity) rest

/-- What is read off is read off in two parts. -/
theorem gather_append {α : Type} (read : Run → Activity → Option α) (r : Run)
    (earlier later : List Activity) :
    r.gather read (earlier ++ later) =
      r.gather read earlier ++ (r.actAll earlier).gather read later := by
  induction earlier generalizing r with
  | nil => rfl
  | cons activity rest ih =>
    rw [List.cons_append, gather, gather, ih, List.append_assoc]
    rfl

/-- At most one thing is read off of each activity. -/
theorem length_gather_le {α : Type} (read : Run → Activity → Option α) (r : Run)
    (activities : List Activity) : (r.gather read activities).length ≤ activities.length := by
  induction activities generalizing r with
  | nil => exact Nat.le_refl _
  | cons activity rest ih =>
    have hone : (read r activity).toList.length ≤ 1 := by
      cases read r activity <;> simp
    have hrest := ih (r.act activity)
    rw [gather, List.length_append, List.length_cons]
    omega

variable {activity : Activity}

/-- An activity may be a step of the run. -/
theorem act_of_step? (r : Run) {step : RunStep} (h : activity.step? = some step) :
    r.act activity = r.step step := by
  cases activity with
  | occur occurrence =>
    cases occurrence with
    | run step => rw [← Option.some.inj h]; rfl
    | send | submit | click | takeCommand | refreshLogins | refreshDevices => exact nomatch h
  | request uptime request =>
    simp only [Activity.step?] at h
    split at h
    · next heq =>
      rw [← Option.some.inj h, act, Control.arrive, heq]
      rfl
    · next heq =>
      rw [← Option.some.inj h, act, Control.arrive, heq]
      rfl
    · exact nomatch h
  | dismiss => exact nomatch h
  | loseWorker => exact nomatch h

/-- Every other activity changes nothing of the run but the bridge. -/
theorem act_of_no_step (r : Run) (h : activity.step? = none) :
    ∃ bridge, r.act activity = r.withBridge bridge := by
  cases activity with
  | occur occurrence =>
    cases occurrence with
    | run step => exact nomatch h
    | send | submit | click | takeCommand | refreshLogins | refreshDevices => exact ⟨_, rfl⟩
  | request uptime request =>
    rw [act, Control.arrive]
    simp only [Activity.step?] at h
    cases hrequest : Control.Operation.ofRequest request with
    | error refusal => exact ⟨r.bridge, rfl⟩
    | ok operation =>
      rw [hrequest] at h
      cases operation with
      | inquire | stop => exact nomatch h
      | health | config | signals => exact ⟨r.bridge, rfl⟩
      | submit account order => exact ⟨_, rfl⟩
  | dismiss => exact ⟨_, rfl⟩
  | loseWorker => exact ⟨_, rfl⟩

end Run

end DaemonBridge
