import DaemonBridge.Queue.Inbound
import Mathlib.Logic.Function.Iterate

/-!
# The queue of events and those who wait for it

What sending and handling do to the queue is said once, for the events that wait and for the count.
Whoever waits for the queue signs up for the next drain first and looks at the count afterwards, so that
no drain can fall between the two. What this comes to is `Join.Timely`: someone who waits and has not
been notified does so only while there are unfinished events. It survives everything that reaches a
count of zero by a drain and in no other way (`EventQueue.DrainsInto`).
-/

namespace DaemonBridge

namespace EventQueue

variable {q q' : EventQueue}

/-! ## Sending and handling -/

/-- With a receiver, a pushed event waits behind the others. -/
theorem push_of_receiverOpen (hopen : q.receiverOpen = true) (event : Event) :
    q.push event = { q with waiting := q.waiting ++ [event] } :=
  if_pos hopen

/-- With a receiver, events that are sent wait behind the others. -/
theorem foldl_send_of_receiverOpen (hopen : q.receiverOpen = true) (events : List Event) :
    (events.foldl send q).receiverOpen = true ∧
      (events.foldl send q).waiting = q.waiting ++ events := by
  induction events generalizing q with
  | nil => exact ⟨hopen, (List.append_nil _).symm⟩
  | cons event events ih =>
    have hannounced : q.announce.receiverOpen = true := hopen
    have hsend : q.send event = { q.announce with waiting := q.waiting ++ [event] } :=
      push_of_receiverOpen hannounced event
    have hopen' : (q.send event).receiverOpen = true := by rw [hsend]; exact hopen
    obtain ⟨hstill, hwaiting⟩ := ih hopen'
    refine ⟨hstill, hwaiting.trans ?_⟩
    rw [hsend, List.append_assoc, List.singleton_append]

/-- Handling an event changes nothing but the counters. -/
theorem taskDone_waiting (q : EventQueue) :
    q.taskDone.waiting = q.waiting ∧ q.taskDone.receiverOpen = q.receiverOpen ∧
      q.taskDone.unfinished = q.unfinished - 1 := by
  unfold taskDone
  split
  · next hone => exact ⟨rfl, rfl, by rw [hone]⟩
  · exact ⟨rfl, rfl, rfl⟩

/-- What is sent after the receiver has gone does not count. -/
theorem pending_foldl_send_closeReceiver (q : EventQueue) (events : List Event) :
    (events.foldl send q.closeReceiver).pending = q.pending := by
  suffices hall : ∀ q : EventQueue, q.receiverOpen = false →
      (events.foldl send q).unfinished = q.unfinished from hall q.closeReceiver rfl
  induction events with
  | nil => exact fun _ _ => rfl
  | cons event events ih =>
    intro q hclosed
    have hsend : q.send event = q := by
      have hopen : ¬ q.announce.receiverOpen = true := by
        show ¬ q.receiverOpen = true
        rw [hclosed]
        exact Bool.false_ne_true
      rw [send, push, if_neg hopen]
      rfl
    rw [List.foldl_cons, hsend]
    exact ih q hclosed

/-! ## Drains -/

/-- From the first queue to the second, the count has fallen to zero by a drain or not at all. -/
structure DrainsInto (q q' : EventQueue) : Prop where
  drains_le : q.drains ≤ q'.drains
  unfinished_ne : q'.drains = q.drains → q.unfinished ≠ 0 → q'.unfinished ≠ 0

namespace DrainsInto

/-- A queue whose counters stay as they are drains into itself. -/
theorem of_eq (hdrains : q'.drains = q.drains) (hcount : q'.unfinished = q.unfinished) :
    q.DrainsInto q' :=
  ⟨Nat.le_of_eq hdrains.symm, fun _ hne => hcount ▸ hne⟩

/-- An event that is announced leaves something unfinished. -/
theorem announce (q : EventQueue) : q.DrainsInto q.announce :=
  ⟨Nat.le_refl _, fun _ _ => Nat.succ_ne_zero _⟩

/-- The last event that is handled makes a drain. -/
theorem taskDone (q : EventQueue) : q.DrainsInto q.taskDone := by
  unfold EventQueue.taskDone
  split
  · exact ⟨Nat.le_succ _, fun hsame _ => absurd hsame (Nat.succ_ne_self _)⟩
  · next hmore => exact ⟨Nat.le_refl _, fun _ hne => by show q.unfinished - 1 ≠ 0; omega⟩

end DrainsInto

end EventQueue

namespace Join

variable {q q' : EventQueue} {join : Join} {since : Nat}

/-- A poll is as many steps as can be taken without waiting, which are never more than four. -/
theorem poll_eq_iterate_step (q : EventQueue) (join : Join) : join.poll q = (step q)^[4] join := by
  cases join with
  | ready => by_cases hzero : q.unfinished = 0 <;> simp [poll, poll.check, step, hzero]
  | registered since =>
    by_cases hzero : q.unfinished = 0 <;> by_cases hlt : since < q.drains <;>
      simp [poll, poll.check, step, hzero, hlt]
  | waiting since =>
    by_cases hzero : q.unfinished = 0 <;> by_cases hlt : since < q.drains <;>
      simp [poll, poll.check, step, hzero, hlt]
  | finished => rfl

/-- Nobody has signed up for a drain that is still to come after the next one, and whoever waits for the
next one does so while something is unfinished. -/
def Timely (q : EventQueue) : Join → Prop
  | .registered since => since ≤ q.drains
  | .waiting since => since ≤ q.drains ∧ (since = q.drains → q.unfinished ≠ 0)
  | _ => True

namespace Timely

/-- What happens to the queue leaves those who wait timely. -/
theorem mono (h : join.Timely q) (hinto : q.DrainsInto q') : join.Timely q' := by
  cases join with
  | ready => trivial
  | registered since => exact Nat.le_trans h hinto.drains_le
  | waiting since =>
    refine ⟨Nat.le_trans h.1 hinto.drains_le, fun hlast => ?_⟩
    have hsame : since = q.drains := Nat.le_antisymm h.1 (hlast ▸ hinto.drains_le)
    exact hinto.unfinished_ne (hlast.symm.trans hsame) (h.2 hsame)
  | finished => trivial

/-- So do their own steps. -/
theorem step (h : join.Timely q) : (join.step q).Timely q := by
  cases join with
  | ready => exact Nat.le_refl _
  | registered since =>
    simp only [Join.step]
    split
    · trivial
    · next hne => exact ⟨h, fun _ => hne⟩
  | waiting since =>
    simp only [Join.step]
    split
    · trivial
    · exact h
  | finished => trivial

/-- Whoever waits while nothing is unfinished has been notified. -/
theorem notified (h : (waiting since).Timely q) (hzero : q.unfinished = 0) :
    (waiting since).notified q = true :=
  decide_eq_true (Nat.lt_of_le_of_ne h.1 fun heq => h.2 heq hzero)

/-- A poll while nothing is unfinished ends the wait. -/
theorem poll_eq_finished (h : join.Timely q) (hzero : q.unfinished = 0) :
    join.poll q = .finished := by
  cases join with
  | ready => exact if_pos hzero
  | registered since => exact if_pos hzero
  | waiting since =>
    have hlt : since < q.drains := of_decide_eq_true (h.notified hzero)
    exact (if_pos hlt).trans (if_pos hzero)
  | finished => rfl

end Timely

/-- A poll while something is unfinished goes on waiting for a drain that is still to come. -/
theorem exists_poll_eq_waiting (q : EventQueue) (since : Nat) (hne : q.unfinished ≠ 0) :
    ∃ again, (waiting since).poll q = .waiting again ∧ (waiting again).notified q = false := by
  by_cases hlt : since < q.drains
  · exact ⟨q.drains, (if_pos hlt).trans (if_neg hne), decide_eq_false (Nat.lt_irrefl _)⟩
  · exact ⟨since, if_neg hlt, decide_eq_false hlt⟩

/-- A step ends a wait only while nothing is unfinished. -/
theorem unfinished_eq_zero_of_step_eq_finished (hbefore : join ≠ .finished)
    (h : join.step q = .finished) : q.unfinished = 0 := by
  cases join with
  | ready => contradiction
  | registered since =>
    simp only [step] at h
    split at h
    · next hzero => exact hzero
    · contradiction
  | waiting since =>
    simp only [step] at h
    split at h <;> contradiction
  | finished => contradiction

/-- A poll ends a wait only while nothing is unfinished. -/
theorem unfinished_eq_zero_of_poll_eq_finished (hbefore : join ≠ .finished)
    (h : join.poll q = .finished) : q.unfinished = 0 := by
  by_contra hne
  have hsteps : ∀ n, (step q)^[n] join ≠ .finished := by
    intro n
    induction n with
    | zero => exact hbefore
    | succ n ih =>
      rw [Function.iterate_succ_apply']
      exact fun hfinished => hne (unfinished_eq_zero_of_step_eq_finished ih hfinished)
  exact hsteps 4 (poll_eq_iterate_step q join ▸ h)

end Join

end DaemonBridge
