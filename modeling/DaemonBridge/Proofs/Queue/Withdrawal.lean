import DaemonBridge.Proofs.Bridge.Relay
import DaemonBridge.Proofs.Queue.Join
import Mathlib.Data.List.Basic

/-!
# Sends that are refused while someone waits

An event counts before it is pushed. When there is no receiver left to push it to, the send takes its
count back, and nobody is notified of that: only the receiver makes a drain. In between whoever waits may
have looked at the count, so that they wait for a drain that never comes. Sends, the receiver and those who
wait take their steps in any interleaving here (`EventTraffic`), and the receiver may be dropped at any
moment. A count of zero is reached by a drain or by such a withdrawal; the second is the only way for
someone to be left asleep (`EventTraffic.asleep_iff_withdrawn`).
-/

namespace DaemonBridge

namespace EventQueue

variable {q : EventQueue}

/-- A send that was refused takes its count back. -/
def withdraw (q : EventQueue) : EventQueue :=
  { q with unfinished := q.unfinished - 1 }

/-- Without a receiver, a push does no more than that. -/
theorem push_of_receiverOpen_eq_false (hclosed : q.receiverOpen = false) (event : Event) :
    q.push event = q.withdraw :=
  if_neg (hclosed ▸ Bool.false_ne_true)

end EventQueue

/-- How far a send has come. -/
inductive Sending where
  | ready (event : Event)
  /-- The event counts and has not been pushed. -/
  | counted (event : Event)
  /-- There was no receiver, and the event counts. -/
  | refused
  | ended
  deriving DecidableEq

namespace Sending

/-- The event counts without having been pushed. -/
def counts : Sending → Bool
  | .counted _ | .refused => true
  | _ => false

/-- One step. -/
def step (q : EventQueue) : Sending → EventQueue × Sending
  | .ready event => (q.announce, .counted event)
  | .counted event => if q.receiverOpen then (q.push event, .ended) else (q, .refused)
  | .refused => (q.withdraw, .ended)
  | .ended => (q, .ended)

variable {q : EventQueue} {sending : Sending}

/-- Steps that nobody interrupts do what sending an event does at once. -/
theorem iterate_step_ready (q : EventQueue) (event : Event) :
    (fun state : EventQueue × Sending => state.2.step state.1)^[3] (q, .ready event) =
      (q.send event, .ended) := by
  show (((counted event).step q.announce).2.step ((counted event).step q.announce).1) = _
  have hsend : q.send event = q.announce.push event := rfl
  by_cases hopen : q.announce.receiverOpen = true
  · rw [step, if_pos hopen, hsend]
    rfl
  · have hclosed : q.announce.receiverOpen = false := eq_false_of_ne_true hopen
    rw [step, if_neg hopen, hsend, EventQueue.push_of_receiverOpen_eq_false hclosed]
    rfl

/-- A send neither makes a drain nor lets go of the receiver. -/
theorem step_frame (q : EventQueue) (sending : Sending) :
    (sending.step q).1.drains = q.drains ∧ (sending.step q).1.receiverOpen = q.receiverOpen := by
  cases sending with
  | ready event => exact ⟨rfl, rfl⟩
  | counted event =>
    by_cases hopen : q.receiverOpen = true
    · rw [step, if_pos hopen, EventQueue.push_of_receiverOpen hopen]
      exact ⟨rfl, rfl⟩
    · rw [step, if_neg hopen]
      exact ⟨rfl, rfl⟩
  | refused => exact ⟨rfl, rfl⟩
  | ended => exact ⟨rfl, rfl⟩

/-- An event counts for as long as its send is halfway, and then while it waits. -/
theorem step_count (h : sending.counts = true → q.unfinished ≠ 0) :
    (sending.step q).1.unfinished + sending.counts.toNat + q.waiting.length =
      q.unfinished + (sending.step q).2.counts.toNat + (sending.step q).1.waiting.length := by
  cases sending with
  | ready event => rfl
  | counted event =>
    by_cases hopen : q.receiverOpen = true
    · rw [step, if_pos hopen, EventQueue.push_of_receiverOpen hopen]
      show q.unfinished + 1 + q.waiting.length = q.unfinished + 0 + (q.waiting ++ [event]).length
      rw [List.length_append, List.length_singleton]
      omega
    · rw [step, if_neg hopen]
      rfl
  | refused =>
    have hne : q.unfinished ≠ 0 := h rfl
    show q.unfinished - 1 + 1 + q.waiting.length = q.unfinished + 0 + q.waiting.length
    omega
  | ended => rfl

/-- A send is refused only without a receiver. -/
theorem step_eq_refused (h : (sending.step q).2 = .refused) : q.receiverOpen = false := by
  cases sending with
  | counted event =>
    by_cases hopen : q.receiverOpen = true
    · rw [step, if_pos hopen] at h
      contradiction
    · exact eq_false_of_ne_true hopen
  | ready _ | refused | ended => contradiction

/-- A send that brings the count to zero has been refused, unless the count was zero before. -/
theorem eq_refused_of_step_unfinished (hzero : (sending.step q).1.unfinished = 0)
    (hne : q.unfinished ≠ 0) : sending = .refused := by
  cases sending with
  | ready event => exact absurd hzero (Nat.succ_ne_zero _)
  | counted event =>
    by_cases hopen : q.receiverOpen = true
    · rw [step, if_pos hopen, EventQueue.push_of_receiverOpen hopen] at hzero
      exact absurd hzero hne
    · rw [step, if_neg hopen] at hzero
      exact absurd hzero hne
  | refused => rfl
  | ended => exact absurd hzero hne

end Sending

namespace Join

variable {q q' : EventQueue} {join : Join}

/-- Nobody has signed up for a drain that is still to come after the next one. -/
def SignedUp (q : EventQueue) : Join → Prop
  | .registered since | .waiting since => since ≤ q.drains
  | _ => True

/-- More drains do not change that. -/
theorem SignedUp.mono (h : join.SignedUp q) (hle : q.drains ≤ q'.drains) : join.SignedUp q' := by
  cases join with
  | registered since | waiting since => exact Nat.le_trans h hle
  | ready | finished => trivial

/-- Nor does a step of the wait. -/
theorem SignedUp.step (h : join.SignedUp q) : (join.step q).SignedUp q := by
  cases join with
  | ready => exact Nat.le_refl _
  | registered since =>
    simp only [Join.step]
    split
    · trivial
    · exact h
  | waiting since =>
    simp only [Join.step]
    split
    · trivial
    · exact h
  | finished => trivial

/-- Someone waits and has not been notified. -/
def Asleep (q : EventQueue) (join : Join) : Prop :=
  ∃ since, join = .waiting since ∧ (waiting since).notified q = false

/-- Only a drain wakes someone up. -/
theorem Asleep.congr (hdrains : q'.drains = q.drains) : join.Asleep q' ↔ join.Asleep q := by
  simp only [Asleep, notified, hdrains]

/-- Whoever is asleep stays asleep by their own step. -/
theorem Asleep.step_eq (h : join.Asleep q) : join.step q = join := by
  obtain ⟨since, rfl, hsince⟩ := h
  exact if_neg (of_decide_eq_false hsince)

/-- While nothing counts, nobody falls asleep. -/
theorem Asleep.of_step (hzero : q.unfinished = 0) (h : (join.step q).Asleep q) : join.Asleep q := by
  obtain ⟨since, hstep, hsince⟩ := h
  cases join with
  | ready => contradiction
  | registered _ =>
    rw [step, if_pos hzero] at hstep
    contradiction
  | waiting other =>
    simp only [step] at hstep
    split at hstep
    · contradiction
    · exact ⟨since, hstep, hsince⟩
  | finished => contradiction

end Join

/-- A queue of events with everyone who sends to it or waits for it. The events that the receiver has
taken and not marked as done are numbered, and so are those that were lost with the receiver. -/
structure EventTraffic where
  queue : EventQueue := {}
  sends : List Sending := []
  joins : List Join := []
  inHand : Nat := 0
  lost : Nat := 0

/-- Something that happens around a queue of events. -/
inductive TrafficStep where
  /-- Someone is about to send an event. -/
  | call (event : Event)
  /-- The send at a place takes one step. -/
  | send (place : Nat)
  /-- Someone is about to wait. -/
  | join
  /-- Whoever waits at a place takes one step. -/
  | advance (place : Nat)
  /-- The receiver takes the next event. -/
  | take
  /-- The receiver marks an event that it has taken as done. -/
  | done
  /-- The receiver is dropped. -/
  | drop

namespace EventTraffic

/-- Let something happen. -/
def step (s : EventTraffic) : TrafficStep → EventTraffic
  | .call event => { s with sends := s.sends ++ [.ready event] }
  | .send place =>
    match s.sends[place]? with
    | some sending =>
      { s with queue := (sending.step s.queue).1, sends := s.sends.set place (sending.step s.queue).2 }
    | none => s
  | .join => { s with joins := s.joins ++ [.ready] }
  | .advance place => { s with joins := s.joins.modify place (Join.step s.queue) }
  | .take =>
    match s.queue.next? with
    | some (_, queue) => { s with queue := queue, inHand := s.inHand + 1 }
    | none => s
  | .done =>
    if s.queue.receiverOpen ∧ s.inHand ≠ 0 then
      { s with queue := s.queue.taskDone, inHand := s.inHand - 1 }
    else s
  | .drop =>
    { s with
      queue := s.queue.closeReceiver
      inHand := 0
      lost := s.lost + s.inHand + s.queue.waiting.length }

/-- Let a sequence of things happen. -/
def run (s : EventTraffic) (steps : List TrafficStep) : EventTraffic :=
  steps.foldl step s

/-- The number of sends whose event counts and has not been pushed. -/
def halfway (s : EventTraffic) : Nat :=
  s.sends.countP Sending.counts

/-- Whoever waits at a place has not been notified. -/
def Asleep (s : EventTraffic) (place : Nat) : Prop :=
  ∃ join, s.joins[place]? = some join ∧ join.Asleep s.queue

/-- The next step of the send at a place takes back the last count. -/
def WithdrawsLast (s : EventTraffic) (place : Nat) : Prop :=
  s.sends[place]? = some .refused ∧ s.queue.pending = 1

variable {s : EventTraffic} {place : Nat}

/-- One more thing happens last. -/
theorem run_concat (s : EventTraffic) (steps : List TrafficStep) (step : TrafficStep) :
    s.run (steps ++ [step]) = (s.run steps).step step :=
  List.foldl_concat EventTraffic.step s step steps

/-- The receiver does to the queue what a tick of the bridge does. -/
theorem tick_inbound (b : Bridge) (store : Store) (runtime : Bool)
    (hopen : b.inbound.receiverOpen = true) :
    (b.tick store runtime).2.inbound = (run { queue := b.inbound } [.take, .done]).queue := by
  cases hwaiting : b.inbound.waiting with
  | nil => simp [Bridge.tick, EventQueue.next?, run, step, hwaiting]
  | cons event rest =>
    simp [Bridge.tick, EventQueue.next?, run, step, hwaiting, hopen, Bridge.handle_inbound]

/-! ## What always holds -/

/-- Every event that counts is with a send that is halfway, waits, is in hand or was lost; nobody is
refused while there is a receiver; and nobody has signed up for a drain later than the next. -/
structure Sound (s : EventTraffic) : Prop where
  pending_eq : s.queue.pending = s.halfway + s.queue.waiting.length + s.inHand + s.lost
  refused : .refused ∈ s.sends → s.queue.receiverOpen = false
  signedUp : ∀ join ∈ s.joins, join.SignedUp s.queue

namespace Sound

/-- At first nothing counts and nobody sends or waits. -/
theorem start : Sound {} :=
  ⟨rfl, fun hmem => absurd hmem List.not_mem_nil, List.forall_mem_nil _⟩

/-- While a send is halfway, something counts. -/
theorem pending_ne_zero (h : s.Sound) {sending : Sending} (hsending : s.sends[place]? = some sending)
    (hcounts : sending.counts = true) : s.queue.pending ≠ 0 := by
  have hpos : 0 < s.halfway :=
    List.countP_pos_iff.mpr ⟨sending, List.mem_of_getElem? hsending, hcounts⟩
  have hcount := h.pending_eq
  omega

/-- A send that takes a step is counted by where it has come. -/
theorem halfway_set {sending : Sending} (hsending : s.sends[place]? = some sending) (next : Sending) :
    (s.sends.set place next).countP Sending.counts + sending.counts.toNat =
      s.halfway + next.counts.toNat := by
  obtain ⟨hlt, hget⟩ := List.getElem?_eq_some_iff.mp hsending
  have hpos : sending.counts = true → 0 < s.halfway := fun hcounts =>
    List.countP_pos_iff.mpr ⟨sending, List.mem_of_getElem? hsending, hcounts⟩
  rw [List.countP_set hlt, hget]
  show s.halfway - _ + _ + _ = _
  cases hold : sending.counts <;> cases next.counts <;> simp [hold] at hpos ⊢ <;> omega

/-- A send may take a step. -/
theorem send (h : s.Sound) (place : Nat) : (s.step (.send place)).Sound := by
  simp only [EventTraffic.step]
  split
  · next sending hsending =>
    have hcount := h.pending_eq
    have hset := halfway_set hsending (sending.step s.queue).2
    have hstep := Sending.step_count (h.pending_ne_zero hsending)
    obtain ⟨hdrains, hopen⟩ := sending.step_frame s.queue
    constructor
    · show (sending.step s.queue).1.unfinished = (s.sends.set place _).countP Sending.counts +
        (sending.step s.queue).1.waiting.length + s.inHand + s.lost
      unfold EventQueue.pending at hcount
      omega
    · intro hmem
      refine hopen.trans ?_
      rcases List.mem_or_eq_of_mem_set hmem with hbefore | hnow
      · exact h.refused hbefore
      · exact Sending.step_eq_refused hnow.symm
    · exact fun join hjoin => (h.signedUp join hjoin).mono (Nat.le_of_eq hdrains.symm)
  · exact h

/-- Whoever waits may take a step. -/
theorem advance (h : s.Sound) (place : Nat) : (s.step (.advance place)).Sound :=
  { h with
    signedUp := by
      intro join hmem
      obtain ⟨other, hother⟩ := List.mem_iff_getElem?.mp hmem
      simp only [EventTraffic.step, List.getElem?_modify, Option.map_eq_map, Option.map_eq_some_iff]
        at hother
      obtain ⟨before, hbefore, rfl⟩ := hother
      have hsigned := h.signedUp before (List.mem_of_getElem? hbefore)
      split
      · exact hsigned.step
      · exact hsigned }

/-- The receiver may take an event. -/
theorem take (h : s.Sound) : (s.step .take).Sound := by
  simp only [EventTraffic.step, EventQueue.next?]
  cases hwaiting : s.queue.waiting with
  | nil => exact h
  | cons event rest =>
    refine ⟨?_, h.refused, h.signedUp⟩
    have hcount := h.pending_eq
    rw [hwaiting, List.length_cons] at hcount
    show s.queue.pending = s.halfway + rest.length + (s.inHand + 1) + s.lost
    omega

/-- The receiver may mark an event that it has taken as done. -/
theorem done (h : s.Sound) : (s.step .done).Sound := by
  simp only [EventTraffic.step]
  split
  · next hdone =>
    obtain ⟨hwaiting, hopen, hless⟩ := s.queue.taskDone_waiting
    have hcount := h.pending_eq
    refine ⟨?_, fun hmem => hopen.trans (h.refused hmem), fun join hjoin =>
      (h.signedUp join hjoin).mono (EventQueue.DrainsInto.taskDone s.queue).drains_le⟩
    show s.queue.taskDone.unfinished = s.halfway + s.queue.taskDone.waiting.length + (s.inHand - 1) + s.lost
    unfold EventQueue.pending at hcount
    rw [hless, hwaiting]
    omega
  · exact h

/-- The receiver may be dropped. -/
theorem drop (h : s.Sound) : (s.step .drop).Sound := by
  refine ⟨?_, fun _ => rfl, h.signedUp⟩
  have hcount := h.pending_eq
  show s.queue.pending = s.halfway + 0 + 0 + (s.lost + s.inHand + s.queue.waiting.length)
  omega

/-- Whatever happens, the traffic stays sound. -/
theorem step (h : s.Sound) (step : TrafficStep) : (s.step step).Sound := by
  cases step with
  | call event =>
    refine ⟨?_, fun hmem => h.refused ?_, h.signedUp⟩
    · show s.queue.pending = (s.sends ++ [Sending.ready event]).countP _ + _ + _ + _
      rw [List.countP_append, h.pending_eq]
      rfl
    · exact (List.mem_append.mp hmem).resolve_right fun hnew =>
        nomatch List.mem_singleton.mp hnew
  | send place => exact h.send place
  | join =>
    exact { h with
      signedUp := List.forall_mem_append.mpr ⟨h.signedUp, List.forall_mem_singleton.mpr trivial⟩ }
  | advance place => exact h.advance place
  | take => exact h.take
  | done => exact h.done
  | drop => exact h.drop

/-- So it is after any number of steps. -/
theorem run (h : s.Sound) (steps : List TrafficStep) : (s.run steps).Sound := by
  induction steps generalizing s with
  | nil => exact h
  | cons step rest ih => exact ih (h.step step)

end Sound

/-! ## Who is left asleep -/

/-- Whoever is asleep after a step while nothing counts was asleep before it, and if anything counted, the
step has taken back the last count. -/
theorem Sound.asleep_of_step (h : s.Sound) {step : TrafficStep} {waiter : Nat}
    (hzero : (s.step step).queue.pending = 0) (hasleep : (s.step step).Asleep waiter) :
    s.Asleep waiter ∧
      (s.queue.pending = 0 ∨ ∃ place, step = .send place ∧ s.WithdrawsLast place) := by
  cases step with
  | call event => exact ⟨hasleep, .inl hzero⟩
  | send place =>
    cases hsending : s.sends[place]? with
    | none =>
      simp only [EventTraffic.step, hsending] at hzero hasleep
      exact ⟨hasleep, .inl hzero⟩
    | some sending =>
      simp only [EventTraffic.step, hsending] at hzero hasleep
      obtain ⟨join, hjoin, hsleeps⟩ := hasleep
      refine ⟨⟨join, hjoin, (Join.Asleep.congr (sending.step_frame s.queue).1).mp hsleeps⟩, ?_⟩
      by_cases hbefore : s.queue.pending = 0
      · exact .inl hbefore
      · obtain rfl : sending = .refused := Sending.eq_refused_of_step_unfinished hzero hbefore
        have hless : s.queue.pending - 1 = 0 := hzero
        exact .inr ⟨place, rfl, hsending, by omega⟩
  | join =>
    obtain ⟨join, hjoin, hsleeps⟩ := hasleep
    refine ⟨⟨join, ?_, hsleeps⟩, .inl hzero⟩
    simp only [EventTraffic.step, List.getElem?_append] at hjoin
    split at hjoin
    · exact hjoin
    · obtain ⟨since, rfl, -⟩ := hsleeps
      exact nomatch List.mem_singleton.mp (List.mem_of_getElem? hjoin)
  | advance place =>
    obtain ⟨join, hjoin, hsleeps⟩ := hasleep
    simp only [EventTraffic.step, List.getElem?_modify, Option.map_eq_map, Option.map_eq_some_iff]
      at hjoin
    obtain ⟨before, hbefore, rfl⟩ := hjoin
    refine ⟨⟨before, hbefore, ?_⟩, .inl hzero⟩
    split at hsleeps
    · exact Join.Asleep.of_step hzero hsleeps
    · exact hsleeps
  | take =>
    simp only [EventTraffic.step, EventQueue.next?] at hzero hasleep
    cases hwaiting : s.queue.waiting with
    | nil =>
      simp only [hwaiting] at hzero hasleep
      exact ⟨hasleep, .inl hzero⟩
    | cons event rest =>
      simp only [hwaiting] at hzero hasleep
      exact ⟨hasleep, .inl hzero⟩
  | done =>
    by_cases hdone : s.queue.receiverOpen = true ∧ s.inHand ≠ 0
    · simp only [EventTraffic.step, if_pos hdone] at hzero hasleep
      obtain ⟨join, hjoin, since, rfl, hsince⟩ := hasleep
      have hsigned : since ≤ s.queue.drains := h.signedUp _ (List.mem_of_getElem? hjoin)
      have hless : s.queue.taskDone.drains ≤ since := Nat.le_of_not_lt (of_decide_eq_false hsince)
      by_cases hone : s.queue.unfinished = 1
      · -- The step is a drain, which wakes everyone who has signed up.
        rw [EventQueue.taskDone, if_pos hone] at hless
        exact absurd (Nat.le_trans hless hsigned) (Nat.not_succ_le_self _)
      · have hcount := h.pending_eq
        rw [EventQueue.taskDone, if_neg hone] at hzero
        have hzero' : s.queue.unfinished - 1 = 0 := hzero
        unfold EventQueue.pending at hcount
        omega
    · simp only [EventTraffic.step, if_neg hdone] at hzero hasleep
      exact ⟨hasleep, .inl hzero⟩
  | drop => exact ⟨hasleep, .inl hzero⟩

/-- Without a receiver nobody wakes up. -/
theorem asleep_step (hclosed : s.queue.receiverOpen = false) {waiter : Nat} (hasleep : s.Asleep waiter)
    (step : TrafficStep) :
    (s.step step).queue.receiverOpen = false ∧ (s.step step).Asleep waiter := by
  obtain ⟨join, hjoin, hsleeps⟩ := hasleep
  cases step with
  | call event => exact ⟨hclosed, join, hjoin, hsleeps⟩
  | send place =>
    simp only [EventTraffic.step]
    split
    · next sending _ =>
      obtain ⟨hdrains, hopen⟩ := sending.step_frame s.queue
      exact ⟨hopen.trans hclosed, join, hjoin, (Join.Asleep.congr hdrains).mpr hsleeps⟩
    · exact ⟨hclosed, join, hjoin, hsleeps⟩
  | join =>
    refine ⟨hclosed, join, ?_, hsleeps⟩
    exact (List.getElem?_append_left (List.getElem?_eq_some_iff.mp hjoin).1).trans hjoin
  | advance place =>
    refine ⟨hclosed, join, ?_, hsleeps⟩
    simp only [EventTraffic.step, List.getElem?_modify, hjoin, Option.map_eq_map, Option.map_some]
    split
    · rw [hsleeps.step_eq]
    · rfl
  | take =>
    simp only [EventTraffic.step, EventQueue.next?]
    cases s.queue.waiting with
    | nil => exact ⟨hclosed, join, hjoin, hsleeps⟩
    | cons event rest => exact ⟨hclosed, join, hjoin, hsleeps⟩
  | done =>
    have hnot : ¬(s.queue.receiverOpen = true ∧ s.inHand ≠ 0) :=
      fun hdone => Bool.false_ne_true (hclosed.symm.trans hdone.1)
    simp only [EventTraffic.step, if_neg hnot]
    exact ⟨hclosed, join, hjoin, hsleeps⟩
  | drop => exact ⟨rfl, join, hjoin, hsleeps⟩

/-- However long they wait. -/
theorem asleep_run (hclosed : s.queue.receiverOpen = false) {waiter : Nat} (hasleep : s.Asleep waiter)
    (steps : List TrafficStep) :
    (s.run steps).queue.receiverOpen = false ∧ (s.run steps).Asleep waiter := by
  induction steps generalizing s with
  | nil => exact ⟨hclosed, hasleep⟩
  | cons step rest ih =>
    obtain ⟨hclosed', hasleep'⟩ := asleep_step hclosed hasleep step
    exact ih hclosed' hasleep'

/-- Whoever is asleep while nothing counts was asleep when the last count was taken back. -/
theorem Sound.exists_withdrawsLast (h : s.Sound) (hnobody : ∀ waiter, ¬ s.Asleep waiter)
    {steps : List TrafficStep} {waiter : Nat} (hzero : (s.run steps).queue.pending = 0)
    (hasleep : (s.run steps).Asleep waiter) :
    ∃ before place after, steps = before ++ .send place :: after ∧
      (s.run before).WithdrawsLast place ∧ (s.run before).Asleep waiter := by
  -- Backwards from the end, up to the step by which the count has become zero.
  induction steps using List.reverseRecOn with
  | nil => exact absurd hasleep (hnobody waiter)
  | append_singleton steps step ih =>
    rw [run_concat] at hzero hasleep
    obtain ⟨hasleep', hzero' | ⟨place, rfl, hlast⟩⟩ := (h.run steps).asleep_of_step hzero hasleep
    · obtain ⟨before, place, after, rfl, hlast, hthen⟩ := ih hzero' hasleep'
      exact ⟨before, place, after ++ [step], by simp, hlast, hthen⟩
    · exact ⟨steps, place, [], rfl, hlast, hasleep'⟩

/-- As long as there is a receiver, nobody is left asleep while nothing counts; but then someone can be: a
send counts its event, someone looks at the count and waits, and the receiver is dropped before the push. -/
theorem asleep_run_dropped (hopen : s.queue.receiverOpen = true) (hzero : s.queue.pending = 0)
    (event : Event) :
    let sender := s.sends.length
    let waiter := s.joins.length
    let later := s.run [.call event, .send sender, .join, .advance waiter, .advance waiter, .drop,
      .send sender, .send sender]
    later.queue.pending = 0 ∧ later.sends[sender]? = some .ended ∧ later.Asleep waiter := by
  obtain ⟨⟨waiting, unfinished, drains, senderOpen, receiverOpen⟩, sends, joins, inHand, lost⟩ := s
  obtain rfl : unfinished = 0 := hzero
  obtain rfl : receiverOpen = true := hopen
  refine ⟨?_, ?_, .waiting drains, ?_, drains, rfl, ?_⟩ <;>
    simp [run, step, Sending.step, Join.step, Join.notified, EventQueue.announce, EventQueue.closeReceiver,
      EventQueue.withdraw, EventQueue.pending]

/-- Only a refused send can leave someone asleep.

Senders, the receiver and those who wait take their steps in any interleaving, and the receiver may be
dropped at any moment. What counts is at every moment what is halfway through a send, waits, is in hand or
was lost with the receiver, so that a withdrawal and an event that is marked as done take back a count that
was given. While nothing counts, someone is left asleep exactly if they were asleep when a refused send took
back the last count. This cannot be as long as there is a receiver, but from every such moment on it can
come about; and whoever is left asleep sleeps for ever. -/
theorem asleep_iff_withdrawn (steps : List TrafficStep) :
    let s := run {} steps
    s.queue.pending = s.halfway + s.queue.waiting.length + s.inHand + s.lost ∧
      (∀ place, s.sends[place]? = some .refused →
        (s.step (.send place)).queue.pending + 1 = s.queue.pending) ∧
      (s.queue.receiverOpen = true → s.inHand ≠ 0 → (s.step .done).queue.pending + 1 = s.queue.pending) ∧
      (s.queue.pending = 0 →
        (∀ waiter, s.Asleep waiter ↔
          ∃ before place after, steps = before ++ .send place :: after ∧
            (run {} before).WithdrawsLast place ∧ (run {} before).Asleep waiter) ∧
        (∀ waiter, s.Asleep waiter → ∀ more, (s.run more).Asleep waiter) ∧
        (s.queue.receiverOpen = true →
          (∀ waiter, ¬ s.Asleep waiter) ∧
            ∀ event,
              let sender := s.sends.length
              let waiter := s.joins.length
              let later := s.run [.call event, .send sender, .join, .advance waiter, .advance waiter,
                .drop, .send sender, .send sender]
              later.queue.pending = 0 ∧ later.sends[sender]? = some .ended ∧ later.Asleep waiter)) := by
  intro s
  have h : s.Sound := Sound.start.run steps
  have hnobody : ∀ waiter, ¬ Asleep {} waiter := fun waiter ⟨join, hjoin, _⟩ => nomatch hjoin
  have hleft : ∀ {before after : List TrafficStep} {place waiter : Nat},
      steps = before ++ .send place :: after → (run {} before).WithdrawsLast place →
        (run {} before).Asleep waiter → s.queue.receiverOpen = false ∧ s.Asleep waiter := by
    intro before after place waiter hsteps hlast hasleep
    have hclosed : (run {} before).queue.receiverOpen = false :=
      (Sound.start.run before).refused (List.mem_of_getElem? hlast.1)
    have hthen := asleep_run hclosed hasleep (.send place :: after)
    have hs : s = (run {} before).run (.send place :: after) := by
      show run {} steps = _
      rw [hsteps]
      exact List.foldl_append
    rwa [hs]
  refine ⟨h.pending_eq, fun place hrefused => ?_, fun hopen hhand => ?_, fun hzero =>
    ⟨fun waiter => ⟨fun hasleep => Sound.start.exists_withdrawsLast hnobody hzero hasleep,
      fun ⟨_, _, _, hsteps, hlast, hthen⟩ => (hleft hsteps hlast hthen).2⟩,
    fun waiter hasleep more => ?_, fun hopen => ⟨fun waiter hasleep => ?_, fun event =>
      asleep_run_dropped hopen hzero event⟩⟩⟩
  · have hne := h.pending_ne_zero hrefused rfl
    simp only [step, hrefused]
    exact Nat.succ_pred_eq_of_ne_zero hne
  · have hcount := h.pending_eq
    obtain ⟨-, -, hless⟩ := s.queue.taskDone_waiting
    simp only [step, if_pos (And.intro hopen hhand)]
    show s.queue.taskDone.unfinished + 1 = s.queue.pending
    unfold EventQueue.pending at hcount ⊢
    omega
  · obtain ⟨_, _, _, hsteps, hlast, hthen⟩ := Sound.start.exists_withdrawsLast hnobody hzero hasleep
    exact (asleep_run (hleft hsteps hlast hthen).1 hasleep more).2
  · obtain ⟨_, _, _, hsteps, hlast, hthen⟩ := Sound.start.exists_withdrawsLast hnobody hzero hasleep
    exact Bool.false_ne_true ((hleft hsteps hlast hthen).1.symm.trans hopen)

/-- One send counts its event, and someone waits; the receiver is dropped, and the send takes its count
back. Nothing counts, no send is halfway, and whoever waits is asleep for good. -/
theorem asleep_iff_withdrawn_once :
    let s := run {} [.call .usersChanged, .send 0, .join, .advance 0, .advance 0, .drop, .send 0, .send 0]
    s.queue.pending = 0 ∧ s.sends = [.ended] ∧ s.joins = [.waiting 0] ∧ s.Asleep 0 ∧
      ∀ more, (s.run more).Asleep 0 := by
  intro s
  have hzero : s.queue.pending = 0 := by decide
  have hall := asleep_iff_withdrawn
    [.call .usersChanged, .send 0, .join, .advance 0, .advance 0, .drop, .send 0, .send 0]
  have hasleep : s.Asleep 0 := by
    refine ((hall.2.2.2 hzero).1 0).mpr
      ⟨[.call .usersChanged, .send 0, .join, .advance 0, .advance 0, .drop, .send 0], 0, [], rfl, ?_, ?_⟩
    · exact ⟨by decide, by decide⟩
    · exact ⟨.waiting 0, by decide, 0, rfl, by decide⟩
  exact ⟨hzero, by decide, by decide, hasleep, (hall.2.2.2 hzero).2.1 0 hasleep⟩

end EventTraffic

end DaemonBridge
