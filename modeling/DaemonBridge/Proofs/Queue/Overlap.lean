import DaemonBridge.Queue.Outbound
import Mathlib.Data.List.Perm.Basic

/-!
# Orders issued at the same time

Issuing an order takes two steps, and between them other callers may take theirs: a caller takes the next
identifier, and later enqueues the command. So commands need not stand in the queue in the sequence of
their identifiers. What remains is kept by every step of a caller and of the worker (`SharedDesk.Sound`):
an identifier is taken once, and then belongs to one command or to one caller who has yet to enqueue it,
and the commands of each caller stand in the sequence of its program.
-/

namespace DaemonBridge

/-- An order for which a caller has taken an identifier. -/
structure Submission where
  caller : Nat
  id : CommandId
  account : String
  order : Order
  deriving DecidableEq, Repr

/-- The command that is enqueued for it. -/
def Submission.command (t : Submission) : Command := ⟨t.id, t.account, t.order⟩

/-- What the caller wanted. -/
def Submission.wanted (t : Submission) : String × Order := (t.account, t.order)

/-- The submissions of a caller among others, in the same sequence. -/
def submissionsOf (caller : Nat) (submissions : List Submission) : List Submission :=
  submissions.filter fun t => t.caller = caller

/-- One more submission comes last among those of its caller, and changes nothing for the others. -/
theorem submissionsOf_append (caller : Nat) (submissions : List Submission) (t : Submission) :
    submissionsOf caller (submissions ++ [t]) =
      submissionsOf caller submissions ++ if t.caller = caller then [t] else [] := by
  rw [submissionsOf, List.filter_append, submissionsOf]
  congr 1
  by_cases h : t.caller = caller <;> simp [h]

/-- Without the submissions of a caller, those of the others are left. -/
theorem submissionsOf_without (caller other : Nat) (submissions : List Submission) :
    submissionsOf other (submissions.filter fun t => !(t.caller = caller)) =
      if caller = other then [] else submissionsOf other submissions := by
  rw [submissionsOf, List.filter_filter, submissionsOf]
  split
  · next heq =>
    refine List.filter_eq_nil_iff.mpr fun t _ => ?_
    simp [heq]
  · next hne =>
    refine List.filter_congr fun t _ => ?_
    by_cases h : t.caller = other
    · simp [h, Ne.symm hne]
    · simp [h]

/-- A desk at which callers issue orders at the same time, each from a program of its own. All but the
desk and what the callers still have to issue only remembers what has happened. -/
structure SharedDesk where
  desk : Desk := {}
  /-- What each caller has yet to begin. -/
  programs : Nat → List (String × Order)
  /-- Every submission, in the sequence in which identifiers were taken. -/
  begun : List Submission := []
  /-- The submissions of callers that are between their two steps. -/
  unfinished : List Submission := []
  /-- The submissions whose command was enqueued, in that sequence. -/
  finished : List Submission := []
  /-- What callers were returned. -/
  returned : List (Nat × CommandId) := []
  /-- What the worker has received. -/
  received : List Command := []

/-- Something that happens at a shared desk. -/
inductive SharedDeskStep where
  /-- A caller takes its next step. -/
  | advance (caller : Nat)
  /-- The worker receives the next command. -/
  | receive
  deriving DecidableEq, Repr

namespace SharedDesk

/-- A caller begins to issue an order: it takes the next identifier. -/
def begin (s : SharedDesk) (caller : Nat) (account : String) (order : Order)
    (rest : List (String × Order)) : SharedDesk :=
  let submission : Submission := ⟨caller, s.desk.takeId.1, account, order⟩
  { s with
    desk := s.desk.takeId.2
    programs := fun other => if other = caller then rest else s.programs other
    begun := s.begun ++ [submission]
    unfinished := s.unfinished ++ [submission] }

/-- A caller enqueues the command of its submission and is returned the identifier. -/
def finish (s : SharedDesk) (submission : Submission) : SharedDesk :=
  { s with
    desk := s.desk.push submission.command
    unfinished := s.unfinished.filter fun t => !(t.caller = submission.caller)
    finished := s.finished ++ [submission]
    returned := s.returned ++ [(submission.caller, submission.id)] }

/-- Let something happen. A caller finishes what it has begun before it begins anything else. -/
def step (s : SharedDesk) : SharedDeskStep → SharedDesk
  | .advance caller =>
    match submissionsOf caller s.unfinished, s.programs caller with
    | submission :: _, _ => s.finish submission
    | [], (account, order) :: rest => s.begin caller account order rest
    | [], [] => s
  | .receive =>
    match s.desk.queue.take? with
    | some (command, queue) =>
      { s with desk := { s.desk with queue := queue }, received := s.received ++ [command] }
    | none => s

/-- Let a sequence of things happen. -/
def run (s : SharedDesk) (steps : List SharedDeskStep) : SharedDesk :=
  steps.foldl step s

/-- Every command that was enqueued, in sequence: those received, and those that wait. -/
def enqueued (s : SharedDesk) : List Command :=
  s.received ++ s.desk.queue.waiting

/-- A caller that has begun something finishes it. -/
theorem step_advance_of_unfinished {s : SharedDesk} {caller : Nat} {t : Submission}
    {more : List Submission} (h : submissionsOf caller s.unfinished = t :: more) :
    s.step (.advance caller) = s.finish t := by
  simp only [step, h]

/-- A caller that has not begins the next order of its program. -/
theorem step_advance_of_program {s : SharedDesk} {caller : Nat} {next : String × Order}
    {rest : List (String × Order)} (hnone : submissionsOf caller s.unfinished = [])
    (hprogram : s.programs caller = next :: rest) :
    s.step (.advance caller) = s.begin caller next.1 next.2 rest := by
  simp only [step, hnone, hprogram]

/-- A caller whom nobody interrupts does what issuing an order does. -/
theorem run_advance_advance {s : SharedDesk} {caller : Nat} {account : String} {order : Order}
    {rest : List (String × Order)} (hnone : submissionsOf caller s.unfinished = [])
    (hprogram : s.programs caller = (account, order) :: rest) :
    let later := s.run [.advance caller, .advance caller]
    later.desk = (s.desk.submit account order).2 ∧
      later.returned = s.returned ++ [(caller, (s.desk.submit account order).1)] := by
  have hopen : submissionsOf caller (s.begin caller account order rest).unfinished =
      [⟨caller, s.desk.nextId, account, order⟩] := by
    show submissionsOf caller (s.unfinished ++ [_]) = _
    rw [submissionsOf_append, hnone, if_pos rfl]
    rfl
  have hlater : s.run [.advance caller, .advance caller] =
      (s.begin caller account order rest).finish ⟨caller, s.desk.nextId, account, order⟩ := by
    show (s.step (.advance caller)).step (.advance caller) = _
    rw [step_advance_of_program hnone hprogram, step_advance_of_unfinished hopen]
  rw [hlater]
  exact ⟨rfl, rfl⟩

/-! ## What every step keeps -/

/-- Identifiers count the submissions; every submission is finished or not; the commands enqueued are those
of the finished ones; and each caller has begun the first orders of its program, all of which but the last
are finished for certain. -/
structure Sound (programs : Nat → List (String × Order)) (s : SharedDesk) : Prop where
  receiverOpen : s.desk.queue.receiverOpen = true
  nextId_eq : s.desk.nextId = UInt64.ofNat s.begun.length
  ids_eq : s.begun.map Submission.id = (List.range s.begun.length).map UInt64.ofNat
  perm_begun : (s.finished ++ s.unfinished).Perm s.begun
  enqueued_eq : s.enqueued = s.finished.map Submission.command
  returned_eq : s.returned = s.finished.map fun t => (t.caller, t.id)
  atMostOne : ∀ caller, (submissionsOf caller s.unfinished).length ≤ 1
  inOrder : ∀ caller, submissionsOf caller s.finished ++ submissionsOf caller s.unfinished =
    submissionsOf caller s.begun
  program_eq : ∀ caller, (submissionsOf caller s.begun).map Submission.wanted ++ s.programs caller =
    programs caller

namespace Sound

variable {programs : Nat → List (String × Order)} {s : SharedDesk}

/-- At first nothing has been begun. -/
theorem start (programs : Nat → List (String × Order)) : Sound programs { programs := programs } :=
  ⟨rfl, rfl, rfl, .refl _, rfl, rfl, fun _ => Nat.zero_le 1, fun _ => rfl, fun _ => rfl⟩

/-- A caller that is between no steps may begin the next order of its program. -/
theorem begin (h : s.Sound programs) {caller : Nat} {account : String} {order : Order}
    {rest : List (String × Order)} (hnone : submissionsOf caller s.unfinished = [])
    (hprogram : s.programs caller = (account, order) :: rest) :
    (s.begin caller account order rest).Sound programs where
  receiverOpen := h.receiverOpen
  nextId_eq := by
    show s.desk.nextId + 1 = UInt64.ofNat (s.begun ++ [_]).length
    rw [h.nextId_eq, List.length_append, List.length_singleton, UInt64.ofNat_add]
    rfl
  ids_eq := by
    show (s.begun ++ [_]).map Submission.id = (List.range (s.begun ++ [_]).length).map UInt64.ofNat
    rw [List.map_append, h.ids_eq, List.length_append, List.length_singleton, List.range_succ,
      List.map_append]
    exact congrArg (_ ++ [·]) h.nextId_eq
  perm_begun := by
    show (s.finished ++ (s.unfinished ++ [_])).Perm (s.begun ++ [_])
    rw [← List.append_assoc]
    exact h.perm_begun.append_right _
  enqueued_eq := h.enqueued_eq
  returned_eq := h.returned_eq
  atMostOne other := by
    show (submissionsOf other (s.unfinished ++ [_])).length ≤ 1
    rw [submissionsOf_append]
    split
    · next heq =>
      rw [← show caller = other from heq, hnone]
      exact Nat.le_refl 1
    · rw [List.append_nil]
      exact h.atMostOne other
  inOrder other := by
    show submissionsOf other s.finished ++ submissionsOf other (s.unfinished ++ [_]) =
      submissionsOf other (s.begun ++ [_])
    rw [submissionsOf_append, submissionsOf_append, ← List.append_assoc, h.inOrder]
  program_eq other := by
    show (submissionsOf other (s.begun ++ [_])).map Submission.wanted ++
      (if other = caller then rest else s.programs other) = programs other
    rw [submissionsOf_append, ← h.program_eq other]
    by_cases heq : caller = other
    · rw [if_pos heq, if_pos heq.symm, ← heq, hprogram, List.map_append, List.append_assoc]
      rfl
    · rw [if_neg heq, if_neg (Ne.symm heq), List.append_nil]

/-- A caller may finish what it has begun. -/
theorem finish (h : s.Sound programs) {caller : Nat} {t : Submission} {more : List Submission}
    (hopen : submissionsOf caller s.unfinished = t :: more) : (s.finish t).Sound programs := by
  have hone : submissionsOf caller s.unfinished = [t] := by
    have hlength := h.atMostOne caller
    rw [hopen, List.length_cons] at hlength
    rw [hopen, List.length_eq_zero_iff.mp (Nat.le_zero.mp (Nat.le_of_succ_le_succ hlength))]
  have hcaller : t.caller = caller := by
    have hmem : t ∈ submissionsOf caller s.unfinished := hopen ▸ List.mem_cons_self
    simpa using (List.mem_filter.mp hmem).2
  have hqueue : (s.desk.push t.command).queue.waiting = s.desk.queue.waiting ++ [t.command] := by
    rw [Desk.push, CommandQueue.send, if_pos h.receiverOpen]
  subst hcaller
  have hunfinished : s.unfinished.Perm ([t] ++ s.unfinished.filter fun u => !(u.caller = t.caller)) := by
    rw [← hone]
    exact (List.filter_append_perm _ _).symm
  exact {
    receiverOpen := by
      show (s.desk.push t.command).queue.receiverOpen = true
      rw [Desk.push, CommandQueue.send, if_pos h.receiverOpen]
      exact h.receiverOpen
    nextId_eq := h.nextId_eq
    ids_eq := h.ids_eq
    perm_begun := by
      show ((s.finished ++ [t]) ++ s.unfinished.filter _).Perm s.begun
      rw [List.append_assoc]
      exact (hunfinished.symm.append_left _).trans h.perm_begun
    enqueued_eq := by
      show s.received ++ (s.desk.push t.command).queue.waiting = (s.finished ++ [t]).map _
      rw [hqueue, ← List.append_assoc, List.map_append, ← h.enqueued_eq]
      rfl
    returned_eq := by
      show s.returned ++ [_] = (s.finished ++ [t]).map _
      rw [h.returned_eq, List.map_append]
      rfl
    atMostOne := fun other => by
      show (submissionsOf other (s.unfinished.filter _)).length ≤ 1
      rw [submissionsOf_without]
      split
      · exact Nat.zero_le 1
      · exact h.atMostOne other
    inOrder := fun other => by
      show submissionsOf other (s.finished ++ [t]) ++ submissionsOf other (s.unfinished.filter _) =
        submissionsOf other s.begun
      rw [submissionsOf_append, submissionsOf_without, ← h.inOrder other]
      by_cases heq : t.caller = other
      · rw [if_pos heq, if_pos heq, ← heq, hone, List.append_nil]
      · rw [if_neg heq, if_neg heq, List.append_nil]
    program_eq := h.program_eq }

/-- The worker may receive a command. -/
theorem receive (h : s.Sound programs) {command : Command} {queue : CommandQueue}
    (htake : s.desk.queue.take? = some (command, queue)) :
    Sound programs { s with desk := { s.desk with queue := queue }, received := s.received ++ [command] } := by
  unfold CommandQueue.take? at htake
  cases hwaiting : s.desk.queue.waiting with
  | nil =>
    rw [hwaiting] at htake
    exact nomatch htake
  | cons first rest =>
    rw [hwaiting] at htake
    obtain ⟨rfl, rfl⟩ := Prod.mk.inj (Option.some.inj htake)
    refine { h with enqueued_eq := ?_ }
    rw [← h.enqueued_eq, enqueued, enqueued, hwaiting, List.append_assoc]
    rfl

/-- Whatever happens, the desk stays sound. -/
theorem step (h : s.Sound programs) (step : SharedDeskStep) : (s.step step).Sound programs := by
  cases step with
  | advance caller =>
    cases hopen : submissionsOf caller s.unfinished with
    | cons t more =>
      rw [step_advance_of_unfinished hopen]
      exact h.finish hopen
    | nil =>
      cases hprogram : s.programs caller with
      | nil =>
        simp only [SharedDesk.step, hopen, hprogram]
        exact h
      | cons next rest =>
        rw [step_advance_of_program hopen hprogram]
        exact h.begin hopen hprogram
  | receive =>
    cases htake : s.desk.queue.take? with
    | none =>
      simp only [SharedDesk.step, htake]
      exact h
    | some taken =>
      simp only [SharedDesk.step, htake]
      exact h.receive htake

/-- So it is after any number of steps. -/
theorem run (h : s.Sound programs) (steps : List SharedDeskStep) : (s.run steps).Sound programs := by
  induction steps generalizing s with
  | nil => exact h
  | cons step rest ih => exact ih (h.step step)

/-- As long as identifiers do not repeat, those taken are 0, 1, 2 and so on. -/
theorem ids_toNat (h : s.Sound programs) (hfit : s.begun.length < UInt64.size) :
    (s.begun.map fun t => t.id.toNat) = List.range s.begun.length := by
  have hids := congrArg (List.map UInt64.toNat) h.ids_eq
  rw [List.map_map, List.map_map] at hids
  refine hids.trans ((List.map_congr_left fun k hk => ?_).trans (List.map_id _))
  exact UInt64.toNat_ofNat_of_lt' (Nat.lt_trans (List.mem_range.mp hk) hfit)

/-- Then they ascend. -/
theorem pairwise_begun (h : s.Sound programs) (hfit : s.begun.length < UInt64.size) :
    s.begun.Pairwise fun t u => t.id < u.id := by
  have hsorted := List.pairwise_lt_range (n := s.begun.length)
  rw [← h.ids_toNat hfit, List.pairwise_map] at hsorted
  exact hsorted.imp fun hlt => UInt64.lt_iff_toNat_lt.mpr hlt

/-- What is enqueued and what is still in the hands of callers has each identifier taken once. -/
theorem perm_range (h : s.Sound programs) (hfit : s.begun.length < UInt64.size) :
    ((s.enqueued.map fun command => command.id.toNat) ++
      s.unfinished.map fun t => t.id.toNat).Perm (List.range s.begun.length) := by
  rw [h.enqueued_eq, List.map_map, ← h.ids_toNat hfit]
  have hperm := h.perm_begun.map fun t => t.id.toNat
  rwa [List.map_append] at hperm

/-- The submissions of one caller that are finished come in the sequence of their identifiers. -/
theorem pairwise_finished (h : s.Sound programs) (hfit : s.begun.length < UInt64.size) (caller : Nat) :
    (submissionsOf caller s.finished).Pairwise fun t u => t.id < u.id := by
  have hown : (submissionsOf caller s.begun).Pairwise fun t u => t.id < u.id :=
    (h.pairwise_begun hfit).sublist List.filter_sublist
  rw [← h.inOrder caller] at hown
  exact (List.pairwise_append.mp hown).1

end Sound

/-! ## Two callers -/

/-- Of two callers the one who was first to take an identifier may be the last to enqueue its command. -/
theorem exists_enqueued_crossed {programs : Nat → List (String × Order)} {caller other : Nat}
    (hne : caller ≠ other) (hcaller : programs caller ≠ []) (hother : programs other ≠ []) :
    ∃ steps, (run { programs := programs } steps).enqueued.map Command.id = [1, 0] := by
  obtain ⟨first, rest, hfirst⟩ := List.exists_cons_of_ne_nil hcaller
  obtain ⟨second, more, hsecond⟩ := List.exists_cons_of_ne_nil hother
  refine ⟨[.advance caller, .advance other, .advance other, .advance caller], ?_⟩
  simp [run, step, begin, finish, enqueued, submissionsOf, Submission.command, Desk.takeId, Desk.push,
    CommandQueue.send, hfirst, hsecond, hne, hne.symm]

/-- Overlapping callers never mix up identifiers.

Callers issue the orders of their programs in any interleaving of their steps with each other and with the
worker, and fewer than 2^64 identifiers are taken. Then at every moment those taken are 0, 1, 2 and so on,
as many as the next one says. Each of them belongs to one command, received or waiting, or to one caller
between its two steps, and every command holds the account and the order for which its identifier was
taken. A caller is returned the identifier in the command that it has enqueued, and is between the steps of
one order at most. Its commands are enqueued in the sequence of its program, with ascending identifiers.
A caller whom nobody interrupts does what issuing an order does at once; but of two callers with something
to issue the second to take an identifier may be the first to enqueue its command. -/
theorem overlapping_submissions (programs : Nat → List (String × Order)) (steps : List SharedDeskStep) :
    let s := run { programs := programs } steps
    s.begun.length < UInt64.size →
      (s.begun.map fun t => t.id.toNat) = List.range s.begun.length ∧
      s.desk.issued.toNat = s.begun.length ∧
      ((s.enqueued.map fun command => command.id.toNat) ++ s.unfinished.map fun t => t.id.toNat).Perm
        (List.range s.begun.length) ∧
      (s.finished ++ s.unfinished).Perm s.begun ∧
      s.enqueued = s.finished.map Submission.command ∧
      s.returned = s.finished.map (fun t => (t.caller, t.command.id)) ∧
      (∀ caller,
        let own := submissionsOf caller s.finished
        let halfway := submissionsOf caller s.unfinished
        halfway.length ≤ 1 ∧
        (own ++ halfway).map Submission.wanted ++ s.programs caller = programs caller ∧
        (own.map Submission.command).Sublist s.enqueued ∧
        own.Pairwise fun t u => t.id < u.id) ∧
      (∀ caller account order rest, submissionsOf caller s.unfinished = [] →
        s.programs caller = (account, order) :: rest →
          let later := s.run [.advance caller, .advance caller]
          later.desk = (s.desk.submit account order).2 ∧
          later.returned = s.returned ++ [(caller, (s.desk.submit account order).1)]) ∧
      ∀ caller other, caller ≠ other → programs caller ≠ [] → programs other ≠ [] →
        ∃ crossing, (run { programs := programs } crossing).enqueued.map Command.id = [1, 0] := by
  intro s hfit
  have h : s.Sound programs := (Sound.start programs).run steps
  refine ⟨h.ids_toNat hfit, ?_, h.perm_range hfit, h.perm_begun, h.enqueued_eq, h.returned_eq,
    fun caller => ⟨h.atMostOne caller, ?_, ?_, h.pairwise_finished hfit caller⟩,
    fun caller account order rest => run_advance_advance, fun _ _ => exists_enqueued_crossed⟩
  · rw [Desk.issued, h.nextId_eq]
    exact UInt64.toNat_ofNat_of_lt' hfit
  · rw [h.inOrder]
    exact h.program_eq caller
  · rw [h.enqueued_eq]
    exact List.filter_sublist.map _

/-- Three callers, of whom the first is overtaken by the second and the third has not come to its second
step: the worker has received command 1 while command 0 still waits. -/
theorem overlapping_submissions_crossed :
    let verify : String × Order := ("alice", .device .verify ⟨"bob", "PHONE"⟩)
    let settle : String × Order := ("carol", .room .send "!room")
    let programs := fun caller => if caller = 0 then [verify, settle] else [settle]
    let s := run { programs := programs }
      [.advance 0, .advance 1, .advance 1, .receive, .advance 2, .advance 0]
    s.begun.length < UInt64.size ∧
      (s.begun.map fun t => t.id.toNat) = List.range 3 ∧
      s.received = [⟨1, "carol", .room .send "!room"⟩] ∧
      s.desk.queue.waiting = [⟨0, "alice", .device .verify ⟨"bob", "PHONE"⟩⟩] ∧
      s.unfinished.map Submission.caller = [2] ∧
      s.returned = s.finished.map (fun t => (t.caller, t.command.id)) := by
  intro verify settle programs s
  have hfit : s.begun.length < UInt64.size := by decide
  have h := overlapping_submissions programs
    [.advance 0, .advance 1, .advance 1, .receive, .advance 2, .advance 0] hfit
  exact ⟨hfit, h.1, by decide, by decide, by decide, h.2.2.2.2.2.1⟩

end SharedDesk

end DaemonBridge
