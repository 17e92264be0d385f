import DaemonBridge.CommandLine.Program
import DaemonBridge.Proofs.Bridge.Progress
import DaemonBridge.Proofs.Client.Exchange

/-!
# An invocation among everything else

One invocation of the program talks to a bridge while other clients, the user, the worker and the
bridge itself go on in any sequence. Every request is served at once, and what comes of a request of the
invocation is heard some time later. The worker answers only commands that it has received.

The scene remembers what has happened: the events that the worker has sent, the commands that it has
received, and for each request of the invocation the moment at which it was served.
-/

namespace DaemonBridge.Client

/-- A request of the invocation, and the moment at which it was served: the run at that time and what it
had announced. -/
structure Service where
  request : Http.Request
  run : Run
  store : Store
  uptime : UInt64
  announced : List Signal

/-- An invocation and everything around it. What has come of its last request is in `reply` until the
invocation hears it. -/
structure Scene where
  run : Run
  received : List Command := []
  sent : List Event := []
  dialogue : Dialogue (Except ClientError String)
  reply : Option Delivery := none
  served : List Service := []

/-- Something that happens in a scene. -/
inductive Happening where
  /-- Another client sends a request to the control socket. -/
  | request (store : Store) (uptime : UInt64) (request : Http.Request)
  /-- Someone inside the bridge's process issues an order. -/
  | submit (account : String) (order : Order)
  /-- The user picks an action of a notification. -/
  | click (index : Nat) (key : String)
  /-- The run takes a step, such as a tick. -/
  | run (step : RunStep)
  /-- The worker receives the next command. -/
  | receive
  /-- The worker sends an event. -/
  | say (event : Event)
  /-- The request of the invocation is served. -/
  | serve (store : Store) (uptime : UInt64)
  /-- The invocation hears what has come of its request. -/
  | hear

namespace Scene

/-- The commands issued so far. -/
def commands (s : Scene) : List Command :=
  s.received ++ s.run.bridge.desk.queue.waiting

/-- The signals of the events that have been handled so far. -/
def announced (s : Scene) : List Signal :=
  signalsOf (s.sent.take (s.sent.length - s.run.bridge.inbound.waiting.length))

/-- The worker may send an event: an answer only to a command that it has received. -/
def admits (s : Scene) : Event → Bool
  | .answered answer => (s.received.map Command.id).contains answer.id
  | _ => true

/-- Another bridge takes the place of the bridge. -/
def withBridge (s : Scene) (bridge : Bridge) : Scene :=
  { s with run := { s.run with bridge := bridge } }

/-- A request of the invocation, served now. -/
def service (s : Scene) (request : Http.Request) (store : Store) (uptime : UInt64) : Service :=
  ⟨request, s.run, store, uptime, s.announced⟩

/-- A request of the invocation is served. -/
def serving (s : Scene) (request : Http.Request) (store : Store) (uptime : UInt64) : Scene :=
  { s with
    run := (s.run.deliver store uptime request).2
    reply := some (s.run.deliver store uptime request).1
    served := s.served ++ [s.service request store uptime] }

/-- The invocation hears what has come of its request. -/
def hearing (s : Scene) (delivery : Delivery) : Scene :=
  { s with dialogue := s.dialogue.hear delivery, reply := none }

/-- Let something happen. -/
def step (s : Scene) : Happening → Scene
  | .request store uptime request => { s with run := (s.run.deliver store uptime request).2 }
  | .submit account order => s.withBridge (s.run.bridge.submit account order).2
  | .click index key => s.withBridge (s.run.bridge.click index key).2
  | .run step => { s with run := s.run.step step }
  | .receive =>
    match s.run.bridge.takeCommand? with
    | (some command, bridge) => { s.withBridge bridge with received := s.received ++ [command] }
    | (none, _) => s
  | .say event =>
    if s.admits event then { s.withBridge (s.run.bridge.receive event) with sent := s.sent ++ [event] }
    else s
  | .serve store uptime =>
    match s.reply, s.dialogue.request? with
    | none, some request => s.serving request store uptime
    | _, _ => s
  | .hear =>
    match s.reply with
    | some delivery => s.hearing delivery
    | none => s

/-- Let a sequence of things happen. -/
def after (s : Scene) (happenings : List Happening) : Scene :=
  happenings.foldl step s

/-- What holds of every request that has been served holds of those before and of the last one. -/
theorem forall_mem_serving {s : Scene} {request : Http.Request} {store : Store} {uptime : UInt64}
    {p : Service → Prop} : (∀ service ∈ (s.serving request store uptime).served, p service) ↔
      (∀ service ∈ s.served, p service) ∧ p (s.service request store uptime) := by
  simp only [serving, List.forall_mem_append, List.forall_mem_singleton]

/-- The request of an invocation that waits for nothing is served. -/
theorem step_serve (s : Scene) {request : Http.Request} (hreply : s.reply = none)
    (hrequest : s.dialogue.request? = some request) (store : Store) (uptime : UInt64) :
    s.step (.serve store uptime) = s.serving request store uptime := by
  simp only [step, hreply, hrequest]

/-- An invocation that waits for a reply sends nothing. -/
theorem step_serve_of_reply (s : Scene) {delivery : Delivery} (hreply : s.reply = some delivery)
    (store : Store) (uptime : UInt64) : s.step (.serve store uptime) = s := by
  simp only [step, hreply]

/-- An invocation that is over sends nothing. -/
theorem step_serve_of_over (s : Scene) (hrequest : s.dialogue.request? = none) (store : Store)
    (uptime : UInt64) : s.step (.serve store uptime) = s := by
  simp only [step, hrequest]
  cases s.reply <;> rfl

/-- An invocation hears a reply that is under way. -/
theorem step_hear (s : Scene) {delivery : Delivery} (hreply : s.reply = some delivery) :
    s.step .hear = s.hearing delivery := by
  simp only [step, hreply]

/-- Without a reply there is nothing to hear. -/
theorem step_hear_of_none (s : Scene) (hreply : s.reply = none) : s.step .hear = s := by
  simp only [step, hreply]

/-- What happens leaves the invocation alone, serves its request, or lets it hear a reply. -/
theorem step_cases (s : Scene) (happening : Happening) :
    ((s.step happening).dialogue = s.dialogue ∧ (s.step happening).reply = s.reply ∧
        (s.step happening).served = s.served) ∨
      (∃ request store uptime, s.reply = none ∧ s.dialogue.request? = some request ∧
        s.step happening = s.serving request store uptime) ∨
      ∃ delivery, s.reply = some delivery ∧ s.step happening = s.hearing delivery := by
  cases happening with
  | request store uptime request => exact .inl ⟨rfl, rfl, rfl⟩
  | submit account order => exact .inl ⟨rfl, rfl, rfl⟩
  | click index key => exact .inl ⟨rfl, rfl, rfl⟩
  | run step => exact .inl ⟨rfl, rfl, rfl⟩
  | receive =>
    left
    simp only [step]
    split <;> exact ⟨rfl, rfl, rfl⟩
  | say event =>
    left
    simp only [step]
    split <;> exact ⟨rfl, rfl, rfl⟩
  | serve store uptime =>
    cases hreply : s.reply with
    | some delivery =>
      rw [s.step_serve_of_reply hreply]
      exact .inl ⟨rfl, hreply, rfl⟩
    | none =>
      cases hrequest : s.dialogue.request? with
      | none =>
        rw [s.step_serve_of_over hrequest]
        exact .inl ⟨rfl, hreply, rfl⟩
      | some request =>
        exact .inr (.inl ⟨request, store, uptime, rfl, rfl, s.step_serve hreply hrequest store uptime⟩)
  | hear =>
    cases hreply : s.reply with
    | none =>
      rw [s.step_hear_of_none hreply]
      exact .inl ⟨rfl, hreply, rfl⟩
    | some delivery => exact .inr (.inr ⟨delivery, rfl, s.step_hear hreply⟩)

/-! ## What always holds -/

/-- The events sent, the signals announced and the commands issued fit together, the worker has only
answered commands that it has received, and what was announced when a request was served still is. -/
structure Sound (s : Scene) (capacity : Nat) : Prop where
  relays : s.run.bridge.Relays capacity s.sent
    (s.sent.length - s.run.bridge.inbound.waiting.length)
  numbers : s.run.bridge.desk.Numbers s.received
  answered : ∀ answer, .answered answer ∈ s.sent → answer.id ∈ s.received.map Command.id
  past : ∀ service ∈ s.served, service.announced <+: s.announced

/-- The signals announced and the commands issued in the first scene are those that the second begins
with. -/
structure Precedes (s s' : Scene) : Prop where
  announced : s.announced <+: s'.announced
  commands : s.commands <+: s'.commands

/-- A scene precedes itself. -/
theorem Precedes.refl (s : Scene) : s.Precedes s :=
  ⟨List.prefix_refl _, List.prefix_refl _⟩

/-- What comes later comes later than everything before. -/
theorem Precedes.trans {s s' s'' : Scene} (h : s.Precedes s') (h' : s'.Precedes s'') : s.Precedes s'' :=
  ⟨h.announced.trans h'.announced, h.commands.trans h'.commands⟩

/-- How many events a bridge has handled, counted by those that wait. -/
theorem count_of_relays {b : Bridge} {capacity count : Nat} {sent : List Event}
    (h : b.Relays capacity sent count) : sent.length - b.inbound.waiting.length = count := by
  have hle := h.count_le
  rw [h.waiting_eq, List.length_drop]
  omega

namespace Sound

variable {s s' : Scene} {capacity : Nat}

/-- The log retains the signals announced. -/
theorem retains (h : s.Sound capacity) : s.run.bridge.bus.log.Retains s.announced :=
  h.relays.retains

/-- A bridge that makes progress announces more signals and issues more commands. -/
theorem progress (h : s.Sound capacity) {orders : List (String × Order)}
    (hbridge : s.run.bridge.Progress s'.run.bridge orders) (hreceived : s'.received = s.received)
    (hsent : s'.sent = s.sent) (hpast : ∀ service ∈ s'.served, service.announced <+: s.announced) :
    s'.Sound capacity ∧ s.Precedes s' := by
  obtain ⟨count, hle, hrelays⟩ := hbridge.relays h.relays
  obtain ⟨hnumbers, hcommands⟩ := h.numbers.submitAll orders
  have hcount := count_of_relays hrelays
  rw [← hbridge.desk_eq] at hnumbers hcommands
  have hannounced : s.announced <+: s'.announced := by
    rw [announced, announced, hsent, hcount]
    exact (List.take_prefix_take_left hle).filterMap _
  refine ⟨⟨?_, ?_, ?_, fun service hmem => (hpast service hmem).trans hannounced⟩, hannounced, ?_⟩
  · rw [hsent, hcount]
    exact hrelays
  · rw [hreceived]
    exact hnumbers
  · rw [hsent, hreceived]
    exact h.answered
  · rw [commands, commands, hreceived]
    exact List.prefix_append_right_inj _ |>.mpr hcommands

/-- The worker receives the command that has waited longest. -/
theorem receive (h : s.Sound capacity) :
    (s.step .receive).Sound capacity ∧ s.Precedes (s.step .receive) := by
  cases hwaiting : s.run.bridge.desk.queue.waiting with
  | nil =>
    have hstep : s.step .receive = s := by
      simp only [step, Bridge.takeCommand?, CommandQueue.take?, hwaiting]
    rw [hstep]
    exact ⟨h, .refl s⟩
  | cons command rest =>
    have hstep : s.step .receive =
        { s with
          run := { s.run with bridge := { s.run.bridge with desk := { s.run.bridge.desk with
            queue := { s.run.bridge.desk.queue with waiting := rest } } } }
          received := s.received ++ [command] } := by
      simp only [step, Bridge.takeCommand?, CommandQueue.take?, hwaiting]
      rfl
    have hcommands :
        (s.received ++ [command]) ++ rest = s.received ++ s.run.bridge.desk.queue.waiting := by
      rw [List.append_assoc, List.singleton_append, hwaiting]
    rw [hstep]
    refine ⟨⟨h.relays.of_eq rfl rfl, ⟨h.numbers.receiverOpen, ?_, ?_⟩, fun answer hmem => ?_, h.past⟩,
      ?_, ?_⟩
    · simp only [hcommands, h.numbers.nextId_eq]
    · simp only [hcommands, h.numbers.ids_eq]
    · rw [List.map_append]
      exact List.mem_append_left _ (h.answered answer hmem)
    · exact List.prefix_refl _
    · simp only [commands, hcommands]
      exact List.prefix_refl _

/-- The worker sends an event. -/
theorem say (h : s.Sound capacity) (event : Event) :
    (s.step (.say event)).Sound capacity ∧ s.Precedes (s.step (.say event)) := by
  by_cases hadmits : s.admits event = true
  · have hstep : s.step (.say event) =
        { s.withBridge (s.run.bridge.receive event) with sent := s.sent ++ [event] } := if_pos hadmits
    have hrelays := h.relays.receive event
    have hcount := count_of_relays hrelays
    have hannounced : s.announced = signalsOf ((s.sent ++ [event]).take
        ((s.sent ++ [event]).length - (s.run.bridge.receive event).inbound.waiting.length)) := by
      rw [hcount, List.take_append_of_le_length (Nat.sub_le _ _), announced]
    have hlater : s.announced <+: signalsOf ((s.sent ++ [event]).take
        ((s.sent ++ [event]).length - (s.run.bridge.receive event).inbound.waiting.length)) :=
      hannounced ▸ List.prefix_refl _
    rw [hstep]
    refine ⟨⟨?_, h.numbers, fun answer hmem => ?_,
      fun service hmem => (h.past service hmem).trans hlater⟩, hlater, List.prefix_refl _⟩
    · exact hcount.symm ▸ hrelays
    · rcases List.mem_append.mp hmem with hmem | hmem
      · exact h.answered answer hmem
      · rw [← List.mem_singleton.mp hmem] at hadmits
        exact List.contains_iff_mem.mp hadmits
  · have hstep : s.step (.say event) = s := if_neg hadmits
    rw [hstep]
    exact ⟨h, .refl s⟩

/-- A request of the invocation is served. -/
theorem serving (h : s.Sound capacity) (request : Http.Request) (store : Store) (uptime : UInt64) :
    (s.serving request store uptime).Sound capacity ∧ s.Precedes (s.serving request store uptime) := by
  obtain ⟨orders, hprogress⟩ := s.run.progress_deliver store uptime request
  exact h.progress hprogress rfl rfl (forall_mem_serving.mpr ⟨h.past, List.prefix_refl _⟩)

/-- The invocation hears a reply. -/
theorem hearing (h : s.Sound capacity) (delivery : Delivery) :
    (s.hearing delivery).Sound capacity ∧ s.Precedes (s.hearing delivery) :=
  h.progress (.refl _) rfl rfl h.past

/-- Whatever happens, the scene stays sound, and only more is announced and issued. -/
theorem step (h : s.Sound capacity) (happening : Happening) :
    (s.step happening).Sound capacity ∧ s.Precedes (s.step happening) := by
  cases happening with
  | request store uptime request =>
    obtain ⟨orders, hprogress⟩ := s.run.progress_deliver store uptime request
    exact h.progress hprogress rfl rfl h.past
  | submit account order => exact h.progress (s.run.bridge.progress_submit account order) rfl rfl h.past
  | click index key =>
    obtain ⟨orders, hprogress⟩ := s.run.bridge.progress_click index key
    exact h.progress hprogress rfl rfl h.past
  | run step => exact h.progress (s.run.progress_step step) rfl rfl h.past
  | receive => exact h.receive
  | say event => exact h.say event
  | serve store uptime =>
    cases hreply : s.reply with
    | some delivery =>
      rw [s.step_serve_of_reply hreply]
      exact ⟨h, .refl s⟩
    | none =>
      cases hrequest : s.dialogue.request? with
      | none =>
        rw [s.step_serve_of_over hrequest]
        exact ⟨h, .refl s⟩
      | some request =>
        rw [s.step_serve hreply hrequest]
        exact h.serving request store uptime
  | hear =>
    cases hreply : s.reply with
    | none =>
      rw [s.step_hear_of_none hreply]
      exact ⟨h, .refl s⟩
    | some delivery =>
      rw [s.step_hear hreply]
      exact h.hearing delivery

/-- The response to a command is announced only after the worker has received the command. -/
theorem id_mem_of_answers (h : s.Sound capacity) {signal : Signal} (hmem : signal ∈ s.announced)
    {id : CommandId} (hanswers : signal.answers? = some id) : id ∈ s.received.map Command.id := by
  obtain ⟨event, hevent, hsignal⟩ := List.mem_filterMap.mp hmem
  cases event with
  | answered answer =>
    cases hsignal
    cases hanswers
    exact h.answered answer (List.mem_of_mem_take hevent)
  | usersChanged => cases hsignal
  | devicesChanged => cases hsignal
  | unrecognized => cases hsignal
  | messageHeld held => cases hsignal; cases hanswers
  | verificationInvited v => cases hsignal; cases hanswers
  | symbolsReady v symbols => cases hsignal; cases hanswers
  | verificationDone v => cases hsignal; cases hanswers
  | verificationCanceled v reason code => cases hsignal; cases hanswers

/-- No signal is a response to the next command. -/
theorem nextId_unanswered (h : s.Sound capacity) (hfit : s.commands.length < UInt64.size) :
    ∀ signal ∈ s.announced, signal.answers? ≠ some s.run.bridge.desk.nextId := by
  intro signal hmem hanswers
  apply h.numbers.nextId_not_mem hfit
  rw [List.map_append]
  exact List.mem_append_left _ (h.id_mem_of_answers hmem hanswers)

/-- The number of the last signal is the number of signals announced. -/
theorem lastSeq_eq (h : s.Sound capacity) :
    s.run.bridge.bus.lastSeq = UInt64.ofNat s.announced.length :=
  h.retains.lastSeq_eq

end Sound

end Scene

end DaemonBridge.Client
