import DaemonBridge.Bridge.Link
import DaemonBridge.Proofs.Bridge.Issuing
import DaemonBridge.Proofs.Control.Secrecy
import DaemonBridge.Proofs.Notification.Noninterference
import DaemonBridge.Proofs.Pipe.Lines

/-!
# Passphrases reach the worker and nobody else

Two bridges around which the same is done, but for what the passphrases in key orders say, are the same
without their passphrases (`Run.masked`), and stay so. Whatever anybody but the worker is told or can look
at (`Told`, `View`) depends on no more than that. The worker is written the same commands, whose lines
differ in nothing but their passphrases (`Link.passphrases_reach_worker_only`).

A refusal stands here for its status; how a refusal is worded is not part of it.
-/

namespace DaemonBridge

/-! ## Masks -/

/-- An order without its passphrase has none to take out. -/
theorem Order.masked_masked (order : Order) : order.masked.masked = order.masked := by
  cases order <;> rfl

/-- Neither has a command. -/
theorem Command.masked_masked (command : Command) : command.masked.masked = command.masked :=
  congrArg (Command.mk command.id command.account) command.order.masked_masked

namespace CommandQueue

/-- The queue without the passphrases of its commands. -/
def masked (q : CommandQueue) : CommandQueue :=
  { q with waiting := q.waiting.map Command.masked }

/-- A queue without passphrases has none to take out. -/
theorem masked_masked (q : CommandQueue) : q.masked.masked = q.masked := by
  simp only [masked, List.map_map, Function.comp_def, Command.masked_masked]

/-- A command is enqueued alike. -/
theorem masked_send (q : CommandQueue) (command : Command) :
    (q.send command).masked = q.masked.send command.masked := by
  have hopen : q.masked.receiverOpen = q.receiverOpen := rfl
  unfold send
  rw [hopen]
  split
  · simp only [masked, List.map_append, List.map_cons, List.map_nil]
  · rfl

/-- The next command is taken alike. -/
theorem take?_masked (q : CommandQueue) :
    q.masked.take? = q.take?.map fun (command, rest) => (command.masked, rest.masked) := by
  obtain ⟨waiting, senderOpen, receiverOpen⟩ := q
  cases waiting <;> rfl

end CommandQueue

namespace Desk

/-- The desk without the passphrases of its commands. -/
def masked (desk : Desk) : Desk :=
  { desk with queue := desk.queue.masked }

/-- A desk without passphrases has none to take out. -/
theorem masked_masked (desk : Desk) : desk.masked.masked = desk.masked :=
  congrArg (Desk.mk desk.nextId) desk.queue.masked_masked

/-- An order is issued alike, whatever its passphrase. -/
theorem masked_submit (desk : Desk) (account : String) (order : Order) :
    (desk.submit account order).2.masked = (desk.masked.submit account order.masked).2 :=
  congrArg (Desk.mk (desk.nextId + 1)) (desk.queue.masked_send _)

end Desk

namespace Bridge

/-- The bridge without the passphrases of its commands. -/
def masked (b : Bridge) : Bridge :=
  { b with desk := b.desk.masked }

/-- A bridge without passphrases has none to take out. -/
theorem masked_masked (b : Bridge) : b.masked.masked = b.masked :=
  congrArg (fun desk => { b with desk := desk }) b.desk.masked_masked

/-- What an event makes known is announced alike. -/
theorem masked_announce (b : Bridge) (event : Event) :
    (b.announce event).masked = b.masked.announce event := by
  unfold announce
  cases event.signal? <;> rfl

/-- Its notification is shown alike. -/
theorem masked_notify (b : Bridge) (runtime : Bool) (event : Event) :
    (b.notify runtime event).masked = b.masked.notify runtime event := by
  have hnotifier : b.masked.notifier = b.notifier := rfl
  unfold notify
  rw [hnotifier]
  cases (Notification.ofEvent? event).bind (b.notifier.forDesktop? runtime) <;> rfl

/-- It is handled alike. -/
theorem masked_handle (b : Bridge) (store : Store) (runtime : Bool) (event : Event) :
    (b.handle store runtime event).masked = b.masked.handle store runtime event := by
  have hrefresh : (b.refreshFor store event).masked = b.masked.refreshFor store event := by
    cases event <;> rfl
  rw [handle, masked_notify, masked_announce, hrefresh]
  rfl

/-- So is whichever event is next. -/
theorem masked_tick (b : Bridge) (store : Store) (runtime : Bool) :
    b.masked.tick store runtime = ((b.tick store runtime).1, (b.tick store runtime).2.masked) := by
  have hnext : b.masked.inbound = b.inbound := rfl
  unfold tick
  rw [hnext]
  cases b.inbound.next? with
  | none => rfl
  | some next =>
    obtain ⟨event, inbound⟩ := next
    have hhandle := masked_handle { b with inbound := inbound } store runtime event
    exact congrArg (fun b : Bridge => (Tick.dispatched, { b with inbound := b.inbound.taskDone })) hhandle.symm

/-- The worker takes the next command alike. -/
theorem masked_takeCommand? (b : Bridge) :
    b.masked.takeCommand? = (b.takeCommand?.1.map Command.masked, b.takeCommand?.2.masked) := by
  have hqueue : b.masked.desk.queue = b.desk.queue.masked := rfl
  unfold takeCommand?
  rw [hqueue, CommandQueue.take?_masked]
  cases b.desk.queue.take? <;> rfl

/-- An order is issued alike, whatever its passphrase. -/
theorem masked_submit (b : Bridge) (account : String) (order : Order) :
    (b.submit account order).2.masked = (b.masked.submit account order.masked).2 :=
  congrArg (fun desk => { b with desk := desk }) (b.desk.masked_submit account order)

/-- Events are received alike. -/
theorem masked_receiveAll (b : Bridge) (events : List Event) :
    (events.foldl receive b).masked = events.foldl receive b.masked := by
  induction events generalizing b with
  | nil => rfl
  | cons event events ih => exact ih (b.receive event)

/-- A click issues an order alike. -/
theorem masked_click (b : Bridge) (index : Nat) (key : String) :
    (b.masked.click index key).1 = (b.click index key).1 ∧
      (b.masked.click index key).2.masked = (b.click index key).2.masked := by
  have hdisplay : b.masked.display = b.display := rfl
  unfold click
  rw [hdisplay]
  cases b.display[index]? with
  | none => exact ⟨rfl, b.masked_masked⟩
  | some notification =>
    have htrigger : (notification.trigger key b.masked.desk).1 = (notification.trigger key b.desk).1 ∧
        (notification.trigger key b.masked.desk).2.masked = (notification.trigger key b.desk).2.masked := by
      unfold Notification.trigger
      cases notification.action? key with
      | none => exact ⟨rfl, b.desk.masked_masked⟩
      | some action =>
        obtain ⟨key, label, effect⟩ := action
        cases effect with
        | issued id => exact ⟨rfl, b.desk.masked_masked⟩
        | order account order =>
          refine ⟨rfl, ?_⟩
          show (b.desk.masked.submit account order).2.masked = (b.desk.submit account order).2.masked
          rw [Desk.masked_submit, Desk.masked_submit, Desk.masked_masked]
    refine ⟨htrigger.1, ?_⟩
    exact congrArg (fun desk => { b with desk := desk, display := b.display.eraseIdx index }) htrigger.2

end Bridge

/-! ## Activities -/

/-- The same is done, but for what passphrases say. -/
inductive Activity.Alike : Activity → Activity → Prop
  | same (activity : Activity) : Alike activity activity
  | submit (account : String) {order order' : Order} (h : order.masked = order'.masked) :
    Alike (.occur (.submit account order)) (.occur (.submit account order'))
  | request (uptime : UInt64) {request request' : Http.Request} (h : Control.AlikeRequests request request') :
    Alike (.request uptime request) (.request uptime request')

/-- What those who do something, or look on, are told at once: the identifier of a command, what has become
of a request, what a tick returns, and what diagnostics show of a key request and of the command that the
worker receives. -/
structure Told where
  id : Option CommandId
  arrival : Option Control.Arrival
  ticks : List Tick
  request : Option String
  received : Option String

namespace Run

/-- The run without the passphrases of its commands. -/
def masked (r : Run) : Run :=
  r.withBridge r.bridge.masked

/-- A run without passphrases has none to take out. -/
theorem masked_masked (r : Run) : r.masked.masked = r.masked :=
  congrArg r.withBridge r.bridge.masked_masked

/-- Another bridge takes the place of the bridge alike. -/
theorem masked_withBridge {r r' : Run} (hr : r.masked = r'.masked) {b b' : Bridge}
    (hb : b.masked = b'.masked) : (r.withBridge b).masked = (r'.withBridge b').masked := by
  show r.withBridge b.masked = r'.withBridge b'.masked
  rw [hb]
  exact (congrArg (fun r : Run => r.withBridge b'.masked) hr :)

/-- Runs that are the same without their passphrases take the same steps. -/
theorem masked_step (r : Run) (step : RunStep) : (r.step step).masked = r.masked.step step := by
  cases step with
  | tick store runtime =>
    have htick := congrArg Prod.snd (r.bridge.masked_tick store runtime)
    exact congrArg r.withBridge htick.symm
  | call | enter | requestStop | begin | answer | finish =>
    rw [masked, r.step_bridge fun _ _ => RunStep.noConfusion]
    exact (step_withBridge r (b := r.bridge.masked) rfl fun _ _ => RunStep.noConfusion).symm

/-- What is told at once. -/
def told (r : Run) (activity : Activity) : Told where
  id := r.returned? activity
  arrival :=
    match activity with
    | .request uptime request => some (Control.arrive r uptime request).1
    | _ => none
  ticks := r.returnedTicks activity
  request :=
    match activity with
    | .request _ request => Control.shownKeyRequest? request
    | _ => none
  received := (r.received? activity).map Command.shown

/-- What happens around a run leaves the same behind without passphrases, and the same is told. -/
theorem occur_masked (r : Run) (occurrence : Occurrence) :
    (r.masked.occur occurrence).masked = (r.occur occurrence).masked ∧
      r.masked.told (.occur occurrence) = r.told (.occur occurrence) := by
  cases occurrence with
  | run step =>
    constructor
    · show (r.masked.step step).masked = (r.step step).masked
      rw [masked_step, masked_step, masked_masked]
    · cases step with
      | tick store runtime =>
        have htick := congrArg Prod.fst (r.bridge.masked_tick store runtime)
        exact congrArg (fun tick => Told.mk none none [tick] none none) htick
      | call | enter | requestStop | begin | answer | finish => rfl
  | submit account order =>
    refine ⟨congrArg r.withBridge ?_, rfl⟩
    show (r.bridge.masked.submit account order).2.masked = (r.bridge.submit account order).2.masked
    rw [Bridge.masked_submit, Bridge.masked_submit]
    exact congrArg (fun b : Bridge => (b.submit account order.masked).2) r.bridge.masked_masked
  | click index key =>
    obtain ⟨hid, hbridge⟩ := r.bridge.masked_click index key
    exact ⟨congrArg r.withBridge hbridge, congrArg (fun id => Told.mk id none [] none none) hid⟩
  | takeCommand =>
    have htake := r.bridge.masked_takeCommand?
    constructor
    · refine congrArg r.withBridge ?_
      show r.bridge.masked.takeCommand?.2.masked = r.bridge.takeCommand?.2.masked
      rw [htake]
      exact Bridge.masked_masked _
    · refine congrArg (Told.mk none none [] none) ?_
      show r.bridge.masked.takeCommand?.1.map Command.shown = r.bridge.takeCommand?.1.map Command.shown
      rw [htake, Option.map_map]
      exact congrArg (fun shown => Option.map shown r.bridge.takeCommand?.1) (funext Command.shown_masked)
  | send event =>
    exact ⟨congrArg (fun b : Bridge => r.withBridge (b.receive event)) r.bridge.masked_masked, rfl⟩
  | refreshLogins store =>
    exact ⟨congrArg (fun b : Bridge => r.withBridge (b.refreshLogins store)) r.bridge.masked_masked, rfl⟩
  | refreshDevices store =>
    exact ⟨congrArg (fun b : Bridge => r.withBridge (b.refreshDevices store)) r.bridge.masked_masked, rfl⟩

/-- What is asked for is undertaken alike. -/
theorem undertake_masked (r : Run) (uptime : UInt64) (operation : Control.Operation) :
    (Control.undertake r.masked uptime operation.masked).1 = (Control.undertake r uptime operation).1 ∧
      (Control.undertake r.masked uptime operation.masked).2.masked =
        (Control.undertake r uptime operation).2.masked := by
  cases operation with
  | submit account order =>
    refine ⟨rfl, congrArg r.withBridge ?_⟩
    show (r.bridge.masked.submit account order.masked).2.masked = (r.bridge.submit account order).2.masked
    rw [← Bridge.masked_submit, Bridge.masked_masked]
  | inquire inquiry => exact ⟨rfl, congrArg (fun r : Run => r.step (.call inquiry)) r.masked_masked⟩
  | stop => exact ⟨rfl, congrArg (fun r : Run => r.step .requestStop) r.masked_masked⟩
  | health | config | signals => exact ⟨rfl, r.masked_masked⟩

variable {r r' : Run}

/-- Alike requests meet with the same, and leave the same behind without passphrases. -/
theorem arrive_alike (hr : r.masked = r'.masked) (uptime : UInt64) {request request' : Http.Request}
    (h : Control.AlikeRequests request request') :
    (Control.arrive r uptime request).1 = (Control.arrive r' uptime request').1 ∧
      (Control.arrive r uptime request).2.masked = (Control.arrive r' uptime request').2.masked := by
  unfold Control.arrive
  rcases Control.cases_of_map_eq_map (Control.Operation.masked_ofRequest h) with
    ⟨refusal, hfirst, hsecond⟩ | ⟨operation, operation', hfirst, hsecond, heq⟩
  · rw [hfirst, hsecond]
    exact ⟨rfl, hr⟩
  · obtain ⟨harrival, hleft⟩ := r.undertake_masked uptime operation
    obtain ⟨harrival', hleft'⟩ := r'.undertake_masked uptime operation'
    rw [hfirst, hsecond]
    rw [hr, heq] at harrival hleft
    exact ⟨harrival.symm.trans harrival', hleft.symm.trans hleft'⟩

/-- Activities that are the same but for what passphrases say leave the same behind without passphrases, and
the same is told. -/
theorem act_alike (hr : r.masked = r'.masked) {activity activity' : Activity}
    (h : activity.Alike activity') :
    (r.act activity).masked = (r'.act activity').masked ∧ r.told activity = r'.told activity' := by
  have hrequest : ∀ (uptime : UInt64) {request request' : Http.Request},
      Control.AlikeRequests request request' →
        (r.act (.request uptime request)).masked = (r'.act (.request uptime request')).masked ∧
          r.told (.request uptime request) = r'.told (.request uptime request') := by
    intro uptime request request' halike
    obtain ⟨harrival, hleft⟩ := arrive_alike hr uptime halike
    refine ⟨hleft, ?_⟩
    simp only [told, returned?, returnedTicks, received?, harrival, Control.shownKeyRequest?_eq halike]
  cases h with
  | same activity =>
    cases activity with
    | occur occurrence =>
      obtain ⟨hact, htold⟩ := r.occur_masked occurrence
      obtain ⟨hact', htold'⟩ := r'.occur_masked occurrence
      rw [hr] at hact htold
      exact ⟨hact.symm.trans hact', htold.symm.trans htold'⟩
    | request uptime request => exact hrequest uptime (.refl request)
    | dismiss => exact ⟨(congrArg (fun r : Run => r.withBridge r.bridge.takeNotifications.2) hr :), rfl⟩
    | loseWorker => exact ⟨(congrArg (fun r : Run => r.withBridge r.bridge.loseWorker) hr :), rfl⟩
  | @submit account order order' horder =>
    have hid : r.bridge.desk.nextId = r'.bridge.desk.nextId :=
      (congrArg (fun r : Run => r.bridge.desk.nextId) hr :)
    refine ⟨?_, congrArg (fun id => Told.mk (some id) none [] none none) hid⟩
    show r.withBridge (r.bridge.submit account order).2.masked =
      r'.withBridge (r'.bridge.submit account order').2.masked
    rw [Bridge.masked_submit, Bridge.masked_submit, horder]
    exact (congrArg (fun r : Run => r.withBridge (r.bridge.submit account order'.masked).2) hr :)
  | request uptime halike => exact hrequest uptime halike

end Run

/-! ## A bridge and its pipe -/

namespace Pipe

/-- The pipe without what it has written. -/
def unwritten (p : Pipe) : Pipe :=
  { p with written := [] }

/-- A line is taken alike. -/
theorem unwritten_takeLine (p : Pipe) (line : List UInt8) :
    (p.takeLine line).unwritten = p.unwritten.takeLine line := by
  unfold takeLine
  split
  · rfl
  · cases Event.ofBytes line <;> rfl

/-- Bytes are read alike. -/
theorem unwritten_readBytes (p : Pipe) (bytes : List UInt8) :
    (bytes.foldl readByte p).unwritten = bytes.foldl readByte p.unwritten := by
  induction bytes generalizing p with
  | nil => rfl
  | cons b bytes ih =>
    have hbyte : (p.readByte b).unwritten = p.unwritten.readByte b := by
      unfold readByte
      split
      · exact congrArg (fun p : Pipe => { p with line := [] }) (p.unwritten_takeLine p.line.reverse)
      · rfl
    rw [List.foldl_cons, List.foldl_cons, ih, hbyte]

/-- The commands that a step writes. -/
def writes (p : Pipe) : PipeStep → List Command
  | .command command => if p.status = .running ∧ p.readerOpen then [command] else []
  | _ => []

/-- What a step writes are the lines of these commands. -/
theorem written_step (p : Pipe) (step : PipeStep) :
    (p.step step).written = p.written ++ (p.writes step).flatMap Command.line := by
  have hsilent : ∀ p' : Pipe, p'.written = p.written → p.writes step = [] →
      p'.written = p.written ++ (p.writes step).flatMap Command.line := by
    intro p' hwritten hnone
    rw [hwritten, hnone, List.flatMap_nil, List.append_nil]
  have hsteps := p.steps step
  revert hsteps
  generalize p.step step = p'
  intro hsteps
  cases hsteps with
  | ended step hover =>
    refine hsilent p rfl ?_
    cases step with
    | command command => exact if_neg fun h => hover h.1
    | input | inputEnds | commandsEnd | outputCloses | stop => rfl
  | input bytes => exact hsilent _ (ReadsOn.readBytes p bytes).written_eq rfl
  | inputEnds => exact hsilent _ (ReadsOn.takeLine p p.line.reverse).written_eq rfl
  | write command hrunning hopen =>
    rw [writes, if_pos ⟨hrunning, hopen⟩, List.flatMap_singleton]
  | breaks command hrunning hgone =>
    exact hsilent _ rfl (if_neg fun h => Bool.noConfusion (hgone.symm.trans h.2))
  | outputCloses | commandsEnd | stop => exact hsilent _ rfl rfl

/-- What a step does otherwise does not depend on what has been written. -/
theorem unwritten_step (p : Pipe) (step : PipeStep) :
    (p.step step).unwritten = (p.unwritten.step step).unwritten := by
  have hstatus : p.unwritten.status = p.status := rfl
  unfold Pipe.step
  rw [hstatus]
  cases p.status with
  | closed | broken => rfl
  | running =>
    cases step with
    | input bytes => exact (congrArg unwritten (p.unwritten_readBytes bytes) :)
    | inputEnds =>
      show p.readEnd.unwritten = p.unwritten.readEnd.unwritten
      rw [readEnd_eq, readEnd_eq]
      have hline := congrArg (fun p : Pipe => { p with line := [], status := .closed, written := [] })
        (p.unwritten_takeLine p.line.reverse)
      exact hline
    | command command =>
      show (p.write command).unwritten = (p.unwritten.write command).unwritten
      have hopen : p.unwritten.readerOpen = p.readerOpen := rfl
      unfold write
      rw [hopen]
      split <;> rfl
    | commandsEnd | outputCloses | stop => rfl

/-- Whichever command is written, what a step does otherwise is the same. -/
theorem unwritten_command (p : Pipe) (command command' : Command) :
    (p.step (.command command)).unwritten = (p.step (.command command')).unwritten := by
  unfold Pipe.step
  cases p.status with
  | closed | broken => rfl
  | running =>
    show (p.write command).unwritten = (p.write command').unwritten
    unfold write
    split <;> rfl

end Pipe

/-- Something that happens to a bridge and the pipe to its worker. -/
inductive LinkStep where
  /-- Something is done around the bridge. -/
  | act (activity : Activity)
  /-- The pipe takes the next command, and writes it. -/
  | forward
  /-- Something else happens at an end of the pipe. -/
  | through (happening : PipeStep)

/-- The same happens, but for what passphrases say. -/
inductive LinkStep.Alike : LinkStep → LinkStep → Prop
  | act {activity activity' : Activity} (h : activity.Alike activity') : Alike (.act activity) (.act activity')
  | forward : Alike .forward .forward
  | through (happening : PipeStep) (h : ∀ command, happening ≠ .command command) :
    Alike (.through happening) (.through happening)

/-- What anybody but the worker can look at: the signals, what the desktop shows, the cache, the events and
their count, the callers and their answers, the identifiers taken, how many commands wait and what
diagnostics show of them and of their orders, and the counters and the state of the pipe. -/
structure View where
  bus : SignalBus
  display : List Notification
  cache : Cache
  inbound : EventQueue
  calls : List Call
  issued : CommandId
  waiting : Nat
  commandsShown : List String
  ordersShown : List String
  stats : PipeStats
  status : PipeStatus

namespace Link

/-- Hand over the events that the pipe has read; once it has ended the worker is gone. -/
def carry (l : Link) (pipe : Pipe) : Link :=
  let bridge := (pipe.events.drop l.pipe.events.length).foldl Bridge.receive l.run.bridge
  ⟨l.run.withBridge (if pipe.status = .running then bridge else bridge.loseWorker), pipe⟩

/-- Let something happen. -/
def step (l : Link) : LinkStep → Link
  | .act activity => { l with run := l.run.act activity }
  | .forward =>
    match l.run.bridge.takeCommand? with
    | (some command, bridge) =>
      carry { l with run := l.run.withBridge bridge } (l.pipe.step (.command command))
    | (none, _) => l
  | .through happening => l.carry (l.pipe.step happening)

/-- Let a sequence of things happen. -/
def steps (l : Link) (happenings : List LinkStep) : Link :=
  happenings.foldl step l

/-- What anybody but the worker can look at. -/
def view (l : Link) : View where
  bus := l.run.bridge.bus
  display := l.run.bridge.display
  cache := l.run.bridge.cache
  inbound := l.run.bridge.inbound
  calls := l.run.calls
  issued := l.run.bridge.desk.issued
  waiting := l.run.bridge.desk.queue.waiting.length
  commandsShown := l.run.bridge.desk.queue.waiting.map Command.shown
  ordersShown := l.run.bridge.desk.queue.waiting.map fun command => command.order.shown
  stats := l.pipe.stats
  status := l.pipe.status

/-- What is told at once of something that happens. -/
def told? (l : Link) : LinkStep → Option Told
  | .act activity => some (l.run.told activity)
  | _ => none

/-- All that anybody but the worker is told, and sees after each thing that happens. -/
def observed (l : Link) : List LinkStep → List (Option Told × View)
  | [] => []
  | happening :: rest => (l.told? happening, (l.step happening).view) :: (l.step happening).observed rest

/-- The two are the same but for what passphrases say, and have written the same commands but for their
passphrases. -/
structure Alike (l l' : Link) : Prop where
  run_eq : l.run.masked = l'.run.masked
  pipe_eq : l.pipe.unwritten = l'.pipe.unwritten
  written : ∃ commands commands' : List Command, l.pipe.written = commands.flatMap Command.line ∧
    l'.pipe.written = commands'.flatMap Command.line ∧
    commands.map Command.masked = commands'.map Command.masked

variable {l l' : Link}

/-- Those who look at the two see the same. -/
theorem Alike.view_eq (h : l.Alike l') : l.view = l'.view := by
  obtain ⟨hrun, hpipe, -⟩ := h
  have hwaiting : l.run.bridge.desk.queue.waiting.map Command.masked =
      l'.run.bridge.desk.queue.waiting.map Command.masked :=
    (congrArg (fun r : Run => r.bridge.desk.queue.waiting) hrun :)
  have hmap : ∀ {α : Type} (read : Command → α), (∀ command, read command.masked = read command) →
      l.run.bridge.desk.queue.waiting.map read = l'.run.bridge.desk.queue.waiting.map read := by
    intro α read hread
    have hcomp : read ∘ Command.masked = read := funext hread
    rw [← hcomp, ← List.map_map, ← List.map_map, hwaiting]
  have hlength : l.run.bridge.desk.queue.waiting.length = l'.run.bridge.desk.queue.waiting.length := by
    rw [← List.length_map Command.masked, hwaiting, List.length_map]
  simp only [view, View.mk.injEq]
  exact ⟨(congrArg (fun r : Run => r.bridge.bus) hrun :), (congrArg (fun r : Run => r.bridge.display) hrun :),
    (congrArg (fun r : Run => r.bridge.cache) hrun :), (congrArg (fun r : Run => r.bridge.inbound) hrun :),
    (congrArg Run.calls hrun :), (congrArg (fun r : Run => r.bridge.desk.nextId) hrun :), hlength,
    hmap _ Command.shown_masked, hmap _ fun command => command.order.shown_masked,
    (congrArg Pipe.stats hpipe :), (congrArg Pipe.status hpipe :)⟩

/-- After steps of the two pipes that write the same commands but for their passphrases, what they have read
is handed over, and the two stay alike. -/
theorem Alike.carry (h : l.Alike l') {r r' : Run} (hrun : r.masked = r'.masked) {step step' : PipeStep}
    (hsteps : (l.pipe.step step).unwritten = (l'.pipe.step step').unwritten)
    (hwrites : (l.pipe.writes step).map Command.masked = (l'.pipe.writes step').map Command.masked) :
    (Link.carry ⟨r, l.pipe⟩ (l.pipe.step step)).Alike (Link.carry ⟨r', l'.pipe⟩ (l'.pipe.step step')) where
  run_eq := by
    have hbefore : l.pipe.events = l'.pipe.events := (congrArg Pipe.events h.pipe_eq :)
    have hafter : (l.pipe.step step).events = (l'.pipe.step step').events := (congrArg Pipe.events hsteps :)
    have hstatus : (l.pipe.step step).status = (l'.pipe.step step').status := (congrArg Pipe.status hsteps :)
    have hreceived : ∀ events : List Event, (events.foldl Bridge.receive r.bridge).masked =
        (events.foldl Bridge.receive r'.bridge).masked := fun events => by
      rw [Bridge.masked_receiveAll, Bridge.masked_receiveAll]
      exact (congrArg (fun r : Run => events.foldl Bridge.receive r.bridge) hrun :)
    simp only [Link.carry, hbefore, hafter, hstatus]
    split
    · exact Run.masked_withBridge hrun (hreceived _)
    · exact Run.masked_withBridge hrun (congrArg Bridge.loseWorker (hreceived _) :)
  pipe_eq := hsteps
  written := by
    obtain ⟨commands, commands', hwritten, hwritten', hsame⟩ := h.written
    refine ⟨commands ++ l.pipe.writes step, commands' ++ l'.pipe.writes step', ?_, ?_, ?_⟩
    · rw [List.flatMap_append, ← hwritten]
      exact l.pipe.written_step step
    · rw [List.flatMap_append, ← hwritten']
      exact l'.pipe.written_step step'
    · rw [List.map_append, List.map_append, hsame, hwrites]

/-- Whatever happens at the ends of the pipes, they make the same of it but for what they write. -/
theorem Alike.unwritten_step (h : l.Alike l') (step : PipeStep) :
    (l.pipe.step step).unwritten = (l'.pipe.step step).unwritten := by
  rw [l.pipe.unwritten_step, h.pipe_eq, ← l'.pipe.unwritten_step]

/-- The pipes take the next command alike. -/
theorem Alike.forward (h : l.Alike l') : (l.step .forward).Alike (l'.step .forward) := by
  have htake : l.run.bridge.masked.takeCommand? = l'.run.bridge.masked.takeCommand? :=
    (congrArg (fun r : Run => r.bridge.takeCommand?) h.run_eq :)
  rw [Bridge.masked_takeCommand?, Bridge.masked_takeCommand?] at htake
  obtain ⟨hcommand, hbridge⟩ := Prod.mk.inj htake
  simp only [Link.step]
  revert hcommand hbridge
  rcases l.run.bridge.takeCommand? with ⟨_ | command, bridge⟩ <;>
    rcases l'.run.bridge.takeCommand? with ⟨_ | command', bridge'⟩
  · exact fun _ _ => h
  · exact nofun
  · exact nofun
  · intro hcommand hbridge
    have hmasked : command.masked = command'.masked := Option.some.inj hcommand
    have hopen : (l.pipe.status = .running ∧ l.pipe.readerOpen) =
        (l'.pipe.status = .running ∧ l'.pipe.readerOpen) :=
      (congrArg (fun p : Pipe => p.status = .running ∧ p.readerOpen = true) h.pipe_eq :)
    refine h.carry (Run.masked_withBridge h.run_eq hbridge)
      ((h.unwritten_step _).trans (l'.pipe.unwritten_command command command')) ?_
    simp only [Pipe.writes, hopen]
    split
    · exact congrArg (fun command => [command]) hmasked
    · rfl

/-- Whatever happens alike, the two stay alike, and those who are told something are told the same. -/
theorem Alike.step (h : l.Alike l') {happening happening' : LinkStep} (hhappens : happening.Alike happening') :
    (l.step happening).Alike (l'.step happening') ∧ l.told? happening = l'.told? happening' := by
  cases hhappens with
  | act hactivity =>
    obtain ⟨hact, htold⟩ := Run.act_alike h.run_eq hactivity
    exact ⟨⟨hact, h.pipe_eq, h.written⟩, congrArg some htold⟩
  | forward => exact ⟨h.forward, rfl⟩
  | through happening hother =>
    have hnone : ∀ p : Pipe, p.writes happening = [] := fun p => by
      cases happening with
      | command command => exact absurd rfl (hother command)
      | input | inputEnds | commandsEnd | outputCloses | stop => rfl
    exact ⟨h.carry h.run_eq (h.unwritten_step happening) (by rw [hnone, hnone]), rfl⟩

/-- So they do all along, and those who look on see the same. -/
theorem Alike.steps (h : l.Alike l') {happenings happenings' : List LinkStep}
    (hhappen : List.Forall₂ LinkStep.Alike happenings happenings') :
    (l.steps happenings).Alike (l'.steps happenings') ∧ l.observed happenings = l'.observed happenings' := by
  induction hhappen generalizing l l' with
  | nil => exact ⟨h, rfl⟩
  | cons hhappens _ ih =>
    obtain ⟨hstep, htold⟩ := h.step hhappens
    obtain ⟨hlater, hobserved⟩ := ih hstep
    refine ⟨hlater, ?_⟩
    rw [observed, observed, htold, hstep.view_eq, hobserved]

end Link

end DaemonBridge
