import DaemonBridge.Proofs.Client.Stages
import DaemonBridge.Proofs.Control.Socket

/-!
# A request of an invocation is served

The identifier that an invocation waits for belongs to its own command alone, and the worker has not
answered it before the bridge enqueued the command. So no signal up to the number that was read before
is the response.
-/

namespace DaemonBridge

namespace Client

open CommandLine (issue)

variable {socket account : String} {order : Order} {seconds : UInt64} {s : Scene} {capacity : Nat}
  {id : CommandId} {store : Store} {uptime : UInt64}

/-- A request that leaves the commands alone enqueues none. -/
theorem Service.not_enqueues {service : Service}
    (h : (service.run.deliver service.store service.uptime service.request).2.bridge.desk =
      service.run.bridge.desk) (command : Command) : ¬ service.Enqueues command := by
  intro henqueues
  rw [Enqueues, h] at henqueues
  have hlen := congrArg List.length henqueues
  rw [List.length_append, List.length_singleton] at hlen
  omega

/-- A run that comes to its end issues no command. -/
theorem conclude_desk (run : Run) (store : Store) : (run.conclude store).bridge.desk = run.bridge.desk :=
  (run.progress_conclude store).desk_eq

/-- Once the run is over the invocation is about to fail. -/
theorem hears_of_over (hphase : s.run.phase = .over) {request : Http.Request}
    (hunfinished : s.dialogue.result? = none)
    (hhear : s.dialogue.hear .noSocket = .done (.error (.notRunning socket))) :
    Hears socket account order seconds (s.serving request store uptime)
      (s.run.deliver store uptime request).1 := by
  rw [Call.deliver_over hphase]
  exact .fails rfl hunfinished hhear
    ⟨_, List.mem_append_right _ (List.mem_singleton_self _), hphase⟩

/-- The invocation learns the number of the last signal. -/
theorem hears_health (hsound : s.Sound capacity)
    (hat : s.dialogue = issue socket account order (some seconds)) (hnone : s.served = []) :
    Hears socket account order seconds (s.serving Call.health.request store uptime)
      (s.run.deliver store uptime Call.health.request).1 := by
  by_cases hphase : s.run.phase = .over
  · apply hears_of_over hphase
    · rw [hat]
      rfl
    · rw [hat]
      exact Dialogue.hear_ask_of_error rfl _
  · have hlater := (hsound.serving Call.health.request store uptime).2
    obtain ⟨hresult, hrun⟩ := Call.deliver_health store uptime hphase
    have hquiet : ∀ command, ¬ (s.service Call.health.request store uptime).Enqueues command := by
      apply Service.not_enqueues
      exact (congrArg (fun run => run.bridge.desk) hrun).trans (conclude_desk s.run store)
    refine .health _ hat (hresult socket) ⟨_, hlater.announced.length_le, hsound.lastSeq_eq⟩ ?_
      (Scene.forall_mem_serving.mpr ⟨?_, hquiet⟩)
    · rw [Scene.serving, hnone]
      rfl
    · rw [hnone]
      exact fun _ hmem => absurd hmem List.not_mem_nil

/-- The bridge enqueues the command of the invocation under the next identifier. -/
theorem service_enqueues (hsound : s.Sound capacity) (hphase : s.run.phase ≠ .over)
    (account : String) (order : Order) (store : Store) (uptime : UInt64) :
    (s.service (Call.command account order).request store uptime).Enqueues
      ⟨s.run.bridge.desk.nextId, account, order⟩ := by
  have hrun := (Call.deliver_command store uptime hphase account order).2
  show (s.run.deliver store uptime (Call.command account order).request).2.bridge.desk.queue.waiting = _
  rw [hrun, conclude_desk]
  exact hsound.numbers.submit_waiting account order

/-- The first command that the bridge enqueues for the invocation is its own. No other command has its
identifier, so the worker cannot have answered it yet. -/
theorem serving_owns (hsound : s.Sound capacity) (hfit : s.commands.length < UInt64.size)
    (hphase : s.run.phase ≠ .over)
    (hquiet : ∀ service ∈ s.served, ∀ command, ¬ service.Enqueues command) :
    (s.serving (Call.command account order).request store uptime).Owns account order
      ⟨s.run.bridge.desk.nextId, account, order⟩ := by
  have henqueues := service_enqueues hsound hphase account order store uptime
  refine ⟨rfl, rfl, ⟨_, List.mem_append_right _ (List.mem_singleton_self _), henqueues⟩, ?_, ?_⟩
  · refine Scene.forall_mem_serving.mpr ⟨fun service hmem other hother => ?_, fun other hother => ?_⟩
    · exact absurd hother (hquiet service hmem other)
    · have hsame := List.append_cancel_left (hother.symm.trans henqueues)
      exact ⟨(List.cons.inj hsame).1, hsound.nextId_unanswered hfit⟩
  · apply List.mem_append_right
    have hwaiting : (s.serving (Call.command account order).request store
        uptime).run.bridge.desk.queue.waiting = _ := henqueues
    rw [hwaiting]
    exact List.mem_append_right _ (List.mem_singleton_self _)

/-- The invocation learns the identifier of its command, which nobody has answered yet. -/
theorem hears_command (hsound : s.Sound capacity) {last : UInt64}
    (hfit : (s.serving (Call.command account order).request store uptime).commands.length < UInt64.size)
    (hat : s.dialogue = ordering socket account order seconds last)
    (hlast : ∃ count ≤ s.announced.length, last = UInt64.ofNat count) (hlength : s.served.length = 1)
    (hquiet : ∀ service ∈ s.served, ∀ command, ¬ service.Enqueues command) :
    Hears socket account order seconds (s.serving (Call.command account order).request store uptime)
      (s.run.deliver store uptime (Call.command account order).request).1 := by
  by_cases hphase : s.run.phase = .over
  · apply hears_of_over hphase
    · rw [hat]
      rfl
    · rw [hat]
      exact Dialogue.hear_ask_of_error rfl _
  have hlater := (hsound.serving (Call.command account order).request store uptime).2
  have hbefore : s.commands.length < UInt64.size := Nat.lt_of_le_of_lt hlater.commands.length_le hfit
  have hresult := (Call.deliver_command store uptime hphase account order).1 socket
  have hunanswered := hsound.nextId_unanswered hbefore
  obtain ⟨count, hcount, rfl⟩ := hlast
  have hclear := (clearUpTo_of_unanswered hcount hunanswered).mono hlater.announced
  refine .issued _ _ (serving_owns hsound hbefore hphase hquiet) hat hresult hclear ?_
    (Scene.forall_mem_serving.mpr ⟨fun service hmem _ signal hsignal => ?_, fun _ => hunanswered⟩)
  · rw [Scene.serving, List.length_append, hlength]
    rfl
  · exact hunanswered signal ((hsound.past service hmem).subset hsignal)

/-- A poll of the invocation is answered with the page of the moment. -/
theorem hears_poll (hsound : s.Sound capacity) {command : Command} {polls : Nat} {cursor : UInt64}
    (howns : s.Owns account order command)
    (hat : s.dialogue = polling socket seconds command.id polls cursor)
    (hclear : ClearUpTo command.id cursor s.announced)
    (hvain : ∀ service ∈ s.served, service.Vain command.id)
    (hlength : s.served.length + polls = 2 + pollsWithin (patience seconds))
    (hlast : polls = 0 → seconds = 0) :
    Hears socket account order seconds (s.serving (Call.signals cursor).request store uptime)
      (s.run.deliver store uptime (Call.signals cursor).request).1 := by
  by_cases hphase : s.run.phase = .over
  · apply hears_of_over hphase
    · rw [hat]
      exact result?_polling polls cursor
    · rw [hat]
      cases polls <;> rfl
  have hlater := (hsound.serving (Call.signals cursor).request store uptime).2
  obtain ⟨hresult, hrun⟩ := Call.deliver_signals store uptime hphase cursor
  have hquiet : ∀ other,
      ¬ (s.service (Call.signals cursor).request store uptime).Enqueues other := by
    apply Service.not_enqueues
    exact (congrArg (fun run => run.bridge.desk) hrun).trans (conclude_desk s.run store)
  exact .page command polls cursor s.served _ (howns.serve hlater rfl hquiet) hat rfl rfl (hresult socket)
    hsound.retains hclear hvain hlength hlast

/-- A request of the invocation is served. -/
theorem Waits.serve (h : Waits socket account order seconds s) (hsound : s.Sound capacity)
    {request : Http.Request} (hrequest : s.dialogue.request? = some request)
    (hfit : (s.serving request store uptime).commands.length < UInt64.size) :
    Hears socket account order seconds (s.serving request store uptime)
      (s.run.deliver store uptime request).1 := by
  cases h with
  | begins hat hnone =>
    have hhealth : request = Call.health.request := by
      rw [hat] at hrequest
      exact (Option.some.inj hrequest).symm
    rw [hhealth]
    exact hears_health hsound hat hnone
  | orders last hat hlast hlength hquiet =>
    have hcommand : request = (Call.command account order).request := by
      rw [hat] at hrequest
      exact (Option.some.inj hrequest).symm
    rw [hcommand] at hfit ⊢
    exact hears_command hsound hfit hat hlast hlength hquiet
  | polls command polls cursor howns hat hclear hvain hlength hlast =>
    have hsignals : request = (Call.signals cursor).request := by
      rw [hat, request?_polling] at hrequest
      exact (Option.some.inj hrequest).symm
    rw [hsignals]
    exact hears_poll hsound howns hat hclear hvain hlength hlast
  | found command record howns hat =>
    rw [hat] at hrequest
    cases hrequest
  | failed error hat =>
    rw [hat] at hrequest
    cases hrequest

end Client

end DaemonBridge
