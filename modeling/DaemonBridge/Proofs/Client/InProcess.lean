import DaemonBridge.Proofs.Bridge.Callers
import DaemonBridge.Proofs.Control.Socket

/-!
# Calls over the socket and calls inside the process

A client of the control socket gets and does exactly what a caller inside the process of the bridge does
with the same arguments, whatever characters they have. An order is issued at once. A question puts the
client among the callers of the run, where it is told what every caller is told; `Inquiry.call` is the
call with which a client asks a question, and `Cache.tell` is what the cache has to say about it.
-/

namespace DaemonBridge

open Client (ClientError)
open Control (arrive Arrival Operation)

/-! ## Questions -/

/-- What answers a question. -/
def Inquiry.Answer : Inquiry → Type
  | .servers => LoginsByServer
  | .devices _ => List Device
  | .userDevices _ _ => List Device

/-- The call with which a client asks a question. -/
def Inquiry.call : (inquiry : Inquiry) → Client.Call inquiry.Answer
  | .servers => .servers
  | .devices account => .devices account none
  | .userDevices account user => .devices account (some user)

/-- What a cache has to say about a question. -/
def Cache.tell (cache : Cache) : (inquiry : Inquiry) → inquiry.Answer
  | .servers => cache.logins
  | .devices account => cache.devicesOf account
  | .userDevices account user => cache.userDevices account user

/-- A client's question is understood. -/
theorem Inquiry.ofRequest_call (inquiry : Inquiry) :
    Operation.ofRequest inquiry.call.request = .ok (.inquire inquiry) := by
  cases inquiry with
  | servers => exact Control.ofRequest_servers
  | devices account => exact Control.ofRequest_devices account
  | userDevices account user => exact Control.ofRequest_userDevices account user

/-- A client that asks a question joins the callers of the run. -/
theorem Inquiry.arrive_call (inquiry : Inquiry) (run : Run) (uptime : UInt64) :
    arrive run uptime inquiry.call.request = (.asks run.calls.length, run.step (.call inquiry)) := by
  rw [arrive, inquiry.ofRequest_call]
  rfl

/-- A client reads what the cache has to say. -/
theorem Inquiry.result_answer (inquiry : Inquiry) (socket : String) (cache : Cache) :
    inquiry.call.result socket (.ofResponse (Arrival.toldResponse (some (cache.answer inquiry)))) =
      .ok (cache.tell inquiry) := by
  cases inquiry with
  | servers => exact Client.Call.result_ofResponse _ socket (Control.decode_servers _)
  | devices account => exact Client.Call.result_ofResponse _ socket (Control.decode_devices _)
  | userDevices account user => exact Client.Call.result_ofResponse _ socket (Control.decode_devices _)

/-! ## What a client hears -/

/-- What a client hears whose request has arrived; nothing while the request waits. -/
def Control.Arrival.heard? {α : Type} (arrival : Arrival) (call : Client.Call α) (socket : String)
    (later : Run) : Option (Except ClientError α) :=
  (arrival.response? later).map fun response => call.result socket (.ofResponse response)

/-- A client whose request is answered at once hears the answer. -/
theorem heard?_answered {α : Type} (call : Client.Call α) (socket : String) (later : Run)
    {reply : Control.Reply} {answer : α}
    (h : (Json.Document.ofBytes (Text.encode reply.toJson.compact)).decode call.decoder = .ok answer) :
    (Arrival.answered reply).heard? call socket later = some (.ok answer) :=
  congrArg some (Client.Call.result_ofResponse call socket h)

/-- A client that asks a question hears what a caller inside the process is told. -/
theorem heard?_asks (inquiry : Inquiry) (socket : String) (later : Run) (caller : Nat) :
    (Arrival.asks caller).heard? inquiry.call socket later =
      (later.outcome? caller).map fun told =>
        inquiry.call.result socket (.ofResponse (Arrival.toldResponse told)) := by
  rw [Arrival.heard?, Arrival.response?, Option.map_map]
  rfl

namespace Run

/-- The socket does what the process does.

In every state that a run has reached, and for all texts, an order of a client has the effect of issuing
it inside the process, and the client learns its identifier. A client that asks for signals after any
number changes nothing and learns the signals retained after it and the number of the last signal. A
client that asks a question becomes a caller of the run like one inside the process. Whatever is done
then, both have been told nothing, or both that the bridge is not running once the run is over, or the
client has heard what the caller was told: what the cache held at a moment at which the run answered. As
long as the run is not over, that moment can come at once. -/
theorem socket_refines_process (bridge : Bridge) (earlier : List Activity) (uptime : UInt64)
    (socket : String) :
    let run := (ofBridge bridge).actAll earlier
    (∀ (account : String) (order : Order),
      let call := Client.Call.command account order
      (arrive run uptime call.request).2 = run.occur (.submit account order) ∧
        ∀ later, (arrive run uptime call.request).1.heard? call socket later =
          some (.ok (run.bridge.submit account order).1)) ∧
    (∀ after : UInt64,
      let call := Client.Call.signals after
      (arrive run uptime call.request).2 = run ∧
        ∀ later, (arrive run uptime call.request).1.heard? call socket later =
          some (.ok ⟨run.bridge.bus.since after, run.bridge.bus.lastSeq⟩)) ∧
    ∀ inquiry : Inquiry,
      let arrival := (arrive run uptime inquiry.call.request).1
      let asked := run.step (.call inquiry)
      let caller := run.calls.length
      (arrive run uptime inquiry.call.request).2 = asked ∧
      (∀ activities, let later := asked.actAll activities
        (later.outcome? caller = none ∧ arrival.heard? inquiry.call socket later = none) ∨
        (later.phase = .over ∧ later.outcome? caller = some none ∧
          arrival.heard? inquiry.call socket later = some (.error (.refused notRunningText))) ∨
        ∃ before after, activities = before ++ .occur (.run .answer) :: after ∧
          let cache := (asked.actAll before).bridge.cache
          (asked.actAll before).phase = .running ∧ later.outcome? caller = some (some (cache.answer inquiry)) ∧
            arrival.heard? inquiry.call socket later = some (.ok (cache.tell inquiry))) ∧
      (run.phase ≠ .over →
        arrival.heard? inquiry.call socket (asked.steps (run.answeringSteps caller)) =
          some (.ok (run.bridge.cache.tell inquiry))) := by
  intro run
  have horderly : run.Orderly := (orderly_ofBridge bridge).actAll earlier
  refine ⟨fun account order => ?_, fun after => ?_, fun inquiry => ?_⟩
  · intro call
    have harrive : arrive run uptime call.request = Control.undertake run uptime (.submit account order) := by
      rw [arrive, Control.ofRequest_command]
    rw [harrive]
    exact ⟨rfl, fun later => heard?_answered call socket later (Control.decode_accepted _)⟩
  · intro call
    have harrive : arrive run uptime call.request = Control.undertake run uptime (.signals after) := by
      rw [arrive, Control.ofRequest_signals]
    rw [harrive]
    exact ⟨rfl, fun later => heard?_answered call socket later (Control.SignalPage.decode_toJson _)⟩
  · intro arrival asked caller
    have harrive : arrive run uptime inquiry.call.request =
        (.asks caller, asked) := by
      rw [arrive, inquiry.ofRequest_call]
      rfl
    have harrival : arrival = .asks caller := congrArg Prod.fst harrive
    have hheard := fun later => heard?_asks inquiry socket later caller
    refine ⟨congrArg Prod.snd harrive, fun activities => ?_, fun hphase => ?_⟩
    · intro later
      rw [harrival, hheard]
      rcases horderly.outcome?_cases inquiry activities with
        hnone | ⟨hover, hnone⟩ | ⟨before, after, hsplit, hrunning, hsome⟩
      · exact .inl ⟨hnone, by rw [hnone]; rfl⟩
      · refine .inr (.inl ⟨hover, hnone, ?_⟩)
        rw [hnone]
        exact congrArg some (Client.Call.result_ofProblem _ socket notRunningText)
      · refine .inr (.inr ⟨before, after, hsplit, hrunning, hsome, ?_⟩)
        rw [hsome]
        exact congrArg some (inquiry.result_answer socket _)
    · rw [harrival, hheard, horderly.outcome?_answeringSteps hphase inquiry]
      exact congrArg some (inquiry.result_answer socket _)

/-- A client that asks for the devices of a user without a name, as known to an account with every
character that means something in a query, hears of the device that is filed there. -/
theorem socket_refines_process_odd_names :
    let account := "a&b=c+d%2f#e/?é"
    let device : Device := { user := "", device := "PHONE" }
    let run := ofBridge (.start {} (({} : Directory).putDevice account device).store
      ⟨"desktop", .ok ⟨true⟩⟩)
    let inquiry := Inquiry.userDevices account ""
    run.phase ≠ .over ∧ run.bridge.cache.userDevices account "" = [device] ∧
      (arrive run 0 inquiry.call.request).1.heard? inquiry.call "bridge.sock"
          ((run.step (.call inquiry)).steps (run.answeringSteps run.calls.length)) =
        some (.ok (run.bridge.cache.tell inquiry)) := by
  intro account device run inquiry
  have hphase : run.phase ≠ .over := by decide
  exact ⟨hphase, by decide +kernel, ((socket_refines_process run.bridge [] 0 "bridge.sock").2.2
    inquiry).2.2 hphase⟩

end Run

end DaemonBridge
