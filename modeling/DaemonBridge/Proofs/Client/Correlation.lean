import DaemonBridge.Proofs.Client.Hearing
import DaemonBridge.Proofs.Client.Serving

/-!
# A command and its response

An invocation is followed through everything that may happen around it: whatever happens brings it to
its next stage or leaves it where it stands (`Stands`). What is known of its last stages says that it
prints the response to its own command, and when it is bound to.
-/

namespace DaemonBridge

namespace Client

open CommandLine (issue)

variable {socket account : String} {order : Order} {seconds : UInt64} {s : Scene} {capacity : Nat}

/-- Where an invocation stands. -/
def Stands (socket account : String) (order : Order) (seconds : UInt64) (s : Scene) : Prop :=
  match s.reply with
  | none => Waits socket account order seconds s
  | some delivery => Hears socket account order seconds s delivery

/-- Whatever happens brings an invocation to its next stage or leaves it where it stands. -/
theorem Stands.step (h : Stands socket account order seconds s) (hsound : s.Sound capacity)
    {happening : Happening} (hfit : (s.step happening).commands.length < UInt64.size) :
    Stands socket account order seconds (s.step happening) := by
  have hlater := (hsound.step happening).2
  rcases s.step_cases happening with ⟨hdialogue, hreply, hserved⟩ |
    ⟨request, store, uptime, hreply, hrequest, hstep⟩ | ⟨delivery, hreply, hstep⟩
  · cases hwas : s.reply with
    | none =>
      simp only [Stands, hwas] at h
      simp only [Stands, hreply, hwas]
      exact h.mono hlater hdialogue hserved
    | some delivery =>
      simp only [Stands, hwas] at h
      simp only [Stands, hreply, hwas]
      exact h.mono hlater hdialogue hserved
  · simp only [Stands, hreply] at h
    rw [hstep] at hfit ⊢
    exact h.serve hsound hrequest hfit
  · simp only [Stands, hreply] at h
    rw [hstep]
    exact h.hear hsound

/-- Whatever has happened goes on from the scene. -/
theorem Scene.Sound.after (h : s.Sound capacity) (happenings : List Happening) :
    (s.after happenings).Sound capacity ∧ s.Precedes (s.after happenings) := by
  induction happenings generalizing s with
  | nil => exact ⟨h, .refl s⟩
  | cons happening happenings ih =>
    obtain ⟨hsound, hlater⟩ := h.step happening
    obtain ⟨hsoundAfter, hlaterAfter⟩ := ih hsound
    exact ⟨hsoundAfter, hlater.trans hlaterAfter⟩

/-- Whatever has happened, the invocation stands at one of its stages. -/
theorem Stands.after (h : Stands socket account order seconds s) (hsound : s.Sound capacity)
    {happenings : List Happening} (hfit : (s.after happenings).commands.length < UInt64.size) :
    Stands socket account order seconds (s.after happenings) := by
  induction happenings generalizing s with
  | nil => exact h
  | cons happening happenings ih =>
    have hnext := (hsound.step happening).1
    have hle := (hnext.after happenings).2.commands.length_le
    exact ih (h.step hsound (Nat.lt_of_le_of_lt hle hfit)) hnext hfit

/-- A bridge has just started, and the program is about to issue an order and to wait. -/
def Scene.start (settings : Settings) (store : Store) (desktop : Desktop) (socket account : String)
    (order : Order) (seconds : UInt64) : Scene where
  run := Run.ofBridge (Bridge.start settings store desktop)
  dialogue := issue socket account order (some seconds)

/-- At the start the scene is sound. -/
theorem Scene.sound_start (settings : Settings) (store : Store) (desktop : Desktop)
    (socket account : String) (order : Order) (seconds : UInt64) :
    (Scene.start settings store desktop socket account order seconds).Sound
      settings.pace.signalHistory.toNat :=
  ⟨Bridge.relays_start settings store desktop, ⟨rfl, rfl, rfl⟩,
    fun _ hmem => absurd hmem List.not_mem_nil, fun _ hmem => absurd hmem List.not_mem_nil⟩

/-- An invocation for which a reply is under way is not at the end. -/
theorem Hears.result?_eq_none {delivery : Delivery} (h : Hears socket account order seconds s delivery) :
    s.dialogue.result? = none := by
  cases h with
  | health health hat => rw [hat]; rfl
  | issued command last howns hat => rw [hat]; rfl
  | page command polls cursor earlier poll howns hat => rw [hat, result?_polling]
  | fails hnone hunfinished => exact hunfinished

/-- An invocation that is over waits for no reply. -/
theorem Stands.waits (h : Stands socket account order seconds s) {result : Except ClientError String}
    (hresult : s.dialogue.result? = some result) : Waits socket account order seconds s := by
  cases hreply : s.reply with
  | none =>
    simp only [Stands, hreply] at h
    exact h
  | some delivery =>
    simp only [Stands, hreply] at h
    rw [h.result?_eq_none] at hresult
    cases hresult

/-- What an invocation prints is the response to its own command, announced only after the bridge had
enqueued the command. -/
theorem Waits.owned_of_ok (h : Waits socket account order seconds s) {text : String}
    (htext : s.dialogue.result? = some (.ok text)) : ∃ command record,
      s.Owns account order command ∧ text = record.toJson.prettyText ∧
        record ∈ numbered s.announced ∧ record.signal.answers? = some command.id ∧
        ∀ service ∈ s.served, service.Enqueues command → record ∉ numbered service.announced := by
  cases h with
  | begins hat =>
    rw [hat] at htext
    cases htext
  | orders last hat =>
    rw [hat] at htext
    cases htext
  | polls command polls cursor howns hat =>
    rw [hat, result?_polling] at htext
    cases htext
  | found command record howns hat hmem hanswers =>
    rw [hat] at htext
    cases htext
    refine ⟨command, record, howns, rfl, hmem, hanswers, fun service hin henqueues hearlier => ?_⟩
    exact (howns.only service hin command henqueues).2 _ (signal_mem_of_mem_numbered hearlier) hanswers
  | failed error hat =>
    rw [hat] at htext
    cases htext

/-- As long as the bridge serves it and nothing is lost, an invocation fails only when its time is up. -/
theorem Waits.timeout_of_error (h : Waits socket account order seconds s)
    (hfit : s.announced.length < UInt64.size - 1)
    (hserved : ∀ service ∈ s.served, service.run.phase ≠ .over ∧ ¬ service.FindsLoss)
    {error : ClientError} (herror : s.dialogue.result? = some (.error error)) : ∃ command,
      s.Owns account order command ∧ error = .timeout command.id (patience seconds) ∧
        2 + pollsWithin (patience seconds) ≤ s.served.length ∧
        (seconds = 0 ∨ ∀ service ∈ s.served, service.Vain command.id) := by
  cases h with
  | begins hat =>
    rw [hat] at herror
    cases herror
  | orders last hat =>
    rw [hat] at herror
    cases herror
  | polls command polls cursor howns hat =>
    rw [hat, result?_polling] at herror
    cases herror
  | found command record howns hat =>
    rw [hat] at herror
    cases herror
  | failed actual hat hreason =>
    rw [hat] at herror
    cases herror
    rcases hreason hfit with ⟨service, hin, hover⟩ | ⟨service, hin, hloss⟩ | htimeout
    · exact absurd hover (hserved service hin).1
    · exact absurd hloss (hserved service hin).2
    · exact htimeout

/-- As long as the bridge serves it and nothing is lost, an invocation ends with the first response once
a poll has been served after a response was announced, unless it was given no time at all. -/
theorem Waits.first_of_answered (h : Waits socket account order seconds s) (hsound : s.Sound capacity)
    (hfit : s.announced.length < UInt64.size - 1)
    (hserved : ∀ service ∈ s.served, service.run.phase ≠ .over ∧ ¬ service.FindsLoss)
    {service poll : Service} {command : Command} {signal : Signal} (hin : service ∈ s.served)
    (henqueues : service.Enqueues command) (hpoll : poll ∈ s.served) (hsignal : signal ∈ poll.announced)
    (hanswers : signal.answers? = some command.id) : ∃ record,
      ((numbered s.announced).find? fun r => r.answersCommand command.id) = some record ∧
        (s.dialogue.result? = some (.ok record.toJson.prettyText) ∨
          seconds = 0 ∧ s.dialogue.result? = some (.error (.timeout command.id 0))) := by
  have hpast := hsound.past poll hpoll
  have hnotVain : ¬ poll.Vain command.id := fun hvain =>
    hvain (Nat.lt_of_le_of_lt hpast.length_le hfit) signal hsignal hanswers
  cases h with
  | begins hat hnone =>
    rw [hnone] at hin
    cases hin
  | orders last hat hlast hlength hquiet => exact absurd henqueues (hquiet service hin command)
  | polls own polls cursor howns hat hclear hvain =>
    obtain ⟨rfl, -⟩ := howns.only service hin command henqueues
    exact absurd (hvain poll hpoll) hnotVain
  | found own record howns hat hmem hanswered hfirst =>
    obtain ⟨rfl, -⟩ := howns.only service hin command henqueues
    refine ⟨record, hfirst hfit fun other hother => (hserved other hother).2, .inl ?_⟩
    rw [hat]
    rfl
  | failed error hat hreason =>
    have herror : s.dialogue.result? = some (.error error) := by
      rw [hat]
      rfl
    have hfailed : Waits socket account order seconds s := .failed error hat hreason
    obtain ⟨own, howns, rfl, -, hzero | hvain⟩ := hfailed.timeout_of_error hfit hserved herror
    · obtain ⟨rfl, -⟩ := howns.only service hin command henqueues
      subst hzero
      obtain ⟨record, hfirst⟩ := exists_first_of_answers (hpast.subset hsignal) hanswers
      exact ⟨record, hfirst, .inr ⟨rfl, herror⟩⟩
    · obtain ⟨rfl, -⟩ := howns.only service hin command henqueues
      exact absurd (hvain poll hpoll) hnotVain

/-- What an invocation prints is a response to its own command, announced only after the bridge had
enqueued the command, and no other command has the same identifier.

Suppose that the numbers of the signals have not run out, that the bridge runs whenever a request of the
invocation is served, and that no poll finds a signal after its cursor already gone. Then the invocation
fails only when its time is up; and once a request of it has been served after a response to the command
was announced, it ends with the first such response, unless it was given no time at all. -/
theorem issue_correlates (settings : Settings) (store : Store) (desktop : Desktop)
    (socket account : String) (order : Order) (seconds : UInt64) (happenings : List Happening)
    (hfit : ((Scene.start settings store desktop socket account order seconds).after
      happenings).commands.length < UInt64.size) :
    let s := (Scene.start settings store desktop socket account order seconds).after happenings
    (s.commands.map Command.id).Nodup ∧
      (∀ text, s.dialogue.result? = some (.ok text) → ∃ command record,
        s.Owns account order command ∧ text = record.toJson.prettyText ∧
          record ∈ numbered s.announced ∧ record.signal.answers? = some command.id ∧
          ∀ service ∈ s.served, service.Enqueues command → record ∉ numbered service.announced) ∧
      (s.announced.length < UInt64.size - 1 →
        (∀ service ∈ s.served, service.run.phase ≠ .over ∧ ¬ service.FindsLoss) →
          (∀ error, s.dialogue.result? = some (.error error) → ∃ command,
            s.Owns account order command ∧ error = .timeout command.id (patience seconds) ∧
              2 + pollsWithin (patience seconds) ≤ s.served.length) ∧
          ∀ service ∈ s.served, ∀ command, service.Enqueues command →
            ∀ poll ∈ s.served, ∀ signal ∈ poll.announced, signal.answers? = some command.id →
              s.reply = none → ∃ record,
                ((numbered s.announced).find? fun r => r.answersCommand command.id) = some record ∧
                  (s.dialogue.result? = some (.ok record.toJson.prettyText) ∨
                    seconds = 0 ∧ s.dialogue.result? = some (.error (.timeout command.id 0)))) := by
  intro s
  have hstart := Scene.sound_start settings store desktop socket account order seconds
  have hsound : s.Sound settings.pace.signalHistory.toNat := (hstart.after happenings).1
  have hstands : Stands socket account order seconds s :=
    Stands.after (s := Scene.start settings store desktop socket account order seconds)
      (.begins rfl rfl) hstart hfit
  refine ⟨hsound.numbers.nodup_ids hfit, fun text htext => (hstands.waits htext).owned_of_ok htext,
    fun hannounced hserved => ⟨fun error herror => ?_, ?_⟩⟩
  · obtain ⟨command, howns, heq, hlength, -⟩ :=
      (hstands.waits herror).timeout_of_error hannounced hserved herror
    exact ⟨command, howns, heq, hlength⟩
  · intro service hin command henqueues poll hpoll signal hsignal hanswers hreply
    have hwaits : Waits socket account order seconds s := by
      simp only [Stands, hreply] at hstands
      exact hstands
    exact hwaits.first_of_answered hsound hannounced hserved hin henqueues hpoll hsignal hanswers

/-- The worker answers before the invocation has heard the identifier of its command, and the first poll
ends the waiting with the response. -/
theorem issue_correlates_answered_early :
    let store := Directory.store {}
    let order := Order.room .send "room"
    let s := (Scene.start {} store ⟨"notify-send", .ok {}⟩ "bridge.sock" "alice" order 1).after
      [.serve store 0, .hear, .serve store 0, .receive, .say (.answered ⟨0, "alice", "0", "ok"⟩),
        .run (.tick store true), .hear, .serve store 0, .hear]
    s.commands.length < UInt64.size ∧ s.announced.length < UInt64.size - 1 ∧
      (∀ service ∈ s.served, service.run.phase ≠ .over ∧ ¬ service.FindsLoss) ∧ ∃ record,
        ((numbered s.announced).find? fun r => r.answersCommand 0) = some record ∧
          s.dialogue.result? = some (.ok record.toJson.prettyText) := by
  intro store order s
  have hfit : s.commands.length < UInt64.size := by decide +kernel
  have hannounced : s.announced.length < UInt64.size - 1 := by decide +kernel
  have hkept : ∀ service ∈ s.served, service.run.phase ≠ .over ∧
      ∀ record ∈ numbered service.announced, record ∈ service.run.bridge.bus.log.records := by
    decide +kernel
  have hserved : ∀ service ∈ s.served, service.run.phase ≠ .over ∧ ¬ service.FindsLoss := by
    refine fun service hin => ⟨(hkept service hin).1, ?_⟩
    rintro ⟨cursor, -, record, hmem, -, hgone⟩
    exact hgone ((hkept service hin).2 record hmem)
  have hcorrelates :=
    issue_correlates {} store ⟨"notify-send", .ok {}⟩ "bridge.sock" "alice" order 1 _ hfit
  have hanswered : ∃ service ∈ s.served, service.Enqueues ⟨0, "alice", order⟩ ∧ ∃ poll ∈ s.served,
      ∃ signal ∈ poll.announced, signal.answers? = some 0 := by
    unfold Service.Enqueues
    decide +kernel
  obtain ⟨service, hin, henqueues, poll, hpoll, signal, hsignal, hanswers⟩ := hanswered
  obtain ⟨record, hfirst, hdone | ⟨hzero, -⟩⟩ := (hcorrelates.2.2 hannounced hserved).2 service hin _
    henqueues poll hpoll signal hsignal hanswers (by decide +kernel)
  · exact ⟨hfit, hannounced, hserved, record, hfirst, hdone⟩
  · exact absurd hzero (by decide)

end Client

end DaemonBridge
