import DaemonBridge.Proofs.Client.Exchange
import DaemonBridge.Proofs.Client.Inspection
import DaemonBridge.Proofs.Client.Stages

/-!
# An invocation hears a reply

A page on which the invocation finds nothing shows that no signal up to the next cursor is the
response, and a page on which it finds the response shows the first one of all, provided that no signal
after the cursor was gone. So every reply brings the invocation to its next stage.
-/

namespace DaemonBridge

namespace Client

open CommandLine (issue)

/-! ## What a page tells the invocation -/

section Page

variable {log : SignalLog} {history : List Signal} {id : CommandId} {cursor : UInt64}

/-- A page of one moment. -/
abbrev pageOf (log : SignalLog) (cursor : UInt64) : Control.SignalPage := .read log log cursor

/-- What is found on a page is a response that the log has kept. -/
theorem mem_of_inspect_eq_found {record : SignalRecord}
    (h : inspect id cursor (pageOf log cursor) = .found record) :
    record ∈ log.records ∧ record.signal.answers? = some id ∧
      ((log.since cursor).find? fun r => r.answersCommand id) = some record := by
  rw [inspect_eq] at h
  cases hfind : (log.since cursor).find? fun r => r.answersCommand id with
  | some found =>
    simp only [Control.SignalPage.read, hfind, Inspection.found.injEq] at h
    subst h
    exact ⟨((log.mem_since_iff cursor found).mp (List.mem_of_find?_eq_some hfind)).1,
      (found.answersCommand_iff id).mp (List.find?_eq_some_iff_append.mp hfind).1, rfl⟩
  | none =>
    simp only [Control.SignalPage.read, hfind] at h
    split at h <;> cases h

/-- If no signal after the cursor is gone, what is found on a page is the first response of all. -/
theorem find?_numbered_of_inspect_eq_found (hlog : log.Retains history)
    (hfit : history.length < UInt64.size - 1) (hclear : ClearUpTo id cursor history)
    (hkept : ¬ ∃ record ∈ numbered history, cursor < record.seq ∧ record ∉ log.records)
    {record : SignalRecord} (h : inspect id cursor (pageOf log cursor) = .found record) :
    ((numbered history).find? fun r => r.answersCommand id) = some record := by
  obtain ⟨hmem, hanswers, hfind⟩ := mem_of_inspect_eq_found h
  have hfirst := (hlog.find?_since_eq_some_iff (by omega) id cursor record).mp hfind
  have hsorted : (numbered history).Pairwise fun a b => a.seq < b.seq := numberedFrom_pairwise (by omega)
  rw [find?_eq_some_iff_of_pairwise hsorted]
  refine ⟨hlog.mem_numbered hmem, (record.answersCommand_iff id).mpr hanswers, ?_⟩
  intro other hother hanswer
  rw [SignalRecord.answersCommand_iff] at hanswer
  by_cases hseq : other.seq ≤ cursor
  · exact absurd hanswer ((hclear hfit).2 other hother hseq)
  · have hlt : cursor < other.seq := UInt64.not_le.mp hseq
    have hretained : other ∈ log.records := by
      by_contra hgone
      exact hkept ⟨other, hother, hlt, hgone⟩
    exact hfirst.lowest other hretained hlt hanswer

/-- A page on which the response is missed shows that a signal after the cursor is gone. -/
theorem exists_lost_of_inspect_eq_missed (hlog : log.Retains history)
    (hfit : history.length < UInt64.size - 1) (hclear : ClearUpTo id cursor history)
    (h : inspect id cursor (pageOf log cursor) = .missed) :
    ∃ record ∈ numbered history, cursor < record.seq ∧ record ∉ log.records := by
  rw [inspect_read_self hlog hfit id (hclear hfit).1] at h
  split at h
  · cases h
  · split at h
    · next hlost => exact (hlog.exists_evicted_iff (by omega) cursor).mpr hlost
    · cases h

/-- A page that moves the invocation on shows that there is no response yet. -/
theorem unanswered_of_inspect_eq_goOn (hlog : log.Retains history)
    (hfit : history.length < UInt64.size - 1) (hclear : ClearUpTo id cursor history) {next : UInt64}
    (h : inspect id cursor (pageOf log cursor) = .goOn next) :
    next = UInt64.ofNat history.length ∧ ∀ signal ∈ history, signal.answers? ≠ some id := by
  rw [inspect_read_self hlog hfit id (hclear hfit).1] at h
  split at h
  · cases h
  · next hnone =>
    split at h
    · cases h
    · next hkept =>
      cases h
      refine ⟨hlog.lastSeq_eq, fun signal hsignal => ?_⟩
      obtain ⟨record, hmem, rfl⟩ := exists_mem_numbered hsignal
      by_cases hseq : record.seq ≤ cursor
      · exact (hclear hfit).2 record hmem hseq
      · have hlt : cursor < record.seq := UInt64.not_le.mp hseq
        have hretained : record ∈ log.records := by
          by_contra hgone
          exact hkept ((hlog.exists_evicted_iff (by omega) cursor).mp ⟨record, hmem, hlt, hgone⟩)
        exact (log.find?_since_eq_none_iff id cursor).mp hnone record hretained hlt

end Page

/-! ## A reply is heard -/

section Hear

variable {socket account : String} {order : Order} {seconds : UInt64} {s : Scene} {capacity : Nat}
  {delivery : Delivery}

/-- The invocation's command is its own whatever it hears. -/
theorem Scene.Owns.hearing {command : Command} (h : s.Owns account order command) (delivery : Delivery) :
    (s.hearing delivery).Owns account order command :=
  ⟨h.account_eq, h.order_eq, h.issued, h.only, h.mem⟩

/-- An invocation without any time does not wait for a single poll. -/
theorem eq_zero_of_pollsWithin_eq_zero (h : pollsWithin (patience seconds) = 0) : seconds = 0 := by
  apply UInt64.toNat_inj.mp
  simp only [pollsWithin, patience, pollInterval] at h
  change seconds.toNat = 0
  omega

/-- An invocation that has learnt the identifier of its command begins to poll. -/
theorem waits_of_issued {command : Command} {last : UInt64} (howns : s.Owns account order command)
    (hat : s.dialogue = ordering socket account order seconds last)
    (hresult : (Call.command account order).result socket delivery = .ok command.id)
    (hclear : ClearUpTo command.id last s.announced) (hlength : s.served.length = 2)
    (hvain : ∀ service ∈ s.served, service.Vain command.id) :
    Waits socket account order seconds (s.hearing delivery) := by
  have hpolling : (s.hearing delivery).dialogue =
      polling socket seconds command.id (pollsWithin (patience seconds)) last := by
    show s.dialogue.hear delivery = _
    rw [hat, ordering, Dialogue.hear_ask_of_ok hresult, Dialogue.awake_map, awaitResponse,
      awake_pollResponse]
    rfl
  refine .polls command _ last (howns.hearing delivery) hpolling hclear hvain ?_
    eq_zero_of_pollsWithin_eq_zero
  show s.served.length + _ = _
  rw [hlength]

/-- An invocation that has no poll left gives up. -/
theorem waits_of_no_poll {command : Command} {cursor : UInt64} {page : Control.SignalPage}
    (howns : s.Owns account order command)
    (hat : s.dialogue = polling socket seconds command.id 0 cursor)
    (hresult : (Call.signals cursor).result socket delivery = .ok page)
    (hlength : 2 + pollsWithin (patience seconds) ≤ s.served.length) (hzero : seconds = 0) :
    Waits socket account order seconds (s.hearing delivery) := by
  have hreached : delivery.unreachable? socket = none := by
    cases delivery with
    | noSocket => cases hresult
    | refused reason => cases hresult
    | received reading => rfl
  have hdone : (s.hearing delivery).dialogue =
      .done (.error (.timeout command.id (patience seconds))) := by
    show s.dialogue.hear delivery = _
    have hhear : (pollResponse socket command.id (patience seconds) 0 cursor).hear delivery =
        .done (.error
          ((delivery.unreachable? socket).getD (.timeout command.id (patience seconds)))) := rfl
    rw [hat, polling, Dialogue.hear_map, hhear, hreached]
    rfl
  exact .failed _ hdone fun _ =>
    .inr (.inr ⟨command, howns.hearing delivery, rfl, hlength, .inl hzero⟩)

/-- An invocation that hears a page ends with the response, or because a signal is lost, or because its
time is up, or goes on polling. -/
theorem waits_of_page {command : Command} {polls : Nat} {cursor : UInt64} {earlier : List Service}
    {poll : Service} (howns : s.Owns account order command)
    (hat : s.dialogue = polling socket seconds command.id (polls + 1) cursor)
    (hsplit : s.served = earlier ++ [poll]) (hpoll : poll.Polls cursor)
    (hresult : (Call.signals cursor).result socket delivery =
      .ok (pageOf poll.run.bridge.bus.log cursor))
    (hretains : poll.run.bridge.bus.log.Retains poll.announced) (hpast : poll.announced <+: s.announced)
    (hclear : ClearUpTo command.id cursor poll.announced)
    (hvain : ∀ service ∈ earlier, service.Vain command.id)
    (hlength : earlier.length + (polls + 1) = 2 + pollsWithin (patience seconds)) :
    Waits socket account order seconds (s.hearing delivery) := by
  have hfitPoll : s.announced.length < UInt64.size - 1 → poll.announced.length < UInt64.size - 1 :=
    fun hfit => Nat.lt_of_le_of_lt hpast.length_le hfit
  have hserved : s.served.length = earlier.length + 1 := by
    rw [hsplit, List.length_append, List.length_singleton]
  have hin : poll ∈ s.served := hsplit ▸ List.mem_append_right _ (List.mem_singleton_self _)
  have hhears : (s.hearing delivery).dialogue =
      (afterPage socket command.id (patience seconds) polls cursor
        (inspect command.id cursor (pageOf poll.run.bridge.bus.log cursor))).map printed := by
    show s.dialogue.hear delivery = _
    rw [hat, polling, Dialogue.hear_map, hear_pollResponse hresult]
  cases hinspect : inspect command.id cursor (pageOf poll.run.bridge.bus.log cursor) with
  | found record =>
    rw [hinspect] at hhears
    obtain ⟨hkept, hanswers, -⟩ := mem_of_inspect_eq_found hinspect
    have hmem : record ∈ numbered s.announced :=
      (isPrefix_numbered hpast).subset (hretains.mem_numbered hkept)
    refine .found command record (howns.hearing delivery) hhears hmem hanswers fun hfit hlossless => ?_
    have hkeeps : ¬ ∃ record ∈ numbered poll.announced,
        cursor < record.seq ∧ record ∉ poll.run.bridge.bus.log.records :=
      fun hlost => hlossless poll hin ⟨cursor, hpoll, hlost⟩
    obtain ⟨more, hmore⟩ := isPrefix_numbered hpast
    show ((numbered s.announced).find? fun r => r.answersCommand command.id) = some record
    rw [← hmore, List.find?_append,
      find?_numbered_of_inspect_eq_found hretains (hfitPoll hfit) hclear hkeeps hinspect]
    rfl
  | missed =>
    rw [hinspect] at hhears
    refine .failed _ hhears fun hfit => .inr (.inl ⟨poll, hin, cursor, hpoll, ?_⟩)
    exact exists_lost_of_inspect_eq_missed hretains (hfitPoll hfit) hclear hinspect
  | goOn next =>
    rw [hinspect] at hhears
    have hvainAll : ∀ service ∈ s.served, service.Vain command.id := by
      rw [hsplit]
      intro service hmem
      rcases List.mem_append.mp hmem with hmem | hmem
      · exact hvain service hmem
      · rw [List.mem_singleton.mp hmem]
        exact fun hfit => (unanswered_of_inspect_eq_goOn hretains hfit hclear hinspect).2
    by_cases hpolls : polls = 0
    · rw [afterPage, if_pos hpolls] at hhears
      refine .failed _ hhears fun _ =>
        .inr (.inr ⟨command, howns.hearing delivery, rfl, ?_, .inr hvainAll⟩)
      show _ ≤ s.served.length
      omega
    · rw [afterPage, if_neg hpolls] at hhears
      have hclearNext : ClearUpTo command.id next s.announced := by
        intro hfit
        obtain ⟨hnext, hnone⟩ := unanswered_of_inspect_eq_goOn hretains (hfitPoll hfit) hclear hinspect
        rw [hnext]
        exact (clearUpTo_of_unanswered (Nat.le_refl _) hnone).mono hpast hfit
      refine .polls command polls next (howns.hearing delivery) hhears hclearNext hvainAll ?_
        fun hzero => absurd hzero hpolls
      show s.served.length + polls = _
      omega

/-- The invocation hears a reply. -/
theorem Hears.hear (h : Hears socket account order seconds s delivery) (hsound : s.Sound capacity) :
    Waits socket account order seconds (s.hearing delivery) := by
  cases h with
  | health health hat hresult hlast hlength hquiet =>
    refine .orders health.lastSignal ?_ hlast hlength hquiet
    show s.dialogue.hear delivery = _
    rw [hat, issue, Dialogue.hear_ask_of_ok hresult]
    rfl
  | issued command last howns hat hresult hclear hlength hvain =>
    exact waits_of_issued howns hat hresult hclear hlength hvain
  | page command polls cursor earlier poll howns hat hsplit hpoll hresult hretains hclear hvain
      hlength hlast =>
    cases polls with
    | zero =>
      have hserved : s.served.length = earlier.length + 1 := by
        rw [hsplit, List.length_append, List.length_singleton]
      exact waits_of_no_poll howns hat hresult (by omega) (hlast rfl)
    | succ polls =>
      have hpast : poll.announced <+: s.announced :=
        hsound.past poll (hsplit ▸ List.mem_append_right _ (List.mem_singleton_self _))
      exact waits_of_page howns hat hsplit hpoll hresult hretains hpast hclear hvain hlength
  | fails hnone hunfinished hhear hover =>
    subst hnone
    exact .failed _ hhear fun _ => .inl hover

end Hear

end Client

end DaemonBridge
