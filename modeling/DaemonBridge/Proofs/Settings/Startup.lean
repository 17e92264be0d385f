import DaemonBridge.Bridge
import DaemonBridge.Proofs.Settings.RoundTrip
import DaemonBridge.Proofs.Settings.Rules

/-!
# What the start of a bridge demands

A bridge that starts makes a ring and a log for the signals that it is to remember, and then a clock for
its ticks. Each has its bounds, and whoever asks for more makes the program fail (`Settings.startFault?`).
The rules for settings see to the lower bounds (`Settings.Keeps`), but nothing sees to the upper ones:
settings that say how many signals to remember are valid for every number other than zero. So which valid
settings a bridge starts with is a matter of that number and of the size of a record alone
(`Settings.starts_iff_of_parse`).
-/

namespace DaemonBridge

namespace Settings

variable {s : Settings} {text : List Char} {recordSize : Nat}

/-- Whatever the settings say, the clock has a period. -/
theorem period_ne_zero (s : Settings) : s.period ≠ 0 := by
  show (if s.pace.tickInterval ≤ 1 then 1 else s.pace.tickInterval) ≠ 0
  split
  · decide
  · next hmore =>
    intro hzero
    rw [hzero] at hmore
    exact hmore (by decide)

/-- A ring and a log are made with the number that valid settings give, which is not raised. -/
theorem capacity_of_keeps (h : s.Keeps .signalHistory) :
    (SignalBus.ofCapacity s.pace.signalHistory.toNat).log.capacity = s.pace.signalHistory.toNat := by
  have hpos : 1 ≤ s.pace.signalHistory.toNat :=
    Nat.one_le_iff_ne_zero.mpr fun hzero => h (UInt64.toNat_inj.mp hzero)
  exact Nat.max_eq_left hpos

/-- The start fails at nothing exactly within the bounds of the ring and the log. -/
theorem startFault?_eq_none_iff (s : Settings) (recordSize : Nat) :
    s.startFault? recordSize = none ↔
      SignalBus.Allocatable recordSize s.pace.signalHistory.toNat := by
  have hcapacity : (SignalBus.ofCapacity s.pace.signalHistory.toNat).log.capacity =
      max s.pace.signalHistory.toNat 1 := rfl
  simp only [startFault?, SignalBus.Allocatable, hcapacity, if_neg s.period_ne_zero]
  split
  · next hring => exact ⟨nofun, fun hall => by omega⟩
  · split
    · next hlog => exact ⟨nofun, fun hall => by omega⟩
    · next hring hlog => exact ⟨fun _ => by omega, fun _ => rfl⟩

/-- With valid settings, what the start fails at is decided by the number of signals to remember. -/
theorem startFault?_of_keeps (h : s.Keeps .signalHistory) (recordSize : Nat) :
    s.startFault? recordSize =
      if 2 ^ 63 ≤ s.pace.signalHistory.toNat then some .ring
      else if 2 ^ 63 ≤ s.pace.signalHistory.toNat * recordSize then some .log
      else none := by
  have hpos : s.pace.signalHistory.toNat ≠ 0 := fun hzero => h (UInt64.toNat_inj.mp hzero)
  have hhalf : UInt64.size / 2 = 2 ^ 63 := rfl
  simp only [startFault?, capacity_of_keeps h, hhalf, hpos, false_or, if_neg s.period_ne_zero]

/-- Settings that keep the rules do so with every other number of signals to remember but zero. -/
theorem exists_parse_signalHistory (h : ∀ rule, s.Keeps rule) {history : UInt64} (hne : history ≠ 0) :
    let t : Settings := { s with pace := { s.pace with signalHistory := history } }
    ∃ text, parse text = .ok t := by
  intro t
  have hkeeps : ∀ rule, t.Keeps rule
    | .tickInterval => h .tickInterval
    | .signalHistory => hne
    | .program => h .program
    | .socketPath => h .socketPath
    | .logLevel => h .logLevel
    | .servers => h .servers
  have hread : ofToml? t.toToml = some t := ofToml?_of_thinned t (Toml.thinned_renderBlocks t.blocks)
  refine ⟨t.toToml, ?_⟩
  rw [parse, hread]
  exact (t.checked_eq_ok_iff t).mpr ⟨rfl, hkeeps⟩

/-- Whether a bridge starts with valid settings is decided by the number of signals to remember.

A text that is accepted gives a bridge that number of signals to remember, and a clock with a period. Where
the ring's capacity and the log's memory have their bounds, the bridge starts; this is so exactly if the
records of that number take less than 2^63 bytes. Otherwise the ring fails if the number is 2^63 at least,
and the log if it is less. Every number but zero is accepted in some text that says the same of all else, so
that for some texts the start fails at the ring, and for others, unless records take up one byte each, at the
log. -/
theorem starts_iff_of_parse (h : parse text = .ok s) (hrecord : 0 < recordSize) (store : Store)
    (desktop : Desktop) :
    let history := s.pace.signalHistory.toNat
    (Bridge.start s store desktop).bus.log.capacity = history ∧ s.period ≠ 0 ∧
      (s.startFault? recordSize = none ↔ SignalBus.Allocatable recordSize history) ∧
      (s.startFault? recordSize = none ↔ history * recordSize < 2 ^ 63) ∧
      (s.startFault? recordSize = some .ring ↔ 2 ^ 63 ≤ history) ∧
      (s.startFault? recordSize = some .log ↔ history < 2 ^ 63 ∧ 2 ^ 63 ≤ history * recordSize) ∧
      ∀ other : UInt64, other ≠ 0 →
        ∃ text, parse text = .ok { s with pace := { s.pace with signalHistory := other } } := by
  intro history
  have hkeeps : s.Keeps .signalHistory := keeps_of_parse h .signalHistory
  have hle : history ≤ history * recordSize := Nat.le_mul_of_pos_right history hrecord
  have hfault : s.startFault? recordSize =
      if 2 ^ 63 ≤ history then some .ring
      else if 2 ^ 63 ≤ history * recordSize then some .log
      else none := startFault?_of_keeps hkeeps recordSize
  refine ⟨capacity_of_keeps hkeeps, s.period_ne_zero, s.startFault?_eq_none_iff recordSize, ?_, ?_, ?_,
    fun other => exists_parse_signalHistory (keeps_of_parse h)⟩
  all_goals
    rw [hfault]
    split_ifs with hring hlog <;> simp <;> omega

/-- Two texts are accepted that ask for too much: with the one the start fails at the ring, and with the
other at the log, if a record takes up two bytes. -/
theorem starts_iff_of_parse_boundless :
    let most := "[bridge]\nsignal_history = 18446744073709551615\n".toList
    let half := "[bridge]\nsignal_history = 9223372036854775807\n".toList
    let s : Settings := { pace := { signalHistory := 18446744073709551615 } }
    let t : Settings := { pace := { signalHistory := 9223372036854775807 } }
    (parse most = .ok s ∧ s.startFault? 2 = some .ring) ∧
      parse half = .ok t ∧ t.startFault? 2 = some .log := by
  intro most half s t
  have hmost : parse most = .ok s := by decide +kernel
  have hhalf : parse half = .ok t := by decide +kernel
  have hsize : 0 < 2 := by decide
  have hring := starts_iff_of_parse hmost hsize ({} : Directory).store ⟨"desktop", .ok {}⟩
  have hlog := starts_iff_of_parse hhalf hsize ({} : Directory).store ⟨"desktop", .ok {}⟩
  exact ⟨⟨hmost, hring.2.2.2.2.1.mpr (by decide)⟩, hhalf, hlog.2.2.2.2.2.1.mpr (by decide)⟩

end Settings

end DaemonBridge
