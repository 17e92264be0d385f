import DaemonBridge.Signal
import Mathlib.Data.List.Chain

/-!
# Numbered signals

A history of signals is numbered 1, 2, 3 and so on. Numbers are 64-bit words: the facts about order
assume that the history is short enough for its numbers not to wrap around; which signal stands at
which place does not depend on it.
-/

namespace DaemonBridge

/-- Number signals upwards, the first one after `last`. -/
def numberedFrom (last : Nat) : List Signal → List SignalRecord
  | [] => []
  | signal :: rest => ⟨UInt64.ofNat (last + 1), signal⟩ :: numberedFrom (last + 1) rest

/-- A history of signals with their numbers, the first one number 1. -/
def numbered (history : List Signal) : List SignalRecord :=
  numberedFrom 0 history

/-- Numbering keeps every signal once. -/
@[simp] theorem length_numberedFrom (last : Nat) (signals : List Signal) :
    (numberedFrom last signals).length = signals.length := by
  induction signals generalizing last with
  | nil => rfl
  | cons signal rest ih => simp [numberedFrom, ih]

/-- Numbering a history keeps every signal once. -/
@[simp] theorem length_numbered (history : List Signal) :
    (numbered history).length = history.length :=
  length_numberedFrom 0 history

/-- Later signals are numbered on from the earlier ones. -/
theorem numberedFrom_append (last : Nat) (earlier later : List Signal) :
    numberedFrom last (earlier ++ later) =
      numberedFrom last earlier ++ numberedFrom (last + earlier.length) later := by
  induction earlier generalizing last with
  | nil => rfl
  | cons signal rest ih =>
    rw [List.cons_append, numberedFrom, ih, List.length_cons, numberedFrom, List.cons_append,
      Nat.add_right_comm, Nat.add_assoc]

/-- A history continues with the numbers after its length. -/
theorem numbered_append (earlier later : List Signal) :
    numbered (earlier ++ later) = numbered earlier ++ numberedFrom earlier.length later := by
  rw [numbered, numberedFrom_append, Nat.zero_add]
  rfl

/-- Dropping records drops signals and moves the first number on. -/
theorem drop_numberedFrom (count last : Nat) (signals : List Signal) :
    (numberedFrom last signals).drop count = numberedFrom (last + count) (signals.drop count) := by
  induction count generalizing last signals with
  | zero => rfl
  | succ count ih =>
    cases signals with
    | nil => rfl
    | cons signal rest =>
      rw [numberedFrom, List.drop_succ_cons, ih, List.drop_succ_cons, Nat.add_right_comm,
        Nat.add_assoc]

/-- The signal at each place carries the number after that place. -/
theorem getElem?_numberedFrom (last : Nat) (signals : List Signal) (i : Nat) :
    (numberedFrom last signals)[i]? = signals[i]?.map fun s => ⟨UInt64.ofNat (last + i + 1), s⟩ := by
  induction signals generalizing last i with
  | nil => rfl
  | cons signal rest ih =>
    cases i with
    | zero => rfl
    | succ i =>
      rw [numberedFrom, List.getElem?_cons_succ, ih, List.getElem?_cons_succ]
      congr! 4
      omega

/-- Each number is one more than the number before it. -/
theorem numberedFrom_isChain (last : Nat) (signals : List Signal) :
    (numberedFrom last signals).IsChain fun a b => b.seq = a.seq + 1 := by
  induction signals generalizing last with
  | nil => exact List.IsChain.nil
  | cons signal rest ih =>
    cases rest with
    | nil => exact List.isChain_singleton _
    | cons next rest => exact List.isChain_cons_cons.mpr ⟨UInt64.ofNat_add (last + 1) 1, ih (last + 1)⟩

/-- The last signal carries the last number. -/
theorem seq_of_mem_getLast?_numberedFrom {last : Nat} {signals : List Signal} {record : SignalRecord}
    (h : record ∈ (numberedFrom last signals).getLast?) :
    record.seq = UInt64.ofNat (last + signals.length) := by
  rw [List.getLast?_eq_getElem?, getElem?_numberedFrom, length_numberedFrom] at h
  obtain ⟨signal, hsignal, rfl⟩ := Option.map_eq_some_iff.mp h
  have hlt := (List.getElem?_eq_some_iff.mp hsignal).1
  have hlast : last + (signals.length - 1) + 1 = last + signals.length := by omega
  rw [hlast]

section Order

variable {last : Nat} {signals : List Signal}

/-- Numbers that do not wrap around lie above the one they started after. -/
theorem seq_of_mem_numberedFrom (hfit : last + signals.length < UInt64.size) {record : SignalRecord}
    (hmem : record ∈ numberedFrom last signals) :
    last < record.seq.toNat ∧ record.seq.toNat ≤ last + signals.length := by
  obtain ⟨i, hi⟩ := List.mem_iff_getElem?.mp hmem
  rw [getElem?_numberedFrom] at hi
  obtain ⟨signal, hsignal, rfl⟩ := Option.map_eq_some_iff.mp hi
  have hlt : i < signals.length := (List.getElem?_eq_some_iff.mp hsignal).1
  have hnat : (UInt64.ofNat (last + i + 1)).toNat = last + i + 1 :=
    UInt64.toNat_ofNat_of_lt' (by omega)
  simp only [hnat]
  omega

/-- The records above a number are those behind its place. -/
theorem filter_numberedFrom (after : UInt64) (hfit : last + signals.length < UInt64.size) :
    (numberedFrom last signals).filter (fun record => after < record.seq) =
      (numberedFrom last signals).drop (after.toNat - last) := by
  induction signals generalizing last with
  | nil => rw [numberedFrom, List.filter_nil, List.drop_nil]
  | cons signal rest ih =>
    have hrest : last + 1 + rest.length < UInt64.size := by
      simp only [List.length_cons] at hfit
      omega
    have hnat : (UInt64.ofNat (last + 1)).toNat = last + 1 :=
      UInt64.toNat_ofNat_of_lt' (by omega)
    by_cases h : after.toNat ≤ last
    · have hpass : after < UInt64.ofNat (last + 1) := UInt64.lt_iff_toNat_lt.mpr (by omega)
      have hrest' := ih hrest
      rw [Nat.sub_eq_zero_of_le (by omega), List.drop_zero] at hrest'
      rw [numberedFrom, List.filter_cons_of_pos (by simpa using hpass), hrest',
        Nat.sub_eq_zero_of_le h, List.drop_zero]
    · have hstop : ¬ after < UInt64.ofNat (last + 1) := fun hlt => by
        have := UInt64.lt_iff_toNat_lt.mp hlt
        omega
      have hcount : after.toNat - last = (after.toNat - (last + 1)) + 1 := by omega
      rw [numberedFrom, List.filter_cons_of_neg (by simpa using hstop), ih hrest, hcount,
        List.drop_succ_cons]

/-- Of two records of a history, the one with the greater number comes later; records in order have
growing numbers. -/
theorem numberedFrom_pairwise (hfit : last + signals.length < UInt64.size) :
    (numberedFrom last signals).Pairwise fun a b => a.seq < b.seq := by
  induction signals generalizing last with
  | nil => exact List.Pairwise.nil
  | cons signal rest ih =>
    have hrest : last + 1 + rest.length < UInt64.size := by
      simp only [List.length_cons] at hfit
      omega
    refine List.pairwise_cons.mpr ⟨fun record hmem => ?_, ih hrest⟩
    have hnat : (UInt64.ofNat (last + 1)).toNat = last + 1 :=
      UInt64.toNat_ofNat_of_lt' (by omega)
    have := (seq_of_mem_numberedFrom hrest hmem).1
    exact UInt64.lt_iff_toNat_lt.mpr (by simp only; omega)

/-- The records of a history are numbered from 1 up to its length. -/
theorem seq_of_mem_numbered {history : List Signal} (hfit : history.length < UInt64.size)
    {record : SignalRecord} (hmem : record ∈ numbered history) :
    0 < record.seq.toNat ∧ record.seq.toNat ≤ history.length := by
  have h := seq_of_mem_numberedFrom (by omega : 0 + history.length < UInt64.size) hmem
  omega

end Order

/-- Behind a place of a history that is not its end comes the next number. -/
theorem drop_numbered_eq_cons (history : List Signal) {place : Nat} (hplace : place < history.length) :
    ∃ rest, (numbered history).drop place =
      ⟨UInt64.ofNat (place + 1), history[place]⟩ :: rest := by
  refine ⟨numberedFrom (place + 1) (history.drop (place + 1)), ?_⟩
  rw [numbered, drop_numberedFrom, Nat.zero_add, List.drop_eq_getElem_cons hplace, numberedFrom]

/-- The first record found in a list in the order of numbers is the lowest-numbered one. -/
theorem find?_eq_some_iff_of_pairwise {records : List SignalRecord}
    (hsorted : records.Pairwise fun a b => a.seq < b.seq) (p : SignalRecord → Bool)
    (record : SignalRecord) :
    records.find? p = some record ↔ record ∈ records ∧ p record = true ∧
      ∀ other ∈ records, p other = true → record.seq ≤ other.seq := by
  induction records with
  | nil => simp only [List.find?_nil, reduceCtorEq, List.not_mem_nil, false_and]
  | cons first rest ih =>
    obtain ⟨hfirst, hrest⟩ := List.pairwise_cons.mp hsorted
    by_cases hp : p first = true
    · rw [List.find?_cons_of_pos hp, Option.some.injEq]
      constructor
      · rintro rfl
        refine ⟨List.mem_cons_self, hp, fun other hmem _ => ?_⟩
        rcases List.mem_cons.mp hmem with rfl | hmem
        · exact UInt64.le_refl _
        · exact UInt64.le_of_lt (hfirst other hmem)
      · rintro ⟨hmem, -, hlowest⟩
        rcases List.mem_cons.mp hmem with rfl | hmem
        · rfl
        · have hle : record.seq ≤ first.seq := hlowest first List.mem_cons_self hp
          exact absurd hle (UInt64.not_le.mpr (hfirst record hmem))
    · rw [List.find?_cons_of_neg hp, ih hrest]
      constructor
      · rintro ⟨hmem, hrecord, hlowest⟩
        refine ⟨List.mem_cons_of_mem _ hmem, hrecord, fun other hother hanswers => ?_⟩
        rcases List.mem_cons.mp hother with rfl | hother
        · exact absurd hanswers hp
        · exact hlowest other hother hanswers
      · rintro ⟨hmem, hrecord, hlowest⟩
        rcases List.mem_cons.mp hmem with rfl | hmem
        · exact absurd hrecord hp
        · exact ⟨hmem, hrecord, fun other hother => hlowest other (List.mem_cons_of_mem _ hother)⟩

/-- A numbered signal is one of the history. -/
theorem signal_mem_of_mem_numbered {history : List Signal} {record : SignalRecord}
    (h : record ∈ numbered history) : record.signal ∈ history := by
  obtain ⟨place, hplace⟩ := List.mem_iff_getElem?.mp h
  rw [numbered, getElem?_numberedFrom] at hplace
  obtain ⟨signal, hsignal, rfl⟩ := Option.map_eq_some_iff.mp hplace
  exact List.mem_of_getElem? hsignal

/-- Every signal of a history is numbered. -/
theorem exists_mem_numbered {history : List Signal} {signal : Signal} (h : signal ∈ history) :
    ∃ record ∈ numbered history, record.signal = signal := by
  obtain ⟨place, hplace⟩ := List.mem_iff_getElem?.mp h
  refine ⟨⟨UInt64.ofNat (0 + place + 1), signal⟩, List.mem_of_getElem? (i := place) ?_, rfl⟩
  rw [numbered, getElem?_numberedFrom, hplace]
  rfl

/-- A longer history is numbered like a shorter one, and on. -/
theorem isPrefix_numbered {earlier later : List Signal} (h : earlier <+: later) :
    numbered earlier <+: numbered later := by
  obtain ⟨more, rfl⟩ := h
  rw [numbered_append]
  exact List.prefix_append _ _

end DaemonBridge
