import DaemonBridge.Proofs.Json.Grammar
import Mathlib.Tactic.IntervalCases

/-!
# Reading any well-formed text

The reader makes of a well-formed text the tree of what is written (`Writing.tree`), whichever blanks,
escapes and forms of numerals it uses (`Document.ofChars_writing`). A string whose escapes leave half of a
pair alone, and a numeral beyond all doubles, are leaves that mean nothing; they do not stop the reader.

A numeral is handed over only with the character behind it, which in a container is a blank or a terminator
(`StartsDelimited`).
-/

namespace DaemonBridge.Json

open Text (Piece)

namespace State

/-- Read characters. -/
def read (state : State) (text : List Char) : State :=
  state.feed (text.map Piece.char)

/-- Reading nothing changes nothing. -/
@[simp] theorem read_nil (state : State) : state.read [] = state := rfl

/-- Reading begins with the first character. -/
theorem read_cons (state : State) (c : Char) (text : List Char) :
    state.read (c :: text) = (state.step (.char c)).read text := rfl

/-- A text in two parts is read part by part. -/
theorem read_append (state : State) (a b : List Char) :
    state.read (a ++ b) = (state.read a).read b := by
  rw [read, List.map_append, feed_append]
  rfl

/-- A value that has been handed over does not leave a numeral open. -/
theorem step_deliver (tree : Tree) (stack : List Frame) (piece : Piece) :
    (deliver tree stack).step piece = (deliver tree stack).stepPlain piece := by
  cases stack with
  | nil => rfl
  | cons frame stack => cases frame <;> rfl

end State

/-! ## Blanks -/

/-- Blanks are what the reader takes for blanks. -/
theorem isJsonBlank_of_mem {c : Char} (h : c ∈ [' ', '\t', '\n', '\r']) : isJsonBlank c = true := by
  simp only [List.mem_cons, List.not_mem_nil, or_false] at h
  obtain rfl | rfl | rfl | rfl := h <;> rfl

/-- The state of a machine between tokens: it passes over blanks. -/
def State.SkipsBlanks (state : State) : Prop :=
  ∀ c, isJsonBlank c = true → state.step (.char c) = state

/-- Between tokens, any number of blanks is passed over. -/
theorem State.SkipsBlanks.read {state : State} (h : state.SkipsBlanks) (blanks : Blanks) (rest : List Char) :
    state.read (blanks.1 ++ rest) = state.read rest := by
  obtain ⟨text, hblank⟩ := blanks
  induction text with
  | nil => rfl
  | cons c text ih =>
    have hstep : state.step (.char c) = state := h c (isJsonBlank_of_mem (hblank c List.mem_cons_self))
    rw [List.cons_append, State.read_cons, hstep]
    exact ih fun c hmem => hblank c (List.mem_cons_of_mem _ hmem)

/-- The phases between tokens. -/
def Phase.betweenTokens : Phase → Bool
  | .value | .firstItem | .afterItem _ | .firstKey | .nextKey _ | .colon .. | .afterMember _ | .done _ => true
  | _ => false

/-- Between tokens, blanks are passed over. -/
theorem State.skipsBlanks {phase : Phase} (stack : List Frame) (h : phase.betweenTokens = true) :
    State.SkipsBlanks ⟨stack, phase⟩ := by
  intro c hc
  cases phase with
  | value | firstItem | afterItem | firstKey | nextKey | colon | afterMember | done =>
    simp only [State.step, State.stepPlain, State.begin, Piece.char?, Option.getD_some, hc, if_true]
  | key | string | numeral | word | halted => exact absurd h Bool.false_ne_true

/-- So they are behind a value that has been handed over. -/
theorem State.skipsBlanks_deliver (tree : Tree) (stack : List Frame) :
    (State.deliver tree stack).SkipsBlanks := by
  cases stack with
  | nil => exact State.skipsBlanks [] rfl
  | cons frame stack => cases frame <;> exact State.skipsBlanks stack rfl

/-! ## Strings -/

section Strings

/-- A place in the reading of a text at which a string is open: `wrap` embeds the state of the string,
and `finish` is where the machine goes with the whole string. -/
structure StringContext (wrap : StringState → State) (finish : Leaf → State) : Prop where
  more : ∀ s piece s', s.step piece = .more s' → (wrap s).step piece = wrap s'
  close : ∀ s piece leaf, s.step piece = .close leaf → (wrap s).step piece = finish leaf

/-- A string that is a value. -/
theorem StringContext.value (stack : List Frame) :
    StringContext (fun s => ⟨stack, .string s⟩) (fun leaf => State.deliver (.leaf leaf) stack) where
  more s piece s' h := by simp only [State.step, State.stepPlain, h]
  close s piece leaf h := by simp only [State.step, State.stepPlain, h]

/-- A string that is the name of a member. -/
theorem StringContext.key (stack : List Frame) (done : List Member) :
    StringContext (fun s => ⟨stack, .key done s⟩) (fun leaf => ⟨stack, .colon done leaf⟩) where
  more s piece s' h := by simp only [State.step, State.stepPlain, h]
  close s piece leaf h := by simp only [State.step, State.stepPlain, h]

variable {wrap : StringState → State} {finish : Leaf → State}

/-- The leaf of a string that holds `chars`, last first, and perhaps the first half of a pair, before the
remaining items. -/
def leafAfter (chars : List Char) (high : Option Nat) (items : List StringItem) : Leaf :=
  match charsAfter high items with
  | some more => .str (String.ofList (chars.reverse ++ more))
  | none => .meaningless

/-- The leaf of a whole string. -/
def stringLeaf (items : List StringItem) : Leaf :=
  leafAfter [] none items

/-- The leaf that a string becomes with the remaining items. -/
def StringState.leafWith (s : StringState) (items : List StringItem) : Leaf :=
  if s.flawed then .meaningless else leafAfter s.chars s.high items

/-- Between items, a string that has met characters only. -/
def StringState.BetweenItems (s : StringState) : Prop :=
  s.phase = .plain ∧ s.illFormed = false

/-- A character is the first of those that remain. -/
theorem StringState.leafWith_add {s s' : StringState} {c : Char} {items rest : List StringItem}
    (hflawed : s'.flawed = s.flawed) (hchars : s'.chars = c :: s.chars) (hhigh : s'.high = none)
    (h : charsAfter s.high items = (charsAfter none rest).map (c :: ·)) :
    s'.leafWith rest = s.leafWith items := by
  rw [leafWith, hflawed, hchars, hhigh, leafWith, leafAfter, leafAfter, h]
  cases charsAfter none rest with
  | none => rfl
  | some more =>
    have hmore : (c :: s.chars).reverse ++ more = s.chars.reverse ++ c :: more := by simp
    simp only [hmore, Option.map_some]

/-- A flaw is one whatever remains. -/
theorem StringState.leafWith_flaw {s s' : StringState} {items : List StringItem}
    (hflawed : s'.flawed = true) (h : charsAfter s.high items = none) (rest : List StringItem) :
    s'.leafWith rest = s.leafWith items := by
  rw [leafWith, if_pos hflawed, leafWith, leafAfter, h]
  exact (ite_self _).symm

/-- The string with one more character; a half of a pair that waits is a flaw. -/
def StringState.pushed (s : StringState) (c : Char) : StringState :=
  { s.abandon with chars := c :: s.chars, phase := .plain }

/-- A character that stands for itself or is escaped is added. -/
theorem StringState.leafWith_pushed {s : StringState} {c : Char} {item : StringItem}
    (h : ∀ rest, charsAfter none (item :: rest) = (charsAfter none rest).map (c :: ·))
    (hlone : ∀ high rest, charsAfter (some high) (item :: rest) = none) (rest : List StringItem) :
    (s.pushed c).leafWith rest = s.leafWith (item :: rest) := by
  have hflawed : (s.pushed c).flawed = (s.flawed || s.high.isSome) := rfl
  cases hhigh : s.high with
  | none =>
    rw [hhigh, Option.isSome_none, Bool.or_false] at hflawed
    exact leafWith_add hflawed rfl rfl (hhigh ▸ h rest)
  | some high =>
    rw [hhigh, Option.isSome_some, Bool.or_true] at hflawed
    exact leafWith_flaw hflawed (hhigh ▸ hlone high rest) rest

/-- At its end, a string is the leaf that it becomes with nothing more. -/
theorem StringState.leaf_abandon {s : StringState} (hs : s.BetweenItems) :
    s.abandon.leaf = s.leafWith [] := by
  obtain ⟨chars, flawed, illFormed, high, phase⟩ := s
  obtain ⟨rfl, rfl⟩ : phase = .plain ∧ illFormed = false := hs
  cases flawed with
  | true => rfl
  | false =>
    cases high with
    | some high => rfl
    | none =>
      show Leaf.str (String.ofList chars.reverse) = Leaf.str (String.ofList (chars.reverse ++ []))
      rw [List.append_nil]

/-- A short escape is read as the character that it stands for. -/
theorem shortEscape?_of_mem {letter c : Char} (h : (letter, c) ∈ shortEscapes) :
    StringState.shortEscape? letter = some c ∧ letter ≠ 'u' := by
  simp only [shortEscapes, List.mem_cons, Prod.mk.injEq, List.not_mem_nil, or_false] at h
  rcases h with ⟨rfl, rfl⟩ | ⟨rfl, rfl⟩ | ⟨rfl, rfl⟩ | ⟨rfl, rfl⟩ | ⟨rfl, rfl⟩ | ⟨rfl, rfl⟩ | ⟨rfl, rfl⟩ |
    ⟨rfl, rfl⟩ <;> exact ⟨rfl, by decide⟩

/-- A hexadecimal digit takes one byte. -/
theorem HexDigit.utf8Size_eq (digit : HexDigit) : digit.1.utf8Size = 1 := by
  obtain ⟨c, h⟩ := digit
  have hle : c.toNat ≤ 0x7f := by
    simp only [Text.hexValue?] at h
    split at h
    · next hc => exact Nat.le_trans hc.2 (by decide)
    split at h
    · next hc => exact Nat.le_trans hc.2 (by decide)
    split at h
    · next hc => exact Nat.le_trans hc.2 (by decide)
    · exact nomatch h
  exact Char.utf8Size_eq_one_iff.mpr hle

/-- A hexadecimal digit is read as its value. -/
theorem HexDigit.hexValue?_eq (digit : HexDigit) : Text.hexValue? digit.1 = some digit.value :=
  (Option.some_get digit.2).symm

/-- Four digits, last first, make the unit that they stand for. -/
theorem unit?_eq (a b c d : HexDigit) :
    StringState.unit? [.char d.1, .char c.1, .char b.1, .char a.1] = some (unitValue a b c d) := by
  simp only [StringState.unit?, List.foldrM_cons, List.foldrM_nil, Piece.char?, Option.bind_some,
    HexDigit.hexValue?_eq, Option.map_some, unitValue, Nat.mul_zero, Nat.zero_add, Option.bind_eq_bind,
    Option.pure_def]

/-- A unit is read digit by digit. -/
theorem read_unit (h : StringContext wrap finish) {s s' : StringState} (hphase : s.phase = .plain)
    (a b c d : HexDigit) (hunit : s.pushUnit (unitValue a b c d) = .more s') :
    (wrap s).read (StringItem.unit a b c d).text = wrap s' := by
  obtain ⟨chars, flawed, illFormed, high, phase⟩ := s
  subst hphase
  let held (digits : List Piece) : StringState := ⟨chars, flawed, illFormed, high, .hex digits⟩
  have hmore : ∀ (digits : List Piece) (digit : HexDigit),
      (Piece.char digit.1 :: digits).foldr (fun piece n => piece.width + n) 0 < 4 →
      (held digits).step (.char digit.1) = .more (held (.char digit.1 :: digits)) :=
    fun digits digit hlt => if_pos hlt
  have hwidth : ∀ digit : HexDigit, (Piece.char digit.1).width = 1 := HexDigit.utf8Size_eq
  have hlast : (held [.char c.1, .char b.1, .char a.1]).step (.char d.1) = .more s' := by
    simp only [StringState.step, held, List.foldr_cons, List.foldr_nil, hwidth, unit?_eq]
    exact hunit
  simp only [StringItem.text, State.read_cons, State.read_nil]
  rw [h.more ⟨chars, flawed, illFormed, high, .plain⟩ (.char '\\')
      ⟨chars, flawed, illFormed, high, .escape⟩ rfl,
    h.more ⟨chars, flawed, illFormed, high, .escape⟩ (.char 'u') (held []) rfl,
    h.more _ _ _ (hmore [] a (by simp [hwidth])),
    h.more _ _ _ (hmore [.char a.1] b (by simp [hwidth])),
    h.more _ _ _ (hmore [.char b.1, .char a.1] c (by simp [hwidth])), h.more _ _ _ hlast]

/-- A unit adds a character, waits for its other half or is a flaw. -/
theorem exists_pushUnit {s : StringState} (hs : s.BetweenItems) (a b c d : HexDigit) :
    ∃ s', s.pushUnit (unitValue a b c d) = .more s' ∧ s'.BetweenItems ∧
      ∀ rest, s'.leafWith rest = s.leafWith (.unit a b c d :: rest) := by
  obtain ⟨chars, flawed, illFormed, high, phase⟩ := s
  obtain ⟨rfl, rfl⟩ : phase = .plain ∧ illFormed = false := hs
  have hlow : ∀ unit : Nat, (0xdc00 ≤ unit && unit ≤ 0xdfff) = decide (IsLow unit) := fun unit =>
    (Bool.decide_and ..).symm
  have hhigh : ∀ unit : Nat, (0xd800 ≤ unit && unit ≤ 0xdbff) = decide (IsHigh unit) := fun unit =>
    (Bool.decide_and ..).symm
  have hpaired : ∀ high rest, charsAfter (some high) (.unit a b c d :: rest) =
      if IsLow (unitValue a b c d) then
        (charsAfter none rest).map (pairedChar high (unitValue a b c d) :: ·)
      else none := fun _ _ => rfl
  have halone : ∀ rest, charsAfter none (.unit a b c d :: rest) =
      if IsHigh (unitValue a b c d) then charsAfter (some (unitValue a b c d)) rest
      else if IsLow (unitValue a b c d) then none
      else (charsAfter none rest).map (Char.ofNat (unitValue a b c d) :: ·) := fun _ => rfl
  simp only [StringState.pushUnit, StringState.push, hlow, hhigh, decide_eq_true_eq]
  cases high with
  | some high =>
    by_cases hunit : IsLow (unitValue a b c d)
    · exact ⟨_, if_pos hunit, ⟨rfl, rfl⟩, fun rest =>
        StringState.leafWith_add rfl rfl rfl ((hpaired high rest).trans (if_pos hunit))⟩
    · exact ⟨_, if_neg hunit, ⟨rfl, rfl⟩, fun rest =>
        StringState.leafWith_flaw rfl ((hpaired high rest).trans (if_neg hunit)) rest⟩
  | none =>
    by_cases hfirst : IsHigh (unitValue a b c d)
    · refine ⟨_, if_pos hfirst, ⟨rfl, rfl⟩, fun rest => ?_⟩
      rw [StringState.leafWith, StringState.leafWith, leafAfter, leafAfter, halone, if_pos hfirst]
    by_cases hsecond : IsLow (unitValue a b c d)
    · exact ⟨_, (if_neg hfirst).trans (if_pos hsecond), ⟨rfl, rfl⟩, fun rest =>
        StringState.leafWith_flaw rfl
          ((halone rest).trans ((if_neg hfirst).trans (if_pos hsecond))) rest⟩
    · exact ⟨_, (if_neg hfirst).trans (if_neg hsecond), ⟨rfl, rfl⟩, fun rest =>
        StringState.leafWith_add rfl rfl rfl
          ((halone rest).trans ((if_neg hfirst).trans (if_neg hsecond)))⟩

/-- An item takes a string to one that becomes the same leaf with what remains. -/
theorem read_item (h : StringContext wrap finish) {s : StringState} (hs : s.BetweenItems)
    (item : StringItem) :
    ∃ s', (wrap s).read item.text = wrap s' ∧ s'.BetweenItems ∧
      ∀ rest, s'.leafWith rest = s.leafWith (item :: rest) := by
  obtain ⟨hphase, hformed⟩ := hs
  cases item with
  | plain c allowed =>
    obtain ⟨hquote, hback, hprint⟩ := allowed
    have hstep : s.step (.char c) = s.abandon.push c := by
      simp only [StringState.step, hphase, if_neg hquote, if_neg hback, if_neg (Nat.not_lt.mpr hprint)]
    refine ⟨s.pushed c, ?_, ⟨rfl, hformed⟩, StringState.leafWith_pushed (fun _ => rfl) fun _ _ => rfl⟩
    simp only [StringItem.text, State.read_cons, State.read_nil]
    exact h.more _ _ _ hstep
  | short letter c means =>
    obtain ⟨hmeans, hu⟩ := shortEscape?_of_mem means
    have hescape : s.step (.char '\\') = .more { s with phase := .escape } := by
      simp only [StringState.step, hphase]
      rfl
    have hletter : ({ s with phase := .escape } : StringState).step (.char letter) =
        .more (s.pushed c) := by
      have hsome : (some letter : Option Char) ≠ some 'u' := fun he => hu (Option.some.inj he)
      simp only [StringState.step, Piece.char?, Option.bind_some, hmeans]
      rfl
    refine ⟨s.pushed c, ?_, ⟨rfl, hformed⟩, StringState.leafWith_pushed (fun _ => rfl) fun _ _ => rfl⟩
    simp only [StringItem.text, State.read_cons, State.read_nil]
    rw [h.more _ _ _ hescape, h.more _ _ _ hletter]
  | unit a b c d =>
    obtain ⟨s', hpush, hs', hleaf⟩ := exists_pushUnit ⟨hphase, hformed⟩ a b c d
    exact ⟨s', read_unit h hphase a b c d hpush, hs', hleaf⟩

/-- A string is read up to its closing quote and becomes the leaf that its items make. -/
theorem read_items (h : StringContext wrap finish) (items : List StringItem) {s : StringState}
    (hs : s.BetweenItems) (rest : List Char) :
    (wrap s).read (items.flatMap StringItem.text ++ '"' :: rest) =
      (finish (s.leafWith items)).read rest := by
  induction items generalizing s with
  | nil =>
    have hclose : s.step (.char '"') = .close (s.leafWith []) := by
      simp only [StringState.step, hs.1, if_true, StringState.leaf_abandon hs]
    rw [List.flatMap_nil, List.nil_append, State.read_cons, h.close _ _ _ hclose]
  | cons item items ih =>
    obtain ⟨s', hread, hs', hleaf⟩ := read_item h hs item
    rw [List.flatMap_cons, List.append_assoc, State.read_append, hread, ih hs', hleaf]

end Strings

/-! ## Numerals -/

section Numerals

variable {negative negativeExponent : Bool} {whole : List Nat} {fraction : Option (List Nat)}
  {phase : NumeralPhase}

/-- A character of a numeral is added to it. -/
theorem step_numeral (stack : List Frame) {n n' : Numeral} {phase' : NumeralPhase} {c : Char}
    (h : numeralStep? n phase c = some (n', phase')) :
    State.step ⟨stack, .numeral n phase⟩ (.char c) = ⟨stack, .numeral n' phase'⟩ := by
  simp only [State.step, Piece.char?, Option.bind_some, h]

/-- Digits are added one by one wherever each of them is. -/
theorem read_digits (put : List Nat → Numeral)
    (h : ∀ (held : List Nat) (d : Fin 10),
      numeralStep? (put held) phase (Nat.digitChar d) = some (put (d.val :: held), phase))
    (stack : List Frame) (held : List Nat) (digits : List (Fin 10)) :
    State.read ⟨stack, .numeral (put held) phase⟩ (digitsText digits) =
      ⟨stack, .numeral (put (heldDigits digits ++ held)) phase⟩ := by
  induction digits generalizing held with
  | nil => rfl
  | cons d digits ih =>
    have hheld : heldDigits (d :: digits) ++ held = heldDigits digits ++ d.val :: held := by
      simp [heldDigits]
    rw [digitsText, List.map_cons, State.read_cons, step_numeral stack (h held d), hheld]
    exact ih (d.val :: held)

/-- The digits of a numeral, with the first of them apart. -/
theorem heldDigits_cons (first : Fin 10) (more : List (Fin 10)) :
    heldDigits (first :: more) = heldDigits more ++ [first.val] := by
  rw [heldDigits, List.map_cons, List.reverse_cons, heldDigits]

/-- The integer part of a numeral is read; behind a zero no digit can follow. -/
theorem read_whole (stack : List Frame) (negative : Bool) (first : Fin 10) (more : List (Fin 10))
    (hzero : first = 0 → more = []) :
    ∃ phase, (phase = .zero ∨ phase = .whole) ∧
      State.read ⟨stack, .value⟩ ((if negative then ['-'] else []) ++ digitsText (first :: more)) =
        ⟨stack, .numeral ⟨negative, heldDigits (first :: more), none, false, none⟩ phase⟩ := by
  have hopen : State.read ⟨stack, .value⟩
      ((if negative then ['-'] else []) ++ digitsText (first :: more)) =
      State.read ⟨stack, .numeral ⟨negative, [first.val], none, false, none⟩
        (if first = 0 then .zero else .whole)⟩ (digitsText more) := by
    obtain ⟨first, hlt⟩ := first
    cases negative <;> interval_cases first <;> rfl
  rw [hopen, heldDigits_cons]
  by_cases hfirst : first = 0
  · subst hfirst
    obtain rfl := hzero rfl
    exact ⟨.zero, .inl rfl, rfl⟩
  · rw [if_neg hfirst]
    exact ⟨.whole, .inr rfl, read_digits (fun held => ⟨negative, held, none, false, none⟩)
      (fun held ⟨d, hlt⟩ => by interval_cases d <;> rfl) stack [first.val] more⟩

/-- The fraction of a numeral is read. -/
theorem read_fraction (stack : List Frame) (h : phase = .zero ∨ phase = .whole) (first : Fin 10)
    (more : List (Fin 10)) :
    State.read ⟨stack, .numeral ⟨negative, whole, none, false, none⟩ phase⟩
        ('.' :: digitsText (first :: more)) =
      ⟨stack, .numeral ⟨negative, whole, some (heldDigits (first :: more)), false, none⟩ .fraction⟩ := by
  have hpoint : State.read ⟨stack, .numeral ⟨negative, whole, none, false, none⟩ phase⟩
      ('.' :: digitsText (first :: more)) =
      State.read ⟨stack, .numeral ⟨negative, whole, some [first.val], false, none⟩ .fraction⟩
        (digitsText more) := by
    obtain ⟨first, hlt⟩ := first
    rcases h with rfl | rfl <;> interval_cases first <;> rfl
  rw [hpoint, heldDigits_cons]
  exact read_digits (fun held => ⟨negative, whole, some held, false, none⟩)
    (fun held ⟨d, hlt⟩ => by interval_cases d <;> rfl) stack [first.val] more

/-- The exponent of a numeral is read. -/
theorem read_exponent (stack : List Frame) (h : phase = .zero ∨ phase = .whole ∨ phase = .fraction)
    (e : ExponentText) :
    State.read ⟨stack, .numeral ⟨negative, whole, fraction, false, none⟩ phase⟩ e.text =
      ⟨stack, .numeral ⟨negative, whole, fraction, e.sign == some true,
        some (heldDigits (e.first :: e.more))⟩ .exponent⟩ := by
  obtain ⟨capital, sign, first, more⟩ := e
  have hmark : ∃ phase', (phase' = .mark ∨ phase' = .exponentSign) ∧
      State.read ⟨stack, .numeral ⟨negative, whole, fraction, false, none⟩ phase⟩
        (ExponentText.text ⟨capital, sign, first, more⟩) =
      State.read ⟨stack, .numeral ⟨negative, whole, fraction, sign == some true, some []⟩ phase'⟩
        (digitsText (first :: more)) := by
    rcases sign with _ | minus
    · refine ⟨.mark, .inl rfl, ?_⟩
      rcases h with rfl | rfl | rfl <;> cases capital <;> rfl
    · refine ⟨.exponentSign, .inr rfl, ?_⟩
      rcases h with rfl | rfl | rfl <;> cases capital <;> cases minus <;> rfl
  obtain ⟨phase', hphase, hmark⟩ := hmark
  have hfirst : State.read ⟨stack, .numeral ⟨negative, whole, fraction, sign == some true, some []⟩ phase'⟩
      (digitsText (first :: more)) =
      State.read ⟨stack, .numeral ⟨negative, whole, fraction, sign == some true, some [first.val]⟩
        .exponent⟩ (digitsText more) := by
    obtain ⟨first, hlt⟩ := first
    rcases hphase with rfl | rfl <;> interval_cases first <;> rfl
  rw [hmark, hfirst, heldDigits_cons]
  exact read_digits (fun held => ⟨negative, whole, fraction, sign == some true, some held⟩)
    (fun held ⟨d, hlt⟩ => by interval_cases d <;> rfl) stack [first.val] more

/-- A numeral is read as its parts and may end where its text does. -/
theorem read_numeral (stack : List Frame) (n : NumeralText) :
    ∃ phase : NumeralPhase, phase.complete = true ∧
      State.read ⟨stack, .value⟩ n.text = ⟨stack, .numeral n.numeral phase⟩ := by
  obtain ⟨negative, first, more, hzero, fraction, exponent⟩ := n
  obtain ⟨phase, hphase, hwhole⟩ := read_whole stack negative first more hzero
  -- behind the digits before the point, and those behind it if there are any
  obtain ⟨phase', hphase', hfraction⟩ : ∃ phase' : NumeralPhase,
      (phase' = .zero ∨ phase' = .whole ∨ phase' = .fraction) ∧
      State.read ⟨stack, .numeral ⟨negative, heldDigits (first :: more), none, false, none⟩ phase⟩
        (NumeralText.fractionText fraction) =
      ⟨stack, .numeral ⟨negative, heldDigits (first :: more),
        fraction.map fun digits => heldDigits (digits.1 :: digits.2), false, none⟩ phase'⟩ := by
    cases fraction with
    | none => exact ⟨phase, hphase.imp_right .inl, rfl⟩
    | some digits => exact ⟨.fraction, .inr (.inr rfl), read_fraction stack hphase digits.1 digits.2⟩
  rw [NumeralText.text, State.read_append, State.read_append, hwhole, hfraction]
  cases exponent with
  | none => exact ⟨phase', by rcases hphase' with rfl | rfl | rfl <;> rfl, rfl⟩
  | some e => exact ⟨.exponent, rfl, read_exponent stack hphase' e⟩

/-- A character that stands behind a numeral: it separates values, closes a container or is blank. -/
def IsDelimiter (c : Char) : Prop :=
  c ∈ [',', ']', '\x7d', ' ', '\t', '\n', '\r']

instance : DecidablePred IsDelimiter := fun _ => inferInstanceAs (Decidable (_ ∈ _))

/-- A delimiter ends a numeral, which is handed over first. -/
theorem step_delimiter (stack : List Frame) (n : Numeral) (phase : NumeralPhase)
    (hphase : phase.complete = true) {c : Char} (hc : IsDelimiter c) :
    State.step ⟨stack, .numeral n phase⟩ (.char c) =
      (State.deliver (.leaf n.leaf) stack).step (.char c) := by
  rw [State.step_deliver]
  simp only [IsDelimiter, List.mem_cons, List.not_mem_nil, or_false] at hc
  cases phase with
  | zero | whole | fraction | exponent =>
    rcases hc with rfl | rfl | rfl | rfl | rfl | rfl | rfl <;> rfl
  | sign | point | mark | exponentSign => exact absurd hphase Bool.false_ne_true

end Numerals

/-! ## Values -/

mutual

/-- The tree of what is written. -/
def Writing.tree : Writing → Tree
  | .null => .leaf .null
  | .bool b => .leaf (.bool b)
  | .numeral n => .leaf n.numeral.leaf
  | .string items => .leaf (stringLeaf items)
  | .arr items => .arr items.trees .closed
  | .obj members => .obj members.trees .closed

/-- The trees of elements. -/
def ItemWritings.trees : ItemWritings → List Tree
  | .nil _ => []
  | .cons _ value _ rest => value.tree :: rest.trees

/-- The trees of members. -/
def MemberWritings.trees : MemberWritings → List Member
  | .nil _ => []
  | .cons _ name _ _ value _ rest => (stringLeaf name, value.tree) :: rest.trees

end

/-- A text that begins with a character that may stand behind a numeral. -/
def StartsDelimited (text : List Char) : Prop :=
  ∃ c tail, text = c :: tail ∧ IsDelimiter c

/-- Blanks do not stand in the way. -/
theorem StartsDelimited.blanks {text : List Char} (h : StartsDelimited text) (blanks : Blanks) :
    StartsDelimited (blanks.1 ++ text) := by
  obtain ⟨blanks, hblanks⟩ := blanks
  cases blanks with
  | nil => exact h
  | cons c blanks =>
    have hblank : c ∈ [' ', '\t', '\n', '\r'] := hblanks c List.mem_cons_self
    exact ⟨c, blanks ++ text, rfl, List.mem_append_right [',', ']', '\x7d'] hblank⟩

/-- An element of an array is followed by a delimiter. -/
theorem ItemWritings.startsDelimited (items : ItemWritings) (rest : List Char) :
    StartsDelimited (items.moreText ++ rest) := by
  cases items with
  | nil blanks =>
    rw [moreText, List.append_assoc]
    exact StartsDelimited.blanks ⟨']', rest, rfl, by decide⟩ blanks
  | cons => exact ⟨',', _, rfl, by decide⟩

/-- A member of an object is followed by a delimiter. -/
theorem MemberWritings.startsDelimited (members : MemberWritings) (rest : List Char) :
    StartsDelimited (members.moreText ++ rest) := by
  cases members with
  | nil blanks =>
    rw [moreText, List.append_assoc]
    exact StartsDelimited.blanks ⟨'\x7d', rest, rfl, by decide⟩ blanks
  | cons => exact ⟨',', _, rfl, by decide⟩

/-- A value begins with a character that can only begin a value. -/
theorem Writing.exists_text_eq_cons (w : Writing) :
    ∃ c rest, w.text = c :: rest ∧ isJsonBlank c = false ∧ c ≠ ']' := by
  cases w with
  | null => exact ⟨_, _, rfl, rfl, by decide⟩
  | bool b => cases b <;> exact ⟨_, _, rfl, rfl, by decide⟩
  | string items => exact ⟨_, _, rfl, rfl, by decide⟩
  | arr items => exact ⟨_, _, rfl, rfl, by decide⟩
  | obj members => exact ⟨_, _, rfl, rfl, by decide⟩
  | numeral n =>
    obtain ⟨negative, ⟨first, hlt⟩, more, hzero, fraction, exponent⟩ := n
    cases negative with
    | true => exact ⟨_, _, rfl, rfl, by decide⟩
    | false =>
      refine ⟨Nat.digitChar first, _, rfl, ?_⟩
      interval_cases first <;> exact ⟨rfl, by decide⟩

/-- The first element of an array is read like any other. -/
theorem step_firstItem (stack : List Frame) {c : Char} (hblank : isJsonBlank c = false)
    (hc : c ≠ ']') :
    State.step ⟨stack, .firstItem⟩ (.char c) = State.step ⟨.items [] :: stack, .value⟩ (.char c) := by
  have hstep : State.step ⟨stack, .firstItem⟩ (.char c) =
      if isJsonBlank c then ⟨stack, .firstItem⟩
      else if c = ']' then State.deliver (.arr [] .closed) stack
      else State.begin (.items [] :: stack) c := rfl
  rw [hstep, hblank, if_neg hc]
  rfl

/-- The name of a member is read up to the value behind its colon. -/
theorem read_name (stack : List Frame) (done : List Member) (name : List StringItem)
    (beforeColon behindColon : Blanks) (rest : List Char) :
    State.read ⟨stack, .key done {}⟩
        (name.flatMap StringItem.text ++ '"' :: (beforeColon.1 ++ ':' :: (behindColon.1 ++ rest))) =
      State.read ⟨.member done (stringLeaf name) :: stack, .value⟩ rest := by
  have hplain : ({} : StringState).BetweenItems := ⟨rfl, rfl⟩
  have hcolon : State.SkipsBlanks ⟨stack, .colon done (stringLeaf name)⟩ := State.skipsBlanks stack rfl
  have hvalue : State.SkipsBlanks ⟨.member done (stringLeaf name) :: stack, .value⟩ :=
    State.skipsBlanks _ rfl
  refine (read_items (StringContext.key stack done) name hplain _).trans ?_
  refine (hcolon.read beforeColon _).trans ?_
  exact hvalue.read behindColon rest

mutual

/-- The text of a value is read as the value's tree, which is handed to the innermost open container; a
numeral is, with the delimiter behind it. -/
theorem Writing.read_text : (w : Writing) → (stack : List Frame) → (rest : List Char) →
    ((∃ n, w = .numeral n) → StartsDelimited rest) →
    State.read ⟨stack, .value⟩ (w.text ++ rest) = (State.deliver w.tree stack).read rest
  | .null, _, _, _ => rfl
  | .bool true, _, _, _ => rfl
  | .bool false, _, _, _ => rfl
  | .numeral n, stack, rest, hrest => by
    obtain ⟨c, tail, rfl, hc⟩ := hrest ⟨n, rfl⟩
    obtain ⟨phase, hcomplete, hread⟩ := read_numeral stack n
    rw [Writing.text, State.read_append, hread, State.read_cons, step_delimiter stack _ phase hcomplete hc]
    rfl
  | .string items, stack, rest, _ => by
    have hplain : ({} : StringState).BetweenItems := ⟨rfl, rfl⟩
    have hread := read_items (StringContext.value stack) items hplain rest
    rw [Writing.text, itemsText, List.cons_append, List.cons_append, List.append_assoc, List.singleton_append]
    exact hread
  | .arr items, stack, rest, _ => by
    rw [Writing.text, List.cons_append, State.read_cons]
    exact items.read_text stack rest
  | .obj members, stack, rest, _ => by
    rw [Writing.text, List.cons_append, State.read_cons]
    exact members.read_text stack rest

/-- The elements of an array are read as their trees, and the array is handed over. -/
theorem ItemWritings.read_text : (items : ItemWritings) → (stack : List Frame) → (rest : List Char) →
    State.read ⟨stack, .firstItem⟩ (items.text ++ rest) =
      (State.deliver (.arr items.trees .closed) stack).read rest
  | .nil blanks, stack, rest => by
    have hskip : State.SkipsBlanks ⟨stack, .firstItem⟩ := State.skipsBlanks stack rfl
    rw [ItemWritings.text, List.append_assoc, hskip.read]
    rfl
  | .cons before value behind items, stack, rest => by
    obtain ⟨c, tail, hcons, hblank, hc⟩ := value.exists_text_eq_cons
    have hskip : State.SkipsBlanks ⟨stack, .firstItem⟩ := State.skipsBlanks stack rfl
    have hbehind := State.skipsBlanks_deliver value.tree (.items [] :: stack)
    have hfirst : ∀ more, State.read ⟨stack, .firstItem⟩ (value.text ++ more) =
        State.read ⟨.items [] :: stack, .value⟩ (value.text ++ more) := fun more => by
      rw [hcons, List.cons_append, State.read_cons, State.read_cons, step_firstItem stack hblank hc]
    have hvalue := value.read_text (.items [] :: stack) (behind.1 ++ (items.moreText ++ rest))
      fun _ => (items.startsDelimited rest).blanks behind
    simp only [ItemWritings.text, List.append_assoc]
    rw [hskip.read, hfirst, hvalue, hbehind.read]
    exact items.read_moreText stack [value.tree] rest

/-- Further elements of an array are added to it, and the array is handed over. -/
theorem ItemWritings.read_moreText : (items : ItemWritings) → (stack : List Frame) →
    (done : List Tree) → (rest : List Char) →
    State.read ⟨stack, .afterItem done⟩ (items.moreText ++ rest) =
      (State.deliver (.arr (done.reverse ++ items.trees) .closed) stack).read rest
  | .nil blanks, stack, done, rest => by
    have hskip : State.SkipsBlanks ⟨stack, .afterItem done⟩ := State.skipsBlanks stack rfl
    rw [ItemWritings.moreText, List.append_assoc, hskip.read, ItemWritings.trees, List.append_nil]
    rfl
  | .cons before value behind items, stack, done, rest => by
    have hskip : State.SkipsBlanks ⟨.items done :: stack, .value⟩ := State.skipsBlanks _ rfl
    have hbehind := State.skipsBlanks_deliver value.tree (.items done :: stack)
    have hvalue := value.read_text (.items done :: stack) (behind.1 ++ (items.moreText ++ rest))
      fun _ => (items.startsDelimited rest).blanks behind
    have hmore := items.read_moreText stack (value.tree :: done) rest
    rw [List.reverse_cons, List.append_assoc, List.singleton_append] at hmore
    simp only [ItemWritings.moreText, List.cons_append, List.append_assoc]
    rw [State.read_cons]
    refine (hskip.read before _).trans ?_
    rw [hvalue, hbehind.read]
    exact hmore

/-- The members of an object are read as their trees, and the object is handed over. -/
theorem MemberWritings.read_text : (members : MemberWritings) → (stack : List Frame) →
    (rest : List Char) →
    State.read ⟨stack, .firstKey⟩ (members.text ++ rest) =
      (State.deliver (.obj members.trees .closed) stack).read rest
  | .nil blanks, stack, rest => by
    have hskip : State.SkipsBlanks ⟨stack, .firstKey⟩ := State.skipsBlanks stack rfl
    rw [MemberWritings.text, List.append_assoc, hskip.read]
    rfl
  | .cons before name beforeColon behindColon value behind members, stack, rest => by
    have hskip : State.SkipsBlanks ⟨stack, .firstKey⟩ := State.skipsBlanks stack rfl
    have hname := read_name stack [] name beforeColon behindColon
      (value.text ++ (behind.1 ++ (members.moreText ++ rest)))
    have hvalue := value.read_text (.member [] (stringLeaf name) :: stack)
      (behind.1 ++ (members.moreText ++ rest)) fun _ => (members.startsDelimited rest).blanks behind
    have hbehind := State.skipsBlanks_deliver value.tree (.member [] (stringLeaf name) :: stack)
    simp only [MemberWritings.text, itemsText, List.cons_append, List.nil_append, List.append_assoc]
    rw [hskip.read, State.read_cons]
    refine hname.trans ?_
    rw [hvalue, hbehind.read]
    exact members.read_moreText stack [(stringLeaf name, value.tree)] rest

/-- Further members of an object are added to it, and the object is handed over. -/
theorem MemberWritings.read_moreText : (members : MemberWritings) → (stack : List Frame) →
    (done : List Member) → (rest : List Char) →
    State.read ⟨stack, .afterMember done⟩ (members.moreText ++ rest) =
      (State.deliver (.obj (done.reverse ++ members.trees) .closed) stack).read rest
  | .nil blanks, stack, done, rest => by
    have hskip : State.SkipsBlanks ⟨stack, .afterMember done⟩ := State.skipsBlanks stack rfl
    rw [MemberWritings.moreText, List.append_assoc, hskip.read, MemberWritings.trees, List.append_nil]
    rfl
  | .cons before name beforeColon behindColon value behind members, stack, done, rest => by
    have hskip : State.SkipsBlanks ⟨stack, .nextKey done⟩ := State.skipsBlanks stack rfl
    have hname := read_name stack done name beforeColon behindColon
      (value.text ++ (behind.1 ++ (members.moreText ++ rest)))
    have hvalue := value.read_text (.member done (stringLeaf name) :: stack)
      (behind.1 ++ (members.moreText ++ rest)) fun _ => (members.startsDelimited rest).blanks behind
    have hbehind := State.skipsBlanks_deliver value.tree (.member done (stringLeaf name) :: stack)
    have hmore := members.read_moreText stack ((stringLeaf name, value.tree) :: done) rest
    rw [List.reverse_cons, List.append_assoc, List.singleton_append] at hmore
    simp only [MemberWritings.moreText, itemsText, List.cons_append, List.nil_append, List.append_assoc]
    rw [State.read_cons]
    refine (hskip.read before _).trans ?_
    rw [State.read_cons]
    refine hname.trans ?_
    rw [hvalue, hbehind.read]
    exact hmore

end

/-- A well-formed text, unless it is a numeral, is a document of the tree of what is written. -/
theorem Document.ofChars_writing (before behind : Blanks) {w : Writing} (h : ¬ ∃ n, w = .numeral n) :
    Document.ofChars (before.1 ++ w.text ++ behind.1) = ⟨w.tree, false⟩ := by
  have hstart : State.SkipsBlanks .start := State.skipsBlanks [] rfl
  have hend := State.skipsBlanks_deliver w.tree []
  have hread : State.start.read (before.1 ++ (w.text ++ behind.1)) = State.deliver w.tree [] := by
    rw [hstart.read]
    refine (w.read_text [] behind.1 fun hnumeral => absurd hnumeral h).trans ?_
    have hbehind := hend.read behind []
    rwa [List.append_nil] at hbehind
  rw [List.append_assoc]
  exact congrArg State.document hread

end DaemonBridge.Json
