import DaemonBridge.Toml.Printer
import DaemonBridge.Toml.Token
import Mathlib.Tactic.IntervalCases

/-!
# Strings in every form

A written string is scanned as one token that holds the string, whichever of the four forms was chosen for
it (`feed_render_choose`).
-/

namespace DaemonBridge.Toml

/-! ## Inside a string -/

namespace TextState

/-- The string goes on over the text, from one state to another. -/
def GoesOn (t : TextState) (text : List Char) (t' : TextState) : Prop :=
  ∀ tokens, (⟨tokens, .text t⟩ : Scan).feed text = ⟨tokens, .text t'⟩

/-- Over no text it stays as it is. -/
theorem GoesOn.refl (t : TextState) : t.GoesOn [] t :=
  fun _ => rfl

/-- It goes on over one text and then over another. -/
theorem GoesOn.append {t t' t'' : TextState} {a b : List Char} (h : t.GoesOn a t') (h' : t'.GoesOn b t'') :
    t.GoesOn (a ++ b) t'' := fun tokens => by
  rw [Scan.feed_append, h tokens, h' tokens]

/-- It goes on over a single character. -/
theorem GoesOn.of_step {t t' : TextState} {c : Char} (h : t.step c = .more t') : t.GoesOn [c] t' :=
  fun tokens => by
    simp only [Scan.feed, List.foldl_cons, List.foldl_nil, Scan.step, Scan.stepText, h]

/-- It goes on over a character and then over a text. -/
theorem GoesOn.cons {t t' t'' : TextState} {c : Char} {text : List Char} (h : t.step c = .more t')
    (h' : t'.GoesOn text t'') : t.GoesOn (c :: text) t'' :=
  (GoesOn.of_step h).append h'

end TextState

/-- But for the line feed, the controls are the characters that no form holds raw. -/
theorem isControl_eq_needsEscape {c : Char} (h : c ≠ '\n') : isControl c = needsEscape c := by
  have hother : (c != '\n') = true := bne_iff_ne.mpr h
  simp only [isControl, needsEscape, hother, Bool.and_true]

/-- A character that is no control, no quote and no backslash between basic quotes stands for itself. -/
theorem TextState.stepPlain_raw (t : TextState) {c : Char} (hquote : c ≠ t.quote)
    (hslash : t.quote = '"' → c ≠ '\\') (hcontrol : isControl c = false) : t.stepPlain c = t.push c := by
  have hline : c ≠ '\n' := by
    rintro rfl
    exact absurd hcontrol (by decide)
  have hreturn : c ≠ '\r' := by
    rintro rfl
    exact absurd hcontrol (by decide)
  have hback : ¬ (c = '\\' && t.quote = '"') = true := by
    simp only [Bool.and_eq_true, decide_eq_true_eq]
    exact fun h => hslash h.2 h.1
  rw [stepPlain, if_neg hquote, if_neg hback, if_neg hline, if_neg hreturn, hcontrol]
  rfl

/-- An upper-case hexadecimal digit has its value. -/
theorem hexValue?_upperHexDigit {d : Nat} (h : d < 16) : Text.hexValue? (Text.upperHexDigit d) = some d := by
  interval_cases d <;> rfl

/-- A digit that is not the last of a code is added to its value. -/
theorem TextState.stepCode_of_lt (t : TextState) {left digit : Nat} {c : Char} (value : Nat) (hleft : 1 < left)
    (hdigit : Text.hexValue? c = some digit) :
    t.stepCode left value c = t.enter (.code (left - 1) (16 * value + digit)) := by
  rw [stepCode, hdigit]
  exact if_pos hleft

/-- The last digit of a code completes the character. -/
theorem TextState.stepCode_one (t : TextState) {value digit : Nat} {c d : Char}
    (hdigit : Text.hexValue? d = some digit) (hcode : 16 * value + digit = c.toNat) :
    t.stepCode 1 value d = t.push c := by
  have hvalid : (16 * value + digit).isValidChar := hcode ▸ c.valid
  have hchar : ∀ (n : Nat) (h : n.isValidChar), n = c.toNat → Char.ofNatAux n h = c := by
    rintro _ _ rfl
    rfl
  have hstep : t.stepCode 1 value d = t.push (Char.ofNatAux (16 * value + digit) hvalid) := by
    rw [stepCode, hdigit]
    exact (if_neg (by decide)).trans (dif_pos hvalid)
  rw [hstep, hchar _ hvalid hcode]

/-- All digits of a code but those that are left add up to their value. -/
theorem goesOn_leadingDigits (multiline : Bool) (chars : List Char) (width left n : Nat) (hleft : 0 < left)
    (hn : n < 16 ^ width) :
    (⟨'"', multiline, chars, .code (width + left) 0⟩ : TextState).GoesOn
      (Text.hexDigits Text.upperHexDigit width n) ⟨'"', multiline, chars, .code left n⟩ := by
  induction width generalizing left n with
  | zero =>
    obtain rfl : n = 0 := by omega
    rw [Nat.zero_add]
    exact .refl _
  | succ width ih =>
    -- The digits in front of the last one are those of a sixteenth.
    have hlast : n / 16 < 16 ^ width := by omega
    have hdigit : Text.hexValue? (Text.upperHexDigit (n % 16)) = some (n % 16) :=
      hexValue?_upperHexDigit (Nat.mod_lt n (by decide))
    have hfront := ih (left + 1) (n / 16) (Nat.succ_pos left) hlast
    rw [Nat.add_comm left 1, ← Nat.add_assoc] at hfront
    refine hfront.append (.of_step ?_)
    show TextState.stepCode _ (1 + left) (n / 16) _ = _
    rw [TextState.stepCode_of_lt _ _ (by omega) hdigit, Nat.add_sub_cancel_left, Nat.div_add_mod]
    rfl

/-- Four digits of a code stand for the character. -/
theorem goesOn_hexDigits (multiline : Bool) (chars : List Char) {c : Char} (h : c.toNat < 0x10000) :
    (⟨'"', multiline, chars, .code 4 0⟩ : TextState).GoesOn (Text.hexDigits Text.upperHexDigit 4 c.toNat)
      ⟨'"', multiline, c :: chars, .plain⟩ := by
  have hdigit : Text.hexValue? (Text.upperHexDigit (c.toNat % 16)) = some (c.toNat % 16) :=
    hexValue?_upperHexDigit (Nat.mod_lt _ (by decide))
  have hfront := goesOn_leadingDigits multiline chars 3 1 (c.toNat / 16) (by decide) (by omega)
  exact hfront.append (.of_step (TextState.stepCode_one _ hdigit (Nat.div_add_mod _ _)))

/-- A character that is escaped if need be goes on as the character. -/
theorem goesOn_escapedChar (multiline : Bool) (chars : List Char) (c : Char) :
    (⟨'"', multiline, chars, .plain⟩ : TextState).GoesOn (escapedChar c)
      ⟨'"', multiline, c :: chars, .plain⟩ := by
  unfold escapedChar
  iterate 7
    split
    · next hc =>
      subst hc
      exact fun _ => rfl
  split
  · next hcontrol =>
    have hcode : c.toNat < 0x10000 := by
      simp only [needsEscape, Bool.or_eq_true, Bool.and_eq_true, decide_eq_true_eq] at hcontrol
      omega
    have hopen : (⟨'"', multiline, chars, .plain⟩ : TextState).GoesOn ['\\', 'u']
        ⟨'"', multiline, chars, .code 4 0⟩ := fun _ => rfl
    exact hopen.append (goesOn_hexDigits multiline chars hcode)
  · next htab hline _ hreturn hquote hslash hraw =>
    refine .of_step ?_
    have hcontrol : isControl c = false := by
      rw [isControl_eq_needsEscape hline]
      exact Bool.eq_false_iff.mpr hraw
    exact TextState.stepPlain_raw _ hquote (fun _ => hslash) hcontrol

/-! ## On one line -/

/-- Text between basic quotes goes on as the text that was escaped. -/
theorem goesOn_flatMap_escapedChar (chars text : List Char) :
    (⟨'"', false, chars, .plain⟩ : TextState).GoesOn (text.flatMap escapedChar)
      ⟨'"', false, text.reverse ++ chars, .plain⟩ := by
  induction text generalizing chars with
  | nil => exact .refl _
  | cons c text ih =>
    rw [List.flatMap_cons, List.reverse_cons, List.append_assoc]
    exact (goesOn_escapedChar false chars c).append (ih (c :: chars))

/-- What is escaped does not begin with a quote or a line break. -/
theorem exists_escapedChar_eq (c : Char) : ∃ head front, escapedChar c = head :: front ∧
    head ≠ '"' ∧ head ≠ '\n' ∧ head ≠ '\r' := by
  unfold escapedChar
  iterate 8
    split
    · exact ⟨_, _, rfl, by decide, by decide, by decide⟩
  next hline _ hreturn hquote _ _ => exact ⟨c, [], rfl, hquote, hline, hreturn⟩

/-- Text without controls and quotes goes on between literal quotes as it is. -/
theorem goesOn_literal (chars : List Char) {text : List Char}
    (h : ∀ c ∈ text, c ≠ '\'' ∧ isControl c = false) :
    (⟨'\'', false, chars, .plain⟩ : TextState).GoesOn text ⟨'\'', false, text.reverse ++ chars, .plain⟩ := by
  induction text generalizing chars with
  | nil => exact .refl _
  | cons c text ih =>
    obtain ⟨⟨hquote, hcontrol⟩, hrest⟩ := List.forall_mem_cons.mp h
    rw [List.reverse_cons, List.append_assoc]
    refine .cons ?_ (ih (c :: chars) hrest)
    exact TextState.stepPlain_raw _ hquote (fun h : '\'' = '"' => absurd h (by decide)) hcontrol

/-- A string on one line ends with its quote. -/
theorem feed_oneLine {quote : Char} (hquote : quote = '"' ∨ quote = '\'') {text written : List Char}
    (hhead : written.head? ≠ some quote)
    (h : (⟨quote, false, [], .plain⟩ : TextState).GoesOn written ⟨quote, false, text.reverse, .plain⟩)
    (tokens : List Token) :
    (Scan.after tokens).feed (quote :: written ++ [quote] ++ ['\n']) =
      .after (.newline :: .string (String.ofList text) false :: tokens) := by
  have hopen : (Scan.after tokens).step quote = ⟨tokens, .quotes quote false⟩ := by
    rcases hquote with rfl | rfl <;> rfl
  rw [List.append_assoc]
  cases written with
  | nil =>
    -- Nothing is written for the empty string alone, and its two quotes do not open a multi-line one.
    have hnil : text = [] := by simpa [Scan.feed] using (h tokens).symm
    subst hnil
    rcases hquote with rfl | rfl <;> rfl
  | cons c rest =>
    have hc : c ≠ quote := fun heq => hhead (congrArg some heq)
    have hfirst : (⟨tokens, .quotes quote false⟩ : Scan).step c =
        (⟨tokens, .text ⟨quote, false, [], .plain⟩⟩ : Scan).step c := if_neg hc
    have hclose : (⟨quote, false, text.reverse, .plain⟩ : TextState).step quote =
        .close (String.ofList text) := by
      simp [TextState.step, TextState.stepPlain, TextState.result]
    show (((Scan.after tokens).step quote).step c).feed (rest ++ [quote, '\n']) = _
    rw [hopen, hfirst]
    show (⟨tokens, .text ⟨quote, false, [], .plain⟩⟩ : Scan).feed ((c :: rest) ++ [quote, '\n']) = _
    rw [Scan.feed_append, h tokens]
    simp only [Scan.feed, List.foldl_cons, List.foldl_nil, Scan.step, Scan.stepText, hclose]
    rfl

/-! ## On several lines -/

/-- A string between multi-line quotes, at whose end some quotes may yet turn out to be those that close
it. -/
def TextState.holding (quote : Char) (chars : List Char) (run : Nat) : TextState :=
  ⟨quote, true, chars, if run = 0 then .plain else .quotes run⟩

variable {quote c : Char} {chars text : List Char} {run : Nat}

/-- One more quote may yet close the string. -/
theorem TextState.step_holding_quote (h : run < 2) :
    (holding quote chars run).step quote = .more (holding quote chars (run + 1)) := by
  interval_cases run <;> simp [holding, step, stepPlain, enter]

/-- Any other character shows that the quotes belong to the string. -/
theorem TextState.step_holding_other (h : run ≤ 2) (hc : c ≠ quote) :
    (holding quote chars run).step c = (holding quote (List.replicate run quote ++ chars) 0).stepPlain c := by
  interval_cases run <;> simp [holding, step, hc]

/-- A text that does not begin with a quote goes on as if the quotes before it had been known to belong to
the string. -/
theorem TextState.GoesOn.of_plain {t : TextState} (h : run ≤ 2) (hc : c ≠ quote)
    (hplain : (holding quote (List.replicate run quote ++ chars) 0).GoesOn (c :: text) t) :
    (holding quote chars run).GoesOn (c :: text) t := by
  intro tokens
  rw [← hplain tokens]
  have hplain : (holding quote (List.replicate run quote ++ chars) 0).step c =
      (holding quote (List.replicate run quote ++ chars) 0).stepPlain c := rfl
  simp only [Scan.feed, List.foldl_cons, Scan.step, Scan.stepText, step_holding_other h hc, hplain]
  rfl

/-- The string has gone on over a text that stands for so much, and at its end there are at most two quotes
that may yet turn out to close it. -/
def TextState.Spans (quote : Char) (chars : List Char) (run : Nat) (written text : List Char) : Prop :=
  ∃ chars' run', run' ≤ 2 ∧ (holding quote chars run).GoesOn written (holding quote chars' run') ∧
    List.replicate run' quote ++ chars' = text.reverse ++ (List.replicate run quote ++ chars)

/-- A text that stands for nothing. -/
theorem TextState.Spans.nil (h : run ≤ 2) : Spans quote chars run [] [] :=
  ⟨chars, run, h, .refl _, rfl⟩

/-- One more quote stands for itself. -/
theorem TextState.Spans.cons_quote {written : List Char} (h : run < 2)
    (hrest : Spans quote chars (run + 1) written text) :
    Spans quote chars run (quote :: written) (quote :: text) := by
  obtain ⟨chars', run', hle, hgoes, heq⟩ := hrest
  refine ⟨chars', run', hle, .cons (step_holding_quote h) hgoes, ?_⟩
  rw [heq, List.reverse_cons, List.append_assoc, List.replicate_succ]
  rfl

/-- What stands for another character comes behind the quotes. -/
theorem TextState.Spans.cons_char {head : Char} (front : List Char) {written : List Char} (h : run ≤ 2)
    (hhead : head ≠ quote)
    (hfront : (holding quote (List.replicate run quote ++ chars) 0).GoesOn (head :: front)
      (holding quote (c :: (List.replicate run quote ++ chars)) 0))
    (hrest : Spans quote (c :: (List.replicate run quote ++ chars)) 0 written text) :
    Spans quote chars run (head :: front ++ written) (c :: text) := by
  obtain ⟨chars', run', hle, hgoes, heq⟩ := hrest
  refine ⟨chars', run', hle, (GoesOn.of_plain h hhead hfront).append hgoes, ?_⟩
  rw [heq, List.reverse_cons, List.append_assoc]
  rfl

/-- The text between multi-line basic quotes stands for what was written so. -/
theorem spans_multilineText (chars text : List Char) (h : run ≤ 2) :
    TextState.Spans '"' chars run (multilineText run text) text := by
  fun_induction multilineText run text generalizing chars with
  | case1 run => exact .nil h
  | case2 run rest ih =>
    exact .cons_char [] h (by decide) (.of_step rfl) (ih _ (by decide))
  | case3 rest ih =>
    -- The third quote in a row is escaped, so it closes nothing.
    exact .cons_char ['"'] h (by decide) (fun _ => rfl) (ih _ (by decide))
  | case4 run rest hrun ih => exact .cons_quote (by omega) (ih _ (by omega))
  | case5 run c rest hline hquote ih =>
    obtain ⟨head, front, heq, hhead, -⟩ := exists_escapedChar_eq c
    have hgoes := goesOn_escapedChar true (List.replicate run '"' ++ chars) c
    rw [heq] at hgoes ⊢
    exact .cons_char front h hhead hgoes (ih _ (by decide))

/-- The longest run is at least the run so far and the best before it. -/
theorem max_le_longestRun (c : Char) (run best : Nat) (text : List Char) :
    max run best ≤ longestRun c run best text := by
  fun_induction longestRun c run best text with
  | case1 run best => exact Nat.le_refl _
  | case2 run best rest ih => omega
  | case3 run best d rest hne ih => omega

/-- The longest run is at least the run so far. -/
theorem le_longestRun (c : Char) (run best : Nat) (text : List Char) : run ≤ longestRun c run best text :=
  (Nat.le_max_left _ _).trans (max_le_longestRun c run best text)

/-- A text without controls, in which no three quotes follow each other, stands between multi-line literal
quotes for itself. -/
theorem spans_literal {best : Nat} (chars text : List Char) (hrun : longestRun '\'' run best text ≤ 2)
    (hraw : ∀ c ∈ text, needsEscape c = false) : TextState.Spans '\'' chars run text text := by
  have hle : run ≤ 2 := (le_longestRun _ _ _ _).trans hrun
  fun_induction longestRun '\'' run best text generalizing chars with
  | case1 run best => exact .nil hle
  | case2 run best rest ih =>
    obtain ⟨-, hrest⟩ := List.forall_mem_cons.mp hraw
    have hnext := (le_longestRun _ _ _ _).trans hrun
    exact .cons_quote hnext (ih _ hrun hrest hnext)
  | case3 run best c rest hne ih =>
    obtain ⟨hc, hrest⟩ := List.forall_mem_cons.mp hraw
    refine .cons_char [] hle hne (.of_step ?_) (ih _ hrun hrest (by decide))
    by_cases hline : c = '\n'
    · subst hline
      rfl
    · rw [← isControl_eq_needsEscape hline] at hc
      exact TextState.stepPlain_raw _ hne (fun h : '\'' = '"' => absurd h (by decide)) hc

/-- Three quotes and the end of the line close the string. -/
theorem feed_closing (hquote : quote ≠ '\n') (h : run ≤ 2) (tokens : List Token) :
    (⟨tokens, .text (.holding quote chars run)⟩ : Scan).feed (List.replicate 3 quote ++ ['\n']) =
      .after (.newline :: .string (String.ofList (List.replicate run quote ++ chars).reverse) true ::
        tokens) := by
  have hline : ('\n' = quote) = False := eq_false hquote.symm
  interval_cases run <;>
    simp [Scan.feed, Scan.step, Scan.stepText, Scan.stepReady, Scan.after, TextState.holding, TextState.step,
      TextState.stepPlain, TextState.enter, TextState.result, List.replicate, isBlank, hline]

/-- Where no line break follows the opening quotes, the string begins at once. -/
theorem feed_opening (tokens : List Token) {head : Char} {rest : List Char} (hline : head ≠ '\n')
    (hreturn : head ≠ '\r') :
    (⟨tokens, .text ⟨quote, true, [], .opening⟩⟩ : Scan).feed (head :: rest) =
      (⟨tokens, .text (.holding quote [] 0)⟩ : Scan).feed (head :: rest) := by
  have hstep : (⟨quote, true, [], .opening⟩ : TextState).step head =
      (TextState.holding quote [] 0).step head := by
    simp [TextState.step, TextState.holding, TextState.stepPlain, TextState.enter, TextState.push, hline,
      hreturn]
  simp only [Scan.feed, List.foldl_cons, Scan.step, Scan.stepText, hstep]
  rfl

/-- A string on several lines ends with its three quotes. -/
theorem feed_multiline (hquote : quote = '"' ∨ quote = '\'') {written : List Char}
    (hhead : '\n' ∉ text → ∀ head ∈ written.head?, head ≠ '\n' ∧ head ≠ '\r')
    (h : TextState.Spans quote [] 0 written text) (tokens : List Token) :
    (Scan.after tokens).feed (openQuotes quote text ++ written ++ List.replicate 3 quote ++ ['\n']) =
      .after (.newline :: .string (String.ofList text) true :: tokens) := by
  have hopen : (Scan.after tokens).feed (List.replicate 3 quote) =
      ⟨tokens, .text ⟨quote, true, [], .opening⟩⟩ := by
    rcases hquote with rfl | rfl <;> rfl
  have hquoteLine : quote ≠ '\n' ∧ quote ≠ '\r' := by
    rcases hquote with rfl | rfl <;> decide
  obtain ⟨chars, run, hle, hgoes, heq⟩ := h
  have hbody : (⟨tokens, .text (.holding quote [] 0)⟩ : Scan).feed
      (written ++ (List.replicate 3 quote ++ ['\n'])) =
      .after (.newline :: .string (String.ofList text) true :: tokens) := by
    rw [Scan.feed_append, hgoes tokens, feed_closing hquoteLine.1 hle, heq]
    simp
  rw [← hbody, openQuotes, List.append_assoc, List.append_assoc, List.append_assoc, Scan.feed_append, hopen]
  by_cases hline : '\n' ∈ text
  · -- The line break behind the opening quotes is dropped.
    rw [if_pos (List.contains_iff_mem.mpr hline)]
    rfl
  · rw [if_neg (fun h => hline (List.contains_iff_mem.mp h)), List.nil_append]
    cases written with
    | nil => exact feed_opening tokens hquoteLine.1 hquoteLine.2
    | cons head rest =>
      obtain ⟨hne, hnr⟩ := hhead hline head rfl
      exact feed_opening tokens hne hnr

/-! ## The chosen form -/

/-- The form breaks lines. -/
def StringForm.isMultiline : StringForm → Bool
  | .basic | .literal => false
  | .multilineBasic | .multilineLiteral => true

/-- The literal form holds neither controls nor its quote. -/
theorem StringForm.raw_of_choose_eq_literal (h : choose text = .literal) :
    ∀ c ∈ text, c ≠ '\'' ∧ isControl c = false := by
  have hraw : ¬ (text.contains '\n' || text.any needsEscape || text.contains '\'') = true := by
    intro hsome
    have hnot : choose text ≠ .literal := by
      simp only [choose, hsome, Bool.not_true, Bool.false_eq_true, if_false]
      split_ifs <;> decide
    exact hnot h
  simp only [Bool.or_eq_true, not_or, List.contains_iff_mem, List.any_eq_true, not_exists, not_and] at hraw
  obtain ⟨⟨hline, hescape⟩, hquote⟩ := hraw
  intro c hc
  refine ⟨fun heq => hquote (heq ▸ hc), ?_⟩
  rw [isControl_eq_needsEscape fun heq => hline (heq ▸ hc)]
  exact Bool.eq_false_iff.mpr (hescape c hc)

/-- The multi-line literal form holds no controls but line feeds and tabs, and not three quotes in a row. -/
theorem StringForm.raw_of_choose_eq_multilineLiteral (h : choose text = .multilineLiteral) :
    (∀ c ∈ text, needsEscape c = false) ∧ longestRun '\'' 0 0 text ≤ 2 := by
  have hraw : (!text.any needsEscape && decide (longestRun '\'' 0 0 text ≤ 2)) = true := by
    by_contra hnone
    have hnot : choose text ≠ .multilineLiteral := by
      simp only [choose, hnone, if_false]
      split_ifs <;> decide
    exact hnot h
  simpa using hraw

/-- A string at the end of a line is scanned as one token, in whichever form it is written. -/
theorem feed_render_choose (text : List Char) (tokens : List Token) :
    (Scan.after tokens).feed ((StringForm.choose text).render text ++ ['\n']) =
      .after (.newline :: .string (String.ofList text) (StringForm.choose text).isMultiline :: tokens) := by
  cases hform : StringForm.choose text with
  | basic =>
    have hhead : (text.flatMap escapedChar).head? ≠ some '"' := by
      cases text with
      | nil => exact nofun
      | cons c rest =>
        obtain ⟨head, front, heq, hquote, -⟩ := exists_escapedChar_eq c
        rw [List.flatMap_cons, heq]
        exact fun h => hquote (Option.some.inj h)
    have hgoes := goesOn_flatMap_escapedChar [] text
    rw [List.append_nil] at hgoes
    exact feed_oneLine (.inl rfl) hhead hgoes tokens
  | literal =>
    have hraw := StringForm.raw_of_choose_eq_literal hform
    have hhead : text.head? ≠ some '\'' := fun h => (hraw _ (List.mem_of_head? h)).1 rfl
    have hgoes := goesOn_literal [] hraw
    rw [List.append_nil] at hgoes
    exact feed_oneLine (.inr rfl) hhead hgoes tokens
  | multilineBasic =>
    refine feed_multiline (.inl rfl) (fun hline head hhead => ?_) (spans_multilineText [] text (by decide))
      tokens
    cases text with
    | nil => exact nomatch hhead
    | cons c rest =>
      obtain ⟨first, front, heq, -, hne, hnr⟩ := exists_escapedChar_eq c
      have hc : c ≠ '\n' := fun h => hline (h ▸ List.mem_cons_self)
      by_cases hmark : c = '"'
      · subst hmark
        obtain rfl : '"' = head := Option.some.inj hhead
        decide
      · rw [multilineText, heq] at hhead
        · obtain rfl : first = head := Option.some.inj hhead
          exact ⟨hne, hnr⟩
        · exact hc
        · exact hmark
  | multilineLiteral =>
    obtain ⟨hraw, hrun⟩ := StringForm.raw_of_choose_eq_multilineLiteral hform
    refine feed_multiline (.inr rfl) (fun hline head hhead => ?_) (spans_literal [] text hrun hraw) tokens
    have hmem : head ∈ text := List.mem_of_head? hhead
    refine ⟨fun heq => hline (heq ▸ hmem), fun heq => ?_⟩
    subst heq
    exact absurd (hraw _ hmem) (by decide)

end DaemonBridge.Toml
