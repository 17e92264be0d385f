import DaemonBridge.Proofs.Json.Reading
import DaemonBridge.Proofs.Toml.Strings
import DaemonBridge.Toml.Document

/-!
# Written lines

A line that is written for a header or an entry is scanned and parsed as the statement that it stands for,
wherever it stands in a document (`Says`). What whole lines say is what they say one after another, and an
empty line says nothing. A document of such lines has the table that their statements build
(`document?_of_lines`).
-/

namespace DaemonBridge.Toml

/-! ## Words -/

/-- A key character begins no other token. -/
theorem endsWord_of_isKeyChar {c : Char} (h : isKeyChar c = true) : endsWord c = false := by
  have hne : ∀ d, isKeyChar d = false → c ≠ d := by
    rintro d hd rfl
    exact absurd h (Bool.eq_false_iff.mp hd)
  simp (disch := decide) [endsWord, isBlank, mark?, hne]

/-- A character that ends no word begins one. -/
theorem stepReady_of_endsWord {c : Char} (h : endsWord c = false) (tokens : List Token) :
    Scan.stepReady tokens c = ⟨tokens, .word [c]⟩ := by
  simp only [endsWord, Bool.or_eq_false_iff, decide_eq_false_iff_not] at h
  obtain ⟨⟨⟨⟨⟨⟨hblank, hline⟩, hreturn⟩, hhash⟩, hquote⟩, happ⟩, hmark⟩ := h
  have hnone : mark? c = none := Option.isNone_iff_eq_none.mp (Option.isSome_eq_false_iff.mp hmark)
  simp [Scan.stepReady, hblank, hline, hreturn, hhash, hquote, happ, hnone]

/-- A word is read up to its end. -/
theorem feed_wordRest (tokens : List Token) (read : List Char) {text : List Char}
    (h : ∀ c ∈ text, isKeyChar c = true) :
    (⟨tokens, .word read⟩ : Scan).feed text = ⟨tokens, .word (text.reverse ++ read)⟩ := by
  induction text generalizing read with
  | nil => rfl
  | cons c text ih =>
    obtain ⟨hc, hrest⟩ := List.forall_mem_cons.mp h
    have hstep : (⟨tokens, .word read⟩ : Scan).step c = ⟨tokens, .word (c :: read)⟩ :=
      if_neg (Bool.eq_false_iff.mp (endsWord_of_isKeyChar hc))
    rw [List.reverse_cons, List.append_assoc]
    exact (congrArg (fun scan => Scan.feed scan text) hstep).trans (ih (c :: read) hrest)

/-- The text is a key that needs no quotes. -/
structure IsBare (text : List Char) : Prop where
  ne_nil : text ≠ []
  all : text.all isKeyChar = true

instance (text : List Char) : Decidable (IsBare text) :=
  decidable_of_iff (text ≠ [] ∧ text.all isKeyChar = true) ⟨fun h => ⟨h.1, h.2⟩, fun h => ⟨h.1, h.2⟩⟩

namespace IsBare

variable {text : List Char}

/-- A key is read as a word. -/
theorem feed_eq (h : IsBare text) (tokens : List Token) :
    (Scan.after tokens).feed text = ⟨tokens, .word text.reverse⟩ := by
  cases text with
  | nil => exact absurd rfl h.ne_nil
  | cons c rest =>
    obtain ⟨hc, hrest⟩ := List.forall_mem_cons.mp (List.all_eq_true.mp h.all)
    have hstep : (Scan.after tokens).step c = ⟨tokens, .word [c]⟩ :=
      stepReady_of_endsWord (endsWord_of_isKeyChar hc) tokens
    rw [List.reverse_cons]
    exact (congrArg (fun scan => Scan.feed scan rest) hstep).trans (feed_wordRest tokens [c] hrest)

/-- A key is its own token's key. -/
theorem key?_eq (h : IsBare text) : key? (.word text) = some (String.ofList text) :=
  if_pos h.all

/-- A key begins neither with a blank nor with a byte order mark. -/
theorem isBlank_head (h : IsBare text) : ∃ c rest, text = c :: rest ∧ isBlank c = false ∧ c ≠ '\ufeff' := by
  cases text with
  | nil => exact absurd rfl h.ne_nil
  | cons c rest =>
    have hc : isKeyChar c = true := List.all_eq_true.mp h.all c List.mem_cons_self
    refine ⟨c, rest, rfl, ?_, ?_⟩
    · have hends := endsWord_of_isKeyChar hc
      simp only [endsWord, Bool.or_eq_false_iff] at hends
      exact hends.1.1.1.1.1.1
    · rintro rfl
      exact absurd hc (by decide)

end IsBare

/-! ## Numerals -/

/-- Digits alone are not grouped. -/
theorem ungroup?_of_isDigit {text : List Char} (hne : text ≠ []) (h : ∀ c ∈ text, c.isDigit = true) :
    ungroup? Char.isDigit text = some text := by
  fun_induction ungroup? Char.isDigit text with
  | case1 => exact absurd rfl hne
  | case2 c hc => rfl
  | case3 c hc => exact absurd (h c List.mem_cons_self) hc
  | case4 c rest hc ih =>
    have hmark : ('_' : Char).isDigit = true := h '_' (List.mem_cons_of_mem _ List.mem_cons_self)
    exact absurd hmark (by decide)
  | case5 c rest hc => exact absurd (h c List.mem_cons_self) hc
  | case6 c rest hnil hmark hc ih =>
    rw [ih hnil (List.forall_mem_cons.mp h).2]
    rfl
  | case7 c rest hnil hmark hc => exact absurd (h c List.mem_cons_self) hc

/-- Digits have the value of their numeral. -/
theorem valueInBase_digitsText (digits : List (Fin 10)) :
    valueInBase 10 (Json.digitsText digits) = Json.digitsValue digits := by
  rw [valueInBase, Json.digitsText, List.foldl_map, Json.digitsValue]
  congr 1
  funext value d
  rw [Json.hexValue?_digitChar (by omega), Option.getD_some]

/-- Digits of which the first is not zero are read as their number. -/
theorem integer?_digitsText {first : Fin 10} {more : List (Fin 10)} (hfirst : first ≠ 0)
    (hn : Json.digitsValue (first :: more) < doubleWordSize) :
    integer? (Json.digitsText (first :: more)) = some (Int.ofNat (Json.digitsValue (first :: more))) := by
  have hdigits : ∀ c ∈ Json.digitsText (first :: more), c.isDigit = true := by
    intro c hc
    obtain ⟨d, -, rfl⟩ := List.mem_map.mp hc
    exact (by decide : ∀ d : Fin 10, (Nat.digitChar d).isDigit = true) d
  obtain ⟨hzero, hminus, hplus⟩ : '0' ≠ Nat.digitChar first ∧ '-' ≠ Nat.digitChar first ∧
      '+' ≠ Nat.digitChar first :=
    (by decide : ∀ d : Fin 10, d ≠ 0 →
      '0' ≠ Nat.digitChar d ∧ '-' ≠ Nat.digitChar d ∧ '+' ≠ Nat.digitChar d) first hfirst
  have hdecimal : decimalDigits? (Json.digitsText (first :: more)) =
      some (Json.digitsText (first :: more)) := by
    have hungroup : ungroup? Char.isDigit (Json.digitsText (first :: more)) =
        some (Json.digitsText (first :: more)) := ungroup?_of_isDigit (List.cons_ne_nil _ _) hdigits
    rw [decimalDigits?, hungroup]
    split
    · next heq => exact absurd (List.cons.inj (Option.some.inj heq)).1.symm hzero
    · rfl
  have hsign : splitSign (Json.digitsText (first :: more)) =
      (false, false, Json.digitsText (first :: more)) := by
    unfold splitSign
    split
    · next heq => exact absurd (List.cons.inj heq).1.symm hminus
    · next heq => exact absurd (List.cons.inj heq).1.symm hplus
    · rfl
  unfold integer?
  split
  iterate 3
    · next heq => exact absurd (List.cons.inj heq).1.symm hzero
  · simp only [hsign, hdecimal, Option.bind_some, valueInBase_digitsText, if_pos hn]
    rfl

/-- A number is read from its decimal digits. -/
theorem integer?_decimal (n : UInt64) : integer? (Text.decimal n.toNat) = some (Int.ofNat n.toNat) := by
  obtain ⟨first, more, htext, hzero, hvalue⟩ := Json.exists_digits n.toNat
  by_cases hfirst : first = 0
  · obtain rfl := hzero hfirst
    subst hfirst
    rw [← htext, ← hvalue]
    rfl
  · have hn : n.toNat < doubleWordSize := n.toNat_lt_size.trans (by decide)
    rw [← hvalue] at hn
    rw [← htext, integer?_digitsText hfirst hn, hvalue]

/-- Decimal digits are the text of a number, unquoted. -/
theorem isBare_decimal (n : Nat) : IsBare (Text.decimal n) where
  ne_nil := Nat.toDigits_ne_nil
  all := List.all_eq_true.mpr fun c hc => by
    have hdigit := Text.isDigit_of_mem_decimal hc
    simp [isKeyChar, Char.isAlphanum, hdigit]

/-- The unquoted value of decimal digits is their number. -/
theorem scalar?_decimal (n : UInt64) : scalar? (Text.decimal n.toNat) = some (.integer n.toNat) := by
  have hword : ∀ c rest, c.isDigit = false → Text.decimal n.toNat ≠ c :: rest := fun c rest hc heq => by
    rw [Text.isDigit_of_mem_decimal (n := n.toNat) (by rw [heq]; exact List.mem_cons_self)] at hc
    exact Bool.false_ne_true hc.symm
  rw [scalar?, if_neg (hword _ _ (by decide)), if_neg (hword _ _ (by decide)), integer?_decimal]
  rfl

/-! ## Values -/

/-- The value that an assignment sets. -/
def Plain.value : Plain → Value
  | .string s => .string s
  | .integer n => .integer n.toNat
  | .boolean b => .boolean b
  | .emptyArray => .array [] false

/-- The rest of the line behind an equals sign and a blank, wherever it stands, sets the value. -/
def Sets (text : List Char) (value : Value) : Prop :=
  ∃ tokens, (∀ before, (Scan.after before).feed text = .after (tokens.reverse ++ before)) ∧
    ∀ statements path, (⟨statements, [.assignment path], .value⟩ : Parse).feed tokens =
      ⟨.assign path value :: statements, [], .line⟩

/-- A word sets the value that it is the text of. -/
theorem sets_word (text : List Char) {value : Value} (hbare : IsBare text) (h : scalar? text = some value) :
    Sets (text ++ ['\n']) value := by
  refine ⟨[.word text, .newline], fun before => ?_, fun statements path => ?_⟩
  · rw [Scan.feed_append, hbare.feed_eq]
    show Scan.stepReady (.word text.reverse.reverse :: before) '\n' = _
    rw [List.reverse_reverse]
    rfl
  · show ((⟨statements, [.assignment path], .scalar text⟩ : Parse).endScalar text).stepPlain .newline = _
    rw [Parse.endScalar, h]
    rfl

/-- A written value is set. -/
theorem Plain.sets_render (v : Plain) : Sets (v.render ++ ['\n']) v.value := by
  cases v with
  | string s =>
    have hscan := feed_render_choose s.toList
    rw [String.ofList_toList] at hscan
    exact ⟨[.string s (StringForm.choose s.toList).isMultiline, .newline], hscan, fun _ _ => rfl⟩
  | integer n => exact sets_word _ (isBare_decimal _) (scalar?_decimal n)
  | boolean b =>
    cases b with
    | false => exact sets_word ['f', 'a', 'l', 's', 'e'] (by decide) rfl
    | true => exact sets_word ['t', 'r', 'u', 'e'] (by decide) rfl
  | emptyArray => exact ⟨[.openBracket, .closeBracket, .newline], fun _ => rfl, fun _ _ => rfl⟩

/-- A written value does not begin with a blank. -/
theorem Plain.isBlank_head (v : Plain) : ∃ c rest, v.render = c :: rest ∧ isBlank c = false := by
  cases v with
  | string s =>
    rw [Plain.render]
    cases StringForm.choose s.toList <;> exact ⟨_, _, rfl, rfl⟩
  | integer n =>
    obtain ⟨c, rest, heq, hblank, -⟩ := (isBare_decimal n.toNat).isBlank_head
    exact ⟨c, rest, heq, hblank⟩
  | boolean b => cases b <;> exact ⟨_, _, rfl, rfl⟩
  | emptyArray => exact ⟨_, _, rfl, rfl⟩

/-! ## Lines -/

/-- Whole lines that stand for these statements, wherever they stand in a document. -/
structure Says (text : List Char) (said : List Statement) : Prop where
  unmarked : text.head? ≠ some '\ufeff'
  read : ∃ tokens, (∀ before, (Scan.after before).feed text = .after (tokens.reverse ++ before)) ∧
    ∀ statements, (⟨statements, [], .line⟩ : Parse).feed tokens = ⟨said.reverse ++ statements, [], .line⟩

namespace Says

variable {text : List Char} {said : List Statement}

/-- No lines say nothing. -/
theorem nil : Says [] [] :=
  ⟨nofun, [], fun _ => rfl, fun _ => rfl⟩

/-- An empty line says nothing. -/
theorem emptyLine : Says ['\n'] [] :=
  ⟨by decide, [.newline], fun _ => rfl, fun _ => rfl⟩

/-- Lines are said one after another. -/
theorem append {more : List Char} {moreSaid : List Statement} (h : Says text said)
    (hmore : Says more moreSaid) : Says (text ++ more) (said ++ moreSaid) := by
  obtain ⟨hhead, tokens, hscan, hparse⟩ := h
  obtain ⟨hmoreHead, moreTokens, hmoreScan, hmoreParse⟩ := hmore
  refine ⟨?_, tokens ++ moreTokens, fun before => ?_, fun statements => ?_⟩
  · cases text with
    | nil => exact hmoreHead
    | cons c rest => exact hhead
  · rw [Scan.feed_append, hscan, hmoreScan, List.reverse_append, List.append_assoc]
  · rw [Parse.feed_append, hparse, hmoreParse, List.reverse_append, List.append_assoc]

/-- Pieces that each say something say it one after another. -/
theorem flatMap {α : Type} {write : α → List Char} {say : α → List Statement} {items : List α}
    (h : ∀ item ∈ items, Says (write item) (say item)) : Says (items.flatMap write) (items.flatMap say) := by
  induction items with
  | nil => exact nil
  | cons item items ih =>
    obtain ⟨hitem, hitems⟩ := List.forall_mem_cons.mp h
    rw [List.flatMap_cons, List.flatMap_cons]
    exact hitem.append (ih hitems)

end Says

/-- The statements of a header. -/
def Header.statements : Header → List Statement
  | .none => []
  | .table name => [.header [name] false]
  | .arrayTable name => [.header [name] true]

/-- The name in a header, if there is one, is a key that needs no quotes. -/
def Header.IsBare : Header → Prop
  | .none => True
  | .table name | .arrayTable name => Toml.IsBare name.toList

/-- The statement of an entry. -/
def entryStatement (entry : String × Plain) : Statement :=
  .assign [entry.1] entry.2.value

/-- The statements of a block. -/
def Block.statements (block : Block) : List Statement :=
  block.header.statements ++ block.entries.map entryStatement

/-- No key in the block needs quotes. -/
structure Block.IsBare (block : Block) : Prop where
  header : block.header.IsBare
  entries : ∀ entry ∈ block.entries, Toml.IsBare entry.1.toList

instance (header : Header) : Decidable header.IsBare :=
  match header with
  | .none => isTrue trivial
  | .table name => inferInstanceAs (Decidable (Toml.IsBare name.toList))
  | .arrayTable name => inferInstanceAs (Decidable (Toml.IsBare name.toList))

/-- None of its entries needs quotes if their keys are among some that need none. -/
theorem Block.IsBare.of_keys {header : Header} {entries : List (String × Plain)} (keys : List String)
    (hheader : header.IsBare) (hentries : entries.map Prod.fst ⊆ keys)
    (hkeys : ∀ key ∈ keys, Toml.IsBare key.toList) : Block.IsBare ⟨header, entries⟩ :=
  ⟨hheader, fun _ hmem => hkeys _ (hentries (List.mem_map_of_mem hmem))⟩

/-- A key where one is wanted is put on the path. -/
theorem Parse.stepPath_word {name : String} (h : Toml.IsBare name.toList) (p : Parse) (use : PathUse)
    (done : Path) :
    p.stepPath use done true (.word name.toList) = p.enter (.path use (name :: done) false) := by
  simp only [Parse.stepPath, h.key?_eq, String.ofList_toList]

/-- A key is scanned as a word once a character follows that ends it. -/
theorem IsBare.feed_cons {text : List Char} (h : IsBare text) {c : Char} (hends : endsWord c = true)
    (rest : List Char) (tokens : List Token) :
    (Scan.after tokens).feed (text ++ c :: rest) = (Scan.stepReady (.word text :: tokens) c).feed rest := by
  have hstep : (⟨tokens, .word text.reverse⟩ : Scan).step c = Scan.stepReady (.word text :: tokens) c := by
    rw [← List.reverse_reverse text, List.reverse_reverse text.reverse]
    exact if_pos hends
  rw [Scan.feed_append, h.feed_eq]
  exact congrArg (fun scan => Scan.feed scan rest) hstep

/-- Behind a blank a text is scanned as if no token were open. -/
theorem feed_blank {c : Char} (h : isBlank c = false) (tokens : List Token) (rest : List Char) :
    (⟨tokens, .blank true⟩ : Scan).feed (c :: rest) =
      (Scan.after (.blank true :: tokens)).feed (c :: rest) := by
  have hstep : (⟨tokens, .blank true⟩ : Scan).step c = (Scan.after (.blank true :: tokens)).step c :=
    if_neg (Bool.eq_false_iff.mp h)
  exact congrArg (fun scan => Scan.feed scan rest) hstep

/-- The line of a header says that its table begins. -/
theorem Header.says_render (header : Header) (h : header.IsBare) : Says header.render header.statements := by
  cases header with
  | none => exact .nil
  | table name =>
    have hname : Toml.IsBare name.toList := h
    refine ⟨nofun, [.openBracket, .word name.toList, .closeBracket, .newline], fun before => ?_,
      fun statements => ?_⟩
    · exact hname.feed_cons (c := ']') rfl ['\n'] (.openBracket :: before)
    · show (((⟨statements, [], .afterBracket⟩ : Parse).stepPath (.header false) [] true
        (.word name.toList)).feed [.closeBracket, .newline]) = _
      rw [Parse.stepPath_word hname]
      rfl
  | arrayTable name =>
    have hname : Toml.IsBare name.toList := h
    refine ⟨nofun, [.openBracket, .openBracket, .word name.toList, .closeBracket, .closeBracket, .newline],
      fun before => ?_, fun statements => ?_⟩
    · exact hname.feed_cons (c := ']') rfl [']', '\n'] (.openBracket :: .openBracket :: before)
    · show (((⟨statements, [], .path (.header true) [] true⟩ : Parse).stepPath (.header true) [] true
        (.word name.toList)).feed [.closeBracket, .closeBracket, .newline]) = _
      rw [Parse.stepPath_word hname]
      rfl

/-- The line of an entry says that its key has its value. -/
theorem says_renderEntry (entry : String × Plain) (h : IsBare entry.1.toList) :
    Says (renderEntry entry) [entryStatement entry] := by
  obtain ⟨key, v⟩ := entry
  obtain ⟨tokens, hscan, hparse⟩ := v.sets_render
  obtain ⟨first, more, hkey, -, hmark⟩ := h.isBlank_head
  obtain ⟨c, rest, hvalue, hblank⟩ := v.isBlank_head
  have hline : renderEntry (key, v) = key.toList ++ ' ' :: '=' :: ' ' :: (v.render ++ ['\n']) := by
    simp [renderEntry]
  refine ⟨?_, [.word key.toList, .blank true, .equals, .blank true] ++ tokens, fun before => ?_,
    fun statements => ?_⟩
  · rw [hline, hkey]
    exact fun heq => hmark (Option.some.inj heq)
  · -- The blank in front of the value becomes a token with the first character of the value.
    rw [hline, h.feed_cons rfl, List.reverse_append, List.append_assoc, ← hscan, hvalue]
    exact feed_blank hblank (.equals :: .blank true :: .word key.toList :: before) (rest ++ ['\n'])
  · rw [Parse.feed_append]
    show (((⟨statements, [], .line⟩ : Parse).stepPath .assignment [] true (.word key.toList)).feed
        [.blank true, .equals, .blank true]).feed tokens = _
    rw [Parse.stepPath_word h]
    exact hparse statements [key]

/-- The lines of a block say its statements. -/
theorem Block.says_render (block : Block) (h : block.IsBare) : Says block.render block.statements := by
  have hentries : Says (block.entries.flatMap renderEntry)
      (block.entries.flatMap fun entry => [entryStatement entry]) :=
    .flatMap fun entry hmem => says_renderEntry entry (h.entries entry hmem)
  rw [← List.map_eq_flatMap] at hentries
  exact (block.header.says_render h.header).append hentries

/-- A document of whole lines has the table that their statements build. -/
theorem document?_of_lines {text : List Char} {said : List Statement} (h : Says text said) :
    document? text = (said.foldlM Build.step? ⟨[], []⟩).map fun build => .table .header build.root := by
  obtain ⟨hhead, tokens, hscan, hparse⟩ := h
  have htokens : tokens? text = some tokens := by
    have hplain : tokens? text = ((Scan.after []).feed text).finish? := by
      unfold tokens?
      split
      · exact absurd rfl hhead
      · rfl
    rw [hplain, hscan, List.append_nil]
    exact congrArg some (List.reverse_reverse tokens)
  have hstatements : statements? tokens = some said := by
    rw [statements?, hparse, List.append_nil]
    exact congrArg some (List.reverse_reverse said)
  simp only [document?, htokens, hstatements, Option.bind_eq_bind, Option.bind_some, Option.map_eq_bind]
  rfl

end DaemonBridge.Toml
