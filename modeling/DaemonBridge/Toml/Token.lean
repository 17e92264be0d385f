import DaemonBridge.Text.Numeral

/-!
# TOML tokens

The tokens of a document, read one character at a time. A string token holds the text that it stands
for; its four forms differ in their quote and in whether the text may break lines. The state after a
text in two parts is reached by reading the second part from the state after the first
(`Scan.feed_append`).
-/

namespace DaemonBridge.Toml

/-- A token. Comments leave none, and a blank knows whether it is a single space. -/
inductive Token where
  | newline
  | blank (single : Bool)
  | dot
  | equals
  | comma
  | openBracket
  | closeBracket
  | openBrace
  | closeBrace
  | word (text : List Char)
  | string (s : String) (multiline : Bool)
  deriving Repr, DecidableEq

/-- Where a string stands. -/
inductive TextPhase where
  /-- Right after the quotes of a multi-line string, where a line break is dropped. -/
  | opening
  | openingReturn
  | plain
  /-- After some quotes that may close a multi-line string. -/
  | quotes (n : Nat)
  | carriageReturn
  | escape
  | code (digitsLeft value : Nat)
  /-- After a backslash and blanks, where the line has to end. -/
  | folding
  | foldReturn
  /-- On the blank lines and the indentation after a backslash at the end of a line. -/
  | folded
  deriving Repr, DecidableEq

/-- A string being read, its characters last first. -/
structure TextState where
  quote : Char
  multiline : Bool
  chars : List Char
  phase : TextPhase
  deriving Repr, DecidableEq

/-- Where the scan stands. -/
inductive ScanPhase where
  | ready
  | blank (single : Bool)
  | word (text : List Char)
  | comment
  | carriageReturn
  | quotes (quote : Char) (two : Bool)
  | text (state : TextState)
  | failed
  deriving Repr, DecidableEq

/-- A scan: the tokens so far, last first, and where it stands. -/
structure Scan where
  tokens : List Token
  phase : ScanPhase
  deriving Repr, DecidableEq

/-- Controls other than the tab; they may stand nowhere but in line breaks. -/
def isControl (c : Char) : Bool :=
  (c.toNat < 0x20 && c != '\t') || c.toNat = 0x7f

/-- Spaces and tabs. -/
def isBlank (c : Char) : Bool :=
  c = ' ' || c = '\t'

/-- The token of a punctuation mark. -/
def mark? (c : Char) : Option Token :=
  if c = '.' then some .dot
  else if c = '=' then some .equals
  else if c = ',' then some .comma
  else if c = '[' then some .openBracket
  else if c = ']' then some .closeBracket
  else if c = '\x7b' then some .openBrace
  else if c = '\x7d' then some .closeBrace
  else none

/-- A character that ends a word. -/
def endsWord (c : Char) : Bool :=
  isBlank c || c = '\n' || c = '\r' || c = '#' || c = '"' || c = '\'' || (mark? c).isSome

/-- What a string has come to after one more character. The last case closes the string and leaves
the character to the scan. -/
inductive TextStep where
  | more (state : TextState)
  | close (s : String)
  | closeBefore (s : String)
  | failed

namespace TextState

/-- The text with some quotes at its end. -/
def result (t : TextState) (quotes : Nat) : String :=
  String.ofList (List.replicate quotes t.quote ++ t.chars).reverse

/-- Add a character. -/
def push (t : TextState) (c : Char) : TextStep :=
  .more { t with chars := c :: t.chars, phase := .plain }

/-- Go to another phase. -/
def enter (t : TextState) (phase : TextPhase) : TextStep :=
  .more { t with phase := phase }

/-- A character of the text itself. -/
def stepPlain (t : TextState) (c : Char) : TextStep :=
  if c = t.quote then (if t.multiline then t.enter (.quotes 1) else .close (t.result 0))
  else if c = '\\' && t.quote = '"' then t.enter .escape
  else if c = '\n' then (if t.multiline then t.push c else .failed)
  else if c = '\r' then (if t.multiline then t.enter .carriageReturn else .failed)
  else if isControl c then .failed
  else t.push c

/-- The character after a backslash. -/
def stepEscape (t : TextState) (c : Char) : TextStep :=
  if c = '"' || c = '\\' then t.push c
  else if c = 'b' then t.push '\x08'
  else if c = 't' then t.push '\t'
  else if c = 'n' then t.push '\n'
  else if c = 'f' then t.push '\x0c'
  else if c = 'r' then t.push '\r'
  else if c = 'e' then t.push '\x1b'
  else if c = 'x' then t.enter (.code 2 0)
  else if c = 'u' then t.enter (.code 4 0)
  else if c = 'U' then t.enter (.code 8 0)
  else if !t.multiline then .failed
  else if isBlank c then t.enter .folding
  else if c = '\n' then t.enter .folded
  else if c = '\r' then t.enter .foldReturn
  else .failed

/-- A digit of a character code; the last digit completes the character. -/
def stepCode (t : TextState) (digitsLeft value : Nat) (c : Char) : TextStep :=
  match Text.hexValue? c with
  | none => .failed
  | some digit =>
    let value := 16 * value + digit
    if 1 < digitsLeft then t.enter (.code (digitsLeft - 1) value)
    else if h : value.isValidChar then t.push (Char.ofNatAux value h)
    else .failed

/-- One more character of a string. -/
def step (t : TextState) (c : Char) : TextStep :=
  match t.phase with
  | .opening =>
    if c = '\n' then t.enter .plain
    else if c = '\r' then t.enter .openingReturn
    else t.stepPlain c
  | .openingReturn => if c = '\n' then t.enter .plain else .failed
  | .plain => t.stepPlain c
  | .quotes n =>
    if c = t.quote then (if n = 4 then .close (t.result 2) else t.enter (.quotes (n + 1)))
    else if 3 ≤ n then .closeBefore (t.result (n - 3))
    else { t with chars := List.replicate n t.quote ++ t.chars, phase := .plain }.stepPlain c
  | .carriageReturn =>
    if c = '\n' then .more { t with chars := '\n' :: '\r' :: t.chars, phase := .plain } else .failed
  | .escape => t.stepEscape c
  | .code digitsLeft value => t.stepCode digitsLeft value c
  | .folding =>
    if isBlank c then t.enter .folding
    else if c = '\n' then t.enter .folded
    else if c = '\r' then t.enter .foldReturn
    else .failed
  | .foldReturn => if c = '\n' then t.enter .folded else .failed
  | .folded =>
    if isBlank c || c = '\n' then t.enter .folded
    else if c = '\r' then t.enter .foldReturn
    else t.stepPlain c

end TextState

namespace Scan

/-- The scan after the last of some tokens. -/
def after (tokens : List Token) : Scan := ⟨tokens, .ready⟩

/-- A scan that has met what no document holds. -/
def fail : Scan := ⟨[], .failed⟩

/-- One more character where no token is open. -/
def stepReady (tokens : List Token) (c : Char) : Scan :=
  if isBlank c then ⟨tokens, .blank (c = ' ')⟩
  else if c = '\n' then after (.newline :: tokens)
  else if c = '\r' then ⟨tokens, .carriageReturn⟩
  else if c = '#' then ⟨tokens, .comment⟩
  else if c = '"' || c = '\'' then ⟨tokens, .quotes c false⟩
  else match mark? c with
    | some token => after (token :: tokens)
    | none => ⟨tokens, .word [c]⟩

/-- The scan after one more character of a string. -/
def stepText (tokens : List Token) (t : TextState) (c : Char) : Scan :=
  match t.step c with
  | .more t => ⟨tokens, .text t⟩
  | .close s => after (.string s t.multiline :: tokens)
  | .closeBefore s => stepReady (.string s t.multiline :: tokens) c
  | .failed => fail

/-- One more character. -/
def step (scan : Scan) (c : Char) : Scan :=
  let tokens := scan.tokens
  match scan.phase with
  | .ready => stepReady tokens c
  | .blank single =>
    if isBlank c then ⟨tokens, .blank false⟩ else stepReady (.blank single :: tokens) c
  | .word text =>
    if endsWord c then stepReady (.word text.reverse :: tokens) c else ⟨tokens, .word (c :: text)⟩
  | .comment =>
    if c = '\n' then after (.newline :: tokens)
    else if c = '\r' then ⟨tokens, .carriageReturn⟩
    else if isControl c then fail
    else scan
  | .carriageReturn => if c = '\n' then after (.newline :: tokens) else fail
  | .quotes quote false =>
    if c = quote then ⟨tokens, .quotes quote true⟩ else stepText tokens ⟨quote, false, [], .plain⟩ c
  | .quotes quote true =>
    if c = quote then ⟨tokens, .text ⟨quote, true, [], .opening⟩⟩
    else stepReady (.string "" false :: tokens) c
  | .text t => stepText tokens t c
  | .failed => fail

/-- Read a run of characters. -/
def feed (scan : Scan) (text : List Char) : Scan :=
  text.foldl step scan

/-- A text in two parts is read part by part. -/
theorem feed_append (scan : Scan) (a b : List Char) : scan.feed (a ++ b) = (scan.feed a).feed b :=
  List.foldl_append

/-- The tokens of the text, if it may end here. -/
def finish? (scan : Scan) : Option (List Token) :=
  match scan.phase with
  | .ready | .comment => some scan.tokens.reverse
  | .blank single => some (.blank single :: scan.tokens).reverse
  | .word text => some (.word text.reverse :: scan.tokens).reverse
  | .quotes _ true => some (.string "" false :: scan.tokens).reverse
  | .text t =>
    match t.phase with
    | .quotes n => if 3 ≤ n then some (.string (t.result (n - 3)) true :: scan.tokens).reverse else none
    | _ => none
  | _ => none

end Scan

/-- The tokens of a document; a byte order mark may stand before it. -/
def tokens? (text : List Char) : Option (List Token) :=
  let text := match text with
    | '\ufeff' :: rest => rest
    | _ => text
  ((Scan.after []).feed text).finish?

end DaemonBridge.Toml
