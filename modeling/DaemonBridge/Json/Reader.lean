import DaemonBridge.Json.Tree
import DaemonBridge.Text.Utf8

/-!
# Reading JSON text

A text is read one piece at a time by a machine whose state is the stack of open containers and the
phase inside the innermost one. Reading is a fold of `State.step`, so a text in two parts is read by
reading the second part from where the first part left the machine (`State.feed_append`).
-/

namespace DaemonBridge.Json

open Text (Piece)

/-- A container that waits for the value now being read; what it holds so far, last first. -/
inductive Frame where
  | items (done : List Tree)
  | member (done : List Member) (key : Leaf)

/-- Where a string is inside an escape. A high surrogate waits for the low one that completes it. -/
inductive StringPhase where
  | plain
  | escape
  | hex (digits : List Piece)
  deriving Repr

/-- A string being read, its characters last first. It is `flawed` once a surrogate stands alone and
`illFormed` once bytes encode no character. -/
structure StringState where
  chars : List Char := []
  flawed : Bool := false
  illFormed : Bool := false
  high : Option Nat := none
  phase : StringPhase := .plain

/-- Where a numeral stands in its grammar. -/
inductive NumeralPhase where
  | sign
  | zero
  | whole
  | point
  | fraction
  | mark
  | exponentSign
  | exponent
  deriving Repr, DecidableEq

/-- What the machine expects next. -/
inductive Phase where
  | value
  | firstItem
  | afterItem (done : List Tree)
  | firstKey
  | nextKey (done : List Member)
  | key (done : List Member) (s : StringState)
  | colon (done : List Member) (key : Leaf)
  | afterMember (done : List Member)
  | string (s : StringState)
  | numeral (n : Numeral) (phase : NumeralPhase)
  | word (left : List Char) (leaf : Leaf)
  | done (tree : Tree)
  | halted (document : Document)

/-- The machine: open containers, innermost first, and the phase. -/
structure State where
  stack : List Frame
  phase : Phase

/-- The blanks between tokens. -/
def isJsonBlank (c : Char) : Bool :=
  c = ' ' || c = '\n' || c = '\t' || c = '\r'

/-- Close every open container around a value that holds the cut. -/
def collapse (passed : Fault) : List Frame → Tree → Tree
  | [], tree => tree
  | .items done :: stack, tree => collapse passed stack (.arr (tree :: done).reverse (.cut passed))
  | .member done key :: stack, tree =>
    collapse passed stack (.obj ((key, tree) :: done).reverse (.cut passed))

namespace State

/-- Stop, with the given value as the last one read. -/
def halt (stack : List Frame) (passed : Fault) (tree : Tree) : State :=
  ⟨stack, .halted ⟨collapse passed stack tree, false⟩⟩

/-- Stop at a leaf. -/
def haltLeaf (stack : List Frame) (wanted passed : Fault) : State :=
  halt stack passed (.leaf (.broken wanted passed))

/-- Stop inside an array, in place of a comma or its end. -/
def haltItems (stack : List Frame) (done : List Tree) (fault : Fault) : State :=
  halt stack fault (.arr done.reverse (.cut fault))

/-- Stop inside an object, in place of a comma, a key or its end. -/
def haltMembers (stack : List Frame) (done : List Member) (fault : Fault) : State :=
  halt stack fault (.obj done.reverse (.cut fault))

/-- Stop at a key or in place of its colon. -/
def haltKey (stack : List Frame) (done : List Member) (key : Leaf) (fault : Fault) : State :=
  haltMembers stack ((key, .leaf (.broken fault fault)) :: done) fault

/-- Hand a whole value to the innermost open container. -/
def deliver (tree : Tree) : List Frame → State
  | [] => ⟨[], .done tree⟩
  | .items done :: stack => ⟨stack, .afterItem (tree :: done)⟩
  | .member done key :: stack => ⟨stack, .afterMember ((key, tree) :: done)⟩

/-- Start a value. -/
def begin (stack : List Frame) (c : Char) : State :=
  if isJsonBlank c then ⟨stack, .value⟩
  else if c = '[' then ⟨stack, .firstItem⟩
  else if c = '\x7b' then ⟨stack, .firstKey⟩
  else if c = '"' then ⟨stack, .string {}⟩
  else if c = '-' then ⟨stack, .numeral { negative := true } .sign⟩
  else if c = '0' then ⟨stack, .numeral { negative := false, whole := [0] } .zero⟩
  else if c.isDigit then ⟨stack, .numeral { negative := false, whole := [c.toNat - 48] } .whole⟩
  else if c = 't' then ⟨stack, .word ['r', 'u', 'e'] (.bool true)⟩
  else if c = 'f' then ⟨stack, .word ['a', 'l', 's', 'e'] (.bool false)⟩
  else if c = 'n' then ⟨stack, .word ['u', 'l', 'l'] .null⟩
  else haltLeaf stack .malformed .malformed

end State

/-- What a string has come to after one more piece. -/
inductive StringStep where
  | more (s : StringState)
  | close (leaf : Leaf)
  | broken (wanted passed : Fault)

namespace StringState

/-- A fault inside the string; one who wants the string meets an earlier flaw first. -/
def fault (s : StringState) (fault : Fault) : Fault :=
  if s.flawed then .malformed else fault

/-- A high surrogate that nothing completes is a flaw. -/
def abandon (s : StringState) : StringState :=
  { s with flawed := s.flawed || s.high.isSome, high := none }

/-- The whole string. -/
def leaf (s : StringState) : Leaf :=
  if s.flawed || s.illFormed then .meaningless else .str (String.ofList s.chars.reverse)

/-- Add a character. -/
def push (s : StringState) (c : Char) : StringStep :=
  .more { s with chars := c :: s.chars, phase := .plain }

/-- Add the UTF-16 unit that a `\u` escape stands for. -/
def pushUnit (s : StringState) (unit : Nat) : StringStep :=
  match s.high with
  | some high =>
    if 0xdc00 ≤ unit && unit ≤ 0xdfff then
      { s with high := none }.push (Char.ofNat (0x10000 + (high - 0xd800) * 0x400 + (unit - 0xdc00)))
    else .more { s with flawed := true, high := none, phase := .plain }
  | none =>
    if 0xd800 ≤ unit && unit ≤ 0xdbff then .more { s with high := some unit, phase := .plain }
    else if 0xdc00 ≤ unit && unit ≤ 0xdfff then .more { s with flawed := true, phase := .plain }
    else s.push (Char.ofNat unit)

/-- The character a short escape stands for. -/
def shortEscape? (c : Char) : Option Char :=
  if c = '"' || c = '\\' || c = '/' then some c
  else if c = 'b' then some '\x08'
  else if c = 'f' then some '\x0c'
  else if c = 'n' then some '\n'
  else if c = 'r' then some '\r'
  else if c = 't' then some '\t'
  else none

/-- The value of a `\u` escape, if all its digits are hexadecimal. -/
def unit? (digits : List Piece) : Option Nat :=
  digits.foldrM (fun piece n => (piece.char?.bind Text.hexValue?).map (16 * n + ·)) 0

/-- Read one more piece of a string. A `\u` escape takes the four bytes that follow it. -/
def step (s : StringState) (piece : Piece) : StringStep :=
  match s.phase with
  | .plain =>
    match piece with
    | .stray _ => .more { s.abandon with illFormed := true }
    | .char c =>
      if c = '"' then .close s.abandon.leaf
      else if c = '\\' then .more { s with phase := .escape }
      else if c.toNat < 0x20 then .broken .malformed .malformed
      else s.abandon.push c
  | .escape =>
    match piece.char? with
    | some 'u' => .more { s with phase := .hex [] }
    | c =>
      match c.bind shortEscape? with
      | some c => s.abandon.push c
      | none => .broken .malformed .malformed
  | .hex digits =>
    let digits := piece :: digits
    if digits.foldr (fun piece n => piece.width + n) 0 < 4 then .more { s with phase := .hex digits }
    else match unit? digits with
      | some unit => s.pushUnit unit
      | none => .broken .malformed .malformed

end StringState

/-- The next place in the grammar of numerals, and the numeral with one more character; `none` when
the character does not belong to the numeral. -/
def numeralStep? (n : Numeral) (phase : NumeralPhase) (c : Char) : Option (Numeral × NumeralPhase) :=
  let d := c.toNat - 48
  let more (digits : Option (List Nat)) := some (d :: digits.getD [])
  match phase with
  | .sign =>
    if c = '0' then some ({ n with whole := [0] }, .zero)
    else if c.isDigit then some ({ n with whole := [d] }, .whole)
    else none
  | .zero =>
    if c = '.' then some (n, .point)
    else if c = 'e' || c = 'E' then some ({ n with exponent := some [] }, .mark)
    else none
  | .whole =>
    if c.isDigit then some ({ n with whole := d :: n.whole }, .whole)
    else if c = '.' then some (n, .point)
    else if c = 'e' || c = 'E' then some ({ n with exponent := some [] }, .mark)
    else none
  | .point => if c.isDigit then some ({ n with fraction := some [d] }, .fraction) else none
  | .fraction =>
    if c.isDigit then some ({ n with fraction := more n.fraction }, .fraction)
    else if c = 'e' || c = 'E' then some ({ n with exponent := some [] }, .mark)
    else none
  | .mark =>
    if c.isDigit then some ({ n with exponent := some [d] }, .exponent)
    else if c = '+' then some (n, .exponentSign)
    else if c = '-' then some ({ n with negativeExponent := true }, .exponentSign)
    else none
  | .exponentSign => if c.isDigit then some ({ n with exponent := some [d] }, .exponent) else none
  | .exponent => if c.isDigit then some ({ n with exponent := more n.exponent }, .exponent) else none

/-- A numeral may end here. -/
def NumeralPhase.complete : NumeralPhase → Bool
  | .zero | .whole | .fraction | .exponent => true
  | _ => false

/-- The leaf of a whole numeral. -/
def Numeral.leaf (n : Numeral) : Leaf :=
  match n.value? with
  | some value => .num value
  | none => .meaningless

namespace State

/-- Read one piece, when no numeral is open. -/
def stepPlain (state : State) (piece : Piece) : State :=
  let stack := state.stack
  let c := piece.char?.getD '\x00'
  match state.phase with
  | .value => begin stack c
  | .firstItem =>
    if isJsonBlank c then state
    else if c = ']' then deliver (.arr [] .closed) stack
    else begin (.items [] :: stack) c
  | .afterItem done =>
    if isJsonBlank c then state
    else if c = ',' then ⟨.items done :: stack, .value⟩
    else if c = ']' then deliver (.arr done.reverse .closed) stack
    else haltItems stack done .malformed
  | .firstKey =>
    if isJsonBlank c then state
    else if c = '"' then ⟨stack, .key [] {}⟩
    else if c = '\x7d' then deliver (.obj [] .closed) stack
    else haltMembers stack [] .malformed
  | .nextKey done =>
    if isJsonBlank c then state
    else if c = '"' then ⟨stack, .key done {}⟩
    else haltMembers stack done .malformed
  | .key done s =>
    match s.step piece with
    | .more s => ⟨stack, .key done s⟩
    | .close leaf => ⟨stack, .colon done leaf⟩
    | .broken wanted passed => haltKey stack done (.broken (s.fault wanted) passed) passed
  | .colon done key =>
    if isJsonBlank c then state
    else if c = ':' then ⟨.member done key :: stack, .value⟩
    else haltKey stack done key .malformed
  | .afterMember done =>
    if isJsonBlank c then state
    else if c = ',' then ⟨stack, .nextKey done⟩
    else if c = '\x7d' then deliver (.obj done.reverse .closed) stack
    else haltMembers stack done .malformed
  | .string s =>
    match s.step piece with
    | .more s => ⟨stack, .string s⟩
    | .close leaf => deliver (.leaf leaf) stack
    | .broken wanted passed => haltLeaf stack (s.fault wanted) passed
  | .word left leaf =>
    match left with
    | [] => haltLeaf stack .malformed .malformed
    | [last] => if c = last then deliver (.leaf leaf) stack else haltLeaf stack .malformed .malformed
    | next :: left => if c = next then ⟨stack, .word left leaf⟩ else haltLeaf stack .malformed .malformed
  | .done tree => if isJsonBlank c then state else ⟨stack, .halted ⟨tree, true⟩⟩
  | .numeral .. => state
  | .halted _ => state

/-- Read one piece. A piece that does not belong to the numeral before it ends the numeral. -/
def step (state : State) (piece : Piece) : State :=
  match state.phase with
  | .numeral n phase =>
    match piece.char?.bind (numeralStep? n phase) with
    | some (n, phase) => ⟨state.stack, .numeral n phase⟩
    | none =>
      if !phase.complete || (phase = .zero && (piece.char?.any Char.isDigit)) then
        haltLeaf state.stack .malformed .malformed
      else (deliver (.leaf n.leaf) state.stack).stepPlain piece
  | _ => state.stepPlain piece

/-- The state before the first piece. -/
def start : State := ⟨[], .value⟩

/-- Read a run of pieces. -/
def feed (state : State) (text : List Piece) : State :=
  text.foldl step state

/-- A text in two parts is read part by part. -/
theorem feed_append (state : State) (a b : List Piece) :
    state.feed (a ++ b) = (state.feed a).feed b := List.foldl_append

/-- The state at the end of the text, where a whole numeral counts as read. -/
def settle (state : State) : State :=
  match state.phase with
  | .numeral n phase =>
    if phase.complete then deliver (.leaf n.leaf) state.stack
    else haltLeaf state.stack .truncated .malformed
  | .value => haltLeaf state.stack .truncated .truncated
  | .firstItem => haltItems state.stack [] .truncated
  | .firstKey => haltMembers state.stack [] .truncated
  | .nextKey done => haltMembers state.stack done .truncated
  | .key done s =>
    haltKey state.stack done (.broken (s.fault .truncated) .truncated) .truncated
  | .colon done key => haltKey state.stack done key .truncated
  | .string s => haltLeaf state.stack (s.fault .truncated) .truncated
  | .word .. => haltLeaf state.stack .truncated .truncated
  | .afterItem _ | .afterMember _ | .done _ | .halted _ => state

/-- The document that the text up to here makes, if nothing follows. -/
def document (state : State) : Document :=
  let state := state.settle
  match state.phase with
  | .done tree => ⟨tree, false⟩
  | .halted document => document
  | .afterItem done => ⟨collapse .truncated state.stack (.arr done.reverse (.cut .truncated)), false⟩
  | .afterMember done => ⟨collapse .truncated state.stack (.obj done.reverse (.cut .truncated)), false⟩
  | _ => ⟨.leaf (.broken .truncated .truncated), false⟩

end State

/-- Read pieces of text as a document. -/
def Document.ofPieces (text : List Piece) : Document :=
  (State.start.feed text).document

/-- Read bytes as a document. -/
def Document.ofBytes (bytes : List UInt8) : Document :=
  .ofPieces (Text.pieces bytes)

/-- Read characters as a document. -/
def Document.ofChars (text : List Char) : Document :=
  .ofPieces (text.map Piece.char)

/-- The bytes of a text make the same document as its characters. -/
theorem Document.ofBytes_encode (text : List Char) :
    Document.ofBytes (Text.encode text) = Document.ofChars text := by
  simp only [Document.ofBytes, Document.ofChars, Text.pieces_encode]

end DaemonBridge.Json
