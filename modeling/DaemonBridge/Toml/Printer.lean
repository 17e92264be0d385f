import DaemonBridge.Text.Numeral

/-!
# TOML text

How strings, integers, truth values and tables of them are written. A string takes the first form
that holds it without escapes, and is written with escapes only when none does: basic, literal,
multi-line basic, multi-line literal. A tab is written as an escape in the basic forms, and does not
count as a reason to avoid them.
-/

namespace DaemonBridge.Toml

/-- Controls that no form holds raw: all but the line feed and the tab. -/
def needsEscape (c : Char) : Bool :=
  (c.toNat < 0x20 && c != '\n' && c != '\t') || c.toNat = 0x7f

/-- The length of the longest run of a character, given the length of the run so far. -/
def longestRun (c : Char) (run best : Nat) : List Char → Nat
  | [] => max run best
  | d :: rest => if d = c then longestRun c (run + 1) best rest else longestRun c 0 (max run best) rest

/-- The four ways of quoting a string. -/
inductive StringForm where
  | basic
  | literal
  | multilineBasic
  | multilineLiteral
  deriving Repr, DecidableEq

/-- The form in which a string is written. -/
def StringForm.choose (text : List Char) : StringForm :=
  let controls := text.any needsEscape
  let lines := text.contains '\n'
  if !(lines || controls || text.contains '"' || text.contains '\\') then .basic
  else if !(lines || controls || text.contains '\'') then .literal
  else if !controls && !text.contains '\\' && longestRun '"' 0 0 text ≤ 2 then .multilineBasic
  else if !controls && longestRun '\'' 0 0 text ≤ 2 then .multilineLiteral
  else if lines then .multilineBasic
  else .basic

/-- A character inside basic quotes, where a backslash stands before a quote. -/
def escapedChar (c : Char) : List Char :=
  if c = '\x08' then ['\\', 'b']
  else if c = '\t' then ['\\', 't']
  else if c = '\n' then ['\\', 'n']
  else if c = '\x0c' then ['\\', 'f']
  else if c = '\r' then ['\\', 'r']
  else if c = '"' then ['\\', '"']
  else if c = '\\' then ['\\', '\\']
  else if needsEscape c then '\\' :: 'u' :: Text.hexDigits Text.upperHexDigit 4 c.toNat
  else [c]

/-- The text between multi-line basic quotes, after `run` unescaped quotes: line feeds stay, and of
quotes in a row every third is escaped. -/
def multilineText (run : Nat) : List Char → List Char
  | [] => []
  | '\n' :: rest => '\n' :: multilineText 0 rest
  | '"' :: rest =>
    if run = 2 then '\\' :: '"' :: multilineText 0 rest else '"' :: multilineText (run + 1) rest
  | c :: rest => escapedChar c ++ multilineText 0 rest

/-- Three quotes, and a line break if the text has one. -/
def openQuotes (quote : Char) (text : List Char) : List Char :=
  List.replicate 3 quote ++ if text.contains '\n' then ['\n'] else []

/-- A string in a form. -/
def StringForm.render (text : List Char) : StringForm → List Char
  | .basic => '"' :: text.flatMap escapedChar ++ ['"']
  | .literal => '\'' :: text ++ ['\'']
  | .multilineBasic => openQuotes '"' text ++ multilineText 0 text ++ List.replicate 3 '"'
  | .multilineLiteral => openQuotes '\'' text ++ text ++ List.replicate 3 '\''

/-- A value that stands on one assignment. -/
inductive Plain where
  | string (s : String)
  | integer (n : UInt64)
  | boolean (b : Bool)
  | emptyArray
  deriving Repr, DecidableEq

/-- The text of a value. -/
def Plain.render : Plain → List Char
  | .string s => (StringForm.choose s.toList).render s.toList
  | .integer n => Text.decimal n.toNat
  | .boolean true => ['t', 'r', 'u', 'e']
  | .boolean false => ['f', 'a', 'l', 's', 'e']
  | .emptyArray => ['[', ']']

/-- The line above the entries of a block. -/
inductive Header where
  | none
  | table (name : String)
  | arrayTable (name : String)
  deriving Repr, DecidableEq

/-- A header and the entries under it. -/
structure Block where
  header : Header
  entries : List (String × Plain)
  deriving Repr, DecidableEq

/-- The line of a header. -/
def Header.render : Header → List Char
  | .none => []
  | .table name => '[' :: name.toList ++ [']', '\n']
  | .arrayTable name => '[' :: '[' :: name.toList ++ [']', ']', '\n']

/-- The line of an entry. -/
def renderEntry (entry : String × Plain) : List Char :=
  entry.1.toList ++ [' ', '=', ' '] ++ entry.2.render ++ ['\n']

/-- The lines of a block. -/
def Block.render (block : Block) : List Char :=
  block.header.render ++ block.entries.flatMap renderEntry

/-- The blocks of a document, with an empty line between two. -/
def renderBlocks : List Block → List Char
  | [] => []
  | [block] => block.render
  | block :: rest => block.render ++ '\n' :: renderBlocks rest

end DaemonBridge.Toml
