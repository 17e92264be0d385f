import DaemonBridge.Json.Number

/-!
# JSON values and their text

A value is written in one of two layouts: compact, without any blank, or pretty, with one member or
element a line, indented by two spaces. Inside strings only quotes, backslashes and the controls
below U+0020 are escaped, so neither layout of a string holds a raw line feed.
-/

namespace DaemonBridge.Json

/-- A JSON value; an object keeps its members in order. -/
inductive Value where
  | null
  | bool (b : Bool)
  | num (n : Number)
  | str (s : String)
  | arr (items : List Value)
  | obj (members : List (String × Value))
  deriving Inhabited

namespace Value

/-- A 64-bit number as a value. -/
def nat (n : UInt64) : Value :=
  .num (.nat n)

/-- A value that may be absent, with null for its absence. -/
def ofOption {α : Type} (f : α → Value) : Option α → Value
  | some a => f a
  | none => .null

/-- The elements of a list as an array. -/
def ofList {α : Type} (f : α → Value) (l : List α) : Value :=
  .arr (l.map f)

/-- The value of the first member of a name. -/
def member? (name : String) : Value → Option Value
  | .obj members => (members.find? fun member => member.1 == name).map Prod.snd
  | _ => none

/-- The text of a string. -/
def string? : Value → Option String
  | .str s => some s
  | _ => none

/-- The truth of a truth value. -/
def bool? : Value → Option Bool
  | .bool b => some b
  | _ => none

/-- The 64-bit number of an unsigned integer. -/
def nat? : Value → Option UInt64
  | .num (.nat n) => some n
  | _ => none

/-- The elements of an array. -/
def items : Value → List Value
  | .arr items => items
  | _ => []

/-- The members of an object. -/
def members : Value → List (String × Value)
  | .obj members => members
  | _ => []

end Value

/-- One character inside a JSON string. -/
def escapedChar (c : Char) : List Char :=
  if c = '"' then ['\\', '"']
  else if c = '\\' then ['\\', '\\']
  else if c = '\x08' then ['\\', 'b']
  else if c = '\t' then ['\\', 't']
  else if c = '\n' then ['\\', 'n']
  else if c = '\x0c' then ['\\', 'f']
  else if c = '\r' then ['\\', 'r']
  else if c.toNat < 0x20 then '\\' :: 'u' :: Text.hexDigits Nat.digitChar 4 c.toNat
  else [c]

/-- A JSON string with its quotes. -/
def stringText (s : String) : List Char :=
  '"' :: s.toList.flatMap escapedChar ++ ['"']

mutual

/-- The compact text of a value. -/
def Value.compact : Value → List Char
  | .null => ['n', 'u', 'l', 'l']
  | .bool true => ['t', 'r', 'u', 'e']
  | .bool false => ['f', 'a', 'l', 's', 'e']
  | .num n => n.text.toList
  | .str s => stringText s
  | .arr [] => ['[', ']']
  | .arr (item :: items) => '[' :: item.compact ++ compactItems items
  | .obj [] => ['\x7b', '\x7d']
  | .obj ((key, value) :: members) =>
    '\x7b' :: stringText key ++ ':' :: value.compact ++ compactMembers members

/-- The further elements of an array and its closing bracket. -/
def compactItems : List Value → List Char
  | [] => [']']
  | item :: items => ',' :: item.compact ++ compactItems items

/-- The further members of an object and its closing brace. -/
def compactMembers : List (String × Value) → List Char
  | [] => ['\x7d']
  | (key, value) :: members => ',' :: stringText key ++ ':' :: value.compact ++ compactMembers members

end

/-- A line break and two spaces for each level of nesting. -/
def indent (level : Nat) : List Char :=
  '\n' :: List.replicate (2 * level) ' '

mutual

/-- The pretty text of a value at a level of nesting. -/
def Value.pretty (level : Nat) : Value → List Char
  | .arr [] => ['[', ']']
  | .arr (item :: items) =>
    '[' :: indent (level + 1) ++ item.pretty (level + 1) ++ prettyItems level items
  | .obj [] => ['\x7b', '\x7d']
  | .obj ((key, value) :: members) =>
    '\x7b' :: indent (level + 1) ++ stringText key ++ ':' :: ' ' :: value.pretty (level + 1) ++
      prettyMembers level members
  | .null => ['n', 'u', 'l', 'l']
  | .bool true => ['t', 'r', 'u', 'e']
  | .bool false => ['f', 'a', 'l', 's', 'e']
  | .num n => n.text.toList
  | .str s => stringText s

/-- The further elements of an array that opened at `level`, and its closing bracket. -/
def prettyItems (level : Nat) : List Value → List Char
  | [] => indent level ++ [']']
  | item :: items => ',' :: indent (level + 1) ++ item.pretty (level + 1) ++ prettyItems level items

/-- The further members of an object that opened at `level`, and its closing brace. -/
def prettyMembers (level : Nat) : List (String × Value) → List Char
  | [] => indent level ++ ['\x7d']
  | (key, value) :: members =>
    ',' :: indent (level + 1) ++ stringText key ++ ':' :: ' ' :: value.pretty (level + 1) ++
      prettyMembers level members

end

/-- The compact text as a string. -/
def Value.compactText (v : Value) : String :=
  String.ofList v.compact

/-- The pretty text as a string. -/
def Value.prettyText (v : Value) : String :=
  String.ofList (v.pretty 0)

end DaemonBridge.Json
