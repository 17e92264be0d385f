import DaemonBridge.Toml.Scalar
import DaemonBridge.Toml.Token

/-!
# TOML statements

A document is a sequence of headers and assignments. They are read from the tokens one at a time by a
machine that keeps the arrays and inline tables open around the current value. Paths have at most 80
keys and values open at most 80 containers inside each other.
-/

namespace DaemonBridge.Toml

/-- A path of keys. -/
abbrev Path := List String

/-- A line of a document that says something. -/
inductive Statement where
  | header (path : Path) (ofTables : Bool)
  | assign (path : Path) (value : Value)

/-- The greatest depth of paths and values. -/
def depthLimit : Nat := 80

/-- What an open path leads to. -/
inductive PathUse where
  | header (ofTables : Bool)
  | assignment
  | entry (done : List (Path × Value))

/-- What waits for the value now being read. -/
inductive Holder where
  | assignment (path : Path)
  | items (done : List Value)
  | entry (done : List (Path × Value)) (path : Path)

/-- What the machine expects next. -/
inductive ParsePhase where
  | line
  | lineEnd
  | afterBracket
  | path (use : PathUse) (done : Path) (wantsKey : Bool)
  | headerEnd (path : Path)
  | value
  | scalar (text : List Char)
  | scalarBlank (text : List Char)
  | item (done : List Value)
  | afterItem (done : List Value)
  | entry (done : List (Path × Value))
  | afterEntry (done : List (Path × Value))
  | failed

/-- The machine: the statements so far, last first, the open holders, innermost first, and the phase. -/
structure Parse where
  statements : List Statement
  holders : List Holder
  phase : ParsePhase

/-- Characters of keys without quotes. -/
def isKeyChar (c : Char) : Bool :=
  c.isAlphanum || c = '_' || c = '-'

/-- The key that a token is. -/
def key? : Token → Option String
  | .word text => if text.all isKeyChar then some (String.ofList text) else none
  | .string s false => some s
  | _ => none

/-- Put an entry at a path below a list of entries made by dotted keys; every key is set once. -/
def addAt? : Path → Value → List (String × Value) → Option (List (String × Value))
  | [], _, _ => none
  | [key], value, entries =>
    if entries.any (fun e => e.1 == key) then none else some (entries ++ [(key, value)])
  | key :: path, value, entries =>
    match entries.find? (fun e => e.1 == key) with
    | none => (addAt? path value []).map fun inner => entries ++ [(key, .table .dotted inner)]
    | some (_, .table .dotted inner) =>
      (addAt? path value inner).map fun inner =>
        entries.map fun e => if e.1 == key then (key, .table .dotted inner) else e
    | some _ => none

/-- The inline table of some entries. -/
def inlineTable? (entries : List (Path × Value)) : Option Value :=
  (entries.foldlM (fun done entry => addAt? entry.1 entry.2 done) []).map (.table .inline)

namespace Parse

/-- A parse that has met what no document holds. -/
def fail : Parse := ⟨[], [], .failed⟩

/-- Go to another phase. -/
def enter (p : Parse) (phase : ParsePhase) : Parse :=
  { p with phase := phase }

/-- Hand a whole value to what waits for it. -/
def deliver (p : Parse) (value : Value) : Parse :=
  match p.holders with
  | [] => fail
  | .assignment path :: holders => ⟨.assign path value :: p.statements, holders, .lineEnd⟩
  | .items done :: holders => ⟨p.statements, holders, .afterItem (value :: done)⟩
  | .entry done path :: holders => ⟨p.statements, holders, .afterEntry ((path, value) :: done)⟩

/-- Open a container, unless it is too deep; the holder of the assignment counts as the first. -/
def openContainer (p : Parse) (phase : ParsePhase) : Parse :=
  if p.holders.length ≤ depthLimit then p.enter phase else fail

/-- The first token of a value. -/
def beginValue (p : Parse) (token : Token) : Parse :=
  match token with
  | .blank _ => p.enter .value
  | .string s _ => p.deliver (.string s)
  | .word text => p.enter (.scalar text)
  | .dot => p.enter (.scalar ['.'])
  | .openBracket => p.openContainer (.item [])
  | .openBrace => p.openContainer (.entry [])
  | _ => fail

/-- One more token of a path. -/
def stepPath (p : Parse) (use : PathUse) (done : Path) (wantsKey : Bool) (token : Token) : Parse :=
  match token, wantsKey with
  | .blank _, _ => p.enter (.path use done wantsKey)
  | .dot, false => p.enter (.path use done true)
  | token, true =>
    match key? token with
    | some key => p.enter (.path use (key :: done) false)
    | none => fail
  | token, false =>
    if depthLimit < done.length then fail
    else match use, token with
      | .header false, .closeBracket =>
        ⟨.header done.reverse false :: p.statements, p.holders, .lineEnd⟩
      | .header true, .closeBracket => p.enter (.headerEnd done.reverse)
      | .assignment, .equals => ⟨p.statements, .assignment done.reverse :: p.holders, .value⟩
      | .entry entries, .equals => ⟨p.statements, .entry entries done.reverse :: p.holders, .value⟩
      | _, _ => fail

/-- One more token where no unquoted value is open. -/
def stepPlain (p : Parse) (token : Token) : Parse :=
  match p.phase with
  | .line =>
    match token with
    | .newline | .blank _ => p
    | .openBracket => p.enter .afterBracket
    | token => p.stepPath .assignment [] true token
  | .lineEnd =>
    match token with
    | .blank _ => p
    | .newline => p.enter .line
    | _ => fail
  | .afterBracket =>
    match token with
    | .openBracket => p.enter (.path (.header true) [] true)
    | token => p.stepPath (.header false) [] true token
  | .path use done wantsKey => p.stepPath use done wantsKey token
  | .headerEnd path =>
    match token with
    | .closeBracket => ⟨.header path true :: p.statements, p.holders, .lineEnd⟩
    | _ => fail
  | .value => p.beginValue token
  | .item done =>
    match token with
    | .newline | .blank _ => p
    | .closeBracket => p.deliver (.array done.reverse false)
    | token => beginValue ⟨p.statements, .items done :: p.holders, .value⟩ token
  | .afterItem done =>
    match token with
    | .newline | .blank _ => p
    | .comma => p.enter (.item done)
    | .closeBracket => p.deliver (.array done.reverse false)
    | _ => fail
  | .entry done =>
    match token with
    | .newline | .blank _ => p
    | .closeBrace =>
      match inlineTable? done.reverse with
      | some table => p.deliver table
      | none => fail
    | token => p.stepPath (.entry done) [] true token
  | .afterEntry done =>
    match token with
    | .newline | .blank _ => p
    | .comma => p.enter (.entry done)
    | .closeBrace =>
      match inlineTable? done.reverse with
      | some table => p.deliver table
      | none => fail
    | _ => fail
  | .scalar _ | .scalarBlank _ | .failed => fail

/-- End an unquoted value. -/
def endScalar (p : Parse) (text : List Char) : Parse :=
  match scalar? text with
  | some value => p.deliver value
  | none => fail

/-- The text is a date and nothing else, so that a time may follow after a space. -/
def isDateOnly (text : List Char) : Bool :=
  (date? text).any List.isEmpty

/-- One more token. A word or a dot right after an unquoted value belongs to it. -/
def step (p : Parse) (token : Token) : Parse :=
  match p.phase with
  | .scalar text =>
    match token with
    | .word more => p.enter (.scalar (text ++ more))
    | .dot => p.enter (.scalar (text ++ ['.']))
    | .blank true =>
      if isDateOnly text then p.enter (.scalarBlank text) else (p.endScalar text).stepPlain token
    | token => (p.endScalar text).stepPlain token
  | .scalarBlank text =>
    match token with
    | .word more => if more.head?.any Char.isDigit then p.enter (.scalar (text ++ ' ' :: more)) else fail
    | token => (p.endScalar text).stepPlain token
  | _ => p.stepPlain token

/-- Read a run of tokens. -/
def feed (p : Parse) (tokens : List Token) : Parse :=
  tokens.foldl step p

/-- Tokens in two parts are read part by part. -/
theorem feed_append (p : Parse) (a b : List Token) : p.feed (a ++ b) = (p.feed a).feed b :=
  List.foldl_append

/-- The statements of the document, if it may end here. -/
def finish? (p : Parse) : Option (List Statement) :=
  let p := match p.phase with
    | .scalar text | .scalarBlank text => p.endScalar text
    | _ => p
  match p.phase with
  | .line | .lineEnd => some p.statements.reverse
  | _ => none

end Parse

/-- The statements of a run of tokens. -/
def statements? (tokens : List Token) : Option (List Statement) :=
  ((⟨[], [], .line⟩ : Parse).feed tokens).finish?

end DaemonBridge.Toml
