import DaemonBridge.Text.Numeral

/-!
# The grammar of command lines

A command line is read from left to right at one level, which knows some options and some operands.
Options have a long name and perhaps a letter, and several letters share a dash; an option's value is
attached to it or is the next argument, which then must not look like an option. After `--` everything
is an operand. The first argument that does not fit is the end of it.
-/

namespace DaemonBridge.CommandLine

/-- What may stand for a value. -/
inductive ValueKind where
  | text
  | path
  | number
  deriving DecidableEq, Repr

/-- A text may stand for a value. -/
def ValueKind.accepts : ValueKind → String → Bool
  | .text, _ => true
  | .path, s => s != ""
  | .number, s => (Text.readUInt64? s.toList).isSome

/-- What an option does: it is a mark, a mark that may be repeated, has a value, or ends the reading
because something else is asked for. -/
inductive OptionKind where
  | mark
  | tally
  | value (kind : ValueKind)
  | help
  | version
  deriving DecidableEq, Repr

/-- An option. -/
structure OptionForm where
  name : String
  letter : Option Char := none
  kind : OptionKind
  deriving DecidableEq, Repr

/-- The options and operands of a level. -/
structure Level where
  options : List OptionForm
  operands : List ValueKind := []
  deriving DecidableEq, Repr

/-- Why reading ends early. -/
inductive Halt where
  | misuse
  | help
  | version
  deriving DecidableEq, Repr

/-- What was given: options with their values, in sequence, and operands. -/
structure Given where
  options : List (String × String) := []
  operands : List String := []
  deriving DecidableEq, Repr

namespace Given

/-- How often an option was given. -/
def times (g : Given) (name : String) : Nat :=
  (g.options.filter fun given => given.1 == name).length

/-- An option was given. -/
def has (g : Given) (name : String) : Bool :=
  0 < g.times name

/-- The value of an option. -/
def value? (g : Given) (name : String) : Option String :=
  (g.options.find? fun given => given.1 == name).map Prod.snd

/-- The number that an option was given. -/
def number? (g : Given) (name : String) : Option UInt64 :=
  (g.value? name).bind fun text => Text.readUInt64? text.toList

/-- The operand at a position. -/
def operand (g : Given) (index : Nat) : String :=
  (g.operands[index]?).getD ""

end Given

/-- An argument that looks like an option: a dash that is not alone. -/
def looksLikeOption (arg : String) : Bool :=
  arg.startsWith "-" && arg != "-"

namespace Level

/-- Add an option; only a tally may be repeated. -/
def addOption (form : OptionForm) (value : String) (g : Given) : Except Halt Given :=
  if form.kind != .tally && g.has form.name then .error .misuse
  else .ok { g with options := g.options ++ [(form.name, value)] }

/-- Add an operand. -/
def addOperand (level : Level) (arg : String) (g : Given) : Except Halt Given :=
  match level.operands[g.operands.length]? with
  | some kind => if kind.accepts arg then .ok { g with operands := g.operands ++ [arg] } else .error .misuse
  | none => .error .misuse

/-- Add operands. -/
def addOperands (level : Level) (args : List String) (g : Given) : Except Halt Given :=
  args.foldlM (fun g arg => level.addOperand arg g) g

/-- Add an option that has no value. -/
def addMark (form : OptionForm) (g : Given) : Except Halt Given :=
  match form.kind with
  | .mark | .tally => addOption form "" g
  | .help => .error .help
  | .version => .error .version
  | .value _ => .error .misuse

/-- Add an option with its value. -/
def addValue (form : OptionForm) (value : String) (g : Given) : Except Halt Given :=
  match form.kind with
  | .value kind => if kind.accepts value then addOption form value g else .error .misuse
  | _ => .error .misuse

/-- The option of a name. -/
def named? (level : Level) (name : List Char) : Option OptionForm :=
  level.options.find? fun form => form.name.toList == name

/-- The option of a letter. -/
def lettered? (level : Level) (letter : Char) : Option OptionForm :=
  level.options.find? fun form => form.letter == some letter

/-- Add the options behind one dash. What follows the letter of an option with a value is its value; an
option that is still to get its value is the second part of the result. -/
def addLetters (level : Level) : List Char → Given → Except Halt (Given × Option OptionForm)
  | [], g => .ok (g, none)
  | letter :: rest, g =>
    match level.lettered? letter with
    | none => .error .misuse
    | some form =>
      match form.kind, rest with
      | .value _, [] => .ok (g, some form)
      | .value _, '=' :: value => (addValue form (String.ofList value) g).map fun g => (g, none)
      | .value _, value => (addValue form (String.ofList value) g).map fun g => (g, none)
      | _, _ => do level.addLetters rest (← addMark form g)

/-- Add an option given by its name, perhaps with its value behind an equals sign. -/
def addNamed (level : Level) (text : List Char) (g : Given) : Except Halt (Given × Option OptionForm) :=
  match level.named? (text.takeWhile (· != '=')) with
  | none => .error .misuse
  | some form =>
    match form.kind, text.dropWhile (· != '=') with
    | .value _, [] => .ok (g, some form)
    | _, [] => (addMark form g).map fun g => (g, none)
    | _, _ :: value => (addValue form (String.ofList value) g).map fun g => (g, none)

/-- Add an argument that looks like an option. -/
def addDashed (level : Level) (arg : String) (g : Given) : Except Halt (Given × Option OptionForm) :=
  match arg.toList with
  | '-' :: '-' :: text => level.addNamed text g
  | _ :: letters => level.addLetters letters g
  | [] => .error .misuse

/-- Read arguments up to the first operand, if `single` is set, or else to the end. The operand and
what follows it are left over. -/
def read (level : Level) (single : Bool) : List String → Given → Except Halt (Given × List String)
  | [], g => .ok (g, [])
  | arg :: rest, g =>
    if arg == "--" then (level.addOperands rest g).map fun g => (g, [])
    else if looksLikeOption arg then do
      let (g, open?) ← level.addDashed arg g
      match open?, rest with
      | none, rest => level.read single rest g
      | some _, [] => throw .misuse
      | some form, value :: rest =>
        if looksLikeOption value then throw .misuse
        level.read single rest (← addValue form value g)
    else if single then .ok (g, arg :: rest)
    else do level.read single rest (← level.addOperand arg g)

/-- Read all arguments of a level that has no further levels; every operand must be given. -/
def readAll (level : Level) (args : List String) : Except Halt Given := do
  let (g, _) ← level.read false args {}
  if g.operands.length < level.operands.length then throw .misuse
  return g

end Level

end DaemonBridge.CommandLine
