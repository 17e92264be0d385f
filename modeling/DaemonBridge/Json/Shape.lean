import DaemonBridge.Dict
import DaemonBridge.Json.Tree
import DaemonBridge.Text.Quoted

/-!
# Shapes of JSON values

Decoders from trees to typed values. A decoder walks its tree in document order and stops at the
first thing wrong with it, be it a fault of the text or a mismatch between the value and its shape.

A record is decoded from an object, whose unknown members are passed over, or from an array of its
fields in order. Records are put together from single fields (`Record.field`, `Record.and`), and a
field that is missing from an object is noticed only at the object's end.
-/

namespace DaemonBridge.Json

/-- What stands in place of the value that a shape asks for. -/
inductive Found where
  | null
  | bool (b : Bool)
  | num (n : Number)
  | str (s : String)
  | sequence
  | map
  deriving Repr

/-- How messages name what they found. -/
def Found.text : Found → String
  | .null => "null"
  | .bool b => "boolean `" ++ (if b then "true" else "false") ++ "`"
  | .num (.float x) => "floating point `" ++ (Number.float x).text ++ "`"
  | .num n => "integer `" ++ n.text ++ "`"
  | .str s => "string " ++ Text.quoted s
  | .sequence => "sequence"
  | .map => "map"

/-- How a well-formed value fails to have a shape. -/
inductive Mismatch where
  | missingField (field : String)
  | duplicateField (field : String)
  | unknownVariant (name : String) (known : List String)
  | invalidType (found : Found) (expected : String)
  | invalidValue (found : Found) (expected : String)
  | invalidLength (length : Nat) (expected : String)
  deriving Repr

/-- A list of names for a message: in backquotes, the last of two after "or". -/
def oneOf : List String → String
  | [] => "there are no variants"
  | [a] => "expected `" ++ a ++ "`"
  | [a, b] => "expected `" ++ a ++ "` or `" ++ b ++ "`"
  | names => "expected one of " ++ String.intercalate ", " (names.map fun name => "`" ++ name ++ "`")

/-- The wording of a mismatch. -/
def Mismatch.message : Mismatch → String
  | .missingField field => "missing field `" ++ field ++ "`"
  | .duplicateField field => "duplicate field `" ++ field ++ "`"
  | .unknownVariant name known => "unknown variant `" ++ name ++ "`, " ++ oneOf known
  | .invalidType found expected => "invalid type: " ++ found.text ++ ", expected " ++ expected
  | .invalidValue found expected => "invalid value: " ++ found.text ++ ", expected " ++ expected
  | .invalidLength length expected => "invalid length " ++ toString length ++ ", expected " ++ expected

/-- Why a text gives no value of a shape. -/
inductive DecodeError where
  | fault (fault : Fault)
  | mismatch (mismatch : Mismatch)
  deriving Repr

/-- Where a value is read from. A value of a text may open `room` more containers inside each other;
a held value was checked before; a table of settings is not particular about the length of arrays. -/
inductive Source where
  | text (room : Nat)
  | held
  | table
  deriving Repr, DecidableEq

/-- A text opens at most 127 containers inside each other. -/
def Source.document : Source := .text 127

/-- A reader of values of one shape. -/
abbrev Decoder (α : Type) := Source → Tree → Except DecodeError α

/-- Fail where there is a fault. -/
def faultless : Option Fault → Except DecodeError Unit
  | none => .ok ()
  | some fault => .error (.fault fault)

/-- The source inside a container. -/
def Source.enter : Source → Except DecodeError Source
  | .text 0 => .error (.fault .malformed)
  | .text (room + 1) => .ok (.text room)
  | .held => .ok .held
  | .table => .ok .table

/-- The complaint about a value of another shape. -/
def Tree.refuse (expected : String) : Tree → DecodeError
  | .leaf .null => .mismatch (.invalidType .null expected)
  | .leaf (.bool b) => .mismatch (.invalidType (.bool b) expected)
  | .leaf (.num n) => .mismatch (.invalidType (.num n) expected)
  | .leaf (.str s) => .mismatch (.invalidType (.str s) expected)
  | .leaf .meaningless => .fault .malformed
  | .leaf (.broken wanted _) => .fault wanted
  | .arr .. => .mismatch (.invalidType .sequence expected)
  | .obj .. => .mismatch (.invalidType .map expected)

/-- The name of a member. -/
def Leaf.name : Leaf → Except DecodeError String
  | .str s => .ok s
  | .broken wanted _ => .error (.fault wanted)
  | _ => .error (.fault .malformed)

/-- Pass over a value. -/
def Tree.pass (tree : Tree) : Except DecodeError Unit :=
  faultless tree.passedFault?

/-- Keep a value for later: from a text it has to be free of faults. -/
def Tree.hold (source : Source) (tree : Tree) : Except DecodeError Unit :=
  match source with
  | .text room => faultless (tree.fault? room)
  | _ => .ok ()

/-- Strings, under the name that messages give to what is expected. -/
def stringNamed (expected : String) : Decoder String
  | _, .leaf (.str s) => .ok s
  | _, tree => .error (tree.refuse expected)

/-- Strings. -/
def string : Decoder String :=
  stringNamed "a string"

/-- Truth values. -/
def bool : Decoder Bool
  | _, .leaf (.bool b) => .ok b
  | _, tree => .error (tree.refuse "a boolean")

/-- Unsigned 64-bit integers, under the name that messages give to what is expected. -/
def uint64Named (expected : String) : Decoder UInt64
  | _, .leaf (.num (.nat n)) => .ok n
  | _, .leaf (.num (.neg n)) => .error (.mismatch (.invalidValue (.num (.neg n)) expected))
  | _, tree => .error (tree.refuse expected)

/-- Unsigned 64-bit integers. -/
def uint64 : Decoder UInt64 :=
  uint64Named "u64"

/-- A value or null. -/
def nullable {α : Type} (decoder : Decoder α) : Decoder (Option α)
  | _, .leaf .null => .ok none
  | source, tree => (decoder source tree).map some

/-- Arrays of values of one shape. -/
def list {α : Type} (decoder : Decoder α) : Decoder (List α)
  | source, .arr items ending => do
    let inner ← source.enter
    let values ← items.mapM (decoder inner)
    faultless ending.fault?
    return values
  | _, tree => .error (tree.refuse "a sequence")

/-- Objects whose members have one shape; the last of two members of the same name counts. -/
def dict {α : Type} (decoder : Decoder α) : Decoder (Dict α)
  | source, .obj members ending => do
    let inner ← source.enter
    let entries ← members.mapM fun member => do
      let name ← member.1.name
      let value ← decoder inner member.2
      return (name, value)
    faultless ending.fault?
    return Dict.ofList entries
  | _, tree => .error (tree.refuse "a map")

/-- A number of elements, for messages. -/
def elements (n : Nat) : String :=
  if n = 1 then "1 element" else toString n ++ " elements"

/-- The next element of an array, if it has one. -/
def nextItem (items : List Tree) (ending : Ending) : Except DecodeError (Option (Tree × List Tree)) :=
  match items, ending with
  | item :: rest, _ => .ok (some (item, rest))
  | [], .closed => .ok none
  | [], .cut fault => .error (.fault fault)

/-- Leave an array of which `taken` elements were read and `items` are left over. -/
def Source.leave (source : Source) (taken : Nat) (items : List Tree) (ending : Ending) :
    Except DecodeError Unit :=
  match source, items with
  | .table, _ => .ok ()
  | .held, [] => .ok ()
  | .held, _ :: _ =>
    .error (.mismatch (.invalidLength (taken + items.length) (elements taken ++ " in sequence")))
  | .text _, [] => faultless ending.fault?
  | .text _, _ :: _ => .error (.fault .malformed)

/-- A description of the fields of a record: how a member with one of the `names` is added to what is
known so far, what the fields add up to in the end, and how the fields are drawn from an array. -/
structure Record (α : Type) : Type 1 where
  names : List String
  Draft : Type
  blank : Draft
  accept : Source → String → Tree → Draft → Except DecodeError Draft
  build : Draft → Except DecodeError α
  draw : Source → String → Nat → Ending → List Tree → Except DecodeError (α × List Tree)

namespace Record

variable {α β : Type}

/-- One field. Without a value for its absence it must be there. -/
def fieldOr (absent : Option α) (name : String) (decoder : Decoder α) : Record α where
  names := [name]
  Draft := Option α
  blank := none
  accept source _ tree draft :=
    match draft with
    | some _ => .error (.mismatch (.duplicateField name))
    | none => (decoder source tree).map some
  build draft :=
    match draft.or absent with
    | some value => .ok value
    | none => .error (.mismatch (.missingField name))
  draw source what index ending items := do
    match ← nextItem items ending with
    | some (item, rest) => return (← decoder source item, rest)
    | none =>
      match absent with
      | some value => return (value, [])
      | none => throw (.mismatch (.invalidLength index what))

/-- A field that must be there. -/
def field (name : String) (decoder : Decoder α) : Record α :=
  fieldOr none name decoder

/-- A field that may be absent. -/
def optional (absent : α) (name : String) (decoder : Decoder α) : Record α :=
  fieldOr (some absent) name decoder

/-- The fields of two records, the first record's first. -/
def and (r : Record α) (s : Record β) : Record (α × β) where
  names := r.names ++ s.names
  Draft := r.Draft × s.Draft
  blank := (r.blank, s.blank)
  accept source name tree draft :=
    if name ∈ r.names then (r.accept source name tree draft.1).map fun d => (d, draft.2)
    else (s.accept source name tree draft.2).map fun d => (draft.1, d)
  build draft := do
    let a ← r.build draft.1
    let b ← s.build draft.2
    return (a, b)
  draw source what index ending items := do
    let (a, items) ← r.draw source what index ending items
    let (b, items) ← s.draw source what (index + r.names.length) ending items
    return ((a, b), items)

/-- The same fields, put together otherwise. -/
def map (f : α → β) (r : Record α) : Record β where
  names := r.names
  Draft := r.Draft
  blank := r.blank
  accept := r.accept
  build draft := (r.build draft).map f
  draw source what index ending items :=
    (r.draw source what index ending items).map fun (a, rest) => (f a, rest)

/-- Add the members of an object, in order. Unknown members are passed over. -/
def fill (r : Record α) (source : Source) : List Member → r.Draft → Except DecodeError r.Draft
  | [], draft => .ok draft
  | (key, value) :: members, draft => do
    let name ← key.name
    if name ∈ r.names then
      r.fill source members (← r.accept source name value draft)
    else
      value.pass
      r.fill source members draft

/-- Add the members of an object, in order. Unknown members are held for another reader. -/
def fillHolding (r : Record α) (source : Source) : List Member → r.Draft → Except DecodeError r.Draft
  | [], draft => .ok draft
  | (key, value) :: members, draft => do
    let name ← key.name
    if name ∈ r.names then
      r.fillHolding source members (← r.accept source name value draft)
    else
      value.hold source
      r.fillHolding source members draft

/-- The record from the members of an object. -/
def ofMembers (r : Record α) (source : Source) (members : List Member) (ending : Ending) :
    Except DecodeError α := do
  let draft ← r.fill source members r.blank
  faultless ending.fault?
  r.build draft

/-- The record from an object or from the array of its fields. -/
def decoder (what : String) (r : Record α) : Decoder α
  | source, .obj members ending => do
    let inner ← source.enter
    r.ofMembers inner members ending
  | source, .arr items ending => do
    let inner ← source.enter
    let (value, rest) ← r.draw inner (what ++ " with " ++ elements r.names.length) 0 ending items
    source.leave (items.length - rest.length) rest ending
    return value
  | _, tree => .error (tree.refuse what)

/-- The members of an object that are not fields of the record. -/
def others (r : Record α) (members : List Member) : List Member :=
  members.filter fun member =>
    match member.1 with
    | .str name => !(name ∈ r.names)
    | _ => true

/-- A record whose object also holds the members of another value; such a record has no array form. -/
def decoderWith (what : String) (r : Record α) (rest : List Member → Except DecodeError β) :
    Decoder (α × β)
  | source, .obj members ending => do
    let inner ← source.enter
    let draft ← r.fillHolding inner members r.blank
    faultless ending.fault?
    let a ← r.build draft
    let b ← rest (r.others members)
    return (a, b)
  | _, tree => .error (tree.refuse what)

end Record

/-- A fixed pair, written as an array of two. -/
def pair {α β : Type} (first : Decoder α) (second : Decoder β) : Decoder (α × β)
  | source, .arr items ending => do
    let inner ← source.enter
    let what := "a tuple of size 2"
    match ← nextItem items ending with
    | none => throw (.mismatch (.invalidLength 0 what))
    | some (item, items) =>
      let a ← first inner item
      match ← nextItem items ending with
      | none => throw (.mismatch (.invalidLength 1 what))
      | some (item, items) =>
        let b ← second inner item
        source.leave 2 items ending
        return (a, b)
  | _, tree => .error (tree.refuse "a tuple of size 2")

/-- The value that carries no fields: any object, or an array without elements. -/
def unit : Decoder Unit
  | _, .obj .. => .ok ()
  | source, .arr items ending => source.leave 0 items ending
  | _, tree => .error (tree.refuse "unit")

/-- Decode a whole text; nothing but blanks may follow the value. -/
def Document.decode {α : Type} (document : Document) (decoder : Decoder α) : Except DecodeError α := do
  let value ← decoder .document document.tree
  if document.trailing then throw (.fault .malformed) else return value

end DaemonBridge.Json
