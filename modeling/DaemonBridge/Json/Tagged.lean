import DaemonBridge.Json.Shape

/-!
# Tagged values

A value of one of several shapes, told apart by a tag: the member of an object with the tag's name,
or the first element of an array. The tag is read where it stands and everything else is held until
the tag is known, so its place among the members does not matter.
-/

namespace DaemonBridge.Json

/-- Recognise a variant by its name. A held tag may also be the variant's position. -/
def variant {ν : Type} (known : List (String × ν)) (other : Option ν) : Decoder ν
  | _, .leaf (.str name) =>
    match known.find? (fun entry => entry.1 == name), other with
    | some entry, _ => .ok entry.2
    | none, some v => .ok v
    | none, none => .error (.mismatch (.unknownVariant name (known.map Prod.fst)))
  | .held, .leaf (.num (.nat n)) =>
    match known[n.toNat]? with
    | some entry => .ok entry.2
    | none =>
      .error (.mismatch (.invalidValue (.num (.nat n))
        ("variant index 0 <= i < " ++ toString known.length)))
  | _, tree => .error (tree.refuse "variant identifier")

/-- Look for the tag among the members and hold the others. -/
def findTag {ν : Type} (tag : String) (identify : Decoder ν) (source : Source) :
    List Member → Option ν → Except DecodeError (Option ν)
  | [], found => .ok found
  | (key, value) :: members, found => do
    let name ← key.name
    if name = tag then
      match found with
      | some _ => throw (.mismatch (.duplicateField tag))
      | none => findTag tag identify source members (some (← identify source value))
    else
      value.hold source
      findTag tag identify source members found

/-- The members other than the tag. -/
def withoutTag (tag : String) (members : List Member) : List Member :=
  members.filter fun member =>
    match member.1 with
    | .str name => name != tag
    | _ => true

/-- Values told apart by a tag. -/
def tagged {ν α : Type} (tag what : String) (identify : Decoder ν) (content : ν → Decoder α) : Decoder α
  | source, .obj members ending => do
    let inner ← source.enter
    let found ← findTag tag identify inner members none
    faultless ending.fault?
    match found with
    | some v => content v .held (.obj (withoutTag tag members) .closed)
    | none => throw (.mismatch (.missingField tag))
  | source, .arr items ending => do
    let inner ← source.enter
    match ← nextItem items ending with
    | none => throw (.mismatch (.missingField tag))
    | some (first, rest) =>
      let v ← identify inner first
      rest.forM (Tree.hold inner)
      faultless ending.fault?
      content v .held (.arr rest .closed)
  | _, tree => .error (tree.refuse what)

end DaemonBridge.Json
