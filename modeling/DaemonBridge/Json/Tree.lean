import DaemonBridge.Json.Number

/-!
# JSON text as a tree

What a text says, whether or not it is well-formed: the leaves and containers read from it in order,
up to the place where it stops being JSON. A text is cut at one place at most, so everything that a
tree holds before its last leaf is whole. A fault is a text that breaks the grammar (`malformed`) or
one that ends too early (`truncated`); which of the two can depend on whether the value at that place
is wanted (`wanted`) or only passed over (`passed`), because passing over checks less.
-/

namespace DaemonBridge.Json

/-- Why a text is not JSON. -/
inductive Fault where
  | malformed
  | truncated
  deriving Repr, DecidableEq

/-- A leaf of a text. -/
inductive Leaf where
  | null
  | bool (b : Bool)
  | num (n : Number)
  | str (s : String)
  /-- A string or numeral of the right form that stands for nothing: lone surrogates, bytes that are
  not UTF-8, a number beyond the greatest double. -/
  | meaningless
  /-- The place where the text is cut. -/
  | broken (wanted passed : Fault)
  deriving Repr

/-- How a container ends. -/
inductive Ending where
  | closed
  | cut (fault : Fault)
  deriving Repr, DecidableEq

/-- A text as far as it can be read. The key of a member is a leaf. -/
inductive Tree where
  | leaf (l : Leaf)
  | arr (items : List Tree) (ending : Ending)
  | obj (members : List (Leaf × Tree)) (ending : Ending)

instance : Inhabited Tree := ⟨.leaf .null⟩

/-- A member of an object. -/
abbrev Member := Leaf × Tree

/-- A whole text: its value, and whether anything but blanks follows it. -/
structure Document where
  tree : Tree
  trailing : Bool

/-- The fault that stops a reader of this leaf. -/
def Leaf.fault? : Leaf → Option Fault
  | .meaningless => some .malformed
  | .broken wanted _ => some wanted
  | _ => none

/-- The fault that stops a reader who passes over this leaf. -/
def Leaf.passedFault? : Leaf → Option Fault
  | .broken _ passed => some passed
  | _ => none

/-- The fault in place of the end of a container. -/
def Ending.fault? : Ending → Option Fault
  | .closed => none
  | .cut fault => some fault

/-- The fault that stops a reader who passes over this value. -/
def Tree.passedFault? : Tree → Option Fault
  | .leaf l => l.passedFault?
  | .arr _ ending => ending.fault?
  | .obj _ ending => ending.fault?

mutual

/-- The first fault of a value that is wanted whole and may open `room` containers inside each other. -/
def Tree.fault? (room : Nat) : Tree → Option Fault
  | .leaf l => l.fault?
  | .arr items ending =>
    match room with
    | 0 => some .malformed
    | room + 1 => (itemsFault? room items).or ending.fault?
  | .obj members ending =>
    match room with
    | 0 => some .malformed
    | room + 1 => (membersFault? room members).or ending.fault?

/-- The first fault among elements. -/
def itemsFault? (room : Nat) : List Tree → Option Fault
  | [] => none
  | item :: items => (item.fault? room).or (itemsFault? room items)

/-- The first fault among members. -/
def membersFault? (room : Nat) : List (Leaf × Tree) → Option Fault
  | [] => none
  | (key, value) :: members => (key.fault?.or (value.fault? room)).or (membersFault? room members)

end

end DaemonBridge.Json
