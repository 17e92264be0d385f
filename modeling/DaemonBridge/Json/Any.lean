import DaemonBridge.Json.Shape
import DaemonBridge.Json.Value

/-!
# Any JSON value

The value that a whole tree stands for, members in the order of the text.
-/

namespace DaemonBridge.Json

/-- The name of a member, empty if it has none. -/
def Leaf.label : Leaf → String
  | .str s => s
  | _ => ""

/-- The value of a leaf, null if it has none. -/
def Leaf.value : Leaf → Value
  | .bool b => .bool b
  | .num n => .num n
  | .str s => .str s
  | _ => .null

mutual

/-- The value that a tree stands for. -/
def Tree.value : Tree → Value
  | .leaf l => l.value
  | .arr items _ => .arr (itemValues items)
  | .obj members _ => .obj (memberValues members)

/-- The values of elements. -/
def itemValues : List Tree → List Value
  | [] => []
  | item :: items => item.value :: itemValues items

/-- The values of members. -/
def memberValues : List (Leaf × Tree) → List (String × Value)
  | [] => []
  | (key, value) :: members => (key.label, value.value) :: memberValues members

end

mutual

/-- The value with the members of all its objects in the order of their names, the last of two members of
one name kept. -/
def Value.sorted : Value → Value
  | .arr items => .arr (sortedItems items)
  | .obj members => .obj (Dict.ofList (sortedMembers members)).entries
  | v => v

/-- Elements with sorted members. -/
def sortedItems : List Value → List Value
  | [] => []
  | item :: items => item.sorted :: sortedItems items

/-- Members with sorted members. -/
def sortedMembers : List (String × Value) → List (String × Value)
  | [] => []
  | (name, value) :: members => (name, value.sorted) :: sortedMembers members

end

/-- Any value. -/
def any : Decoder Value := fun source tree => do
  tree.hold source
  return tree.value

/-- The value of a whole document, if it is one. -/
def Document.value? (document : Document) : Option Value :=
  match document.decode any with
  | .ok value => some value
  | .error _ => none

end DaemonBridge.Json
