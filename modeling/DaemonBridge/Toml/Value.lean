import DaemonBridge.Json.Tree

/-!
# TOML values

The values that a TOML document holds. A table remembers how it was first written, which decides
what may still be added to it, and an array whether it was written as a sequence of tables.
-/

namespace DaemonBridge.Toml

/-- How a table came about. -/
inductive Origin where
  /-- Under a header of its own. -/
  | header
  /-- As a step on the way to the table of a header. -/
  | implied
  /-- As a step of a dotted key. -/
  | dotted
  /-- Between braces. -/
  | inline
  deriving Repr, DecidableEq

/-- A TOML value; a table keeps its entries in order. -/
inductive Value where
  | string (s : String)
  | integer (i : Int)
  | float (x : Float)
  | boolean (b : Bool)
  | datetime (text : String)
  | array (items : List Value) (ofTables : Bool)
  | table (origin : Origin) (entries : List (String × Value))

instance : Inhabited Value := ⟨.boolean false⟩

/-- The name under which a date or a time shows itself as the only member of a map. -/
def datetimeMember : String := "$__toml_private_datetime"

/-- An integer as a leaf; beyond 64 bits only a double is left of it. -/
def integerLeaf (i : Int) : Json.Leaf :=
  match i with
  | .ofNat n => if n < UInt64.size then .num (.nat (UInt64.ofNat n)) else .num (.float (Float.ofNat n))
  | .negSucc n => .num (.neg (n + 1))

mutual

/-- A value as a tree, so that the shapes of JSON values can be read from it. -/
def Value.tree : Value → Json.Tree
  | .string s => .leaf (.str s)
  | .integer i => .leaf (integerLeaf i)
  | .float x => .leaf (.num (.float x))
  | .boolean b => .leaf (.bool b)
  | .datetime text => .obj [(.str datetimeMember, .leaf (.str text))] .closed
  | .array items _ => .arr (itemTrees items) .closed
  | .table _ entries => .obj (entryTrees entries) .closed

/-- Elements as trees. -/
def itemTrees : List Value → List Json.Tree
  | [] => []
  | item :: items => item.tree :: itemTrees items

/-- Entries as members. -/
def entryTrees : List (String × Value) → List Json.Member
  | [] => []
  | (key, value) :: entries => (.str key, value.tree) :: entryTrees entries

end

end DaemonBridge.Toml
