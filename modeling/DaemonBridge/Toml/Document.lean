import DaemonBridge.Toml.Statement

/-!
# TOML documents

The table that the statements of a document build. A header opens a table once; a table that was only
implied by a longer header may still get a header of its own, and one made by dotted keys may get
further dotted keys. Tables between braces and arrays between brackets are never added to.
-/

namespace DaemonBridge.Toml

/-- The entries of a table. -/
abbrev Entries := List (String × Value)

/-- The value of a key. -/
def Entries.value? (entries : Entries) (key : String) : Option Value :=
  (List.find? (fun e => e.1 == key) entries).map Prod.snd

/-- Set the value of a key, where it stands or at the end. -/
def Entries.put (entries : Entries) (key : String) (value : Value) : Entries :=
  if entries.any (fun e => e.1 == key) then entries.map fun e => if e.1 == key then (key, value) else e
  else entries ++ [(key, value)]

/-- Change the last element of a list. -/
def changeLast? {α : Type} (f : α → Option α) : List α → Option (List α)
  | [] => none
  | [a] => (f a).map fun b => [b]
  | a :: rest => (changeLast? f rest).map (a :: ·)

/-- Change the entries that the steps of a header lead to; a step through an array of tables leads
into its last table, and a missing step becomes an implied table. -/
def descend? (change : Entries → Option Entries) : Path → Entries → Option Entries
  | [], entries => change entries
  | key :: path, entries =>
    match entries.value? key with
    | none => (descend? change path []).map fun inner => entries.put key (.table .implied inner)
    | some (.table origin inner) =>
      if origin = .inline then none
      else (descend? change path inner).map fun inner => entries.put key (.table origin inner)
    | some (.array items true) =>
      (changeLast? (fun item =>
        match item with
        | .table origin inner => (descend? change path inner).map (.table origin)
        | _ => none) items).map fun items => entries.put key (.array items true)
    | some _ => none

/-- Set a key to a value at the end of the steps of a dotted key. -/
def assign? : Path → Value → Entries → Option Entries
  | [], _, _ => none
  | [key], value, entries => if (entries.value? key).isSome then none else some (entries ++ [(key, value)])
  | key :: path, value, entries =>
    match entries.value? key with
    | none => (assign? path value []).map fun inner => entries.put key (.table .dotted inner)
    | some (.table .dotted inner) =>
      (assign? path value inner).map fun inner => entries.put key (.table .dotted inner)
    | some (.table .implied inner) =>
      if path.length = 1 then none
      else (assign? path value inner).map fun inner => entries.put key (.table .implied inner)
    | some _ => none

/-- Open the table of a header. -/
def openTable? (key : String) (entries : Entries) : Option Entries :=
  match entries.value? key with
  | none => some (entries ++ [(key, .table .header [])])
  | some (.table .implied inner) => some (entries.put key (.table .header inner))
  | some _ => none

/-- Add a table to the array of a header. -/
def addTable? (key : String) (entries : Entries) : Option Entries :=
  match entries.value? key with
  | none => some (entries ++ [(key, .array [.table .header []] true)])
  | some (.array items true) => some (entries.put key (.array (items ++ [.table .header []]) true))
  | some _ => none

/-- A document being built, with the path of its current header. -/
structure Build where
  root : Entries
  current : Path

/-- Carry out a statement. -/
def Build.step? (b : Build) : Statement → Option Build
  | .header path ofTables =>
    match path.getLast? with
    | none => none
    | some key =>
      (descend? (if ofTables then addTable? key else openTable? key) path.dropLast b.root).map
        fun root => ⟨root, path⟩
  | .assign path value => (descend? (assign? path value) b.current b.root).map fun root => ⟨root, b.current⟩

/-- The table of a document. -/
def document? (text : List Char) : Option Value := do
  let statements ← statements? (← tokens? text)
  let build ← statements.foldlM Build.step? ⟨[], []⟩
  return .table .header build.root

end DaemonBridge.Toml
