import DaemonBridge.Proofs.Json.Records
import DaemonBridge.Proofs.Toml.Lines

/-!
# The table of a document

A document that is laid out as it is printed, with entries on top, tables below them and the tables of one
array at the end, holds the table that the layout shows (`Layout.document?_eq`). An assignment goes to the
entries that the header above it has opened, wherever these are (`IsOpen`), so the lines under a header add
their entries to its table and leave everything else as it is.
-/

namespace DaemonBridge.Toml

variable {front root inner : Entries} {name key : String} {value : Value} {current : Path}

/-! ## Keys -/

/-- Where all keys are different, a key does not occur before its entry. -/
theorem not_mem_of_nodup {entry : String × Value} {rest : Entries}
    (h : ((front ++ [entry] ++ rest).map Prod.fst).Nodup) : entry.1 ∉ front.map Prod.fst := by
  rw [List.map_append, List.map_append] at h
  have hfront := (List.nodup_append.mp h).1
  exact fun hmem => (List.nodup_append.mp hfront).2.2 _ hmem _ (List.mem_singleton_self _) rfl

/-- A key that does not occur has no value. -/
theorem Entries.value?_eq_none (h : name ∉ root.map Prod.fst) : root.value? name = none := by
  rw [Entries.value?, Option.map_eq_none_iff, List.find?_eq_none]
  intro entry hmem heq
  exact h (eq_of_beq heq ▸ List.mem_map_of_mem hmem)

/-- The last entry is found, if its key does not occur before. -/
theorem Entries.value?_concat (h : name ∉ front.map Prod.fst) :
    Entries.value? (front ++ [(name, value)]) name = some value := by
  have hfront : List.find? (fun e => e.1 == name) front = none :=
    Option.map_eq_none_iff.mp (Entries.value?_eq_none h)
  rw [Entries.value?, List.find?_append, hfront]
  simp

/-- The last entry is set, if its key does not occur before. -/
theorem Entries.put_concat (h : name ∉ front.map Prod.fst) (other : Value) :
    Entries.put (front ++ [(name, value)]) name other = front ++ [(name, other)] := by
  have hfront : (front.map fun e => if e.1 == name then (name, other) else e) = front := by
    conv_rhs => rw [← front.map_id]
    refine List.map_congr_left fun e hmem => if_neg fun heq => h ?_
    rw [← eq_of_beq heq]
    exact List.mem_map_of_mem hmem
  rw [Entries.put, if_pos (by simp), List.map_append, hfront]
  simp

/-- The last element of a list is changed. -/
theorem changeLast?_concat {α : Type} (f : α → Option α) (items : List α) (a : α) :
    changeLast? f (items ++ [a]) = (f a).map fun b => items ++ [b] := by
  induction items with
  | nil => rfl
  | cons item items ih =>
    have hskip : changeLast? f (item :: (items ++ [a])) = (changeLast? f (items ++ [a])).map (item :: ·) := by
      cases items <;> rfl
    rw [List.cons_append, hskip, ih, Option.map_map]
    rfl

/-! ## What a header opens -/

/-- What is done where the path leads is done to the entries inside, and the entries around them stay. -/
def IsOpen (current : Path) (around : Entries → Entries) : Prop :=
  ∀ change inner, descend? change current (around inner) = (change inner).map around

/-- Above all headers the entries of the document are open. -/
theorem isOpen_root : IsOpen [] id := fun change inner => by
  rw [descend?, Option.map_id]
  rfl

/-- The table that was opened last. -/
theorem isOpen_table (h : name ∉ front.map Prod.fst) :
    IsOpen [name] fun inner => front ++ [(name, .table .header inner)] := fun change inner => by
  simp only [descend?, Entries.value?_concat h, Entries.put_concat h]
  rfl

/-- The last table of an array. -/
theorem isOpen_row (rows : List Value) (h : name ∉ front.map Prod.fst) :
    IsOpen [name] fun inner => front ++ [(name, .array (rows ++ [.table .header inner]) true)] :=
  fun change inner => by
    simp only [descend?, Entries.value?_concat h, Entries.put_concat h, changeLast?_concat, Option.map_map]
    rfl

/-- The entries of a table. -/
def tableEntries (entries : List (String × Plain)) : Entries :=
  entries.map fun entry => (entry.1, entry.2.value)

/-- They have the keys that were written. -/
theorem map_fst_tableEntries (entries : List (String × Plain)) :
    (tableEntries entries).map Prod.fst = entries.map Prod.fst := by
  rw [tableEntries, List.map_map]
  rfl

/-- Entries under a header are added to what it opened. -/
theorem IsOpen.foldlM_entries {around : Entries → Entries} (h : IsOpen current around) (inner : Entries)
    {entries : List (String × Plain)} (hkeys : ((inner ++ tableEntries entries).map Prod.fst).Nodup) :
    (entries.map entryStatement).foldlM Build.step? ⟨around inner, current⟩ =
      some ⟨around (inner ++ tableEntries entries), current⟩ := by
  induction entries generalizing inner with
  | nil => simp [tableEntries]
  | cons entry entries ih =>
    have hsplit : inner ++ tableEntries (entry :: entries) =
        (inner ++ [(entry.1, entry.2.value)]) ++ tableEntries entries := by simp [tableEntries]
    rw [hsplit] at hkeys ⊢
    have hnew : entry.1 ∉ inner.map Prod.fst := not_mem_of_nodup hkeys
    have hstep : Build.step? ⟨around inner, current⟩ (entryStatement entry) =
        some ⟨around (inner ++ [(entry.1, entry.2.value)]), current⟩ := by
      rw [entryStatement, Build.step?, h, assign?, Entries.value?_eq_none hnew]
      rfl
    rw [List.map_cons, List.foldlM_cons, hstep]
    exact ih _ hkeys

/-! ## Blocks -/

/-- Under whichever header they stand, the statements turn the document's entries into others. -/
def Builds (said : List Statement) (root root' : Entries) : Prop :=
  ∀ current, ∃ current', said.foldlM Build.step? ⟨root, current⟩ = some ⟨root', current'⟩

/-- No statements leave the entries as they are. -/
theorem Builds.nil (root : Entries) : Builds [] root root :=
  fun current => ⟨current, rfl⟩

/-- Statements are carried out one after another. -/
theorem Builds.append {said more : List Statement} {root root' root'' : Entries} (h : Builds said root root')
    (hmore : Builds more root' root'') : Builds (said ++ more) root root'' := fun current => by
  obtain ⟨middle, hsaid⟩ := h current
  obtain ⟨current', hmore⟩ := hmore middle
  refine ⟨current', ?_⟩
  rw [List.foldlM_append, hsaid]
  exact hmore

/-- The entry of a table with its name. -/
def tableEntry (table : String × List (String × Plain)) : String × Value :=
  (table.1, .table .header (tableEntries table.2))

/-- The block of a table with its name. -/
def tableBlock (table : String × List (String × Plain)) : Block :=
  ⟨.table table.1, table.2⟩

/-- A table under a new name is added behind the other entries. -/
theorem builds_table {table : String × List (String × Plain)} (hname : table.1 ∉ root.map Prod.fst)
    (hkeys : (table.2.map Prod.fst).Nodup) :
    Builds (tableBlock table).statements root (root ++ [tableEntry table]) := fun current => by
  have htable : openTable? table.1 root = some (root ++ [(table.1, .table .header [])]) := by
    rw [openTable?, Entries.value?_eq_none hname]
  have hopen : Build.step? ⟨root, current⟩ (.header [table.1] false) =
      some ⟨root ++ [(table.1, .table .header [])], [table.1]⟩ := by
    show (openTable? table.1 root).map _ = _
    rw [htable]
    rfl
  rw [← map_fst_tableEntries] at hkeys
  refine ⟨[table.1], ?_⟩
  rw [Block.statements, tableBlock, List.foldlM_append, Header.statements, List.foldlM_cons, hopen]
  exact (isOpen_table hname).foldlM_entries [] hkeys

/-- The array of some tables, if there are any. -/
def arrayEntries (name : String) : List (List (String × Plain)) → Entries
  | [] => []
  | row :: rows => [(name, .array ((row :: rows).map fun row => .table .header (tableEntries row)) true)]

/-- The block of a table in an array. -/
def rowBlock (name : String) (row : List (String × Plain)) : Block :=
  ⟨.arrayTable name, row⟩

/-- A table of an array is added behind the others in it. -/
theorem builds_row {row : List (String × Plain)} (rows : List (List (String × Plain)))
    (hname : name ∉ front.map Prod.fst) (hkeys : (row.map Prod.fst).Nodup) :
    Builds (rowBlock name row).statements (front ++ arrayEntries name rows)
      (front ++ arrayEntries name (rows ++ [row])) := fun current => by
  let tables := rows.map fun row => Value.table .header (tableEntries row)
  have htable : addTable? name (front ++ arrayEntries name rows) =
      some (front ++ [(name, .array (tables ++ [.table .header []]) true)]) := by
    cases rows with
    | nil =>
      rw [arrayEntries, List.append_nil, addTable?, Entries.value?_eq_none hname]
      rfl
    | cons row rows =>
      rw [arrayEntries, addTable?, Entries.value?_concat hname]
      exact congrArg some (Entries.put_concat hname _)
  have hopen : Build.step? ⟨front ++ arrayEntries name rows, current⟩ (.header [name] true) =
      some ⟨front ++ [(name, .array (tables ++ [.table .header []]) true)], [name]⟩ := by
    show (addTable? name _).map _ = _
    rw [htable]
    rfl
  have hadded : arrayEntries name (rows ++ [row]) =
      [(name, .array (tables ++ [.table .header (tableEntries row)]) true)] := by
    cases rows <;> simp [arrayEntries, tables]
  rw [← map_fst_tableEntries] at hkeys
  refine ⟨[name], ?_⟩
  rw [Block.statements, rowBlock, List.foldlM_append, Header.statements, List.foldlM_cons, hopen, hadded]
  exact (isOpen_row tables hname).foldlM_entries [] hkeys

/-- Tables are added one after another. -/
theorem builds_tables {tables : List (String × List (String × Plain))}
    (hnames : ((root ++ tables.map tableEntry).map Prod.fst).Nodup)
    (hkeys : ∀ table ∈ tables, (table.2.map Prod.fst).Nodup) :
    Builds ((tables.map tableBlock).flatMap Block.statements) root (root ++ tables.map tableEntry) := by
  induction tables generalizing root with
  | nil =>
    rw [List.map_nil, List.map_nil, List.append_nil]
    exact .nil root
  | cons table tables ih =>
    obtain ⟨htable, htables⟩ := List.forall_mem_cons.mp hkeys
    rw [List.map_cons, List.append_cons] at hnames
    have hname : table.1 ∉ root.map Prod.fst := not_mem_of_nodup hnames
    rw [List.map_cons, List.map_cons, List.append_cons, List.flatMap_cons]
    exact (builds_table hname htable).append (ih hnames htables)

/-- So are the tables of an array. -/
theorem builds_rows (done : List (List (String × Plain))) {rows : List (List (String × Plain))}
    (hname : name ∉ front.map Prod.fst) (hkeys : ∀ row ∈ rows, (row.map Prod.fst).Nodup) :
    Builds ((rows.map (rowBlock name)).flatMap Block.statements) (front ++ arrayEntries name done)
      (front ++ arrayEntries name (done ++ rows)) := by
  induction rows generalizing done with
  | nil =>
    rw [List.append_nil]
    exact .nil _
  | cons row rows ih =>
    obtain ⟨hrow, hrows⟩ := List.forall_mem_cons.mp hkeys
    rw [List.map_cons, List.append_cons, List.flatMap_cons]
    exact (builds_row done hname hrow).append (ih (done ++ [row]) hrows)

/-! ## Layouts -/

/-- How a printed document is laid out. -/
structure Layout where
  /-- The entries above all headers. -/
  top : List (String × Plain)
  /-- The tables with their names. -/
  tables : List (String × List (String × Plain))
  /-- The name of the array at the end. -/
  arrayName : String
  /-- The tables of the array. -/
  rows : List (List (String × Plain))

namespace Layout

/-- The statements of the printed document. -/
def statements (l : Layout) : List Statement :=
  l.top.map entryStatement ++ (l.tables.map tableBlock).flatMap Block.statements ++
    (l.rows.map (rowBlock l.arrayName)).flatMap Block.statements

/-- The entries that the layout shows. -/
def entries (l : Layout) : Entries :=
  tableEntries l.top ++ l.tables.map tableEntry ++ arrayEntries l.arrayName l.rows

/-- No key occurs twice in one table. -/
structure KeysDistinct (l : Layout) : Prop where
  entries : (l.entries.map Prod.fst).Nodup
  tables : ∀ table ∈ l.tables, (table.2.map Prod.fst).Nodup
  rows : ∀ row ∈ l.rows, (row.map Prod.fst).Nodup

/-- The keys of the document. -/
theorem map_fst_entries (l : Layout) : l.entries.map Prod.fst =
    l.top.map Prod.fst ++ l.tables.map Prod.fst ++ if l.rows = [] then [] else [l.arrayName] := by
  have harray : (arrayEntries l.arrayName l.rows).map Prod.fst =
      if l.rows = [] then [] else [l.arrayName] := by
    cases l.rows <;> rfl
  rw [entries, List.map_append, List.map_append, map_fst_tableEntries, List.map_map, harray]
  rfl

/-- Below the top, the tables and then the array are added. -/
theorem builds_below (l : Layout) (h : l.KeysDistinct) :
    Builds ((l.tables.map tableBlock).flatMap Block.statements ++
      (l.rows.map (rowBlock l.arrayName)).flatMap Block.statements) (tableEntries l.top) l.entries := by
  have hkeys := h.entries
  rw [entries, List.map_append] at hkeys
  obtain ⟨hfront, -, hapart⟩ := List.nodup_append.mp hkeys
  refine (builds_tables hfront h.tables).append ?_
  rw [entries]
  cases hrows : l.rows with
  | nil =>
    rw [arrayEntries, List.append_nil]
    exact .nil _
  | cons row rows =>
    have hname : l.arrayName ∉ (tableEntries l.top ++ l.tables.map tableEntry).map Prod.fst :=
      fun hmem => hapart _ hmem _ (by rw [hrows]; exact List.mem_singleton_self _) rfl
    have hadded := builds_rows [] hname h.rows
    rwa [arrayEntries, List.append_nil, List.nil_append, hrows] at hadded

/-- A document with the lines of a layout holds the entries that the layout shows. -/
theorem document?_eq (l : Layout) (h : l.KeysDistinct) {text : List Char} (hsaid : Says text l.statements) :
    document? text = some (.table .header l.entries) := by
  have htop : (l.top.map entryStatement).foldlM Build.step? ⟨[], []⟩ = some ⟨tableEntries l.top, []⟩ := by
    have hkeys := h.entries
    rw [entries, List.append_assoc, List.map_append] at hkeys
    exact isOpen_root.foldlM_entries [] (List.nodup_append.mp hkeys).1
  obtain ⟨current, hbelow⟩ := l.builds_below h []
  have hall : l.statements.foldlM Build.step? ⟨[], []⟩ = some ⟨l.entries, current⟩ := by
    rw [statements, List.append_assoc, List.foldlM_append, htop]
    exact hbelow
  rw [document?_of_lines hsaid, hall]
  rfl

end Layout

/-! ## As JSON -/

/-- The value as JSON has it. -/
def Plain.json : Plain → Json.Value
  | .string s => .str s
  | .integer n => .nat n
  | .boolean b => .bool b
  | .emptyArray => .arr []

/-- Entries as the members of an object. -/
def jsonMembers (entries : List (String × Plain)) : List (String × Json.Value) :=
  entries.map fun entry => (entry.1, entry.2.json)

/-- Shapes are read from a value as from its JSON. -/
theorem Plain.tree_value (v : Plain) : v.value.tree = v.json.tree := by
  cases v with
  | string s => rfl
  | integer n =>
    have hleaf : integerLeaf (Int.ofNat n.toNat) = .num (.nat n) := by
      rw [integerLeaf, if_pos n.toNat_lt_size, UInt64.ofNat_toNat]
    exact congrArg Json.Tree.leaf hleaf
  | boolean b => rfl
  | emptyArray => rfl

/-- The trees of entries are made one by one. -/
theorem entryTrees_eq_map (entries : Entries) :
    entryTrees entries = entries.map fun entry => (.str entry.1, entry.2.tree) := by
  induction entries with
  | nil => rfl
  | cons entry entries ih => rw [entryTrees, ih, List.map_cons]

/-- So are those of items. -/
theorem itemTrees_eq_map (items : List Value) : itemTrees items = items.map Value.tree := by
  induction items with
  | nil => rfl
  | cons item items ih => rw [itemTrees, ih, List.map_cons]

/-- Entries have the trees of their members. -/
theorem entryTrees_tableEntries (entries : List (String × Plain)) :
    entryTrees (tableEntries entries) = Json.memberTrees (jsonMembers entries) := by
  simp only [entryTrees_eq_map, Json.memberTrees_eq_map, tableEntries, jsonMembers, List.map_map,
    Function.comp_def, Plain.tree_value]

namespace Layout

/-- The members of the document as JSON. -/
def members (l : Layout) : List (String × Json.Value) :=
  jsonMembers l.top ++ (l.tables.map fun table => (table.1, .obj (jsonMembers table.2))) ++
    if l.rows = [] then [] else [(l.arrayName, .arr (l.rows.map fun row => .obj (jsonMembers row)))]

/-- The document has the tree of its JSON. -/
theorem tree_eq (l : Layout) : (Value.table .header l.entries).tree = (Json.Value.obj l.members).tree := by
  have htree (entries : List (String × Plain)) :
      (Value.table .header (tableEntries entries)).tree = (Json.Value.obj (jsonMembers entries)).tree := by
    rw [Value.tree, Json.Value.tree, entryTrees_tableEntries]
  have htables : entryTrees (l.tables.map tableEntry) =
      Json.memberTrees (l.tables.map fun table => (table.1, .obj (jsonMembers table.2))) := by
    simp only [entryTrees_eq_map, Json.memberTrees_eq_map, List.map_map, Function.comp_def, tableEntry, htree]
  have harray : entryTrees (arrayEntries l.arrayName l.rows) =
      Json.memberTrees (if l.rows = [] then [] else
        [(l.arrayName, .arr (l.rows.map fun row => .obj (jsonMembers row)))]) := by
    cases l.rows with
    | nil => rfl
    | cons row rows =>
      have hitems : itemTrees ((row :: rows).map fun row => .table .header (tableEntries row)) =
          Json.itemTrees ((row :: rows).map fun row => .obj (jsonMembers row)) := by
        simp only [itemTrees_eq_map, Json.itemTrees_eq_map, List.map_map, Function.comp_def, htree]
      rw [if_neg (List.cons_ne_nil _ _), arrayEntries, entryTrees, Value.tree, hitems]
      rfl
  rw [Value.tree, Json.Value.tree, entries, members, entryTrees_eq_map, List.map_append, List.map_append,
    ← entryTrees_eq_map, ← entryTrees_eq_map, ← entryTrees_eq_map, entryTrees_tableEntries, htables, harray,
    Json.Record.memberTrees_append, Json.Record.memberTrees_append]

end Layout

end DaemonBridge.Toml
