import DaemonBridge.Proofs.Toml.Tables
import Mathlib.Data.List.Forall2

/-!
# Thinned documents

A printed document is thinned by leaving out entries that may go, and whole tables of which everything may
go (`Thinned`); empty lines do not matter. The lines that are left still say what the blocks that are left
say (`Thinned.exists_left`).
-/

namespace DaemonBridge.Toml

variable {mayGo : Header → String × Plain → Prop}

/-- What is left of a block: its header with the entries that were kept or, unless it is a table of an array,
nothing at all. -/
inductive Block.Thinned (mayGo : Header → String × Plain → Prop) : Block → List Block → Prop
  | entries (header : Header) (entries : List (String × Plain)) (keep : String × Plain → Bool)
      (h : ∀ entry ∈ entries, keep entry = false → mayGo header entry) :
      Thinned mayGo ⟨header, entries⟩ [⟨header, entries.filter keep⟩]
  | table (header : Header) (entries : List (String × Plain)) (hrow : ∀ name, header ≠ .arrayTable name)
      (h : ∀ entry ∈ entries, mayGo header entry) : Thinned mayGo ⟨header, entries⟩ []

/-- A text that is left of blocks, with any number of empty lines. -/
inductive Thinned (mayGo : Header → String × Plain → Prop) : List Block → List Char → Prop
  | nil : Thinned mayGo [] []
  | emptyLine {blocks : List Block} {text : List Char} (h : Thinned mayGo blocks text) :
      Thinned mayGo blocks ('\n' :: text)
  | block {block : Block} {left blocks : List Block} {text : List Char} (hleft : block.Thinned mayGo left)
      (h : Thinned mayGo blocks text) : Thinned mayGo (block :: blocks) (left.flatMap Block.render ++ text)

/-- A block may be left as it is. -/
theorem Block.Thinned.refl (block : Block) : block.Thinned mayGo [block] := by
  have hkept : block.Thinned mayGo [⟨block.header, block.entries.filter fun _ => true⟩] :=
    .entries _ _ _ fun _ _ => nofun
  rwa [List.filter_eq_self.mpr fun _ _ => rfl] at hkept

/-- The printed document is left when nothing goes. -/
theorem thinned_renderBlocks (blocks : List Block) : Thinned mayGo blocks (renderBlocks blocks) := by
  have hblock (block : Block) {blocks : List Block} {text : List Char} (h : Thinned mayGo blocks text) :
      Thinned mayGo (block :: blocks) (block.render ++ text) := by
    have hleft := Thinned.block (Block.Thinned.refl block) h
    rwa [List.flatMap_singleton] at hleft
  fun_induction renderBlocks blocks with
  | case1 => exact .nil
  | case2 block =>
    have hlast := hblock block .nil
    rwa [List.append_nil] at hlast
  | case3 block rest hne ih => exact hblock block (.emptyLine ih)

/-- What is left of a block says what the blocks say that are left of it. -/
theorem Block.Thinned.says_left {block : Block} {left : List Block} (h : block.Thinned mayGo left)
    (hbare : block.IsBare) : Says (left.flatMap Block.render) (left.flatMap Block.statements) := by
  refine .flatMap fun kept hmem => kept.says_render ?_
  cases h with
  | entries header entries keep h =>
    obtain rfl := List.mem_singleton.mp hmem
    exact ⟨hbare.header, fun entry hentry => hbare.entries entry (List.mem_filter.mp hentry).1⟩
  | table => exact absurd hmem List.not_mem_nil

/-- A thinned document says what the blocks say that are left of it. -/
theorem Thinned.exists_left {blocks : List Block} {text : List Char} (h : Thinned mayGo blocks text)
    (hbare : ∀ block ∈ blocks, block.IsBare) :
    ∃ left, List.Forall₂ (Block.Thinned mayGo) blocks left ∧
      Says text (left.flatten.flatMap Block.statements) := by
  induction h with
  | nil => exact ⟨[], .nil, .nil⟩
  | emptyLine h ih =>
    obtain ⟨left, hleft, hsaid⟩ := ih hbare
    exact ⟨left, hleft, Says.emptyLine.append hsaid⟩
  | block hblock h ih =>
    obtain ⟨hbareBlock, hbareBlocks⟩ := List.forall_mem_cons.mp hbare
    obtain ⟨left, hleft, hsaid⟩ := ih hbareBlocks
    refine ⟨_ :: left, .cons hblock hleft, ?_⟩
    rw [List.flatten_cons, List.flatMap_append]
    exact (hblock.says_left hbareBlock).append hsaid

/-- What is left of blocks in two parts is left of the one part and of the other. -/
theorem exists_left_append {front rest : List Block} {left : List (List Block)}
    (h : List.Forall₂ (Block.Thinned mayGo) (front ++ rest) left) :
    ∃ frontLeft restLeft, left = frontLeft ++ restLeft ∧ List.Forall₂ (Block.Thinned mayGo) front frontLeft ∧
      List.Forall₂ (Block.Thinned mayGo) rest restLeft :=
  ⟨_, _, (List.take_append_drop front.length left).symm, (List.forall₂_take_append _ _ _ h.flip).flip,
    (List.forall₂_drop_append _ _ _ h.flip).flip⟩

/-- What is left of entries above all headers. -/
theorem Block.Thinned.exists_top {entries : List (String × Plain)} {left : List Block}
    (h : Block.Thinned mayGo ⟨.none, entries⟩ left) :
    ∃ kept : List (String × Plain), kept.Sublist entries ∧
      left.flatMap Block.statements = kept.map entryStatement := by
  cases h with
  | entries _ _ keep h => exact ⟨entries.filter keep, List.filter_sublist, List.append_nil _⟩
  | table _ _ hrow h => exact ⟨[], List.nil_sublist _, rfl⟩

/-- What is left of a table with its name: the entries that were kept, or nothing. -/
inductive ThinnedTable (mayGo : Header → String × Plain → Prop) (name : String)
    (entries : List (String × Plain)) : List (String × List (String × Plain)) → Prop
  | entries (keep : String × Plain → Bool)
      (h : ∀ entry ∈ entries, keep entry = false → mayGo (.table name) entry) :
      ThinnedTable mayGo name entries [(name, entries.filter keep)]
  | table (h : ∀ entry ∈ entries, mayGo (.table name) entry) : ThinnedTable mayGo name entries []

/-- A table keeps its name. -/
theorem ThinnedTable.names {name : String} {entries : List (String × Plain)}
    {tables : List (String × List (String × Plain))} (h : ThinnedTable mayGo name entries tables) :
    (tables.map Prod.fst).Sublist [name] := by
  cases h with
  | entries => exact List.Sublist.refl _
  | table => exact List.nil_sublist _

/-- Keys that are different stay so. -/
theorem ThinnedTable.keys {name : String} {entries : List (String × Plain)}
    {tables : List (String × List (String × Plain))} (h : ThinnedTable mayGo name entries tables)
    (hkeys : (entries.map Prod.fst).Nodup) : ∀ table ∈ tables, (table.2.map Prod.fst).Nodup := by
  cases h with
  | entries keep =>
    intro table hmem
    obtain rfl := List.mem_singleton.mp hmem
    exact hkeys.sublist (List.filter_sublist.map _)
  | table => exact nofun

/-- The block of a table leaves what the table leaves. -/
theorem Block.Thinned.exists_table {name : String} {entries : List (String × Plain)} {left : List Block}
    (h : Block.Thinned mayGo ⟨.table name, entries⟩ left) :
    ∃ tables, left = tables.map tableBlock ∧ ThinnedTable mayGo name entries tables := by
  cases h with
  | entries _ _ keep h => exact ⟨_, rfl, .entries keep h⟩
  | table _ _ hrow h => exact ⟨[], rfl, .table h⟩

/-- The block of a table in an array leaves such a block. -/
theorem Block.Thinned.exists_row {name : String} {entries : List (String × Plain)} {left : List Block}
    (h : Block.Thinned mayGo ⟨.arrayTable name, entries⟩ left) :
    ∃ keep : String × Plain → Bool, left = [rowBlock name (entries.filter keep)] ∧
      ∀ entry ∈ entries, keep entry = false → mayGo (.arrayTable name) entry := by
  cases h with
  | entries _ _ keep h => exact ⟨keep, rfl, h⟩
  | table _ _ hrow h => exact absurd rfl (hrow name)

end DaemonBridge.Toml
