import DaemonBridge.Json.Tagged
import DaemonBridge.Proofs.Json.Reading

/-!
# Decoding written values

A written value is nowhere faulty, as long as it is not nested too deep (`Source.HasRoom`), so a
decoder meets nothing but what was written. Lists and pairs are read back if their parts are.
-/

namespace DaemonBridge

namespace Dict

variable {α : Type}

/-- An entry behind all others is put behind them. -/
theorem insertEntry_append {key : String} {value : α} {entries : List (String × α)}
    (h : ∀ entry ∈ entries, entry.1 < key) :
    insertEntry key value entries = entries ++ [(key, value)] := by
  induction entries with
  | nil => rfl
  | cons entry entries ih =>
    have hlt : entry.1 < key := h _ List.mem_cons_self
    have hnot : ¬ key < entry.1 := fun hgt => String.lt_irrefl key (String.lt_trans hgt hlt)
    rw [insertEntry, if_neg hnot, if_pos hlt,
      ih fun e hmem => h e (List.mem_cons_of_mem _ hmem), List.cons_append]

/-- Ascending pairs are put into a dictionary behind what is there. -/
theorem entries_foldl_insert (pairs : List (String × α)) (d : Dict α)
    (h : (d.entries ++ pairs).Pairwise fun a b => a.1 < b.1) :
    (pairs.foldl (fun d pair => d.insert pair.1 pair.2) d).entries = d.entries ++ pairs := by
  induction pairs generalizing d with
  | nil => rw [List.append_nil, List.foldl_nil]
  | cons pair pairs ih =>
    have hbelow : ∀ entry ∈ d.entries, entry.1 < pair.1 := fun entry hmem =>
      (List.pairwise_append.mp h).2.2 entry hmem pair List.mem_cons_self
    have hinsert : (d.insert pair.1 pair.2).entries = d.entries ++ [pair] := insertEntry_append hbelow
    have hsplit : d.entries ++ pair :: pairs = (d.insert pair.1 pair.2).entries ++ pairs := by
      rw [hinsert, List.append_assoc, List.singleton_append]
    rw [List.foldl_cons, ih _ (hsplit ▸ h), hsplit]

/-- A dictionary is made of its own entries. -/
theorem ofList_entries (d : Dict α) : ofList d.entries = d :=
  ext (entries_foldl_insert d.entries ∅ d.ascending)

end Dict

namespace Json

variable {α β : Type}

/-- What follows a success goes on with its value. -/
theorem ok_bind {ε : Type} (a : α) (next : α → Except ε β) : (Except.ok a >>= next) = next a := rfl

/-! ## Faultless values -/

mutual

/-- The number of containers that a value opens inside each other. -/
def Value.depth : Value → Nat
  | .arr items => itemsDepth items + 1
  | .obj members => membersDepth members + 1
  | _ => 0

/-- The greatest depth among elements. -/
def itemsDepth : List Value → Nat
  | [] => 0
  | item :: items => max item.depth (itemsDepth items)

/-- The greatest depth among members. -/
def membersDepth : List (String × Value) → Nat
  | [] => 0
  | (_, value) :: members => max value.depth (membersDepth members)

end

mutual

/-- A written value has no fault, if there is room for the containers it opens. -/
theorem Value.fault?_tree : (v : Value) → (room : Nat) → v.depth ≤ room → v.tree.fault? room = none
  | .null, _, _ => rfl
  | .bool _, _, _ => rfl
  | .num _, _, _ => rfl
  | .str _, _, _ => rfl
  | .arr items, 0, h => absurd h (Nat.not_succ_le_zero _)
  | .arr items, room + 1, h => by
    rw [Value.tree, Tree.fault?, fault?_itemTrees items room (Nat.le_of_succ_le_succ h)]
    rfl
  | .obj members, 0, h => absurd h (Nat.not_succ_le_zero _)
  | .obj members, room + 1, h => by
    rw [Value.tree, Tree.fault?, fault?_memberTrees members room (Nat.le_of_succ_le_succ h)]
    rfl

/-- Written elements have no fault. -/
theorem fault?_itemTrees : (items : List Value) → (room : Nat) → itemsDepth items ≤ room →
    itemsFault? room (itemTrees items) = none
  | [], _, _ => rfl
  | item :: items, room, h => by
    have hitem : item.depth ≤ room := Nat.le_trans (Nat.le_max_left _ _) h
    have hitems : itemsDepth items ≤ room := Nat.le_trans (Nat.le_max_right _ _) h
    rw [itemTrees, itemsFault?, item.fault?_tree room hitem, fault?_itemTrees items room hitems]
    rfl

/-- Written members have no fault. -/
theorem fault?_memberTrees : (members : List (String × Value)) → (room : Nat) →
    membersDepth members ≤ room → membersFault? room (memberTrees members) = none
  | [], _, _ => rfl
  | (key, value) :: members, room, h => by
    have hvalue : value.depth ≤ room := Nat.le_trans (Nat.le_max_left _ _) h
    have hmembers : membersDepth members ≤ room := Nat.le_trans (Nat.le_max_right _ _) h
    rw [memberTrees, membersFault?, value.fault?_tree room hvalue,
      fault?_memberTrees members room hmembers]
    rfl

end

/-- A source with room for containers of a depth. -/
def Source.HasRoom (depth : Nat) : Source → Prop
  | .text room => depth ≤ room
  | _ => True

/-- A written value can be held, if there is room for it. -/
theorem Value.hold_tree {source : Source} {v : Value} (h : source.HasRoom v.depth) :
    v.tree.hold source = .ok () := by
  cases source with
  | text room => rw [Tree.hold, v.fault?_tree room h, faultless]
  | held => rfl
  | table => rfl

/-- A source with room for more has room for less. -/
theorem Source.HasRoom.of_le {source : Source} {shallow deep : Nat} (h : source.HasRoom deep)
    (hle : shallow ≤ deep) : source.HasRoom shallow := by
  cases source with
  | text room => exact Nat.le_trans hle h
  | held => trivial
  | table => trivial

/-- Elements are no deeper than a bound on each of them. -/
theorem itemsDepth_le {items : List Value} {bound : Nat} (h : ∀ item ∈ items, item.depth ≤ bound) :
    itemsDepth items ≤ bound := by
  induction items with
  | nil => exact Nat.zero_le bound
  | cons item items ih =>
    exact Nat.max_le.mpr ⟨h item List.mem_cons_self, ih fun i hmem => h i (List.mem_cons_of_mem _ hmem)⟩

/-- Members are no deeper than a bound on each of them. -/
theorem membersDepth_le {members : List (String × Value)} {bound : Nat}
    (h : ∀ member ∈ members, member.2.depth ≤ bound) : membersDepth members ≤ bound := by
  induction members with
  | nil => exact Nat.zero_le bound
  | cons member members ih =>
    exact Nat.max_le.mpr
      ⟨h member List.mem_cons_self, ih fun m hmem => h m (List.mem_cons_of_mem _ hmem)⟩

/-! ## Elements -/

/-- The trees of elements, one by one. -/
theorem itemTrees_eq_map (items : List Value) : itemTrees items = items.map Value.tree := by
  induction items with
  | nil => rfl
  | cons item items ih => rw [itemTrees, ih, List.map_cons]

/-- The trees of members, one by one. -/
theorem memberTrees_eq_map (members : List (String × Value)) :
    memberTrees members = members.map fun member => (.str member.1, member.2.tree) := by
  induction members with
  | nil => rfl
  | cons member members ih => rw [memberTrees, ih, List.map_cons]

/-- What is read back one by one is read back as a list. -/
theorem mapM_map_eq_ok {γ ε : Type} {write : α → β} {read : β → Except ε γ} {result : α → γ} (l : List α)
    (h : ∀ a ∈ l, read (write a) = .ok (result a)) :
    (l.map write).mapM read = .ok (l.map result) := by
  induction l with
  | nil => rfl
  | cons a l ih =>
    have hhead := h a List.mem_cons_self
    have htail := ih fun b hb => h b (List.mem_cons_of_mem a hb)
    rw [List.map_cons, List.mapM_cons, hhead, htail]
    rfl

/-- A written array is read back, if its elements are. -/
theorem list_tree {decoder : Decoder α} {write : α → Value} {source inner : Source}
    (henter : source.enter = .ok inner) (l : List α)
    (h : ∀ a ∈ l, decoder inner (write a).tree = .ok a) :
    list decoder source (Value.ofList write l).tree = .ok l := by
  have htrees : itemTrees (l.map write) = l.map fun a => (write a).tree := by
    rw [itemTrees_eq_map, List.map_map]
    rfl
  have hitems : (itemTrees (l.map write)).mapM (decoder inner) = .ok l := by
    rw [htrees, mapM_map_eq_ok l h, List.map_id']
  simp only [Value.ofList, Value.tree, list, henter, ok_bind, hitems]
  rfl

/-- A written pair is read back, if its parts are. -/
theorem pair_tree {first : Decoder α} {second : Decoder β} {source inner : Source}
    (henter : source.enter = .ok inner) {v w : Value} {a : α} {b : β}
    (ha : first inner v.tree = .ok a) (hb : second inner w.tree = .ok b) :
    pair first second source (Value.arr [v, w]).tree = .ok (a, b) := by
  simp only [Value.tree, itemTrees, pair, henter, nextItem, ok_bind, ha, hb]
  cases source <;> rfl

/-! ## Documents -/

/-- What is read back from a value's tree is read back from the bytes of every text of the value. -/
theorem decode_ofBytes_of_isWrittenAs {decoder : Decoder α} {v : Value} {text : List Char} {a : α}
    (hwritten : v.IsWrittenAs text) (hnum : ∀ n, v ≠ .num n) (h : decoder .document v.tree = .ok a) :
    (Document.ofBytes (Text.encode text)).decode decoder = .ok a := by
  rw [Document.ofBytes_encode, Document.ofChars_of_isWrittenAs hwritten hnum, Document.decode, h]
  rfl

/-- So it is from the bytes of the compact text. -/
theorem decode_ofBytes_compact {decoder : Decoder α} {v : Value} {a : α} (hplain : v.IsPlain)
    (hnum : ∀ n, v ≠ .num n) (h : decoder .document v.tree = .ok a) :
    (Document.ofBytes (Text.encode v.compact)).decode decoder = .ok a :=
  decode_ofBytes_of_isWrittenAs (Value.isWrittenAs_compact hplain) hnum h

end Json

end DaemonBridge
