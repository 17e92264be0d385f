import DaemonBridge.Proofs.Json.Recognition

/-!
# Reading values

A text whose strings are Unicode and whose numerals fit is read as the tree of the value that is meant
(`Writing.tree_eq`). So every text of a value (`Value.IsWrittenAs`) is read as the tree that has the same
leaves and containers (`Document.ofChars_of_isWrittenAs`). The compact text of a value is one way of writing
it (`Value.exists_writing`).

The values that are written hold no numbers but unsigned 64-bit integers (`Value.IsPlain`); these are all
that the bridge ever writes.
-/

namespace DaemonBridge.Json

mutual

/-- The tree with the leaves and containers of a value. -/
def Value.tree : Value → Tree
  | .null => .leaf .null
  | .bool b => .leaf (.bool b)
  | .num n => .leaf (.num n)
  | .str s => .leaf (.str s)
  | .arr items => .arr (itemTrees items) .closed
  | .obj members => .obj (memberTrees members) .closed

/-- The trees of elements. -/
def itemTrees : List Value → List Tree
  | [] => []
  | item :: items => item.tree :: itemTrees items

/-- The trees of members. -/
def memberTrees : List (String × Value) → List (Leaf × Tree)
  | [] => []
  | (key, value) :: members => (.str key, value.tree) :: memberTrees members

end

/-! ## What is meant -/

/-- A string that means something is a leaf of its meaning. -/
theorem stringLeaf_of_meaning {items : List StringItem} {s : String} (h : meaning? items = some s) :
    stringLeaf items = .str s := by
  obtain ⟨chars, hchars, rfl⟩ := Option.map_eq_some_iff.mp h
  rw [stringLeaf, leafAfter, hchars]
  rfl

/-- A string that leaves half of a pair alone is a leaf without meaning. -/
theorem stringLeaf_of_meaningless {items : List StringItem} (h : (meaning? items).isSome = false) :
    stringLeaf items = .meaningless := by
  have hchars : charsAfter none items = none := by
    rw [meaning?, Option.isSome_map] at h
    exact Option.isNone_iff_eq_none.mp (Option.isSome_eq_false_iff.mp h)
  rw [stringLeaf, leafAfter, hchars]

mutual

/-- The tree of what is written is that of the value that is meant. -/
theorem Writing.tree_eq : (w : Writing) → w.IsUnicode → w.NumbersFit → w.tree = w.value.tree
  | .null, _, _ => rfl
  | .bool _, _, _ => rfl
  | .numeral n, _, hfit => by
    obtain ⟨m, hm⟩ := Option.isSome_iff_exists.mp hfit
    rw [Writing.tree, Writing.value, Numeral.leaf, hm]
    rfl
  | .string items, hunicode, _ => by
    obtain ⟨s, hs⟩ := Option.isSome_iff_exists.mp hunicode
    rw [Writing.tree, Writing.value, stringLeaf_of_meaning hs, hs]
    rfl
  | .arr items, hunicode, hfit => by
    rw [Writing.tree, Writing.value, Value.tree, items.trees_eq hunicode hfit]
  | .obj members, hunicode, hfit => by
    rw [Writing.tree, Writing.value, Value.tree, members.trees_eq hunicode hfit]

/-- So are those of elements. -/
theorem ItemWritings.trees_eq : (items : ItemWritings) → items.AreUnicode → items.NumbersFit →
    items.trees = itemTrees items.values
  | .nil _, _, _ => rfl
  | .cons _ value _ items, hunicode, hfit => by
    rw [ItemWritings.trees, ItemWritings.values, itemTrees, value.tree_eq hunicode.1 hfit.1,
      items.trees_eq hunicode.2 hfit.2]

/-- So are those of members. -/
theorem MemberWritings.trees_eq : (members : MemberWritings) → members.AreUnicode →
    members.NumbersFit → members.trees = memberTrees members.values
  | .nil _, _, _ => rfl
  | .cons _ name _ _ value _ members, hunicode, hfit => by
    obtain ⟨s, hs⟩ := Option.isSome_iff_exists.mp hunicode.1
    rw [MemberWritings.trees, MemberWritings.values, memberTrees, stringLeaf_of_meaning hs, hs,
      value.tree_eq hunicode.2.1 hfit.1, members.trees_eq hunicode.2.2 hfit.2]
    rfl

end

/-! ## Compact text -/

mutual

/-- The value holds no numbers but unsigned 64-bit integers. -/
def Value.IsPlain : Value → Prop
  | .num n => ∃ m, n = .nat m
  | .arr items => ArePlainItems items
  | .obj members => ArePlainMembers members
  | _ => True

/-- All elements are plain. -/
def ArePlainItems : List Value → Prop
  | [] => True
  | item :: items => item.IsPlain ∧ ArePlainItems items

/-- All members are plain. -/
def ArePlainMembers : List (String × Value) → Prop
  | [] => True
  | (_, value) :: members => value.IsPlain ∧ ArePlainMembers members

end

/-- Elements are plain if each of them is. -/
theorem arePlainItems_of_forall {items : List Value} (h : ∀ item ∈ items, item.IsPlain) :
    ArePlainItems items := by
  induction items with
  | nil => trivial
  | cons item items ih =>
    exact ⟨h item List.mem_cons_self, ih fun i hmem => h i (List.mem_cons_of_mem _ hmem)⟩

/-- Members are plain if each of them is. -/
theorem arePlainMembers_of_forall {members : List (String × Value)}
    (h : ∀ member ∈ members, member.2.IsPlain) : ArePlainMembers members := by
  induction members with
  | nil => trivial
  | cons member members ih =>
    exact ⟨h member List.mem_cons_self, ih fun m hmem => h m (List.mem_cons_of_mem _ hmem)⟩

/-- The decimal digits of a number are those of a numeral. -/
theorem exists_digits (n : Nat) :
    ∃ (first : Fin 10) (more : List (Fin 10)), digitsText (first :: more) = Text.decimal n ∧
      (first = 0 → more = []) ∧ digitsValue (first :: more) = n := by
  induction n using Nat.strongRecOn with
  | ind n ih =>
    by_cases hlt : n < 10
    · exact ⟨⟨n, hlt⟩, [], (Nat.toDigits_of_lt_base hlt).symm, fun _ => rfl, Nat.zero_add n⟩
    · obtain ⟨first, more, htext, hzero, hvalue⟩ := ih (n / 10) (by omega)
      have hlast : n % 10 < 10 := by omega
      have hfirst : first ≠ 0 := by
        rintro rfl
        rw [hzero rfl] at hvalue
        have : digitsValue [0] = 0 := rfl
        omega
      refine ⟨first, more ++ [⟨n % 10, hlast⟩], ?_, fun h => absurd h hfirst, ?_⟩
      · rw [← List.cons_append, digitsText, List.map_append, ← digitsText, htext, Text.decimal,
          Text.decimal, Nat.toDigits_of_base_le (by decide) (Nat.not_lt.mp hlt)]
        rfl
      · rw [← List.cons_append, digitsValue, List.foldl_append, ← digitsValue, hvalue, List.foldl_cons,
          List.foldl_nil]
        exact Nat.div_add_mod n 10

/-- A hexadecimal digit has its value. -/
theorem hexValue?_digitChar {d : Nat} (h : d < 16) : Text.hexValue? (Nat.digitChar d) = some d := by
  interval_cases d <;> rfl

/-- A number of 16 bits is written as a unit of that value. -/
theorem exists_unit {code : Nat} (h : code < 0x10000) :
    ∃ a b c d, (StringItem.unit a b c d).text =
        '\\' :: 'u' :: Text.hexDigits Nat.digitChar 4 code ∧ unitValue a b c d = code := by
  let digit (d : Nat) : HexDigit :=
    ⟨Nat.digitChar (d % 16), by rw [hexValue?_digitChar (Nat.mod_lt d (by decide))]; rfl⟩
  have hvalue : ∀ d, (digit d).value = d % 16 := fun d =>
    Option.some.inj ((digit d).hexValue?_eq.symm.trans (hexValue?_digitChar (Nat.mod_lt d (by decide))))
  refine ⟨digit (code / 16 / 16 / 16), digit (code / 16 / 16), digit (code / 16), digit code, rfl, ?_⟩
  simp only [unitValue, hvalue]
  omega

/-- What is written for a character inside a string stands for it. -/
theorem exists_item (c : Char) :
    ∃ item : StringItem, item.text = escapedChar c ∧
      ∀ rest, charsAfter none (item :: rest) = (charsAfter none rest).map (c :: ·) := by
  have hshort : ∀ letter, (letter, c) ∈ shortEscapes → ∃ item : StringItem,
      item.text = ['\\', letter] ∧
        ∀ rest, charsAfter none (item :: rest) = (charsAfter none rest).map (c :: ·) :=
    fun letter hmem => ⟨.short letter c hmem, rfl, fun _ => rfl⟩
  unfold escapedChar
  iterate 7
    split
    · next hc =>
      subst hc
      exact hshort _ (by decide)
  split
  · next hcontrol =>
    obtain ⟨a, b, d, e, htext, hvalue⟩ := exists_unit (Nat.lt_trans hcontrol (by decide))
    have hhigh : ¬ IsHigh (unitValue a b d e) := fun h => by
      have := h.1
      omega
    have hlow : ¬ IsLow (unitValue a b d e) := fun h => by
      have := h.1
      omega
    refine ⟨.unit a b d e, htext, fun rest => ?_⟩
    rw [show charsAfter none (.unit a b d e :: rest) = _ from (if_neg hhigh).trans (if_neg hlow), hvalue,
      Char.ofNat_toNat]
  · next hquote hback _ _ _ _ _ hprint =>
    exact ⟨.plain c ⟨hquote, hback, Nat.not_lt.mp hprint⟩, rfl, fun _ => rfl⟩

/-- What is written for a string means it. -/
theorem exists_items (s : List Char) :
    ∃ items : List StringItem, items.flatMap StringItem.text = s.flatMap escapedChar ∧
      charsAfter none items = some s := by
  induction s with
  | nil => exact ⟨[], rfl, rfl⟩
  | cons c s ih =>
    obtain ⟨item, hitem, hchars⟩ := exists_item c
    obtain ⟨items, htext, hmeaning⟩ := ih
    exact ⟨item :: items, by rw [List.flatMap_cons, List.flatMap_cons, hitem, htext],
      by rw [hchars, hmeaning]; rfl⟩

/-- So it does with its quotes. -/
theorem exists_stringText (s : String) :
    ∃ items : List StringItem, itemsText items = stringText s ∧ meaning? items = some s := by
  obtain ⟨items, htext, hmeaning⟩ := exists_items s.toList
  refine ⟨items, by rw [itemsText, htext, stringText], ?_⟩
  rw [meaning?, hmeaning, Option.map_some, String.ofList_toList]

mutual

/-- The compact text of a value is a way of writing it. -/
theorem Value.exists_writing : (v : Value) → v.IsPlain →
    ∃ w : Writing, w.text = v.compact ∧ w.value = v ∧ w.IsUnicode ∧ w.NumbersFit
  | .null, _ => ⟨.null, rfl, rfl, trivial, trivial⟩
  | .bool b, _ => ⟨.bool b, by cases b <;> rfl, rfl, trivial, trivial⟩
  | .num n, h => by
    obtain ⟨m, rfl⟩ := h
    obtain ⟨first, more, htext, hzero, hvalue⟩ := exists_digits m.toNat
    let written : NumeralText := ⟨false, first, more, hzero, none, none⟩
    have hnumeral : written.numeral.value? = some (.nat m) :=
      (written.value?_eq_nat_iff m).mpr ⟨rfl, rfl, rfl, hvalue⟩
    refine ⟨.numeral written, ?_, ?_, trivial, ?_⟩
    · have hcompact : (Value.num (.nat m)).compact = Text.decimal m.toNat := String.toList_ofList
      rw [hcompact, ← htext]
      simp [Writing.text, NumeralText.text, NumeralText.fractionText, written]
    · rw [Writing.value, hnumeral]
      rfl
    · rw [Writing.NumbersFit, hnumeral]
      rfl
  | .str s, _ => by
    obtain ⟨items, htext, hmeaning⟩ := exists_stringText s
    refine ⟨.string items, htext, ?_, ?_, trivial⟩
    · rw [Writing.value, hmeaning]
      rfl
    · rw [Writing.IsUnicode, hmeaning]
      rfl
  | .arr [], _ => ⟨.arr (.nil noBlanks), rfl, rfl, trivial, trivial⟩
  | .arr (item :: items), h => by
    obtain ⟨w, htext, rfl, hunicode, hfit⟩ := item.exists_writing h.1
    obtain ⟨more, hmore, rfl, hunicodes, hfits⟩ := exists_itemWritings items h.2
    refine ⟨.arr (.cons noBlanks w noBlanks more), ?_, rfl, ⟨hunicode, hunicodes⟩, ⟨hfit, hfits⟩⟩
    rw [Value.compact, ← htext, ← hmore]
    simp [Writing.text, ItemWritings.text, noBlanks]
  | .obj [], _ => ⟨.obj (.nil noBlanks), rfl, rfl, trivial, trivial⟩
  | .obj ((key, value) :: members), h => by
    obtain ⟨items, hkey, hmeaning⟩ := exists_stringText key
    obtain ⟨w, htext, rfl, hunicode, hfit⟩ := value.exists_writing h.1
    obtain ⟨more, hmore, rfl, hunicodes, hfits⟩ := exists_memberWritings members h.2
    refine ⟨.obj (.cons noBlanks items noBlanks noBlanks w noBlanks more), ?_, ?_,
      ⟨by rw [hmeaning]; rfl, hunicode, hunicodes⟩, ⟨hfit, hfits⟩⟩
    · rw [Value.compact, ← hkey, ← htext, ← hmore]
      simp [Writing.text, MemberWritings.text, noBlanks]
    · rw [Writing.value, MemberWritings.values, hmeaning]
      rfl

/-- The compact text of further elements is a way of writing them. -/
theorem exists_itemWritings : (items : List Value) → ArePlainItems items →
    ∃ w : ItemWritings, w.moreText = compactItems items ∧ w.values = items ∧ w.AreUnicode ∧
      w.NumbersFit
  | [], _ => ⟨.nil noBlanks, rfl, rfl, trivial, trivial⟩
  | item :: items, h => by
    obtain ⟨w, htext, rfl, hunicode, hfit⟩ := item.exists_writing h.1
    obtain ⟨more, hmore, rfl, hunicodes, hfits⟩ := exists_itemWritings items h.2
    refine ⟨.cons noBlanks w noBlanks more, ?_, rfl, ⟨hunicode, hunicodes⟩, ⟨hfit, hfits⟩⟩
    rw [compactItems, ← htext, ← hmore]
    simp [ItemWritings.moreText, noBlanks]

/-- So is that of further members. -/
theorem exists_memberWritings : (members : List (String × Value)) → ArePlainMembers members →
    ∃ w : MemberWritings, w.moreText = compactMembers members ∧ w.values = members ∧ w.AreUnicode ∧
      w.NumbersFit
  | [], _ => ⟨.nil noBlanks, rfl, rfl, trivial, trivial⟩
  | (key, value) :: members, h => by
    obtain ⟨items, hkey, hmeaning⟩ := exists_stringText key
    obtain ⟨w, htext, rfl, hunicode, hfit⟩ := value.exists_writing h.1
    obtain ⟨more, hmore, rfl, hunicodes, hfits⟩ := exists_memberWritings members h.2
    refine ⟨.cons noBlanks items noBlanks noBlanks w noBlanks more, ?_, ?_,
      ⟨by rw [hmeaning]; rfl, hunicode, hunicodes⟩, ⟨hfit, hfits⟩⟩
    · rw [compactMembers, ← hkey, ← htext, ← hmore]
      simp [MemberWritings.moreText, noBlanks]
    · rw [MemberWritings.values, hmeaning]
      rfl

end

/-! ## Texts of a value -/

/-- The text is a way of writing the value, with any blanks around it. -/
def Value.IsWrittenAs (v : Value) (text : List Char) : Prop :=
  ∃ (before behind : Blanks) (w : Writing),
    text = before.1 ++ w.text ++ behind.1 ∧ w.value = v ∧ w.IsUnicode ∧ w.NumbersFit

/-- The compact text of a value is one of its texts. -/
theorem Value.isWrittenAs_compact {v : Value} (h : v.IsPlain) : v.IsWrittenAs v.compact := by
  obtain ⟨w, htext, hvalue, hunicode, hfit⟩ := v.exists_writing h
  exact ⟨noBlanks, noBlanks, w, by simp [noBlanks, htext], hvalue, hunicode, hfit⟩

/-- Every text of a value that is not a number is a document of the value's tree. -/
theorem Document.ofChars_of_isWrittenAs {v : Value} {text : List Char} (h : v.IsWrittenAs text)
    (hnum : ∀ n, v ≠ .num n) : Document.ofChars text = ⟨v.tree, false⟩ := by
  obtain ⟨before, behind, w, rfl, rfl, hunicode, hfit⟩ := h
  have hnumeral : ¬ ∃ n, w = .numeral n := by
    rintro ⟨n, rfl⟩
    exact hnum _ rfl
  rw [Document.ofChars_writing before behind hnumeral, w.tree_eq hunicode hfit]

/-- The compact text of a value that is not a number, alone, is a document of the value's tree. -/
theorem Document.ofChars_compact (v : Value) (h : v.IsPlain) (hnum : ∀ n, v ≠ .num n) :
    Document.ofChars v.compact = ⟨v.tree, false⟩ :=
  Document.ofChars_of_isWrittenAs (Value.isWrittenAs_compact h) hnum

end DaemonBridge.Json
