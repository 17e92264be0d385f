import DaemonBridge.Proofs.Json.Reading

/-!
# Reading pretty text

The pretty text of a value is one way of writing it (`Value.isWrittenAs_pretty`): line breaks and indents are
blanks, and leaves and empty containers are written as in compact text. So what is read from the compact text
of a value is read from its pretty text, whatever blanks follow it.
-/

namespace DaemonBridge.Json

/-- A line break and an indent are blanks. -/
def indentBlanks (level : Nat) : Blanks :=
  ⟨indent level, fun c hmem => by
    rcases List.mem_cons.mp hmem with rfl | hspace
    · decide
    · rw [List.eq_of_mem_replicate hspace]
      decide⟩

/-- A single character may be a blank. -/
def singleBlank (c : Char) (h : c ∈ [' ', '\t', '\n', '\r']) : Blanks :=
  ⟨[c], fun d hmem => by rwa [List.mem_singleton.mp hmem]⟩

/-- A single space is a blank. -/
def spaceBlanks : Blanks := singleBlank ' ' (by decide)

/-- So is the end of a line. -/
def lineEnd : Blanks := singleBlank '\n' (by decide)

mutual

/-- The pretty text of a value is a way of writing it. -/
theorem Value.exists_prettyWriting (level : Nat) : (v : Value) → v.IsPlain →
    ∃ w : Writing, w.text = v.pretty level ∧ w.value = v ∧ w.IsUnicode ∧ w.NumbersFit
  | .null, h => Value.exists_writing .null h
  | .bool true, h => Value.exists_writing (.bool true) h
  | .bool false, h => Value.exists_writing (.bool false) h
  | .num n, h => Value.exists_writing (.num n) h
  | .str s, h => Value.exists_writing (.str s) h
  | .arr [], h => Value.exists_writing (.arr []) h
  | .arr (item :: items), h => by
    obtain ⟨w, htext, rfl, hunicode, hfit⟩ := item.exists_prettyWriting (level + 1) h.1
    obtain ⟨more, hmore, rfl, hunicodes, hfits⟩ := exists_prettyItemWritings level items h.2
    refine ⟨.arr (.cons (indentBlanks (level + 1)) w more.1 more.2), ?_, ?_, ⟨hunicode, hunicodes⟩,
      ⟨hfit, hfits⟩⟩
    · rw [Value.pretty, ← htext, ← hmore]
      simp [Writing.text, ItemWritings.text, indentBlanks]
    · rfl
  | .obj [], h => Value.exists_writing (.obj []) h
  | .obj ((key, value) :: members), h => by
    obtain ⟨items, hkey, hmeaning⟩ := exists_stringText key
    obtain ⟨w, htext, rfl, hunicode, hfit⟩ := value.exists_prettyWriting (level + 1) h.1
    obtain ⟨more, hmore, rfl, hunicodes, hfits⟩ := exists_prettyMemberWritings level members h.2
    refine ⟨.obj (.cons (indentBlanks (level + 1)) items noBlanks spaceBlanks w more.1 more.2), ?_, ?_,
      ⟨by rw [hmeaning]; rfl, hunicode, hunicodes⟩, ⟨hfit, hfits⟩⟩
    · rw [Value.pretty, ← hkey, ← htext, ← hmore]
      simp [Writing.text, MemberWritings.text, indentBlanks, noBlanks, spaceBlanks, singleBlank]
    · rw [Writing.value, MemberWritings.values, hmeaning]
      rfl

/-- The pretty text of further elements is a way of writing them, with the line break in front of the closing
bracket behind the last element. -/
theorem exists_prettyItemWritings (level : Nat) : (items : List Value) → ArePlainItems items →
    ∃ w : Blanks × ItemWritings, w.1.1 ++ w.2.moreText = prettyItems level items ∧ w.2.values = items ∧
      w.2.AreUnicode ∧ w.2.NumbersFit
  | [], _ => ⟨(indentBlanks level, .nil noBlanks), rfl, rfl, trivial, trivial⟩
  | item :: items, h => by
    obtain ⟨w, htext, rfl, hunicode, hfit⟩ := item.exists_prettyWriting (level + 1) h.1
    obtain ⟨more, hmore, rfl, hunicodes, hfits⟩ := exists_prettyItemWritings level items h.2
    refine ⟨(noBlanks, .cons (indentBlanks (level + 1)) w more.1 more.2), ?_, rfl, ⟨hunicode, hunicodes⟩,
      ⟨hfit, hfits⟩⟩
    rw [prettyItems, ← htext, ← hmore]
    simp [ItemWritings.moreText, indentBlanks, noBlanks]

/-- So is that of further members. -/
theorem exists_prettyMemberWritings (level : Nat) : (members : List (String × Value)) →
    ArePlainMembers members →
    ∃ w : Blanks × MemberWritings, w.1.1 ++ w.2.moreText = prettyMembers level members ∧
      w.2.values = members ∧ w.2.AreUnicode ∧ w.2.NumbersFit
  | [], _ => ⟨(indentBlanks level, .nil noBlanks), rfl, rfl, trivial, trivial⟩
  | (key, value) :: members, h => by
    obtain ⟨items, hkey, hmeaning⟩ := exists_stringText key
    obtain ⟨w, htext, rfl, hunicode, hfit⟩ := value.exists_prettyWriting (level + 1) h.1
    obtain ⟨more, hmore, rfl, hunicodes, hfits⟩ := exists_prettyMemberWritings level members h.2
    refine ⟨(noBlanks,
      .cons (indentBlanks (level + 1)) items noBlanks spaceBlanks w more.1 more.2), ?_, ?_,
      ⟨by rw [hmeaning]; rfl, hunicode, hunicodes⟩, ⟨hfit, hfits⟩⟩
    · rw [prettyMembers, ← hkey, ← htext, ← hmore]
      simp [MemberWritings.moreText, indentBlanks, noBlanks, spaceBlanks, singleBlank]
    · rw [MemberWritings.values, hmeaning]
      rfl

end

/-- The pretty text of a value is one of its texts, whatever blanks follow it. -/
theorem Value.isWrittenAs_pretty {v : Value} (h : v.IsPlain) (behind : Blanks) :
    v.IsWrittenAs (v.pretty 0 ++ behind.1) := by
  obtain ⟨w, htext, hvalue, hunicode, hfit⟩ := v.exists_prettyWriting 0 h
  exact ⟨noBlanks, behind, w, by rw [htext]; rfl, hvalue, hunicode, hfit⟩

end DaemonBridge.Json
