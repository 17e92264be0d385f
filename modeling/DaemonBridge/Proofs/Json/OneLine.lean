import DaemonBridge.Proofs.Json.Reading
import DaemonBridge.Text.Utf8

/-!
# Compact text is one line

Whatever the strings in a value hold, its compact text holds no control character, since inside strings
these are escaped (`Value.isOneLine_compact`). In particular it holds no line feed, and neither do its
bytes: a byte below 0x80 encodes only the character of the same number.
-/

namespace DaemonBridge

namespace Text

/-- No character is a control below U+0020. -/
def IsOneLine (text : List Char) : Prop :=
  ∀ c ∈ text, 0x20 ≤ c.toNat

instance (text : List Char) : Decidable (IsOneLine text) :=
  decidable_of_iff (text.all fun c => decide (0x20 ≤ c.toNat))
    (by simp only [IsOneLine, List.all_eq_true, decide_eq_true_eq])

/-- Texts that follow each other. -/
theorem isOneLine_append {front back : List Char} :
    IsOneLine (front ++ back) ↔ IsOneLine front ∧ IsOneLine back :=
  List.forall_mem_append

/-- A character in front of a text. -/
theorem isOneLine_cons {c : Char} {text : List Char} :
    IsOneLine (c :: text) ↔ 0x20 ≤ c.toNat ∧ IsOneLine text :=
  List.forall_mem_cons

/-- A low byte of an encoded character is the character itself. -/
theorem toNat_eq_of_mem_encodeChar {c : Char} {b : UInt8} (hmem : b ∈ String.utf8EncodeChar c)
    (hlow : b.toNat < 0x80) : c.toNat = b.toNat := by
  have hascii : c.val.toNat ≤ 0x7f := by
    by_contra hhigh
    -- every byte of a longer encoding has its highest bit set
    suffices hall : ∀ b ∈ String.utf8EncodeChar c, 0x80 ≤ b.toNat from Nat.not_lt.mpr (hall b hmem) hlow
    unfold String.utf8EncodeChar
    simp only [if_neg hhigh]
    split_ifs <;>
      · simp only [List.forall_mem_cons, List.not_mem_nil, UInt8.toNat_ofNat', false_imp_iff,
          implies_true, and_true]
        omega
  have hone : String.utf8EncodeChar c = [UInt8.ofNat c.val.toNat] := if_pos hascii
  rw [hone, List.mem_singleton] at hmem
  rw [hmem, UInt8.toNat_ofNat', Nat.mod_eq_of_lt (by omega)]
  rfl

/-- The bytes of a text without controls hold no line feed. -/
theorem IsOneLine.not_mem_encode {text : List Char} (h : IsOneLine text) : 0x0a ∉ encode text := by
  intro hmem
  obtain ⟨c, hc, hb⟩ := List.mem_flatMap.mp hmem
  have hcontrol : c.toNat = 0x0a := toNat_eq_of_mem_encodeChar hb (by decide)
  have hgraphic := h c hc
  omega

/-- Hexadecimal digits are no controls. -/
theorem isOneLine_hexDigits (width n : Nat) : IsOneLine (hexDigits Nat.digitChar width n) := by
  have hdigit : ∀ d < 16, 0x20 ≤ (Nat.digitChar d).toNat := by decide
  induction width generalizing n with
  | zero => exact List.forall_mem_nil _
  | succ width ih =>
    exact isOneLine_append.mpr ⟨ih _,
      List.forall_mem_singleton.mpr (hdigit _ (Nat.mod_lt n (by decide)))⟩

/-- Nor are decimal ones. -/
theorem isOneLine_decimal (n : Nat) : IsOneLine (decimal n) := by
  intro c hmem
  have hdigit : 0x30 ≤ c.toNat := (Char.isDigit_iff_toNat.mp (isDigit_of_mem_decimal hmem)).1
  omega

end Text

namespace Json

open Text (IsOneLine isOneLine_append isOneLine_cons)

/-- Inside a string, controls are escaped. -/
theorem isOneLine_escapedChar (c : Char) : IsOneLine (escapedChar c) := by
  unfold escapedChar
  split_ifs with _ _ _ _ _ _ _ hcontrol
  iterate 7 decide
  · exact isOneLine_cons.mpr ⟨by decide, isOneLine_cons.mpr ⟨by decide, Text.isOneLine_hexDigits 4 _⟩⟩
  · exact List.forall_mem_singleton.mpr (Nat.le_of_not_lt hcontrol)

/-- A string is one line. -/
theorem isOneLine_stringText (s : String) : IsOneLine (stringText s) := by
  have hchars : IsOneLine (s.toList.flatMap escapedChar) := by
    intro c hmem
    obtain ⟨d, -, hc⟩ := List.mem_flatMap.mp hmem
    exact isOneLine_escapedChar d c hc
  exact isOneLine_append.mpr ⟨isOneLine_cons.mpr ⟨by decide, hchars⟩,
    List.forall_mem_singleton.mpr (by decide)⟩

/-- So is a member, from the mark in front of it to what follows it. -/
theorem isOneLine_member {mark : Char} (hmark : 0x20 ≤ mark.toNat) (key : String) {value rest : List Char}
    (hvalue : IsOneLine value) (hrest : IsOneLine rest) :
    IsOneLine (mark :: stringText key ++ ':' :: value ++ rest) :=
  isOneLine_append.mpr ⟨isOneLine_cons.mpr ⟨hmark, isOneLine_append.mpr ⟨isOneLine_stringText key,
    isOneLine_cons.mpr ⟨by decide, hvalue⟩⟩⟩, hrest⟩

mutual

/-- The compact text of a value is one line. -/
theorem Value.isOneLine_compact : (v : Value) → v.IsPlain → IsOneLine v.compact
  | .null, _ | .bool true, _ | .bool false, _ | .arr [], _ | .obj [], _ => by decide
  | .num n, h => by
    obtain ⟨m, rfl⟩ := h
    have htext : (Value.num (.nat m)).compact = Text.decimal m.toNat := String.toList_ofList
    rw [htext]
    exact Text.isOneLine_decimal _
  | .str s, _ => isOneLine_stringText s
  | .arr (item :: items), h =>
    isOneLine_append.mpr ⟨isOneLine_cons.mpr ⟨by decide, item.isOneLine_compact h.1⟩,
      isOneLine_compactItems items h.2⟩
  | .obj ((key, value) :: members), h =>
    isOneLine_member (by decide) key (value.isOneLine_compact h.1) (isOneLine_compactMembers members h.2)

/-- So are the further elements of an array. -/
theorem isOneLine_compactItems : (items : List Value) → ArePlainItems items →
    IsOneLine (compactItems items)
  | [], _ => by decide
  | item :: items, h =>
    isOneLine_append.mpr ⟨isOneLine_cons.mpr ⟨by decide, item.isOneLine_compact h.1⟩,
      isOneLine_compactItems items h.2⟩

/-- So are the further members of an object. -/
theorem isOneLine_compactMembers : (members : List (String × Value)) → ArePlainMembers members →
    IsOneLine (compactMembers members)
  | [], _ => by decide
  | (key, value) :: members, h =>
    isOneLine_member (by decide) key (value.isOneLine_compact h.1) (isOneLine_compactMembers members h.2)

end

end Json

end DaemonBridge
