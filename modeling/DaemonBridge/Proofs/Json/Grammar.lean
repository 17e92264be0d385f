import DaemonBridge.Json.Reader
import DaemonBridge.Json.Value

/-!
# Well-formed JSON texts

The texts that the grammar of JSON allows, as syntax trees (`Writing`) that keep what a value forgets:
blanks, escapes, and how a numeral is written. Every such text stands for a value, provided that its strings
are Unicode, which is to say that their escapes pair all surrogates (`Writing.IsUnicode`), and that its
numerals are not beyond all doubles (`Writing.NumbersFit`). The grammar demands neither.
-/

namespace DaemonBridge.Json

/-- Blanks between tokens. -/
abbrev Blanks := { text : List Char // ∀ c ∈ text, c ∈ [' ', '\t', '\n', '\r'] }

/-- No blanks. -/
def noBlanks : Blanks := ⟨[], nofun⟩

/-! ## Strings -/

/-- A hexadecimal digit of either case. -/
abbrev HexDigit := { c : Char // (Text.hexValue? c).isSome }

/-- The value of a hexadecimal digit. -/
def HexDigit.value (digit : HexDigit) : Nat :=
  (Text.hexValue? digit.1).get digit.2

/-- The number that four hexadecimal digits stand for. -/
def unitValue (a b c d : HexDigit) : Nat :=
  16 * (16 * (16 * a.value + b.value) + c.value) + d.value

/-- The letters of the short escapes, each with the character it stands for. -/
def shortEscapes : List (Char × Char) :=
  [('"', '"'), ('\\', '\\'), ('/', '/'), ('b', '\x08'), ('f', '\x0c'), ('n', '\n'), ('r', '\r'), ('t', '\t')]

/-- What stands in a string for a character, or for one of the two units that some characters take. -/
inductive StringItem where
  | plain (c : Char) (allowed : c ≠ '"' ∧ c ≠ '\\' ∧ 0x20 ≤ c.toNat)
  | short (letter c : Char) (means : (letter, c) ∈ shortEscapes)
  | unit (a b c d : HexDigit)

/-- The text of an item. -/
def StringItem.text : StringItem → List Char
  | .plain c _ => [c]
  | .short letter _ _ => ['\\', letter]
  | .unit a b c d => ['\\', 'u', a.1, b.1, c.1, d.1]

/-- The text of a string. -/
def itemsText (items : List StringItem) : List Char :=
  '"' :: items.flatMap StringItem.text ++ ['"']

/-- The unit is the first half of a pair. -/
def IsHigh (unit : Nat) : Prop := 0xd800 ≤ unit ∧ unit ≤ 0xdbff

/-- The unit is the second half of a pair. -/
def IsLow (unit : Nat) : Prop := 0xdc00 ≤ unit ∧ unit ≤ 0xdfff

instance : DecidablePred IsHigh := fun _ => inferInstanceAs (Decidable (_ ∧ _))
instance : DecidablePred IsLow := fun _ => inferInstanceAs (Decidable (_ ∧ _))

/-- The character that a pair stands for. -/
def pairedChar (high low : Nat) : Char :=
  Char.ofNat (0x10000 + (high - 0xd800) * 0x400 + (low - 0xdc00))

/-- The characters of a string behind the first half of a pair, if there is one; none at all if a half is
left alone. -/
def charsAfter : Option Nat → List StringItem → Option (List Char)
  | none, [] => some []
  | none, .plain c _ :: rest | none, .short _ c _ :: rest => (charsAfter none rest).map (c :: ·)
  | none, .unit a b c d :: rest =>
    let unit := unitValue a b c d
    if IsHigh unit then charsAfter (some unit) rest
    else if IsLow unit then none
    else (charsAfter none rest).map (Char.ofNat unit :: ·)
  | some high, .unit a b c d :: rest =>
    let unit := unitValue a b c d
    if IsLow unit then (charsAfter none rest).map (pairedChar high unit :: ·) else none
  | some _, _ => none

/-- The string that is meant, if every half of a pair has its other half. -/
def meaning? (items : List StringItem) : Option String :=
  (charsAfter none items).map String.ofList

/-! ## Numerals -/

/-- The text of decimal digits. -/
def digitsText (digits : List (Fin 10)) : List Char :=
  digits.map fun d : Fin 10 => Nat.digitChar d

/-- Decimal digits as a numeral holds them, last first. -/
def heldDigits (digits : List (Fin 10)) : List Nat :=
  (digits.map Fin.val).reverse

/-- The number that digits stand for. -/
def digitsValue (digits : List (Fin 10)) : Nat :=
  digits.foldl (fun value d => 10 * value + d.val) 0

/-- The exponent of a numeral. -/
structure ExponentText where
  capital : Bool
  /-- The sign, if one is written, and whether it is a minus. -/
  sign : Option Bool
  first : Fin 10
  more : List (Fin 10)

/-- A numeral: its digits before the point, which begin with a zero only if there is no other, those
behind it and the exponent. -/
structure NumeralText where
  negative : Bool
  first : Fin 10
  more : List (Fin 10)
  noLeadingZero : first = 0 → more = []
  fraction : Option (Fin 10 × List (Fin 10))
  exponent : Option ExponentText

/-- The text of an exponent. -/
def ExponentText.text (e : ExponentText) : List Char :=
  (if e.capital then 'E' else 'e') ::
    (match e.sign with
      | some true => ['-']
      | some false => ['+']
      | none => []) ++ digitsText (e.first :: e.more)

namespace NumeralText

/-- The text of a point and the digits behind it. -/
def fractionText : Option (Fin 10 × List (Fin 10)) → List Char
  | some (first, more) => '.' :: digitsText (first :: more)
  | none => []

/-- The text of a numeral. -/
def text (n : NumeralText) : List Char :=
  (if n.negative then ['-'] else []) ++ digitsText (n.first :: n.more) ++ fractionText n.fraction ++
    n.exponent.elim [] ExponentText.text

/-- The parts of a numeral. -/
def numeral (n : NumeralText) : Numeral where
  negative := n.negative
  whole := heldDigits (n.first :: n.more)
  fraction := n.fraction.map fun digits => heldDigits (digits.1 :: digits.2)
  negativeExponent := n.exponent.any fun e => e.sign == some true
  exponent := n.exponent.map fun e => heldDigits (e.first :: e.more)

/-- The numeral is an integer without a sign, and this is its value. -/
def IsUnsigned (n : NumeralText) (value : Nat) : Prop :=
  n.negative = false ∧ n.fraction = none ∧ n.exponent = none ∧
    digitsValue (n.first :: n.more) = value

end NumeralText

/-! ## Values -/

mutual

/-- A value as it is written. -/
inductive Writing where
  | null
  | bool (b : Bool)
  | numeral (n : NumeralText)
  | string (items : List StringItem)
  | arr (items : ItemWritings)
  | obj (members : MemberWritings)

/-- The elements of an array as they are written. -/
inductive ItemWritings where
  | nil (blanks : Blanks)
  | cons (before : Blanks) (value : Writing) (behind : Blanks) (rest : ItemWritings)

/-- The members of an object as they are written. -/
inductive MemberWritings where
  | nil (blanks : Blanks)
  | cons (before : Blanks) (name : List StringItem) (beforeColon behindColon : Blanks) (value : Writing)
      (behind : Blanks) (rest : MemberWritings)

end

mutual

/-- The text of a value. -/
def Writing.text : Writing → List Char
  | .null => ['n', 'u', 'l', 'l']
  | .bool true => ['t', 'r', 'u', 'e']
  | .bool false => ['f', 'a', 'l', 's', 'e']
  | .numeral n => n.text
  | .string items => itemsText items
  | .arr items => '[' :: items.text
  | .obj members => '\x7b' :: members.text

/-- The text of the elements of an array and its closing bracket. -/
def ItemWritings.text : ItemWritings → List Char
  | .nil blanks => blanks.1 ++ [']']
  | .cons before value behind rest => before.1 ++ value.text ++ behind.1 ++ rest.moreText

/-- The text of further elements of an array and its closing bracket. -/
def ItemWritings.moreText : ItemWritings → List Char
  | .nil blanks => blanks.1 ++ [']']
  | .cons before value behind rest => ',' :: before.1 ++ value.text ++ behind.1 ++ rest.moreText

/-- The text of the members of an object and its closing brace. -/
def MemberWritings.text : MemberWritings → List Char
  | .nil blanks => blanks.1 ++ ['\x7d']
  | .cons before name beforeColon behindColon value behind rest =>
    before.1 ++ itemsText name ++ beforeColon.1 ++ ':' :: behindColon.1 ++ value.text ++ behind.1 ++
      rest.moreText

/-- The text of further members of an object and its closing brace. -/
def MemberWritings.moreText : MemberWritings → List Char
  | .nil blanks => blanks.1 ++ ['\x7d']
  | .cons before name beforeColon behindColon value behind rest =>
    ',' :: before.1 ++ itemsText name ++ beforeColon.1 ++ ':' :: behindColon.1 ++ value.text ++ behind.1 ++
      rest.moreText

end

mutual

/-- The value that is meant; where a string or a numeral means nothing, anything. -/
def Writing.value : Writing → Value
  | .null => .null
  | .bool b => .bool b
  | .numeral n => .num (n.numeral.value?.getD (.nat 0))
  | .string items => .str ((meaning? items).getD "")
  | .arr items => .arr items.values
  | .obj members => .obj members.values

/-- The elements that are meant. -/
def ItemWritings.values : ItemWritings → List Value
  | .nil _ => []
  | .cons _ value _ rest => value.value :: rest.values

/-- The members that are meant. -/
def MemberWritings.values : MemberWritings → List (String × Value)
  | .nil _ => []
  | .cons _ name _ _ value _ rest => ((meaning? name).getD "", value.value) :: rest.values

end

mutual

/-- No string holds half of a pair without the other. -/
def Writing.IsUnicode : Writing → Prop
  | .string items => (meaning? items).isSome
  | .arr items => items.AreUnicode
  | .obj members => members.AreUnicode
  | _ => True

/-- No string among the elements does. -/
def ItemWritings.AreUnicode : ItemWritings → Prop
  | .nil _ => True
  | .cons _ value _ rest => value.IsUnicode ∧ rest.AreUnicode

/-- No string among the members does, and no name. -/
def MemberWritings.AreUnicode : MemberWritings → Prop
  | .nil _ => True
  | .cons _ name _ _ value _ rest => (meaning? name).isSome ∧ value.IsUnicode ∧ rest.AreUnicode

end

mutual

/-- No numeral is beyond all doubles. -/
def Writing.NumbersFit : Writing → Prop
  | .numeral n => n.numeral.value?.isSome
  | .arr items => items.NumbersFit
  | .obj members => members.NumbersFit
  | _ => True

/-- None among the elements is. -/
def ItemWritings.NumbersFit : ItemWritings → Prop
  | .nil _ => True
  | .cons _ value _ rest => value.NumbersFit ∧ rest.NumbersFit

/-- None among the members is. -/
def MemberWritings.NumbersFit : MemberWritings → Prop
  | .nil _ => True
  | .cons _ _ _ _ value _ rest => value.NumbersFit ∧ rest.NumbersFit

end

mutual

/-- The value has as many containers inside each other as are meant. -/
def Writing.depth : Writing → Nat
  | .arr items => items.depth + 1
  | .obj members => members.depth + 1
  | _ => 0

/-- The greatest depth among elements. -/
def ItemWritings.depth : ItemWritings → Nat
  | .nil _ => 0
  | .cons _ value _ rest => max value.depth rest.depth

/-- The greatest depth among members. -/
def MemberWritings.depth : MemberWritings → Nat
  | .nil _ => 0
  | .cons _ _ _ _ value _ rest => max value.depth rest.depth

end

/-! ## Numbers that are meant -/

/-- Digits held last first stand for the same number. -/
theorem foldr_heldDigits (digits : List (Fin 10)) :
    (heldDigits digits).foldr (fun d n => 10 * n + d) 0 = digitsValue digits := by
  rw [heldDigits, List.foldr_reverse, List.foldl_map, digitsValue]

/-- A numeral that is a double is no integer. -/
theorem Numeral.float?_ne_nat (numeral : Numeral) (m : UInt64) : numeral.float? ≠ some (.nat m) := by
  simp only [Numeral.float?, Numeral.signed]
  split
  · intro h
    obtain ⟨x, -, hx⟩ := Option.map_eq_some_iff.mp h
    cases hx
  · split <;> simp

/-- A numeral stands for an unsigned integer of 64 bits exactly if it is an integer without a sign and of
that value. -/
theorem NumeralText.value?_eq_nat_iff (n : NumeralText) (m : UInt64) :
    n.numeral.value? = some (.nat m) ↔ n.IsUnsigned m.toNat := by
  have hwhole : n.numeral.whole.foldr (fun d n => 10 * n + d) 0 = digitsValue (n.first :: n.more) :=
    foldr_heldDigits _
  have hfraction : n.numeral.fraction.isSome = n.fraction.isSome := Option.isSome_map
  have hexponent : n.numeral.exponent.isSome = n.exponent.isSome := Option.isSome_map
  simp only [Numeral.value?, hwhole, hfraction, hexponent, IsUnsigned]
  generalize digitsValue (n.first :: n.more) = value
  split
  · next hfloat =>
    simp only [Bool.or_eq_true, decide_eq_true_eq] at hfloat
    refine iff_of_false (n.numeral.float?_ne_nat m) ?_
    rintro ⟨-, hf, he, rfl⟩
    rcases hfloat with (hfloat | hfloat) | hfloat
    · simp [hf] at hfloat
    · simp [he] at hfloat
    · exact absurd m.toNat_lt_size (Nat.not_lt.mpr hfloat)
  · next hint =>
    simp only [Bool.or_eq_true, decide_eq_true_eq, not_or, Bool.not_eq_true, Option.isSome_eq_false_iff,
      Option.isNone_iff_eq_none, Nat.not_le] at hint
    obtain ⟨⟨hf, he⟩, hlt⟩ := hint
    cases hnegative : n.negative with
    | true =>
      have hsign : n.numeral.negative = true := hnegative
      rw [hsign, Bool.not_true, if_neg Bool.false_ne_true]
      refine iff_of_false ?_ fun h => absurd h.1 Bool.false_ne_true.symm
      split <;> simp [Numeral.signed]
    | false =>
      have hsign : n.numeral.negative = false := hnegative
      rw [hsign, Bool.not_false, if_pos rfl]
      have hvalue : UInt64.ofNat value = m ↔ value = m.toNat :=
        ⟨fun h => by rw [← h, UInt64.toNat_ofNat_of_lt' hlt], fun h => by rw [h, UInt64.ofNat_toNat]⟩
      simp [hf, he, hvalue]

end DaemonBridge.Json
