/-!
# Decimal and hexadecimal numerals

Unsigned integers as written for users and as read from them. A 64-bit number is read from at
least one ASCII digit, with an optional plus sign and any number of leading zeros, and its own
decimal text is read back as the same number (`readUInt64?_decimal`).
-/

namespace DaemonBridge.Text

/-- The decimal digits of a number, without leading zeros. -/
def decimal (n : Nat) : List Char :=
  Nat.toDigits 10 n

/-- The value of a hexadecimal digit of either case. -/
def hexValue? (c : Char) : Option Nat :=
  if '0' ≤ c ∧ c ≤ '9' then some (c.toNat - '0'.toNat)
  else if 'a' ≤ c ∧ c ≤ 'f' then some (c.toNat - 'a'.toNat + 10)
  else if 'A' ≤ c ∧ c ≤ 'F' then some (c.toNat - 'A'.toNat + 10)
  else none

/-- The bytes that pairs of hexadecimal digits stand for, up to the first pair that is none. -/
def bytesOfHex : List Char → List UInt8
  | high :: low :: rest =>
    match hexValue? high, hexValue? low with
    | some h, some l => UInt8.ofNat (16 * h + l) :: bytesOfHex rest
    | _, _ => []
  | _ => []

/-- The upper-case hexadecimal digit of a value below sixteen. -/
def upperHexDigit (n : Nat) : Char :=
  (Nat.digitChar n).toUpper

/-- A number written with exactly `width` hexadecimal digits, given the digit for each value. -/
def hexDigits (digit : Nat → Char) : Nat → Nat → List Char
  | 0, _ => []
  | width + 1, n => hexDigits digit width (n / 16) ++ [digit (n % 16)]

/-- The value of at least one ASCII digit and nothing else. -/
def readNat? (text : List Char) : Option Nat :=
  if text.isEmpty || !text.all Char.isDigit then none else some (Nat.ofDigitChars 10 text 0)

/-- The number, if it fits in 64 bits. -/
def toUInt64? (n : Nat) : Option UInt64 :=
  if n < UInt64.size then some (UInt64.ofNat n) else none

/-- Read a 64-bit number, with an optional plus sign. -/
def readUInt64? (text : List Char) : Option UInt64 :=
  let digits := match text with
    | '+' :: rest => rest
    | _ => text
  (readNat? digits).bind toUInt64?

/-- Decimal text holds digits only. -/
theorem isDigit_of_mem_decimal {n : Nat} {c : Char} (h : c ∈ decimal n) : c.isDigit = true :=
  Nat.isDigit_of_mem_toDigits (by decide) (by decide) h

/-- A decimal text is read back as its number. -/
theorem readNat?_decimal (n : Nat) : readNat? (decimal n) = some n := by
  have hne : (decimal n).isEmpty = false := by simp [decimal, Nat.toDigits_ne_nil]
  have hall : (decimal n).all Char.isDigit = true :=
    List.all_eq_true.mpr fun c h => isDigit_of_mem_decimal h
  rw [readNat?, hne, hall]
  simp [decimal]

/-- A number below 2^64 is kept. -/
theorem toUInt64?_toNat (n : UInt64) : toUInt64? n.toNat = some n := by
  simp [toUInt64?, n.toNat_lt_size]

/-- The decimal text of a 64-bit number is read back as the number. -/
theorem readUInt64?_decimal (n : UInt64) : readUInt64? (decimal n.toNat) = some n := by
  have hplus : ∀ rest, decimal n.toNat ≠ '+' :: rest := fun rest h => by
    have : ('+' : Char).isDigit = true := isDigit_of_mem_decimal (n := n.toNat) (by simp [h])
    exact absurd this (by decide)
  unfold readUInt64?
  split
  · exact absurd (by assumption) (hplus _)
  · simp [readNat?_decimal, toUInt64?_toNat]

end DaemonBridge.Text
