import DaemonBridge.Text.Numeral
import DaemonBridge.Text.Utf8

/-!
# Percent encoding

The text of a query string. A value is written with every byte outside `A-Z a-z 0-9 - _ . ~` as a
percent sign and two upper-case hexadecimal digits. It is read as a form field: a plus sign is a
space, a percent sign that two hexadecimal digits do not follow stands for itself, and bytes that
encode no character become U+FFFD.
-/

namespace DaemonBridge.Text

/-- The byte is written as itself. -/
def isUnreserved (b : UInt8) : Bool :=
  (0x41 ≤ b && b ≤ 0x5a) || (0x61 ≤ b && b ≤ 0x7a) || (0x30 ≤ b && b ≤ 0x39) ||
    b == 0x2d || b == 0x5f || b == 0x2e || b == 0x7e

/-- One byte in percent encoding. -/
def percentByte (b : UInt8) : List Char :=
  if isUnreserved b then [Char.ofUInt8 b]
  else ['%', upperHexDigit (b.toNat / 16), upperHexDigit (b.toNat % 16)]

/-- A text in percent encoding. -/
def percentEncode (text : List Char) : List Char :=
  (encode text).flatMap percentByte

/-- The value of an ASCII byte as a hexadecimal digit. -/
def hexByteValue? (b : UInt8) : Option Nat :=
  hexValue? (Char.ofUInt8 b)

/-- The bytes that a form field stands for. -/
def formBytes : List UInt8 → List UInt8
  | [] => []
  | 0x2b :: rest => 0x20 :: formBytes rest
  | 0x25 :: high :: low :: rest =>
    match hexByteValue? high, hexByteValue? low with
    | some h, some l => UInt8.ofNat (16 * h + l) :: formBytes rest
    | _, _ => 0x25 :: formBytes (high :: low :: rest)
  | b :: rest => b :: formBytes rest

/-- The text that a form field stands for. -/
def formDecode (field : List UInt8) : List Char :=
  decodeLossy (formBytes field)

/-- Cut a list at every separator. -/
def splitAll {α : Type} [BEq α] (separator : α) : List α → List (List α)
  | [] => [[]]
  | a :: rest =>
    if a == separator then [] :: splitAll separator rest
    else match splitAll separator rest with
      | [] => [[a]]
      | piece :: pieces => (a :: piece) :: pieces

/-- Cut a list at its first separator; without one the second part is empty. -/
def splitFirst {α : Type} [BEq α] (separator : α) (list : List α) : List α × List α :=
  (list.takeWhile fun a => !(a == separator), (list.dropWhile fun a => !(a == separator)).drop 1)

/-- The fields of a query string: the non-empty stretches between ampersands, each cut at its
first equals sign. -/
def formFields (query : List Char) : List (List Char × List Char) :=
  ((splitAll (0x26 : UInt8) (encode query)).filter fun piece => !piece.isEmpty).map fun piece =>
    let (name, value) := splitFirst (0x3d : UInt8) piece
    (formDecode name, formDecode value)

end DaemonBridge.Text
