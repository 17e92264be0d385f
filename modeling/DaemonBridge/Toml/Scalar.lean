import DaemonBridge.Text.Numeral
import DaemonBridge.Toml.Value

/-!
# Unquoted TOML values

Truth values, integers, floats, dates and times, as they are written without quotes. Digits may be
grouped by single underscores. Integers reach as far as 128 bits, and a float that no double comes
near is refused. Seconds may be left out of a time.
-/

namespace DaemonBridge.Toml

/-- Digits without the underscores that group them; every underscore stands between two digits. -/
def ungroup? (isDigit : Char → Bool) : List Char → Option (List Char)
  | [] => none
  | [c] => if isDigit c then some [c] else none
  | c :: '_' :: rest => if isDigit c then (ungroup? isDigit rest).map (c :: ·) else none
  | c :: rest => if isDigit c then (ungroup? isDigit rest).map (c :: ·) else none

/-- Split off a sign: whether it is there, whether it is a minus, and what follows it. -/
def splitSign : List Char → Bool × Bool × List Char
  | '-' :: rest => (true, true, rest)
  | '+' :: rest => (true, false, rest)
  | text => (false, false, text)

/-- Decimal digits of which the first is no zero, unless it is the only one. -/
def decimalDigits? (text : List Char) : Option (List Char) :=
  match ungroup? Char.isDigit text with
  | some ('0' :: _ :: _) => none
  | digits => digits

/-- The value of digits in a base up to sixteen. -/
def valueInBase (base : Nat) (digits : List Char) : Nat :=
  digits.foldl (fun n c => base * n + (Text.hexValue? c).getD 0) 0

/-- The least number past the double words in which integers are read. -/
def doubleWordSize : Nat :=
  UInt64.size * UInt64.size

/-- Integers in a base other than ten, without a sign. -/
def based? (base : Nat) (text : List Char) : Option Int :=
  (ungroup? (fun c => (Text.hexValue? c).any (· < base)) text).bind fun digits =>
    let n := valueInBase base digits
    if n < doubleWordSize then some (Int.ofNat n) else none

/-- Integers. -/
def integer? (text : List Char) : Option Int :=
  match text with
  | '0' :: 'x' :: digits => based? 16 digits
  | '0' :: 'o' :: digits => based? 8 digits
  | '0' :: 'b' :: digits => based? 2 digits
  | _ =>
    let (_, negative, digits) := splitSign text
    (decimalDigits? digits).bind fun digits =>
      let n := valueInBase 10 digits
      if negative then (if n ≤ doubleWordSize / 2 then some (-Int.ofNat n) else none)
      else if n < doubleWordSize then some (Int.ofNat n)
      else none

/-- The double nearest to `n · 10^e`, unless it is infinite. -/
def nearestFloat? (n : Nat) (e : Int) : Option Float :=
  let magnitude : Int := Int.ofNat (Text.decimal n).length + e
  if n = 0 || magnitude < -400 then some 0
  else if 400 < magnitude then none
  else
    let x := if 0 ≤ e then Float.ofScientific n false e.toNat else Float.ofScientific n true (-e).toNat
    if x.isInf then none else some x

/-- The part of a list before the first element of a kind, and the part after it, if there is one. -/
def cutAt? (isMark : Char → Bool) (text : List Char) : Option (List Char × List Char) :=
  match text.span (fun c => !isMark c) with
  | (_, []) => none
  | (before, _ :: after) => some (before, after)

/-- The exponent of a float. -/
def exponent? (text : List Char) : Option Int :=
  let (_, negative, digits) := splitSign text
  (ungroup? Char.isDigit digits).map fun digits =>
    let n := Int.ofNat (valueInBase 10 digits)
    if negative then -n else n

/-- The double of a float without its sign. -/
def unsignedFloat? (text : List Char) : Option Float := do
  let (mantissa, exponent) ← match cutAt? (fun c => c == 'e' || c == 'E') text with
    | some (mantissa, exponent) => (exponent? exponent).map fun e => (mantissa, some e)
    | none => some (text, none)
  match cutAt? (· == '.') mantissa with
  | some (whole, fraction) =>
    let whole ← decimalDigits? whole
    let fraction ← ungroup? Char.isDigit fraction
    nearestFloat? (valueInBase 10 (whole ++ fraction)) (exponent.getD 0 - Int.ofNat fraction.length)
  | none =>
    let e ← exponent
    nearestFloat? (valueInBase 10 (← decimalDigits? mantissa)) e

/-- Floats, infinities and the value that is not a number among them. -/
def float? (text : List Char) : Option Float :=
  let (_, negative, rest) := splitSign text
  let unsigned :=
    if rest = ['i', 'n', 'f'] then some (1 / 0)
    else if rest = ['n', 'a', 'n'] then some (0 / 0)
    else unsignedFloat? rest
  unsigned.map fun x => if negative then -x else x

/-- The value of exactly `n` decimal digits at the start of a text, and the rest of it. -/
def takeNumber? (n : Nat) (text : List Char) : Option (Nat × List Char) :=
  let digits := text.take n
  if digits.length = n && digits.all Char.isDigit then some (valueInBase 10 digits, text.drop n) else none

/-- The rest of a text after a character that has to be there. -/
def expect? (c : Char) : List Char → Option (List Char)
  | d :: rest => if d = c then some rest else none
  | [] => none

/-- The number of days in a month of the Gregorian calendar. -/
def daysInMonth (year month : Nat) : Nat :=
  if month = 2 then
    if year % 4 = 0 && (year % 100 ≠ 0 || year % 400 = 0) then 29 else 28
  else if month = 4 || month = 6 || month = 9 || month = 11 then 30
  else 31

/-- Read a date at the start of a text. -/
def date? (text : List Char) : Option (List Char) := do
  let (year, text) ← takeNumber? 4 text
  let text ← expect? '-' text
  let (month, text) ← takeNumber? 2 text
  let text ← expect? '-' text
  let (day, text) ← takeNumber? 2 text
  if 1 ≤ month ∧ month ≤ 12 ∧ 1 ≤ day ∧ day ≤ daysInMonth year month then some text else none

/-- Read the fraction of a second, if there is one. -/
def fraction? : List Char → Option (List Char)
  | '.' :: rest => if rest.head?.any Char.isDigit then some (rest.dropWhile Char.isDigit) else none
  | text => some text

/-- Read the seconds of a time, if there are any. -/
def seconds? : List Char → Option (List Char)
  | ':' :: rest => do
    let (second, rest) ← takeNumber? 2 rest
    if second ≤ 60 then fraction? rest else none
  | text => some text

/-- Read a time at the start of a text. -/
def time? (text : List Char) : Option (List Char) := do
  let (hour, text) ← takeNumber? 2 text
  let text ← expect? ':' text
  let (minute, text) ← takeNumber? 2 text
  if hour ≤ 23 ∧ minute ≤ 59 then seconds? text else none

/-- Read an offset from universal time that is the whole of a text. -/
def offset? (text : List Char) : Option Unit :=
  match text with
  | [] | ['Z'] | ['z'] => some ()
  | sign :: rest => do
    if sign ≠ '+' ∧ sign ≠ '-' then none
    let (hour, rest) ← takeNumber? 2 rest
    let rest ← expect? ':' rest
    let (minute, rest) ← takeNumber? 2 rest
    if rest.isEmpty && 60 * hour + minute ≤ 24 * 60 then some () else none

/-- The text is a date, a time, or a date and a time with or without an offset. -/
def isDatetime (text : List Char) : Bool :=
  match date? text with
  | some [] => true
  | some (mark :: rest) =>
    (mark = 'T' || mark = 't' || mark = ' ') && ((time? rest).bind offset?).isSome
  | none => (time? text).any List.isEmpty

/-- The value written without quotes. -/
def scalar? (text : List Char) : Option Value :=
  if text = ['t', 'r', 'u', 'e'] then some (.boolean true)
  else if text = ['f', 'a', 'l', 's', 'e'] then some (.boolean false)
  else match integer? text with
    | some i => some (.integer i)
    | none =>
      match float? text with
      | some x => some (.float x)
      | none => if isDatetime text then some (.datetime (String.ofList text)) else none

end DaemonBridge.Toml
