import DaemonBridge.Decimal.Shortest

/-!
# JSON numbers

A numeral without a point or an exponent is an integer when it fits in 64 bits, unsigned or signed;
`-0` and every other numeral is a double. The double is computed from the first digits that fit in
64 bits and a power of ten, and a numeral beyond the greatest double has no value.
-/

namespace DaemonBridge.Json

/-- The value of a numeral. A negative integer is held by its magnitude. -/
inductive Number where
  | nat (n : UInt64)
  | neg (magnitude : Nat)
  | float (x : Float)
  deriving Repr

/-- Doubles are written positionally from `1e-5` to below `1e16`. -/
def floatLayout : Decimal.Layout := ⟨-5, 15⟩

/-- The text of a number. -/
def Number.text : Number → String
  | .nat n => String.ofList (Text.decimal n.toNat)
  | .neg magnitude => String.ofList ('-' :: Text.decimal magnitude)
  | .float x => floatLayout.ofFloat x

/-- The parts of a numeral; digits are held last first. -/
structure Numeral where
  negative : Bool
  whole : List Nat := []
  fraction : Option (List Nat) := none
  negativeExponent : Bool := false
  exponent : Option (List Nat) := none
  deriving Repr, DecidableEq

/-- Take digits while the significand fits in 64 bits, counting them; the digits left over follow. -/
def takeDigits (significand taken : Nat) : List Nat → Nat × Nat × List Nat
  | [] => (significand, taken, [])
  | d :: rest =>
    if 10 * significand + d < UInt64.size then takeDigits (10 * significand + d) (taken + 1) rest
    else (significand, taken, d :: rest)

/-- Divide by `1e308` until the exponent is in the range of doubles. -/
def scaleDown (x : Float) (exponent : Int) : Nat → Float × Int
  | 0 => (x, exponent)
  | fuel + 1 =>
    if exponent < -308 && x != 0 then scaleDown (x / 1e308) (exponent + 308) fuel else (x, exponent)

/-- The double `significand · 10^exponent`, unless it is infinite. -/
def floatOfParts? (significand : Nat) (exponent : Int) : Option Float :=
  let x := (UInt64.ofNat significand).toFloat
  let (x, exponent) := scaleDown x exponent 4
  if x == 0 then some x
  else if exponent < -308 then some 0
  else if exponent < 0 then some (x / Float.ofScientific 1 false exponent.natAbs)
  else if 308 < exponent then none
  else
    let y := x * Float.ofScientific 1 false exponent.natAbs
    if y.isInf then none else some y

/-- The exponent part, held to the range of 32-bit integers; `none` beyond that range. -/
def exponentOf (numeral : Numeral) : Option Int :=
  let magnitude := (numeral.exponent.getD []).foldr (fun d n => 10 * n + d) 0
  if magnitude < UInt32.size / 2 then
    some (if numeral.negativeExponent then -Int.ofNat magnitude else Int.ofNat magnitude)
  else none

/-- A double with the sign of the numeral. -/
def Numeral.signed (numeral : Numeral) (x : Float) : Number :=
  .float (if numeral.negative then -x else x)

/-- The numeral as a double. -/
def Numeral.float? (numeral : Numeral) : Option Number :=
  let (wholePart, _, dropped) := takeDigits 0 0 numeral.whole.reverse
  let (significand, taken, _) := takeDigits wholePart 0 (numeral.fraction.getD []).reverse
  match exponentOf numeral with
  | some exponent =>
    let point : Int := Int.ofNat dropped.length - Int.ofNat taken
    (floatOfParts? significand (point + exponent)).map numeral.signed
  | none => if significand == 0 || numeral.negativeExponent then some (numeral.signed 0) else none

/-- The value of a numeral. -/
def Numeral.value? (numeral : Numeral) : Option Number :=
  let n := numeral.whole.foldr (fun d n => 10 * n + d) 0
  if numeral.fraction.isSome || numeral.exponent.isSome || UInt64.size ≤ n then numeral.float?
  else if !numeral.negative then some (.nat (UInt64.ofNat n))
  else if n = 0 || UInt64.size / 2 < n then some (numeral.signed (UInt64.ofNat n).toFloat)
  else some (.neg n)

end DaemonBridge.Json
