import DaemonBridge.Text.Numeral

/-!
# Shortest decimal text of a binary fraction

A finite double `m · 2^q` is named by the fewest decimal digits that read back as it, and of those
by the nearest. The candidates are the two neighbours of the value on the grid of decimals with one
digit, two digits, and so on; a candidate is taken as soon as it lies in the interval of reals that
round to the value, which holds its ends exactly when `m` is even.
-/

namespace DaemonBridge.Decimal

/-- A positive rational number as a fraction. -/
structure Ratio where
  num : Nat
  den : Nat

namespace Ratio

/-- `n · 2^e`. -/
def scaled (n : Nat) (e : Int) : Ratio :=
  if 0 ≤ e then ⟨n * Nat.pow 2 e.toNat, 1⟩ else ⟨n, Nat.pow 2 (-e).toNat⟩

/-- `n · 10^e`. -/
def ofDecimal (n : Nat) (e : Int) : Ratio :=
  if 0 ≤ e then ⟨n * Nat.pow 10 e.toNat, 1⟩ else ⟨n, Nat.pow 10 (-e).toNat⟩

/-- The order of rationals. -/
def lt (a b : Ratio) : Bool :=
  a.num * b.den < b.num * a.den

/-- The distance between two rationals. -/
def dist (a b : Ratio) : Ratio :=
  if a.lt b then ⟨b.num * a.den - a.num * b.den, a.den * b.den⟩
  else ⟨a.num * b.den - b.num * a.den, a.den * b.den⟩

/-- The greatest `n` with `n · 10^e` at most `a`. -/
def floorAt (a : Ratio) (e : Int) : Nat :=
  if 0 ≤ e then a.num / (a.den * Nat.pow 10 e.toNat) else a.num * Nat.pow 10 (-e).toNat / a.den

end Ratio

/-- The value of a positive double and the interval of reals that round to it. -/
structure Rounding where
  value : Ratio
  low : Ratio
  high : Ratio
  closed : Bool

/-- The interval of `m · 2^q`; below a power of two the doubles lie twice as close. -/
def Rounding.ofParts (m : Nat) (q : Int) (atPower : Bool) : Rounding where
  value := .scaled m q
  low := if atPower then .scaled (4 * m - 1) (q - 2) else .scaled (2 * m - 1) (q - 1)
  high := .scaled (2 * m + 1) (q - 1)
  closed := m % 2 == 0

/-- The decimal reads back as the value. -/
def Rounding.holds (r : Rounding) (d : Ratio) : Bool :=
  (r.low.lt d && d.lt r.high) || (r.closed && !d.lt r.low && !r.high.lt d)

/-- A positive decimal `n · 10^e`. -/
structure Digits where
  n : Nat
  e : Int

/-- The better neighbour of the value on the grid of multiples of `10^e`, if one reads back; of two that
are equally near, the even one. -/
def Rounding.onGrid? (r : Rounding) (e : Int) : Option Digits :=
  let below := r.value.floorAt e
  let lower := Ratio.ofDecimal below e
  let upper := Ratio.ofDecimal (below + 1) e
  let lowerHolds := below != 0 && r.holds lower
  let upperHolds := r.holds upper
  if lowerHolds && upperHolds then
    if (upper.dist r.value).lt (lower.dist r.value) then some ⟨below + 1, e⟩
    else if (lower.dist r.value).lt (upper.dist r.value) || below % 2 == 0 then some ⟨below, e⟩
    else some ⟨below + 1, e⟩
  else if lowerHolds then some ⟨below, e⟩
  else if upperHolds then some ⟨below + 1, e⟩
  else none

/-- Search the grids from coarse to fine; `fuel` grids are left. -/
def Rounding.search (r : Rounding) : Nat → Int → Digits
  | 0, e => ⟨r.value.floorAt e, e⟩
  | fuel + 1, e => (r.onGrid? e).getD (r.search fuel (e - 1))

/-- The fewest digits that read back, nearest first. -/
def Rounding.shortest (r : Rounding) : Digits :=
  r.search 680 310

/-- How a decimal is laid out: the exponents written positionally. -/
structure Layout where
  least : Int
  greatest : Int

/-- Lay out digits whose first stands at `10^point`. -/
def Layout.render (layout : Layout) (digits : List Char) (point : Int) : List Char :=
  if layout.least ≤ point && point ≤ layout.greatest then
    if point < 0 then '0' :: '.' :: List.replicate (-point - 1).toNat '0' ++ digits
    else
      let whole := point.toNat + 1
      let padded := digits ++ List.replicate (whole - digits.length) '0'
      let fraction := padded.drop whole
      padded.take whole ++ '.' :: (if fraction.isEmpty then ['0'] else fraction)
  else
    let mantissa := match digits with
      | [] => []
      | [d] => [d]
      | d :: more => d :: '.' :: more
    mantissa ++ 'e' :: (if point < 0 then '-' else '+') :: Text.decimal point.natAbs

/-- Drop the trailing zeros of a digit string. -/
def stripZeros (digits : List Char) : List Char :=
  (digits.reverse.dropWhile (· == '0')).reverse

/-- The number of doubles with one sign and one exponent. -/
def significandSize : Nat :=
  0x10000000000000

/-- The text of a finite double: its shortest digits in the given layout, `0.0` for zero. -/
def Layout.ofFloat (layout : Layout) (x : Float) : String :=
  let bits := x.toBits.toNat
  let sign := if bits < UInt64.size / 2 then [] else ['-']
  let biased := bits / significandSize % 0x800
  let fraction := bits % significandSize
  if biased = 0 && fraction = 0 then String.ofList (sign ++ ['0', '.', '0'])
  else
    let m := if biased = 0 then fraction else fraction + significandSize
    let q : Int := Int.ofNat (if biased = 0 then 1 else biased) - 1075
    let found := (Rounding.ofParts m q (fraction == 0 && 1 < biased)).shortest
    let digits := Text.decimal found.n
    String.ofList (sign ++ layout.render (stripZeros digits) (found.e + digits.length - 1))

end DaemonBridge.Decimal
