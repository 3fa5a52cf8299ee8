/-! Doubles and decimals, in exact arithmetic: the double nearest to a decimal, and the shortest
decimal that is read as a given double. -/
namespace RouteTree.Decimal

/-- A finite double that is not negative: `mantissa * 2 ^ exponent`, in lowest position. -/
structure Binary64 where
  mantissa : Nat
  exponent : Int
  deriving DecidableEq, Repr

/-- A ratio of whole numbers. -/
structure Ratio where
  num : Nat
  den : Nat

/-- `n * base ^ e`. -/
def Ratio.scaled (n base : Nat) (e : Int) : Ratio :=
  if 0 ≤ e then ⟨n * Nat.pow base e.toNat, 1⟩ else ⟨n, Nat.pow base (-e).toNat⟩

/-- `r / base ^ e`. -/
def Ratio.descale (r : Ratio) (base : Nat) (e : Int) : Ratio :=
  if 0 ≤ e then ⟨r.num, r.den * Nat.pow base e.toNat⟩
  else ⟨r.num * Nat.pow base (-e).toNat, r.den⟩

/-- The nearest whole number, of two equally near the even one. -/
def Ratio.round (r : Ratio) : Nat :=
  let whole := r.num / r.den
  let rest := r.num % r.den
  if 2 * rest > r.den || (2 * rest = r.den && whole % 2 = 1) then whole + 1 else whole

namespace Binary64

/-- The lowest exponent. -/
def minExponent : Int := -1074

/-- The highest exponent. -/
def maxExponent : Int := 971

/-- The least mantissa with 53 binary digits. -/
def leastFull : Nat := 4503599627370496

/-- The exponent at which the quotient has 53 binary digits, or the lowest one. -/
def exponentFor (r : Ratio) : Int :=
  let guess : Int := (r.num.log2 : Int) - r.den.log2 - 52
  let scaled := r.descale 2 guess
  let guess := if scaled.num / scaled.den < leastFull then guess - 1 else guess
  max guess minExponent

/-- The nearest double, or none if that is beyond the largest one. -/
def ofRatio? (r : Ratio) : Option Binary64 :=
  if r.num = 0 then some ⟨0, minExponent⟩
  else
    let e := exponentFor r
    let m := (r.descale 2 e).round
    let rounded : Binary64 := if m = 2 * leastFull then ⟨leastFull, e + 1⟩ else ⟨m, e⟩
    if rounded.exponent > maxExponent then none else some rounded

/-- The double nearest to `digits * 10 ^ e`. Decimals far out of range are told by the number of
their digits. -/
def ofDecimal? (digits : Nat) (e : Int) : Option Binary64 :=
  let top : Int := e + (Nat.toDigits 10 digits).length
  if digits = 0 || top < -400 then some ⟨0, minExponent⟩
  else if top > 400 then none
  else ofRatio? (.scaled digits 10 e)

def ratio (x : Binary64) : Ratio := .scaled x.mantissa 2 x.exponent

/-- The rounded product, or none if it is beyond the largest double. -/
def times? (x y : Binary64) : Option Binary64 :=
  ofRatio? ⟨x.ratio.num * y.ratio.num, x.ratio.den * y.ratio.den⟩

/-- Four times the value and the ends of the interval of numbers that round to it, over a common
denominator. -/
structure Interval where
  low : Nat
  value : Nat
  high : Nat
  den : Nat
  closed : Bool

/-- Below a power of two the numbers that round to it are half as many. -/
def interval (x : Binary64) : Interval :=
  let r := ratio x
  let unit := Ratio.scaled 1 2 x.exponent
  let gap := unit.num
  let below := if x.mantissa = leastFull && x.exponent > minExponent then gap else 2 * gap
  ⟨4 * r.num - below, 4 * r.num, 4 * r.num + 2 * gap, 4 * r.den, x.mantissa % 2 = 0⟩

/-- Whether the decimal is read as a number of the interval. -/
def Interval.holds (i : Interval) (digits : Nat) (e : Int) : Bool :=
  let d := Ratio.scaled digits 10 e
  let left := i.low * d.den
  let middle := d.num * i.den
  let right := i.high * d.den
  if i.closed then left ≤ middle && middle ≤ right else left < middle && middle < right

/-- Of the decimals around the value at a place, the nearer one that the interval holds. -/
def candidate? (i : Interval) (place : Int) : Option Nat :=
  let scaled := Ratio.descale ⟨i.value, i.den⟩ 10 place
  let below := scaled.num / scaled.den
  let rest := scaled.num % scaled.den
  let nearBelow := 2 * rest ≤ scaled.den
  match i.holds below place, i.holds (below + 1) place with
  | true, true => some (if nearBelow then below else below + 1)
  | true, false => some below
  | false, true => some (below + 1)
  | false, false => none

/-- Tries places from a coarse one on. -/
def search (i : Interval) : Nat → Int → Nat × Int
  | 0, place => (0, place)
  | tries + 1, place =>
    match candidate? i place with
    | some digits => (digits, place)
    | none => search i tries (place - 1)

/-- The place of the first decimal digit, or one above it. -/
def topPlace (x : Binary64) : Int :=
  let r := ratio x
  if r.num ≥ r.den then (Nat.toDigits 10 (r.num / r.den)).length
  else 1 - (Nat.toDigits 10 (r.den / r.num)).length + 1

/-- The decimal with the fewest digits that is read as this double: digits and power of ten. -/
def shortest (x : Binary64) : Nat × Int :=
  if x.mantissa = 0 then (0, 0) else search (interval x) 20 (topPlace x)

/-- The shortest decimal without an exponent and with a point: digits before the point and after
it are there. -/
def positional (x : Binary64) : String :=
  let (digits, e) := shortest x
  let ds := Nat.toDigits 10 digits
  let zeros (n : Nat) : List Char := List.replicate n '0'
  if 0 ≤ e then String.ofList (ds ++ (if digits = 0 then [] else zeros e.toNat)) ++ ".0"
  else
    let places := (-e).toNat
    let padded := zeros (places + 1 - ds.length) ++ ds
    let whole := padded.take (padded.length - places)
    String.ofList (whole ++ ['.'] ++ padded.drop (padded.length - places))

end Binary64

end RouteTree.Decimal
