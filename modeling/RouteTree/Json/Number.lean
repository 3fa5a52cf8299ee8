import RouteTree.Decimal.Binary64

/-! The spelling of JSON numbers, and which of them fit into a double. -/
namespace RouteTree.Json

/-- The part of a number that was read last. -/
inductive NumberPart
  | minus
  | zero
  | integer
  | point
  | fraction
  | exponent
  | exponentSign
  | exponentDigits
  deriving DecidableEq, Repr

namespace NumberPart

/-- The part that starts with the first character of a number. -/
def first? (c : Char) : Option NumberPart :=
  if c = '-' then some .minus
  else if c = '0' then some .zero
  else if c.isDigit then some .integer
  else none

/-- The part that goes on with the character, if one does. -/
def next? (part : NumberPart) (c : Char) : Option NumberPart :=
  match part with
  | .minus => if c = '0' then some .zero else if c.isDigit then some .integer else none
  | .zero => if c = '.' then some .point else if c = 'e' || c = 'E' then some .exponent else none
  | .integer =>
    if c.isDigit then some .integer
    else if c = '.' then some .point
    else if c = 'e' || c = 'E' then some .exponent
    else none
  | .point => if c.isDigit then some .fraction else none
  | .fraction =>
    if c.isDigit then some .fraction else if c = 'e' || c = 'E' then some .exponent else none
  | .exponent =>
    if c.isDigit then some .exponentDigits
    else if c = '+' || c = '-' then some .exponentSign
    else none
  | .exponentSign | .exponentDigits => if c.isDigit then some .exponentDigits else none

/-- Whether a number that was read so far is followed wrongly by the character: a leading zero
stands alone, and a sign, a point or an exponent needs a digit. -/
def canEnd (part : NumberPart) (c : Char) : Bool :=
  match part with
  | .zero => !c.isDigit
  | .integer | .fraction | .exponentDigits => true
  | .minus | .point | .exponent | .exponentSign => false

def isComplete : NumberPart → Bool
  | .zero | .integer | .fraction | .exponentDigits => true
  | .minus | .point | .exponent | .exponentSign => false

end NumberPart

/-- Digits with a point are read as a whole number and a power of ten. Digits that no longer fit
into 64 bits change only the power. -/
structure Magnitude where
  significand : Nat := 0
  exponent : Int := 0
  full : Bool := false

def digitValue (c : Char) : Nat := c.toNat - '0'.toNat

/-- One more digit, before or after the point. Once a digit does not fit, no later one counts. -/
def Magnitude.push (m : Magnitude) (afterPoint : Bool) (c : Char) : Magnitude :=
  let grown := m.significand * 10 + digitValue c
  if m.full || grown ≥ 18446744073709551616 then
    { m with full := true, exponent := if afterPoint then m.exponent else m.exponent + 1 }
  else
    { m with significand := grown, exponent := if afterPoint then m.exponent - 1 else m.exponent }

/-- Whether the number is too large for a double. Significand and power of ten are rounded before
they are multiplied. -/
def Magnitude.overflows (m : Magnitude) : Bool :=
  if m.significand = 0 || m.exponent < 0 then false
  else if m.exponent > 308 then true
  else
    match Decimal.Binary64.ofRatio? ⟨m.significand, 1⟩,
      Decimal.Binary64.ofRatio? ⟨Nat.pow 10 m.exponent.toNat, 1⟩ with
    | some significand, some power => (significand.times? power).isNone
    | _, _ => true

/-- Whether a well-formed number is too large for a double. -/
def overflows (spelling : List Char) : Bool :=
  let mantissa := spelling.takeWhile fun c => c ≠ 'e' && c ≠ 'E'
  let exponent := spelling.drop (mantissa.length + 1)
  let whole := (mantissa.takeWhile (· ≠ '.')).filter Char.isDigit
  let decimals := mantissa.dropWhile (· ≠ '.') |>.drop 1
  let m := whole.foldl (fun m c => m.push false c) ({} : Magnitude)
  let m := decimals.foldl (fun m c => m.push true c) m
  let power := (exponent.filter Char.isDigit).foldl (fun n c => n * 10 + digitValue c) 0
  let power : Int := if exponent.head? = some '-' then -power else power
  { m with exponent := m.exponent + power }.overflows

end RouteTree.Json
