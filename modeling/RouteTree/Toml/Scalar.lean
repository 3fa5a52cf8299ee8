import RouteTree.Toml.Value
import RouteTree.Text.Pieces

/-! TOML values that are one word: booleans, numbers, dates and times. -/
namespace RouteTree.Toml

/-- Digits of a base in which single underscores stand between two digits. -/
def digits? (base : Nat) (cs : List Char) : Option (List Nat) :=
  ((Text.splitOn '_' cs).mapM run?).map List.flatten
where
  run? (run : List Char) : Option (List Nat) :=
    if run.isEmpty then none else run.mapM digit?
  digit? (c : Char) : Option Nat :=
    let value? : Option Nat :=
      if c.isDigit then some (c.toNat - '0'.toNat)
      else if 'a' ≤ c ∧ c ≤ 'f' then some (c.toNat - 'a'.toNat + 10)
      else if 'A' ≤ c ∧ c ≤ 'F' then some (c.toNat - 'A'.toNat + 10)
      else none
    value?.filter (· < base)

def ofDigits (base : Nat) (digits : List Nat) : Nat :=
  digits.foldl (fun n d => n * base + d) 0

/-- An optional sign and what follows it. -/
def splitSign : List Char → Bool × List Char
  | '-' :: cs => (true, cs)
  | '+' :: cs => (false, cs)
  | cs => (false, cs)

/-- Decimal digits without a zero in front of others. -/
def plainDigits? (cs : List Char) : Option (List Nat) :=
  match cs with
  | '0' :: _ :: _ => none
  | _ => digits? 10 cs

/-- Integers have 64 bits. -/
def fitting? (n : Int) : Option Int :=
  if -9223372036854775808 ≤ n ∧ n < 9223372036854775808 then some n else none

def integer? (word : List Char) : Option Int :=
  match word with
  | '0' :: 'x' :: cs => (digits? 16 cs).bind fun ds => fitting? (ofDigits 16 ds)
  | '0' :: 'o' :: cs => (digits? 8 cs).bind fun ds => fitting? (ofDigits 8 ds)
  | '0' :: 'b' :: cs => (digits? 2 cs).bind fun ds => fitting? (ofDigits 2 ds)
  | _ =>
    let (negative, cs) := splitSign word
    (plainDigits? cs).bind fun ds =>
      let n : Int := ofDigits 10 ds
      fitting? (if negative then -n else n)

/-- The exponent of a float: nothing, or a mark, an optional sign and digits. -/
def exponent? : List Char → Option Int
  | [] => some 0
  | c :: cs =>
    if c = 'e' ∨ c = 'E' then
      let (negative, cs) := splitSign cs
      (digits? 10 cs).map fun ds =>
        let n : Int := ofDigits 10 ds
        if negative then -n else n
    else none

def isExponentMark (c : Char) : Bool := c = 'e' || c = 'E'

/-- A number with a fraction, an exponent or both. Too large a number is refused, but for a negative
one, which is infinite. -/
def decimal? (word : List Char) : Option Float64 := do
  let (negative, cs) := splitSign word
  let whole := cs.takeWhile fun c => c ≠ '.' && !isExponentMark c
  let rest := cs.drop whole.length
  if rest.isEmpty then none
  else
    let wholeDigits ← plainDigits? whole
    let (fraction, rest) ← match rest with
      | '.' :: rest =>
        let fraction := rest.takeWhile (!isExponentMark ·)
        (digits? 10 fraction).map (·, rest.drop fraction.length)
      | _ => some ([], rest)
    let power ← exponent? rest
    match Decimal.Binary64.ofDecimal? (ofDigits 10 (wholeDigits ++ fraction))
        (power - fraction.length) with
    | some magnitude => some (.finite negative magnitude)
    | none => if negative then some (.infinite true) else none

def float? (word : List Char) : Option Float64 :=
  let (negative, cs) := splitSign word
  if cs = "inf".toList then some (.infinite negative)
  else if cs = "nan".toList then some .nan
  else decimal? word

/-- Exactly two digits. -/
def twoDigits? : List Char → Option Nat
  | [a, b] =>
    if a.isDigit && b.isDigit then some (ofDigits 10 [a.toNat - 48, b.toNat - 48]) else none
  | _ => none

def isLeapYear (year : Nat) : Bool :=
  year % 4 = 0 && (year % 100 ≠ 0 || year % 400 = 0)

def daysIn (year month : Nat) : Nat :=
  if month = 2 then (if isLeapYear year then 29 else 28)
  else if month = 4 ∨ month = 6 ∨ month = 9 ∨ month = 11 then 30
  else 31

/-- A day of the calendar: year, month and day with dashes. -/
def isDate (cs : List Char) : Bool :=
  match cs with
  | [y1, y2, y3, y4, '-', m1, m2, '-', d1, d2] =>
    match twoDigits? [y1, y2], twoDigits? [y3, y4], twoDigits? [m1, m2], twoDigits? [d1, d2] with
    | some century, some year, some month, some day =>
      1 ≤ month && month ≤ 12 && 1 ≤ day && day ≤ daysIn (century * 100 + year) month
    | _, _, _, _ => false
  | _ => false

/-- Hours and minutes with a colon. -/
def isHourMinute (cs : List Char) : Bool :=
  match cs with
  | [h1, h2, ':', m1, m2] =>
    match twoDigits? [h1, h2], twoDigits? [m1, m2] with
    | some hour, some minute => hour ≤ 23 && minute ≤ 59
    | _, _ => false
  | _ => false

/-- A time of day with seconds, which may have decimals. -/
def isTime (cs : List Char) : Bool :=
  match cs with
  | h1 :: h2 :: c :: m1 :: m2 :: ':' :: s1 :: s2 :: rest =>
    isHourMinute [h1, h2, c, m1, m2]
      && ((twoDigits? [s1, s2]).map fun second => decide (second ≤ 60)).getD false
      && (match rest with
        | [] => true
        | '.' :: decimals => !decimals.isEmpty && decimals.all Char.isDigit
        | _ => false)
  | _ => false

/-- An offset from universal time. -/
def isOffset (cs : List Char) : Bool :=
  match cs with
  | ['Z'] | ['z'] => true
  | '+' :: cs | '-' :: cs => isHourMinute cs
  | _ => false

def isTimeMark (c : Char) : Bool := c = 'T' || c = 't' || c = ' '

/-- A date, a time, or a date and a time with or without an offset. -/
def isDatetime (word : List Char) : Bool :=
  isDate word || isTime word
    || (match word.drop 10 with
      | mark :: rest =>
        let time := rest.takeWhile fun c => c.isDigit || c = ':' || c = '.'
        let offset := rest.drop time.length
        isDate (word.take 10) && isTimeMark mark && isTime time
          && (offset.isEmpty || isOffset offset)
      | [] => false)

/-- The value that a word spells. -/
def scalar? (word : List Char) : Option Value :=
  if word = "true".toList then some (.boolean true)
  else if word = "false".toList then some (.boolean false)
  else if isDatetime word then some (.datetime (String.ofList word))
  else match integer? word with
    | some n => some (.integer n)
    | none => (float? word).map .float

end RouteTree.Toml
