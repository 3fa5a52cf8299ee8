import RouteTree.Decimal.Binary64
import RouteTree.Json.Number
import RouteTree.Json.Value

/-! JSON text as a grammar. A value has many spellings: blanks stand around values and names,
characters are escaped or not, and objects list their members in any order. Nothing here says how a
text is read. -/
namespace RouteTree.Json

def Blanks (cs : List Char) : Prop := ∀ c ∈ cs, c ∈ [' ', '\n', '\t', '\r']

def SpellsDigit (n : Nat) (c : Char) : Prop :=
  "0123456789abcdef".toList[n]? = some c ∨ "0123456789ABCDEF".toList[n]? = some c

/-- Four hexadecimal digits of a value. -/
inductive SpellsUnit (n : Nat) : List Char → Prop
  | digits {a b c d : Char} (ha : SpellsDigit (n / 4096) a) (hb : SpellsDigit (n / 256 % 16) b)
    (hc : SpellsDigit (n / 16 % 16) c) (hd : SpellsDigit (n % 16) d) : SpellsUnit n [a, b, c, d]

/-- The letters of escapes, each with what it stands for. -/
def escapes : List (Char × Char) :=
  [('"', '"'), ('\\', '\\'), ('/', '/'), ('b', '\x08'), ('f', '\x0c'), ('n', '\n'), ('r', '\r'),
    ('t', '\t')]

/-- A character stands for itself, or an escape or the number of the character stands for it.
Beyond the first 65536 characters it takes the numbers of two surrogates. -/
inductive SpellsChar (c : Char) : List Char → Prop
  | plain (hcontrol : 32 ≤ c.toNat) (hquote : c ≠ '"') (hslash : c ≠ '\\') : SpellsChar c [c]
  | escape {e : Char} (h : (e, c) ∈ escapes) : SpellsChar c ['\\', e]
  | unicode {ds : List Char} (h : SpellsUnit c.toNat ds) : SpellsChar c ('\\' :: 'u' :: ds)
  | pair {high low : List Char} (hlarge : 0x10000 ≤ c.toNat)
    (hhigh : SpellsUnit (0xD800 + (c.toNat - 0x10000) / 0x400) high)
    (hlow : SpellsUnit (0xDC00 + (c.toNat - 0x10000) % 0x400) low) :
    SpellsChar c ('\\' :: 'u' :: high ++ '\\' :: 'u' :: low)

inductive SpellsChars : List Char → List Char → Prop
  | nil : SpellsChars [] []
  | cons {c : Char} {cs t rest : List Char} (h : SpellsChar c t) (hrest : SpellsChars cs rest) :
    SpellsChars (c :: cs) (t ++ rest)

inductive SpellsString (s : String) : List Char → Prop
  | quoted {inner : List Char} (h : SpellsChars s.toList inner) :
    SpellsString s ('"' :: inner ++ ['"'])

/-- The power of ten at the end of a number. -/
structure PowerOfTen where
  mark : Char
  sign : List Char
  digits : List Char
  mark_mem : mark ∈ ['e', 'E']
  sign_mem : sign ∈ [[], ['+'], ['-']]
  digits_ne : digits ≠ []
  isDigit : ∀ c ∈ digits, c.isDigit

def PowerOfTen.text (power : PowerOfTen) : List Char := power.mark :: power.sign ++ power.digits

/-- The parts of a number. A leading zero stands alone, and a point has digits on both sides. -/
structure Numeral where
  sign : List Char
  whole : List Char
  decimals : List Char
  power : Option PowerOfTen
  sign_mem : sign ∈ [[], ['-']]
  whole_ne : whole ≠ []
  whole_isDigit : ∀ c ∈ whole, c.isDigit
  leading : whole.head? = some '0' → whole = ['0']
  decimals_isDigit : ∀ c ∈ decimals, c.isDigit

namespace Numeral

def text (n : Numeral) : List Char :=
  n.sign ++ n.whole ++ (if n.decimals = [] then [] else '.' :: n.decimals)
    ++ n.power.elim [] PowerOfTen.text

def digitsValue (ds : List Char) : Nat := ds.foldl (fun n c => n * 10 + digitValue c) 0

def exponent (n : Numeral) : Int :=
  match n.power with
  | none => 0
  | some power => if power.sign = ['-'] then -digitsValue power.digits else digitsValue power.digits

/-- What the number is worth without its sign. -/
def magnitude (n : Numeral) : Decimal.Ratio :=
  .scaled (digitsValue (n.whole ++ n.decimals)) 10 (n.exponent - n.decimals.length)

/-- The number is not beyond the largest double. -/
def InRange (n : Numeral) : Prop :=
  n.magnitude.num ≤
    (Decimal.Binary64.ratio ⟨2 * Decimal.Binary64.leastFull - 1, Decimal.Binary64.maxExponent⟩).num *
      n.magnitude.den

instance (n : Numeral) : Decidable n.InRange := inferInstanceAs (Decidable (_ ≤ _))

end Numeral

mutual

inductive Spells : Value → List Char → Prop
  | null : Spells .null "null".toList
  | boolTrue : Spells (.bool true) "true".toList
  | boolFalse : Spells (.bool false) "false".toList
  | number (n : Numeral) : Spells (.number (String.ofList n.text)) n.text
  | string {s : String} {t : List Char} (h : SpellsString s t) : Spells (.string s) t
  | emptyArray {inner : List Char} (h : Blanks inner) : Spells (.array []) ('[' :: inner ++ [']'])
  | array {items : List Value} {inner : List Char} (h : SpellsItems items inner) :
    Spells (.array items) ('[' :: inner ++ [']'])
  | emptyObject {inner : List Char} (h : Blanks inner) :
    Spells (.object []) ('\x7b' :: inner ++ ['\x7d'])
  | object {members : List (String × Value)} {inner : List Char} (h : SpellsMembers members inner) :
    Spells (.object members) ('\x7b' :: inner ++ ['\x7d'])

/-- A value with blanks around it. -/
inductive SpellsPadded : Value → List Char → Prop
  | padded {v : Value} {before t behind : List Char} (hbefore : Blanks before) (h : Spells v t)
    (hbehind : Blanks behind) : SpellsPadded v (before ++ t ++ behind)

inductive SpellsItems : List Value → List Char → Prop
  | last {v : Value} {t : List Char} (h : SpellsPadded v t) : SpellsItems [v] t
  | more {v : Value} {items : List Value} {t rest : List Char} (h : SpellsPadded v t)
    (hrest : SpellsItems items rest) : SpellsItems (v :: items) (t ++ ',' :: rest)

inductive SpellsMember : String × Value → List Char → Prop
  | member {name : String} {v : Value} {before n behind t : List Char} (hbefore : Blanks before)
    (hname : SpellsString name n) (hbehind : Blanks behind) (h : SpellsPadded v t) :
    SpellsMember (name, v) (before ++ n ++ behind ++ ':' :: t)

inductive SpellsMembers : List (String × Value) → List Char → Prop
  | last {m : String × Value} {t : List Char} (h : SpellsMember m t) : SpellsMembers [m] t
  | more {m : String × Value} {members : List (String × Value)} {t rest : List Char}
    (h : SpellsMember m t) (hrest : SpellsMembers members rest) :
    SpellsMembers (m :: members) (t ++ ',' :: rest)

end

mutual

/-- How deep groups are nested in a value. -/
def Value.depth : Value → Nat
  | .array items => itemsDepth items + 1
  | .object members => membersDepth members + 1
  | _ => 0

def itemsDepth : List Value → Nat
  | [] => 0
  | v :: rest => max v.depth (itemsDepth rest)

def membersDepth : List (String × Value) → Nat
  | [] => 0
  | (_, v) :: rest => max v.depth (membersDepth rest)

end

mutual

def Value.numbers : Value → List String
  | .number spelling => [spelling]
  | .array items => itemsNumbers items
  | .object members => membersNumbers members
  | _ => []

def itemsNumbers : List Value → List String
  | [] => []
  | v :: rest => v.numbers ++ itemsNumbers rest

def membersNumbers : List (String × Value) → List String
  | [] => []
  | (_, v) :: rest => v.numbers ++ membersNumbers rest

end

end RouteTree.Json
