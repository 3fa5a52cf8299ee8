import RouteTree.Decimal.Binary64

/-! TOML documents. Tables keep their keys in the order of the text. -/
namespace RouteTree.Toml

/-- A floating point number. -/
inductive Float64
  | nan
  | infinite (negative : Bool)
  | finite (negative : Bool) (magnitude : Decimal.Binary64)
  deriving DecidableEq, Repr

/-- The number without an exponent and with a point. -/
def Float64.text : Float64 → String
  | .nan => "NaN"
  | .infinite negative => if negative then "-inf" else "inf"
  | .finite negative magnitude => (if negative then "-" else "") ++ magnitude.positional

/-- How a table came about, which decides what may still be added to it. -/
inductive Origin
  /-- By a header of its own, or as the document. -/
  | header
  /-- By the header of a table inside it. -/
  | implied
  /-- By a dotted key. -/
  | dotted
  /-- Between braces. -/
  | braces
  deriving DecidableEq, Repr

inductive Value
  | string (s : String)
  | integer (n : Int)
  | float (x : Float64)
  | boolean (b : Bool)
  | datetime (text : String)
  | array (items : List Value)
  | table (origin : Origin) (entries : List (String × Value))
  /-- The tables of a double-bracket header, in reverse. -/
  | tables (elements : List (List (String × Value)))
  deriving Repr, Inhabited

/-- The entries of a table in the order of the text. -/
abbrev Entries := List (String × Value)

end RouteTree.Toml
