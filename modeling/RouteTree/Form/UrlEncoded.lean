import RouteTree.Text.Pieces

/-! Form-urlencoded text: the notation of a URL's query. Names and values are written byte by byte
in UTF-8. -/
namespace RouteTree.Form

def utf8Bytes (s : String) : List UInt8 := s.toList.flatMap String.utf8EncodeChar

/-- Letters, digits and four marks stand for themselves. -/
def isPlain (c : Char) : Bool :=
  c.isAlphanum || c = '*' || c = '-' || c = '.' || c = '_'

/-- The upper-case hexadecimal digit of a value below sixteen. -/
def hexDigit (n : Nat) : Char :=
  if n < 10 then Char.ofNat ('0'.toNat + n) else Char.ofNat ('A'.toNat + (n - 10))

/-- A blank is written as a plus sign, any other byte that is not plain as its two hexadecimal
digits after a percent sign. -/
def encodeByte (b : UInt8) : List Char :=
  if isPlain (Char.ofNat b.toNat) then [Char.ofNat b.toNat]
  else if b = 32 then ['+']
  else ['%', hexDigit (b.toNat / 16), hexDigit (b.toNat % 16)]

def encode (s : String) : String := String.ofList ((utf8Bytes s).flatMap encodeByte)

/-- The pairs in their order. -/
def serialize (pairs : List (String × String)) : String :=
  Text.join "&" (pairs.map fun (name, value) => encode name ++ "=" ++ encode value)

end RouteTree.Form
