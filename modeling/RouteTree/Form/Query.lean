import RouteTree.Form.UrlEncoded
import RouteTree.Json.Reader

/-! Reading the query of a URL. A query stands behind the last question mark and is form-urlencoded
text: pairs between ampersands, each a name and a value around its first equals sign. -/
namespace RouteTree.Form

/-- The bytes that are written. A percent sign that no two hexadecimal digits follow stands for
itself. -/
def unescape : List Char → List UInt8
  | [] => []
  | '+' :: rest => 32 :: unescape rest
  | '%' :: high :: low :: rest =>
    match Json.hexValue? high, Json.hexValue? low with
    | some high, some low => UInt8.ofNat (16 * high + low) :: unescape rest
    | _, _ => 37 :: unescape (high :: low :: rest)
  | c :: rest => String.utf8EncodeChar c ++ unescape rest

/-- The text whose bytes in UTF-8 are written; other bytes are no text. -/
def decode? (cs : List Char) : Option String := String.fromUTF8? (unescape cs).toByteArray

/-- A name and a value; without an equals sign the value is empty. -/
def readPair? (cs : List Char) : Option (String × String) := do
  let name ← decode? (cs.takeWhile (· ≠ '='))
  let value ← decode? ((cs.dropWhile (· ≠ '=')).drop 1)
  return (name, value)

/-- The pairs in their order. Nothing between two ampersands is no pair. -/
def parse? (query : String) : Option (List (String × String)) :=
  ((Text.splitOn '&' query.toList).filter (· ≠ [])).mapM readPair?

/-- What stands before the last question mark of a URL and what stands behind it. -/
def cutQuery? (url : String) : Option (String × String) :=
  match url.toList.reverse.dropWhile (· ≠ '?') with
  | [] => none
  | _ :: front =>
    some (String.ofList front.reverse,
      String.ofList (url.toList.reverse.takeWhile (· ≠ '?')).reverse)

end RouteTree.Form
