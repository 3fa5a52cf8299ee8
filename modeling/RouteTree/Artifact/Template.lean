/-! Templates. A placeholder is a name of capitals and underscores, at least two characters long,
between two underscores and two underscores; it starts and ends with a capital. Values are put in
once and are not read again. -/
namespace RouteTree.Artifact

def isNameChar (c : Char) : Bool := c.isUpper || c = '_'

/-- Whether a closing mark stands at the front. -/
def isClosed : List Char → Bool
  | '_' :: '_' :: _ => true
  | _ => false

/-- The longest rest of a name at the front of a text: it ends in a capital before a closing
mark. -/
def nameRest? : List Char → Option (List Char)
  | [] => none
  | c :: cs =>
    if isNameChar c then
      match nameRest? cs with
      | some rest => some (c :: rest)
      | none => if c.isUpper && isClosed cs then some [c] else none
    else none

/-- The name of the placeholder at the front of a text. -/
def placeholder? : List Char → Option (List Char)
  | '_' :: '_' :: c :: cs => if c.isUpper then (nameRest? cs).map (c :: ·) else none
  | _ => none

/-- A piece of a template. -/
inductive Piece
  | char (c : Char)
  | hole (name : List Char)
  deriving DecidableEq, Repr

/-- The pieces after the first `skip` characters, which belong to a placeholder already seen. -/
def templateAfter (skip : Nat) : List Char → List Piece
  | [] => []
  | c :: cs =>
    match skip with
    | skip + 1 => templateAfter skip cs
    | 0 =>
      match placeholder? (c :: cs) with
      | some name => .hole name :: templateAfter (name.length + 3) cs
      | none => .char c :: templateAfter 0 cs

/-- The pieces of a template from left to right: a placeholder wherever one starts, else a
character. -/
def template (content : List Char) : List Piece := templateAfter 0 content

/-- The text of a piece under an assignment of values; a placeholder without a value stays. -/
def Piece.fill (value? : String → Option String) : Piece → List Char
  | .char c => [c]
  | .hole name =>
    match value? (String.ofList name) with
    | some value => value.toList
    | none => '_' :: '_' :: name ++ ['_', '_']

/-- The template with values for its placeholders. -/
def fill (value? : String → Option String) (content : String) : String :=
  String.ofList ((template content.toList).flatMap (Piece.fill value?))

end RouteTree.Artifact
