import RouteTree.Route.Params

/-! What the two functions of the generated module compute. They are given a route as its text, so
they find out what it captures, and where, from the characters: a slash before an at sign is the
mark of a capture, and a capture of all that is left has it at the end. -/
namespace RouteTree.Artifact.Runtime

/-- The text after its first characters. -/
def dropFront (n : Nat) (s : String) : String := String.ofList (s.toList.drop n)

/-- The text before its last characters. -/
def dropBack (n : Nat) (s : String) : String := String.ofList (s.toList.take (s.toList.length - n))

/-- Values that are to be a list; none are an empty list, and a record is no list. -/
def asList? : Params → Option (List String)
  | .none => some []
  | .catchall pieces => some pieces
  | .named _ => none

/-- Values that are to be a record; none are an empty record, and a list is no record. -/
def asRecord? : Params → Option (Text.Dictionary String)
  | .none => some .empty
  | .named values => some values
  | .catchall _ => none

/-- A part of a route with its value, if it asks for one. A name without a value stays as it is. -/
def substitute (values : Text.Dictionary String) (part : String) : String :=
  if Text.startsWith "@" part then (values.get? (dropFront 1 part)).getD part else part

/-- The path part of `getRoute`. Values of another kind than the one the branch is for give
nothing. -/
def path? (route : String) (params : Params) : Option String :=
  if Text.endsWith "/@" route then
    (asList? params).map fun parts => dropBack 2 route ++ "/" ++ Text.join "/" parts
  else if Text.contains "/@" route then
    (asRecord? params).map fun values =>
      Text.join "/" ((Text.slashSplit route).map (substitute values))
  else some route

/-- `getRoute` on the text of a route, with the values and the pairs of the query in its options. -/
def getRoute (route : String) (params : Params) (search : List (String × String)) :
    Option String :=
  (path? route params).map fun path =>
    let query := Form.serialize search
    if query.isEmpty then path else path ++ "?" ++ query

/-- `extractRouteParams` on the captures of the host router. It does not look at the route. -/
def extractRouteParams (_route : String) (raw : Text.Dictionary String) : Params :=
  match raw.get? "*" with
  | some rest => .catchall ((Text.slashSplit rest).filter fun part => !part.isEmpty)
  | none => .named raw

end RouteTree.Artifact.Runtime
