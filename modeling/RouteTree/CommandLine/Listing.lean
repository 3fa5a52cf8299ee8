import RouteTree.Json.Printer
import RouteTree.Route.Table
import RouteTree.Terminal.Style

/-! The route table as it is shown to the user, as text or as JSON. -/
namespace RouteTree.CommandLine

/-- What a route captures, in words. -/
def describe (r : Route) : String :=
  match r.kind with
  | .none => ""
  | .named names => Text.join ", " (names.map (· ++ ": string"))
  | .catchall => "string[]"

/-- The size of a text in bytes. -/
def byteWidth (r : Route) : Nat := r.text.utf8ByteSize

/-- The text with blanks after it up to a number of characters. -/
def padTo (width : Nat) (s : String) : String :=
  s ++ String.ofList (List.replicate (width - s.length) ' ')

/-- A line for each route. The column of descriptions starts two blanks after the largest size
of a pattern. -/
def tableLines (table : RouteTable) : List String :=
  let width := (table.toList.map byteWidth).foldl max 0
  table.toList.map fun r => padTo width r.text ++ "  " ++ Terminal.faint (describe r)

def kindName (r : Route) : String :=
  match r.kind with
  | .none => "none"
  | .named _ => "named"
  | .catchall => "catchall"

def paramNames (r : Route) : List String :=
  match r.kind with
  | .named names => names
  | .none | .catchall => []

def entry (r : Route) : Json.Value :=
  .object [("route", .string r.text), ("kind", .string (kindName r)),
    ("params", .array ((paramNames r).map .string))]

/-- The table as a JSON array over lines, with an object for each route. -/
def tableJson (table : RouteTable) : String := (Json.Value.array (table.toList.map entry)).pretty

end RouteTree.CommandLine
