import RouteTree.Route.Basic
import RouteTree.Json.Printer
import RouteTree.Terminal.Log

/-! The canonical route table: every route found in a pass, once, in byte order of the patterns.
It does not depend on the order in which the routes were found. -/
namespace RouteTree

/-- A route as it was found: the path of its page, and whether the page takes all that is left of
a URL. -/
structure RawRoute where
  path : String
  catchall : Bool
  deriving DecidableEq, Repr

/-- The pattern of the route. -/
def RawRoute.pattern (raw : RawRoute) : String :=
  if raw.catchall then Text.trimEndSlashes raw.path ++ "/@" else raw.path

/-- Routes in strictly increasing byte order of their patterns. -/
abbrev RouteTable := Text.Ordered Route.text

namespace RouteTable

/-- The table of the patterns that can be read; the others are left out. -/
def ofPatterns (patterns : List String) : RouteTable :=
  .ofList (patterns.filterMap fun pattern => (Route.parse pattern).toOption)

/-- One warning for each pattern that is left out, in the order given. -/
def warnings (patterns : List String) : Terminal.Log :=
  patterns.filterMap fun pattern =>
    match Route.parse pattern with
    | .ok _ => none
    | .error e => some (Terminal.warning ("skipping route `" ++ pattern ++ "`: " ++ e.message))

def ofRaw (raw : List RawRoute) : RouteTable := ofPatterns (raw.map RawRoute.pattern)

def rawWarnings (raw : List RawRoute) : Terminal.Log := warnings (raw.map RawRoute.pattern)

def texts (table : RouteTable) : List String := table.toList.map Route.text

/-- The route with the given canonical spelling. -/
def get? (table : RouteTable) (pattern : String) : Option Route := table.bisect? pattern

def toValue (table : RouteTable) : Json.Value := .array (table.texts.map .string)

/-- The patterns as a compact JSON array. -/
def toJson (table : RouteTable) : String := table.toValue.compact

/-- The patterns as a JSON array over lines. -/
def toPrettyJson (table : RouteTable) : String := table.toValue.pretty

end RouteTable

end RouteTree
