import RouteTree.Route.Basic
import RouteTree.Form.UrlEncoded

/-! URLs from routes and values, and values from the captures of a host router. -/
namespace RouteTree

/-- Values for what a route captures. -/
inductive Params
  | none
  | named (values : Text.Dictionary String)
  | catchall (pieces : List String)
  deriving DecidableEq

def Params.shape : Params → Shape
  | .none => .none
  | .named _ => .named
  | .catchall _ => .catchall

/-- The name under which a host router reports the capture of all that is left. -/
def restKey : String := "*"

namespace Route

/-- The segments with each name replaced by its value; the leftmost name without a value is an
error. -/
def fill (r : Route) (values : Text.Dictionary String) : List Segment → Except RouteError String
  | [] => .ok ""
  | .named name :: rest =>
    match values.get? name with
    | some value => (fill r values rest).map ("/" ++ value ++ ·)
    | Option.none => .error (.missingParam r.text name)
  | s :: rest => (fill r values rest).map ("/" ++ s.text ++ ·)

/-- The pattern of a catch-all route up to its last segment; empty for `/@`. -/
def base (r : Route) : String := slashed r.segments.dropLast

/-- The URL for the given values. A route that captures nothing takes an empty dictionary too. -/
def build (r : Route) (params : Params) : Except RouteError String :=
  match r.kind, params with
  | .catchall, .catchall pieces => .ok (r.base ++ "/" ++ Text.join "/" pieces)
  | .named _, .named values => r.fill values r.segments
  | .none, .none => .ok r.text
  | .none, .named values =>
    if values.isEmpty then .ok r.text
    else .error (.paramsMismatch r.text .none .named)
  | kind, params => .error (.paramsMismatch r.text kind.shape params.shape)

/-- The URL with a query in the order given; no pairs add no question mark. -/
def buildWithSearch (r : Route) (params : Params) (search : List (String × String)) :
    Except RouteError String :=
  (r.build params).map fun url =>
    match Form.serialize search with
    | "" => url
    | query => url ++ "?" ++ query

/-- The values in a host router's captures. A capture of all that is left is cut into its non-empty
pieces; any other captures have to hold every name of the route, and may hold more. -/
def extract (r : Route) (raw : Text.Dictionary String) : Except RouteError Params :=
  match raw.get? restKey, r.kind with
  | some rest, .catchall => .ok (.catchall (Text.pieces rest))
  | some _, kind => .error (.paramsMismatch r.text kind.shape .catchall)
  | Option.none, .catchall => .error (.paramsMismatch r.text .catchall .named)
  | Option.none, .named names =>
    match names.find? fun name => !raw.contains name with
    | some missing => .error (.missingParam r.text missing)
    | Option.none => .ok (.named raw)
  | Option.none, .none => .ok (if raw.isEmpty then .none else .named raw)

end Route

end RouteTree
