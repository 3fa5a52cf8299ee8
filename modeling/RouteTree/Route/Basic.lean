import RouteTree.Route.Segment
import RouteTree.Text.Ordered

/-! Route patterns. A route is its list of segments, of which only the last may capture all that is
left. Its text is the canonical spelling of the pattern: one slash before each segment, and a
single slash when there is none. -/
namespace RouteTree

/-- What a route asks for, or what values are given to it. -/
inductive Shape
  | none
  | named
  | catchall
  deriving DecidableEq, Repr

def Shape.label : Shape → String
  | .none => "no"
  | .named => "named"
  | .catchall => "catch-all"

/-- What can be wrong with a pattern or with the values given to a route. -/
inductive RouteError
  | catchallNotLast (pattern : String)
  | missingParam (route name : String)
  | paramsMismatch (route : String) (expected actual : Shape)
  deriving DecidableEq, Repr

def RouteError.message : RouteError → String
  | .catchallNotLast pattern =>
    "catch-all marker must be the last segment in `" ++ pattern ++ "`"
  | .missingParam route name =>
    "missing value for parameter `" ++ name ++ "` of `" ++ route ++ "`"
  | .paramsMismatch route expected actual =>
    "`" ++ route ++ "` expects " ++ expected.label ++ " parameters, got " ++ actual.label

/-- A route pattern in its normal form. -/
structure Route where
  segments : List Segment
  readable : ∀ s ∈ segments, s.Readable
  catchall_last : Segment.catchall ∉ segments.dropLast

namespace Route

theorem ext {a b : Route} (h : a.segments = b.segments) : a = b := by
  cases a; cases b; cases h; rfl

instance : DecidableEq Route := fun a b =>
  if h : a.segments = b.segments then isTrue (ext h) else isFalse fun hab => h (hab ▸ rfl)

/-- The route `/`. -/
def root : Route := ⟨[], by simp, by simp⟩

instance : Inhabited Route := ⟨root⟩

/-- Reads a pattern, in which missing and repeated slashes do not matter. -/
def parse (pattern : String) : Except RouteError Route :=
  let segments := (Text.pieces pattern).map Segment.ofPiece
  if h : Segment.catchall ∉ segments.dropLast then
    .ok ⟨segments, by
      intro s hs
      obtain ⟨piece, hpiece, rfl⟩ := List.mem_map.1 hs
      exact Segment.readable_ofPiece hpiece, h⟩
  else .error (.catchallNotLast pattern)

/-- Each segment after a slash. -/
def slashed (segments : List Segment) : String :=
  String.join (segments.map fun s => "/" ++ s.text)

/-- The canonical spelling. -/
def text (r : Route) : String :=
  if r.segments = [] then "/" else slashed r.segments

def isRoot (r : Route) : Bool := r.segments.isEmpty

def isCatchall (r : Route) : Bool := r.segments.getLast? = some .catchall

/-- The names in the pattern from left to right, repeated ones included. -/
def names (r : Route) : List String :=
  r.segments.filterMap fun
    | .named name => some name
    | _ => none

end Route

/-- What a route captures. -/
inductive ParamKind
  | none
  | named (names : List String)
  | catchall
  deriving DecidableEq, Repr

namespace ParamKind

/-- A capture of all that is left counts alone, whatever names stand before it. -/
def ofRoute (r : Route) : ParamKind :=
  if r.isCatchall then .catchall
  else if r.names = [] then .none
  else .named r.names

def shape : ParamKind → Shape
  | .none => .none
  | .named _ => .named
  | .catchall => .catchall

def hasParams (kind : ParamKind) : Bool := kind.shape ≠ .none

end ParamKind

def Route.kind (r : Route) : ParamKind := ParamKind.ofRoute r

end RouteTree
