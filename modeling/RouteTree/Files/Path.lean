/-! Paths as texts. A path keeps the spelling it was given; it is compared by its components, for
which repeated slashes, single dots inside and slashes at the end do not count. -/
namespace RouteTree

structure Path where
  text : String
  deriving DecidableEq, Repr, Inhabited

/-- A component of a path. -/
inductive Component
  | root
  /-- A single dot at the front of a relative path. -/
  | current
  | parent
  | name (s : String)
  deriving DecidableEq, Repr

namespace Component

/-- Components are ordered by kind, names in byte order. -/
def compare : Component → Component → Ordering
  | .root, .root => .eq
  | .root, _ => .lt
  | _, .root => .gt
  | .current, .current => .eq
  | .current, _ => .lt
  | _, .current => .gt
  | .parent, .parent => .eq
  | .parent, _ => .lt
  | _, .parent => .gt
  | .name a, .name b => Ord.compare a b

/-- What a stretch between slashes stands for, if anything. -/
def ofPart? (part : List Char) : Option Component :=
  match part with
  | [] | ['.'] => none
  | ['.', '.'] => some .parent
  | _ => some (.name (String.ofList part))

end Component

/-- A component together with the stretch of the text that spells it. -/
structure Span where
  component : Component
  start : Nat
  stop : Nat
  deriving DecidableEq, Repr

namespace Path

/-- The spans of the stretches between slashes. The stretch being read is in reverse. -/
def spansFrom (offset : Nat) (stretch : List Char) : List Char → List Span
  | [] => (Component.ofPart? stretch.reverse).toList.map (⟨·, offset - stretch.length, offset⟩)
  | c :: cs =>
    if c = '/' then
      (Component.ofPart? stretch.reverse).toList.map (⟨·, offset - stretch.length, offset⟩)
        ++ spansFrom (offset + 1) [] cs
    else spansFrom (offset + 1) (c :: stretch) cs

/-- The components of a path and where they stand in its text. -/
def spans (p : Path) : List Span :=
  match p.text.toList with
  | '/' :: rest => ⟨.root, 0, 1⟩ :: spansFrom 1 [] rest
  | ['.'] => [⟨.current, 0, 1⟩]
  | '.' :: '/' :: rest => ⟨.current, 0, 1⟩ :: spansFrom 2 [] rest
  | text => spansFrom 0 [] text

def components (p : Path) : List Component := p.spans.map Span.component

/-- Equal component by component. -/
def same (a b : Path) : Bool := a.components = b.components

/-- Component by component, a path before those that it begins. -/
def compareComponents : List Component → List Component → Ordering
  | [], [] => .eq
  | [], _ :: _ => .lt
  | _ :: _, [] => .gt
  | a :: as, b :: bs => (a.compare b).then (compareComponents as bs)

def compare (a b : Path) : Ordering := compareComponents a.components b.components

def isAbsolute (p : Path) : Bool := p.text.toList.head? = some '/'

def isEmpty (p : Path) : Bool := p.text.isEmpty

/-- The second path seen from the first; an absolute one stands for itself. -/
def join (a b : Path) : Path :=
  if b.isAbsolute then b
  else if a.isEmpty || a.text.toList.getLast? = some '/' then ⟨a.text ++ b.text⟩
  else ⟨a.text ++ "/" ++ b.text⟩

/-- The stretch of the text from one offset up to another. -/
def slice (p : Path) (start stop : Nat) : Path :=
  ⟨String.ofList ((p.text.toList.take stop).drop start)⟩

/-- The path without its last component; the root and the empty path have none. -/
def parent? (p : Path) : Option Path :=
  match p.spans.reverse with
  | [] => none
  | last :: earlier =>
    if last.component = .root then none
    else match earlier with
      | [] => some ⟨""⟩
      | before :: _ => some (p.slice 0 before.stop)

/-- The path, its parent, the parent of that, and so on. -/
def ancestors (p : Path) : List Path :=
  p :: (p.spans.dropLast.reverse.map fun span => p.slice 0 span.stop)
    ++ (match p.spans with
      | [] | ⟨.root, _, _⟩ :: _ => []
      | _ => [⟨""⟩])

/-- The last component, if it is a name. -/
def fileName? (p : Path) : Option String :=
  match p.components.getLast? with
  | some (.name s) => some s
  | _ => none

/-- What follows the last dot of the file name; a dot in front starts no extension. -/
def extension? (p : Path) : Option String :=
  p.fileName?.bind fun name =>
    let reversed := name.toList.reverse
    let after := reversed.takeWhile (· ≠ '.')
    let before := reversed.drop (after.length + 1)
    if after.length = reversed.length || before.isEmpty then none
    else some (String.ofList after.reverse)

/-- The spans after those that spell the given components. -/
def spansAfter? : List Component → List Span → Option (List Span)
  | [], spans => some spans
  | _ :: _, [] => none
  | c :: cs, span :: spans => if c = span.component then spansAfter? cs spans else none

/-- The path seen from one that its components begin with. -/
def stripBase? (base p : Path) : Option Path :=
  (spansAfter? base.components p.spans).map fun
    | [] => ⟨""⟩
    | first :: rest => p.slice first.start ((first :: rest).getLast?.elim 0 Span.stop)

end Path

end RouteTree
