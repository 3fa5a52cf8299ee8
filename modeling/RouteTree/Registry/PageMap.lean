import RouteTree.Json.Reader
import RouteTree.Registry.HostRoute
import RouteTree.Text.Ordered

/-! The page registry of a host framework: JSON text with an entry for each page id. The entries
may stand under a key `pages` or make up the whole file. -/
namespace RouteTree.Registry

/-- What a registry says of one page. A `null` route is no route. -/
structure PageEntry where
  route : Option Json.Value
  deriving Inhabited

def PageEntry.routeText? (entry : PageEntry) : Option String :=
  entry.route.bind Json.Value.string?

/-- Pages by id. -/
abbrev PageMap := Text.Dictionary PageEntry

/-- Why registry text has no page map. -/
inductive Fault
  | syntaxError (e : Json.SyntaxError)
  /-- Well-formed, but of neither form. -/
  | otherShape
  deriving DecidableEq, Repr

def Fault.message : Fault → String
  | .syntaxError e => e.message
  | .otherShape => "data did not match any variant of untagged enum RegistryFile"

def nonNull? : Json.Value → Option Json.Value
  | .null => none
  | v => some v

/-- The values under a key, in the order of the text. -/
def valuesUnder (key : String) (members : List (String × Json.Value)) : List Json.Value :=
  members.filterMap fun (k, v) => if k = key then some v else none

/-- An entry is an object with at most one `route`, or an array of at most the route itself. -/
def PageEntry.ofValue? : Json.Value → Option PageEntry
  | .object members =>
    match valuesUnder "route" members with
    | [] => some ⟨none⟩
    | [v] => some ⟨nonNull? v⟩
    | _ => none
  | .array [] => some ⟨none⟩
  | .array [v] => some ⟨nonNull? v⟩
  | _ => none

/-- An object whose members are all entries; of members with one id the last counts. -/
def PageMap.ofValue? : Json.Value → Option PageMap
  | .object members =>
    (members.mapM fun member => (PageEntry.ofValue? member.2).map (member.1, ·)).map
      Text.Ordered.ofList
  | _ => none

/-- The map under the one key `pages` of an object. -/
def PageMap.ofWrapped? : Json.Value → Option PageMap
  | .object members =>
    match valuesUnder "pages" members with
    | [v] => PageMap.ofValue? v
    | _ => none
  | _ => none

/-- Reads a registry; the form with a `pages` key is tried first. That the first value is of
neither form shows before anything that follows it. -/
def PageMap.parse (content : String) : Except Fault PageMap := do
  let (v, rest) ← (Json.readFirst content.toList).mapError .syntaxError
  match (PageMap.ofWrapped? v).orElse fun _ => PageMap.ofValue? v with
  | none => .error .otherShape
  | some pages =>
    (Json.checkEnd content.toList rest).mapError .syntaxError
    .ok pages

/-- One route for each page that has a route string, in byte order of the ids. -/
def PageMap.routes (pages : PageMap) : List RawRoute :=
  pages.toList.filterMap fun (_, entry) => entry.routeText?.map RawRoute.ofHost

/-- A note for each page without a route string. -/
def PageMap.notes (pages : PageMap) : Terminal.Log :=
  pages.toList.filterMap fun (id, entry) =>
    match entry.routeText? with
    | some _ => none
    | none => some (Terminal.debug "discover" ("page " ++ id ++ " has no route string"))

end RouteTree.Registry
