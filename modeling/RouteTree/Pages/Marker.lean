import RouteTree.Files.Workspace
import RouteTree.Terminal.Log

/-! Pages that take all that is left of a URL. The route file beside the page says so: its route
string ends in the wildcard of the host. -/
namespace RouteTree.Pages

/-- Names of route files; the first that is there counts. -/
def routeFiles : List String := ["+route.ts", "+route.js", "+route.tsx", "+route.jsx"]

/-- A wildcard right before a closing quote, or one blank before it. -/
def hasWildcardMarker (content : String) : Bool :=
  Text.contains "/*\"" content || Text.contains "/* \"" content

/-- The route file of a page directory. -/
def routeFile? (ws : Workspace) (dir : Path) : Option Path :=
  (routeFiles.map fun name => dir.join ⟨name⟩).find? ws.isFile

/-- Whether the page in a directory takes all that is left; a route file that cannot be read does
not say so. -/
def isCatchallDir (ws : Workspace) (dir : Path) : Bool :=
  match routeFile? ws dir with
  | none => false
  | some file =>
    match ws.readText file with
    | .ok content => hasWildcardMarker content
    | .error _ => false

/-- A note on a route file that cannot be read. -/
def markerNotes (ws : Workspace) (dir : Path) : Terminal.Log :=
  match routeFile? ws dir with
  | none => []
  | some file =>
    match ws.readText file with
    | .ok _ => []
    | .error e => [Terminal.debug "discover" ("cannot read " ++ file.text ++ ": " ++ e.message)]

end RouteTree.Pages
