import RouteTree.Pages.DirRule
import RouteTree.Pages.Marker
import RouteTree.Route.Table

/-! The walk through a pages tree. Each page file below the root is a route, whose path is made of
the directories on the way. Symbolic links are followed, except into a directory that the walk is
in already, so the walk ends on every file tree. -/
namespace RouteTree.Pages

/-- What the walk comes upon. -/
inductive Finding
  | route (raw : RawRoute)
  | note (entry : Terminal.LogEntry)
  deriving DecidableEq, Repr

def skipped (dir : Path) (e : IoError) : Finding :=
  .note (Terminal.debug "discover" ("skipping " ++ dir.text ++ ": " ++ e.message))

def cycle (dir : Path) : Finding :=
  .note (Terminal.debug "discover" ("skipping symlink cycle at " ++ dir.text))

/-- The path of a page below a directory of the given name. -/
def extend (base name : String) : String := if base.isEmpty then name else base ++ "/" ++ name

/-- The page files of a directory, each a route of the path that leads here. -/
def pagesOf (ws : Workspace) (dir : Path) (base : String) (names : List String) : List Finding :=
  let pages := names.filter fun name => isPageFile name &&
    (match ws.node? (dir.join ⟨name⟩) with
      | some node => !node.isDirectory
      | none => false)
  if pages.isEmpty then []
  else (markerNotes ws dir).map .note
    ++ pages.map fun _ => .route ⟨"/" ++ base, isCatchallDir ws dir⟩

/-- The findings below a directory. `base` is the path that leads here, without the slash in front;
`above` are the directories that the walk is in. -/
def walkFrom (ws : Workspace) (above : List Location) (dir : Path) (base : String) :
    List Finding :=
  match ws.locate dir with
  | .error e => [skipped dir e]
  | .ok here =>
    if _hcycle : here ∈ above then [cycle dir]
    else
      match _hlist : ws.list here with
      | .error e => [skipped dir e]
      | .ok names =>
        pagesOf ws dir base names ++ names.flatMap fun name =>
          if ws.isDirectory (dir.join ⟨name⟩) then
            match DirRule.classify name with
            | .skip => []
            | .transparent => walkFrom ws (here :: above) (dir.join ⟨name⟩) base
            | .segment segment =>
              walkFrom ws (here :: above) (dir.join ⟨name⟩) (extend base segment)
          else []
  termination_by ws.files.directoriesLeft above
  decreasing_by
    all_goals exact FileTree.directoriesLeft_cons_lt (Workspace.node?_of_list _hlist) _hcycle

/-- The findings below a pages root. -/
def walk (ws : Workspace) (root : Path) : List Finding :=
  if ws.isDirectory root then walkFrom ws [] root ""
  else [.note (Terminal.warning ("pages directory not found: " ++ root.text))]

def routes (findings : List Finding) : List RawRoute :=
  findings.filterMap fun
    | .route raw => some raw
    | .note _ => none

def notes (findings : List Finding) : Terminal.Log :=
  findings.filterMap fun
    | .note entry => some entry
    | .route _ => none

end RouteTree.Pages
