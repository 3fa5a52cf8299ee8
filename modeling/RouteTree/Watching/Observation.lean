import RouteTree.Files.Workspace
import RouteTree.Watching.Change

/-! What a watcher sees when a file tree changes. It watches whole directories: those below its
roots, and those that symbolic links below its roots lead to. -/
namespace RouteTree.Watching

/-- A directory and those below it. `above` are the directories that the descent is in. -/
def directoriesFrom (tree : FileTree) (above : List Location) (here : Location) : List Location :=
  if _hcycle : here ∈ above then []
  else
    match _hnode : tree.node? here with
    | some .directory =>
      here :: (tree.children here).flatMap fun name =>
        match tree.lookup linkLimit here [name] with
        | .ok there => directoriesFrom tree (here :: above) there
        | .error _ => []
    | _ => []
  termination_by tree.directoriesLeft above
  decreasing_by exact FileTree.directoriesLeft_cons_lt _hnode _hcycle

/-- The locations of the roots, and all directories below them. -/
def watchedFrom (ws : Workspace) (roots : List Path) : List Location × List Location :=
  let starts := roots.filterMap fun root => (ws.locate root).toOption
  (starts, starts.flatMap (directoriesFrom ws.files []))

/-- Whether a location is watched: as a root, or as what a watched directory holds. -/
def isWatched (watched : List Location × List Location) (loc : Location) : Bool :=
  watched.1.contains loc || watched.2.contains loc.tail

/-- How one file tree differs from another. `touched` are locations whose files were written. -/
def differences (before after : FileTree) (touched : List Location) :
    List (Location × NoticeKind) :=
  let gone := (before.entries.map Prod.fst).filter fun loc => (after.node? loc).isNone
  let fresh := (after.entries.map Prod.fst).filter fun loc => (before.node? loc).isNone
  let written := touched.filter fun loc => (before.node? loc).isSome && (after.node? loc).isSome
  gone.map (·, .remove) ++ fresh.map (·, .create) ++ written.map (·, .modify)

/-- The notices that a watcher of the roots gets. -/
def notices (roots : List Path) (before after : Workspace) (touched : List Location) :
    List Notice :=
  let watchedBefore := watchedFrom before roots
  let watchedAfter := watchedFrom after roots
  ((differences before.files after.files touched).filter fun (loc, _) =>
      isWatched watchedBefore loc || isWatched watchedAfter loc).map fun (loc, kind) =>
    ⟨kind, [loc.path]⟩

end RouteTree.Watching
