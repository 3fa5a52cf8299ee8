import RouteTree.Files.Workspace
import RouteTree.Terminal.Log

/-! The directories to watch. One that is not there is waited for, and one that went away and came
back is taken up again. -/
namespace RouteTree.Watching

structure WatchRoots where
  desired : List Path
  /-- Those that are being watched. -/
  attached : List Path := []
  deriving DecidableEq, Repr

namespace WatchRoots

def isAttached (attached : List Path) (p : Path) : Bool := attached.any p.same

def allAttached (roots : WatchRoots) : Bool := roots.desired.all (isAttached roots.attached)

/-- Those among the paths that are there and are not watched yet, each once. -/
def appearing (ws : Workspace) (attached : List Path) : List Path → List Path
  | [] => []
  | p :: rest =>
    if isAttached attached p || !ws.pathExists p then appearing ws attached rest
    else p :: appearing ws (p :: attached) rest

/-- Begins to watch what is there. -/
def attachExisting (roots : WatchRoots) (ws : Workspace) : WatchRoots :=
  { roots with
    attached := roots.attached ++ appearing ws roots.attached roots.desired }

/-- What is told about the directories that are not there. -/
def waitingLog (roots : WatchRoots) (ws : Workspace) : Terminal.Log :=
  (roots.desired.filter fun p => !ws.pathExists p).map fun p =>
    Terminal.info "watch" (p.text ++ " does not exist yet, waiting for it")

/-- Gives up what is gone and takes up what has appeared; the latter is returned too. -/
def maintain (roots : WatchRoots) (ws : Workspace) : WatchRoots × List Path :=
  let left := roots.attached.filter ws.pathExists
  let appeared := appearing ws left roots.desired
  ({ roots with attached := left ++ appeared }, appeared)

def appearedLog (appeared : List Path) : Terminal.Log :=
  appeared.map fun p => Terminal.debug "watch" ("attached watch: " ++ p.text)

end WatchRoots

end RouteTree.Watching
