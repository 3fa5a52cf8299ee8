import RouteTree.Config.Project
import RouteTree.Failure
import RouteTree.Pages.Walk
import RouteTree.Registry.PageMap

/-! Where routes come from: the pages tree, or the page registry of a host framework. -/
namespace RouteTree

inductive RouteSource
  | pages (dir : Path)
  | registry (file : Path)
  deriving DecidableEq, Repr

/-- Why a source gives no routes. A pages tree always gives some, or none at all. -/
inductive SourceError
  | unreadable (file : Path) (cause : IoError)
  | invalid (file : Path) (fault : Registry.Fault)
  deriving DecidableEq

def SourceError.failure : SourceError → Failure
  | .unreadable file cause => ⟨"IO error when reading `" ++ file.text ++ "`", [cause.message]⟩
  | .invalid file fault => ⟨"invalid page registry `" ++ file.text ++ "`", [fault.message]⟩

/-- What a source gives, and what there is to say about it. -/
structure Discovery where
  log : Terminal.Log
  routes : Except SourceError (List RawRoute)

namespace RouteSource

def ofProject (project : Project) : RouteSource :=
  match project.settings.pages.strategy with
  | .fs => .pages project.pagesDir
  | .registry => .registry project.registry

def strategy : RouteSource → Strategy
  | .pages _ => .fs
  | .registry _ => .registry

def name (source : RouteSource) : String := source.strategy.name

/-- The pages in a registry file. -/
def readRegistry (ws : Workspace) (file : Path) : Except SourceError Registry.PageMap := do
  let content ← (ws.readText file).mapError (.unreadable file)
  (Registry.PageMap.parse content).mapError (.invalid file)

/-- Looks for routes. -/
def discover (source : RouteSource) (ws : Workspace) : Discovery :=
  match source with
  | .pages dir =>
    let findings := Pages.walk ws dir
    ⟨Pages.notes findings, .ok (Pages.routes findings)⟩
  | .registry file =>
    match readRegistry ws file with
    | .ok found => ⟨found.notes, .ok found.routes⟩
    | .error e => ⟨[], .error e⟩

/-- Whether a table that has not changed is not written again. A registry is written anew often, and
most times with the same pages. -/
def comparesFirst : RouteSource → Bool
  | .pages _ => false
  | .registry _ => true

/-- The directories to watch. A registry is watched through its directory, as it may be replaced
as a whole. -/
def watchRoots : RouteSource → List Path
  | .pages dir => [dir]
  | .registry file => file.parent?.toList

end RouteSource

end RouteTree
