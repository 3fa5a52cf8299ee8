import RouteTree.Config.Settings
import RouteTree.Files.Workspace

/-! A project: settings with every path resolved against the project root. -/
namespace RouteTree

structure Project where
  /-- The settings file, which need not be there. -/
  config : Path
  root : Path
  settings : Settings
  pagesDir : Path
  registry : Path
  output : Path
  deriving DecidableEq, Repr

namespace Project

/-- The name of the generated file when none is set. -/
def outputName : Path := ⟨"route-tree.gen.ts"⟩

/-- Where the generated file goes: the path that is set, else into the source directory if the
project has one, else into the root. -/
def outputPath (ws : Workspace) (root : Path) (settings : Settings) : Path :=
  match settings.output.path with
  | some path => root.join path
  | none =>
    let src := root.join ⟨"src"⟩
    if ws.isDirectory src then src.join outputName else root.join outputName

/-- Resolves the paths of the settings. -/
def resolve (ws : Workspace) (config root : Path) (settings : Settings) : Project :=
  let root := ws.normalize root
  { config, root, settings
    pagesDir := ws.normalize (root.join settings.pages.dir)
    registry := ws.normalize (root.join settings.pages.registry)
    output := ws.normalize (outputPath ws root settings) }

/-- A path as seen from the root, or the path itself if it lies elsewhere. -/
def relative (project : Project) (p : Path) : Path :=
  (Path.stripBase? project.root p).getD p

/-- How the generated file is named in messages. -/
def displayPath (project : Project) : String := "./" ++ (project.relative project.output).text

end Project

end RouteTree
