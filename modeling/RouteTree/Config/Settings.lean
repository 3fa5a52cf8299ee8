import RouteTree.Files.Path
import RouteTree.Text.Pieces

/-! What can be configured: where the routes come from, and where the generated module goes. -/
namespace RouteTree

/-- How routes are found. -/
inductive Strategy
  /-- In the pages tree. -/
  | fs
  /-- In the page registry of the host framework. -/
  | registry
  deriving DecidableEq, Repr

def Strategy.named : List (String × Strategy) := [("fs", .fs), ("registry", .registry)]

def Strategy.name : Strategy → String
  | .fs => "fs"
  | .registry => "registry"

inductive Framework
  | react
  | solid
  | vue
  | none
  deriving DecidableEq, Repr

namespace Framework

def named : List (String × Framework) :=
  [("react", .react), ("solid", .solid), ("vue", .vue), ("none", .none)]

def name : Framework → String
  | .react => "react"
  | .solid => "solid"
  | .vue => "vue"
  | .none => "none"

/-- The module that exports the page context. -/
def importSource? : Framework → Option String
  | .react => some "vike-react/usePageContext"
  | .solid => some "vike-solid/usePageContext"
  | .vue => some "vike-vue/usePageContext"
  | .none => Option.none

/-- The framework that build plugins belong to, told by their names. Letter case does not matter;
of several frameworks the first in the order react, solid, vue is meant. -/
def detect (plugins : List String) : Framework :=
  let names := plugins.map fun plugin => String.ofList (plugin.toList.map Char.toLower)
  if names.any (Text.contains "react") then .react
  else if names.any (Text.contains "solid") then .solid
  else if names.any (Text.contains "vue") then .vue
  else .none

end Framework

/-- Where the parameter helper imports the page context from. -/
inductive ImportSource
  /-- Switched off, or left to the framework. -/
  | toggle (on : Bool)
  | module (name : String)
  deriving DecidableEq, Repr

structure PagesSettings where
  dir : Path := ⟨"pages"⟩
  strategy : Strategy := .fs
  registry : Path := ⟨".routegen/registry.json"⟩
  deriving DecidableEq, Repr

structure OutputSettings where
  path : Option Path := none
  framework : Option Framework := none
  importSource : Option ImportSource := none
  /-- Build plugins, from which the framework is told when it is not set. -/
  plugins : List String := []
  deriving DecidableEq, Repr

/-- The module that the parameter helper imports from; none means no helper. -/
def OutputSettings.importSource? (output : OutputSettings) : Option String :=
  match output.importSource with
  | some (.toggle false) => none
  | some (.module name) => some name
  | some (.toggle true) | none =>
    (output.framework.getD (Framework.detect output.plugins)).importSource?

structure Settings where
  pages : PagesSettings := {}
  output : OutputSettings := {}
  deriving DecidableEq, Repr, Inhabited

end RouteTree
