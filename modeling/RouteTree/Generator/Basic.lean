import RouteTree.Artifact.Output
import RouteTree.Generator.Outcome
import RouteTree.Generator.Source

/-! The generator: it keeps the generated module in step with the routes. A pass looks for routes,
plans what to do with them, writes, and remembers the table that was written last. -/
namespace RouteTree

structure Generator where
  source : RouteSource
  output : Path
  /-- How the generated file is named in messages. -/
  displayPath : String
  importSource : Option String
  /-- The table in the generated file, once there is one. -/
  lastEmitted : Option RouteTable := none

/-- What a pass does with what was found. -/
inductive Plan
  | write (table : RouteTable)
  /-- Nothing is written. -/
  | rest (outcome : Outcome)

/-- A pass: the generator and the files after it, what was said, and what it came to. -/
structure Pass where
  generator : Generator
  workspace : Workspace
  log : Terminal.Log
  outcome : Outcome

namespace Generator

def ofProject (project : Project) : Generator where
  source := .ofProject project
  output := project.output
  displayPath := project.displayPath
  importSource := project.settings.output.importSource?

/-- Whether the table is the one that was written last. -/
def hasEmitted (g : Generator) (table : RouteTable) : Bool :=
  match g.lastEmitted with
  | some last => last.toJson = table.toJson
  | none => false

/-- What to do with what was found. A source that fails means an empty table as long as nothing has
been written; later on the file is left as it is. -/
def plan (g : Generator) (compare : Bool) (found : Except SourceError (List RawRoute)) : Plan :=
  match found with
  | .ok raw =>
    let table := RouteTable.ofRaw raw
    if compare && g.hasEmitted table then .rest .unchanged else .write table
  | .error e => if g.lastEmitted.isSome then .rest (.failed e.failure.chain) else .write .empty

/-- What there is to say about what was found. -/
def remarks (g : Generator) (compare : Bool) (found : Except SourceError (List RawRoute)) :
    Terminal.Log :=
  match found with
  | .ok raw =>
    let table := RouteTable.ofRaw raw
    RouteTable.rawWarnings raw
      ++ (if compare && g.hasEmitted table then
          [Terminal.debug "compiler" (toString table.length ++ " routes unchanged")] else [])
  | .error e =>
    if g.lastEmitted.isSome then []
    else [Terminal.warning (e.failure.chain ++ ", generating an empty route tree")]

/-- The generator after an attempt to write a table, and what the pass came to. -/
def conclude (g : Generator) (table : RouteTable) (written : Except Artifact.WriteError Unit) :
    Generator × Outcome :=
  match written with
  | .ok () => ({ g with lastEmitted := some table }, .emitted table.length)
  | .error e => (g, .failed e.failure.chain)

/-- Carries out a plan. -/
def carryOut (g : Generator) (ws : Workspace) (log : Terminal.Log) (plan : Plan) : Pass :=
  match plan with
  | .rest outcome => ⟨g, ws, log, outcome⟩
  | .write table =>
    let (ws, written) := Artifact.emit ws table g.importSource g.output
    let (g, outcome) := g.conclude table written
    ⟨g, ws, log, outcome⟩

/-- A pass. A table that was written last is written again, unless tables are compared first. -/
def pass (g : Generator) (ws : Workspace) (compare : Bool) : Pass :=
  let discovery := g.source.discover ws
  g.carryOut ws (discovery.log ++ g.remarks compare discovery.routes)
    (g.plan compare discovery.routes)

/-- The pass of a build. -/
def build (g : Generator) (ws : Workspace) : Pass := g.pass ws false

/-- Whether a path means the generated file. -/
def isOutput (g : Generator) (ws : Workspace) (p : Path) : Bool :=
  p.same g.output || (ws.normalize p).same g.output

/-- The pass after changes. Changes of the generated file itself do not count. -/
def react (g : Generator) (ws : Workspace) (changed : List Path) : Pass :=
  if changed.all (g.isOutput ws) then
    ⟨g, ws, [Terminal.debug "compiler" "ignoring change to generated file"], .ignored⟩
  else g.pass ws g.source.comparesFirst

end Generator

end RouteTree
