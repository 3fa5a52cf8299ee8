import RouteTree.CommandLine.Listing
import RouteTree.Generator.Basic

/-! The commands that end by themselves. -/
namespace RouteTree.CommandLine

/-- What a command leaves behind. -/
structure Run where
  workspace : Workspace
  /-- What it prints. -/
  events : List Terminal.Event
  failure : Option Failure

/-- Generates once. A pass that fails is told; with `strict` it also fails the command. -/
def build (project : Project) (strict : Bool) (ws : Workspace) : Run :=
  let g := Generator.ofProject project
  let pass := g.build ws
  { workspace := pass.workspace
    events := (Terminal.debug "build" ("discovering routes (" ++ g.source.name ++ " strategy)")
      :: pass.log ++ pass.outcome.report g.displayPath).map .log
    failure := match strict, pass.outcome with
      | true, .failed reason => some ⟨"route tree not generated: " ++ reason, []⟩
      | _, _ => none }

/-- What the listing of a table prints. -/
def listing (source : RouteSource) (table : RouteTable) (json : Bool) : List Terminal.Event :=
  if json then [.line (tableJson table)]
  else if table.isEmpty then [.log (Terminal.info "routes" "no routes found")]
  else (tableLines table).map .line
    ++ [.log (Terminal.info "routes"
        (Text.counted table.length "route" ++ " (" ++ source.name ++ ")"))]

/-- Prints the routes. -/
def list (project : Project) (json : Bool) (ws : Workspace) : Run :=
  let source := RouteSource.ofProject project
  let discovery := source.discover ws
  match discovery.routes with
  | .error e =>
    ⟨ws, discovery.log.map .log, some (e.failure.under (source.name ++ " discovery failed"))⟩
  | .ok raw =>
    ⟨ws, (discovery.log ++ RouteTable.rawWarnings raw).map .log
      ++ listing source (.ofRaw raw) json, none⟩

end RouteTree.CommandLine
