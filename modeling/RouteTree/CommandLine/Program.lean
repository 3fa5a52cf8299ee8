import RouteTree.CommandLine.Commands
import RouteTree.CommandLine.Reader
import RouteTree.Config.Loading
import RouteTree.Watching.Session

/-! The whole program, up to its end or to the point from which it goes on watching. -/
namespace RouteTree.CommandLine

/-- How the program goes on. -/
inductive Next
  /-- It is at its end. -/
  | exit (failure : Option Failure)
  | watch (session : Watching.Session)

/-- What the program has done so far. -/
structure Progress where
  workspace : Workspace
  /-- What was printed. -/
  events : List Terminal.Event
  /-- Lines on the error output. -/
  errors : List String
  next : Next

def Next.exitCode : Next → Nat
  | .exit (some _) => 1
  | .exit none | .watch _ => 0

/-- Runs a command in a project. -/
def perform (project : Project) (command : Command) (ws : Workspace) : Progress :=
  match command with
  | .build strict =>
    let run := build project strict ws
    ⟨run.workspace, run.events, [], .exit run.failure⟩
  | .routes json =>
    let run := list project json ws
    ⟨run.workspace, run.events, [], .exit run.failure⟩
  | .watch =>
    let (session, events) := Watching.Session.start project ws
    ⟨session.workspace, events, [], .watch session⟩

/-- Runs the program. A failure is reported on the error output. -/
def run (options : Options) (ws : Workspace) : Progress :=
  let loaded := Config.load ws options
  let first := Terminal.Event.setVerbose options.verbose :: loaded.log.map .log
  let progress : Progress := match loaded.result with
    | .error e => ⟨ws, [], [], .exit (some e.failure)⟩
    | .ok project => perform project options.command ws
  let report := match progress.next with
    | .exit (some failure) => failure.report
    | _ => []
  { progress with
    events := first ++ progress.events
    errors := loaded.errors ++ progress.errors ++ report }

end RouteTree.CommandLine
