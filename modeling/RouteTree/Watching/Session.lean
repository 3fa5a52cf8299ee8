import RouteTree.Generator.Basic
import RouteTree.Watching.Batcher
import RouteTree.Watching.Observation
import RouteTree.Watching.Roots

/-! A watch session: a pass at the start, and a pass for every batch of changes. Directories are
watched before the first pass, so no change that happens during it is lost. Between two looks at the
files the session sleeps as long as nothing can be ready. -/
namespace RouteTree.Watching

structure Session where
  project : Project
  generator : Generator
  workspace : Workspace
  roots : WatchRoots
  batcher : Batcher := {}
  /-- The current time. -/
  now : Nat := 0
  /-- When to look again unless something happens before. -/
  wake : Nat

/-- How often to look for directories that are not there. -/
def rootPoll : Nat := 1000 * millisecond

namespace Session

/-- How long the session can sleep. -/
def sleep (s : Session) : Nat :=
  if s.roots.allAttached then s.batcher.sleep s.now else min (s.batcher.sleep s.now) rootPoll

/-- Goes to sleep. -/
def rest (s : Session) : Session := { s with wake := s.now + s.sleep }

/-- Takes in notices one after another. -/
def addNotices (ws : Workspace) (now : Nat) (b : Batcher) : List Notice → Batcher × Terminal.Log
  | [] => (b, [])
  | notice :: others =>
    let (b, log) := b.add ws now notice
    let (last, logs) := addNotices ws now b others
    (last, log ++ logs)

/-- The files have become others; `touched` are the locations that were written. -/
def observe (s : Session) (after : Workspace) (touched : List Location) :
    Session × Terminal.Log :=
  let seen := notices s.roots.attached s.workspace after touched
  let (batcher, log) := addNotices after s.now s.batcher seen
  let s := { s with workspace := after, batcher }
  (if seen.isEmpty then s else s.rest, log)

/-- The locations that a pass has written. -/
def written (pass : Pass) : List Location :=
  match pass.outcome with
  | .emitted _ => (pass.workspace.locate pass.generator.output).toOption.toList
  | _ => []

/-- Keeps what a pass leaves behind. What the pass has written is seen like any other change. -/
def accept (s : Session) (pass : Pass) : Session × Terminal.Log :=
  { s with generator := pass.generator }.observe pass.workspace (written pass)

/-- Begins a session. -/
def start (project : Project) (ws : Workspace) : Session × List Terminal.Event :=
  let g := Generator.ofProject project
  let roots : WatchRoots := { desired := g.source.watchRoots }
  let pass := g.build ws
  let s : Session := {
    project, generator := g, workspace := ws, roots := roots.attachExisting ws, wake := 0 }
  let (s, log) := s.accept pass
  (s.rest, (roots.waitingLog ws ++ pass.log ++ pass.outcome.report g.displayPath
    ++ roots.desired.map (fun root =>
        Terminal.info "watch" ("watching " ++ (project.relative root).text))
    ++ log).map .log)

/-- Looks after the watched directories. One that has appeared is a change. -/
def maintain (s : Session) : Session × Terminal.Log :=
  let (roots, appeared) := s.roots.maintain s.workspace
  let (batcher, log) := s.batcher.recordAll s.now .created appeared
  ({ s with roots, batcher }, WatchRoots.appearedLog appeared ++ log)

/-- The pass for a batch, shown as a status at a time of day. -/
def react (s : Session) (time : String) (changed : List Path) : Session × List Terminal.Event :=
  let pass := s.generator.react s.workspace changed
  let (s, log) := s.accept pass
  (s, (Terminal.debug "watch" (toString changed.length ++ " changed paths") :: pass.log).map .log
    ++ ((pass.outcome.status? pass.generator.displayPath).map (.status time)).toList
    ++ log.map .log)

/-- Looks at what waits, and goes to sleep again. -/
def look (s : Session) (time : String) : Session × List Terminal.Event :=
  let (s, log) := s.maintain
  let (batcher, batch) := s.batcher.take s.now
  let s := { s with batcher }
  match batch with
  | none => (s.rest, log.map .log)
  | some changed =>
    let (s, events) := s.react time changed
    (s.rest, log.map .log ++ events)

/-- Whether a status is among what is printed. -/
def hasStatus (events : List Terminal.Event) : Bool :=
  events.any fun
    | .status _ _ => true
    | _ => false

/-- Lets time pass up to a deadline, and looks whenever it is time to. With `untilStatus` it ends as
soon as a status is shown. The number of looks is at most the first argument. -/
def passTime (time : String) (untilStatus : Bool) (deadline : Nat) :
    Nat → Session → Session × List Terminal.Event
  | 0, s => (s, [])
  | looks + 1, s =>
    if s.wake ≤ deadline then
      let (s, events) := { s with now := s.wake }.look time
      if untilStatus && hasStatus events then (s, events)
      else
        let (s, more) := passTime time untilStatus deadline looks s
        (s, events ++ more)
    else ({ s with now := max s.now deadline }, [])

/-- Lets time pass. Two looks are at least a millisecond apart. -/
def advance (s : Session) (time : String) (untilStatus : Bool) (duration : Nat) :
    Session × List Terminal.Event :=
  passTime time untilStatus (s.now + duration) (duration / millisecond + 1) s

/-- What is told at the end. -/
def stopLog : Terminal.Log := [Terminal.info "watch" "stopped"]

end Session

end RouteTree.Watching
