import RouteTree.Files.Workspace
import RouteTree.Terminal.Log
import RouteTree.Watching.Change

/-! Batches of changes. Changes are collected until nothing has happened for a while, and batches
keep a distance. Times are in nanoseconds, on any clock that does not go back. -/
namespace RouteTree.Watching

def millisecond : Nat := 1000000

/-- How long it has to be quiet before a batch is taken. -/
def quietTime : Nat := 300 * millisecond

/-- How far apart batches are at least. -/
def cooldown : Nat := 800 * millisecond

/-- The sleep when nothing is pending: a day. -/
def idleSleep : Nat := 86400000 * millisecond

structure Batcher where
  /-- The changes that wait, at most one for a path. A path keeps its first spelling. -/
  pending : List (Path × Change) := []
  /-- When something was recorded last. -/
  lastEvent : Option Nat := none
  /-- When a batch was taken last. -/
  lastPass : Option Nat := none
  deriving DecidableEq, Repr

/-- Puts a change down for a path, in place of the one that is there. -/
def putChange (p : Path) (change : Change) : List (Path × Change) → List (Path × Change)
  | [] => [(p, change)]
  | (q, old) :: rest =>
    if q.same p then (q, change) :: rest else (q, old) :: putChange p change rest

def dropChange (p : Path) (pending : List (Path × Change)) : List (Path × Change) :=
  pending.filter fun e => !e.1.same p

namespace Batcher

/-- The change that waits for a path. -/
def pending? (b : Batcher) (p : Path) : Option Change :=
  (b.pending.find? fun e => e.1.same p).map Prod.snd

/-- Takes note of a change. A change that makes no difference is not noted. -/
def record (b : Batcher) (now : Nat) (p : Path) (change : Change) : Batcher :=
  match change.merge (b.pending? p) with
  | .keep => b
  | .put change => { b with pending := putChange p change b.pending, lastEvent := some now }
  | .drop => { b with pending := dropChange p b.pending, lastEvent := some now }

/-- What there is to say about a change: a path that is new, or one that waits no more. -/
def recordLog (b : Batcher) (p : Path) (change : Change) : Terminal.Log :=
  match b.pending? p, change.merge (b.pending? p) with
  | none, _ => [Terminal.debug "watch" (change.label ++ ": " ++ p.text)]
  | some _, .drop => [Terminal.debug "watch" ("discard created+removed: " ++ p.text)]
  | some _, _ => []

/-- Takes note of one change for each of the paths. -/
def recordAll (b : Batcher) (now : Nat) (change : Change) : List Path → Batcher × Terminal.Log
  | [] => (b, [])
  | p :: rest =>
    let (last, log) := (b.record now p change).recordAll now change rest
    (last, b.recordLog p change ++ log)

/-- The paths that a notice brings up, as they are recorded. -/
def noticed (ws : Workspace) (notice : Notice) : List Path :=
  (notice.paths.filter fun p => !isTemporary p).map ws.normalize

/-- Takes in a notice of the file system. -/
def add (b : Batcher) (ws : Workspace) (now : Nat) (notice : Notice) : Batcher × Terminal.Log :=
  match notice.kind.change? with
  | none => (b, [])
  | some change => b.recordAll now change (noticed ws notice)

/-- Whether so much time has passed since an earlier point in time, if there was one. -/
def hasPassed (now duration : Nat) (since : Option Nat) : Bool :=
  match since with
  | none => true
  | some t => duration ≤ now - t

/-- Whether a batch can be taken: it is quiet, the batch before is long enough ago, and something
waits. -/
def isReady (b : Batcher) (now : Nat) : Bool :=
  b.lastEvent.isSome && hasPassed now quietTime b.lastEvent && hasPassed now cooldown b.lastPass
    && !b.pending.isEmpty

/-- The changes that wait, in path order. -/
def sorted (b : Batcher) : List (Path × Change) :=
  b.pending.mergeSort fun e f => (e.1.compare f.1).isLE

/-- Takes the batch if it is ready: the paths that changed, in path order. -/
def take (b : Batcher) (now : Nat) : Batcher × Option (List Path) :=
  if b.isReady now then ({ lastPass := some now }, some (b.sorted.map Prod.fst))
  else (b, none)

/-- What is left of a duration that began earlier. -/
def remaining (now duration : Nat) (since : Option Nat) : Nat :=
  match since with
  | none => 0
  | some t => duration - (now - t)

/-- How long to wait until the batch may be ready: a millisecond at least. -/
def sleep (b : Batcher) (now : Nat) : Nat :=
  match b.lastEvent with
  | none => idleSleep
  | some t => max (max (remaining now quietTime (some t)) (remaining now cooldown b.lastPass))
    millisecond

end Batcher

end RouteTree.Watching
