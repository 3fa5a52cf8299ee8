import RouteTree.Terminal.Console
import RouteTree.Text.Counted

/-! What a pass comes to, and how that is told. -/
namespace RouteTree

inductive Outcome
  /-- The module was written with so many routes. -/
  | emitted (routes : Nat)
  /-- The routes are those that were written last. -/
  | unchanged
  /-- Nothing but the generated file has changed. -/
  | ignored
  /-- The file that was there before is kept. -/
  | failed (reason : String)
  deriving DecidableEq, Repr

namespace Outcome

def isFailed : Outcome → Bool
  | .failed _ => true
  | _ => false

def generatedMessage (displayPath : String) : String :=
  "🌳 route tree generated in (" ++ displayPath ++ ")"

/-- The log of a single pass. -/
def report (displayPath : String) : Outcome → Terminal.Log
  | .emitted n => [Terminal.info "routes" (generatedMessage displayPath),
      Terminal.debug "routes" (Text.counted n "route")]
  | .unchanged => [Terminal.info "routes" "route tree unchanged"]
  | .ignored => []
  | .failed reason => [Terminal.info "error" ("route tree not generated: " ++ reason)]

/-- The status line of a pass while watching. -/
def status? (displayPath : String) : Outcome → Option Terminal.Status
  | .emitted _ => some (.success (generatedMessage displayPath))
  | .unchanged => some (.unchanged "routes unchanged")
  | .ignored => none
  | .failed reason => some (.failure "route tree not generated" reason)

end Outcome

end RouteTree
