import RouteTree.Text.Pieces

/-! Failures as they are told to the user: what failed, and the causes behind it, the nearest
first. -/
namespace RouteTree

structure Failure where
  message : String
  causes : List String := []
  deriving DecidableEq, Repr

namespace Failure

/-- The failure and its causes on one line. -/
def chain (f : Failure) : String := Text.join ": " (f.message :: f.causes)

/-- A failure that this one is the cause of. -/
def under (f : Failure) (message : String) : Failure := ⟨message, f.message :: f.causes⟩

/-- A text after a label; further lines stand under the first. -/
def indented (label : String) (text : String) : List String :=
  match Text.splitOn '\n' text.toList with
  | [] => []
  | first :: rest =>
    (label ++ String.ofList first)
      :: rest.map fun line => String.ofList (label.toList.map fun _ => ' ') ++ String.ofList line

/-- The causes of a report. They are numbered when there are several. -/
def causeLines : List String → List String
  | [] => []
  | [cause] => "" :: "Caused by:" :: indented "    " cause
  | causes => "" :: "Caused by:"
      :: causes.zipIdx.flatMap fun (cause, n) => indented ("    " ++ toString n ++ ": ") cause

/-- The lines of an error report. -/
def report (f : Failure) : List String :=
  (Text.splitOn '\n' ("Error: " ++ f.message).toList).map String.ofList ++ causeLines f.causes

end Failure

end RouteTree
