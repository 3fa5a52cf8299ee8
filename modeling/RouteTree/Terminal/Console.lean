import RouteTree.Terminal.Log
import RouteTree.Text.Pieces

/-! What a run prints. A status block takes the place of the block printed right before it; a line
that was printed in between keeps both. The screen is driven by four controls, and the console has
to remember only how many lines the last block has. -/
namespace RouteTree.Terminal

/-- A piece of output: text as it is, or a control of the terminal. -/
inductive Control
  | text (s : String)
  /-- Ends the line. -/
  | newline
  | cursorUp (lines : Nat)
  | eraseBelow
  | eraseLineEnd
  deriving DecidableEq, Repr

def Control.encode : Control → String
  | .text s => s
  | .newline => "\n"
  | .cursorUp n => escape ++ toString n ++ "A"
  | .eraseBelow => escape ++ "J"
  | .eraseLineEnd => escape ++ "K"

/-- A watch status: what the latest pass came to. -/
inductive Status
  | success (message : String)
  | unchanged (message : String)
  | failure (summary detail : String)
  deriving DecidableEq, Repr

namespace Status

/-- The text after the mark. The detail of a failure stands on lines of its own. -/
def message : Status → String
  | .success s => s
  | .unchanged s => faint s
  | .failure summary "" => summary
  | .failure summary detail => summary ++ "\n" ++ detail

def mark : Status → String
  | .success _ => Color.green.paint "✓" ++ " "
  | .unchanged _ => ""
  | .failure _ _ => Color.red.paint "✗" ++ " "

/-- The block that is shown, under a time of day. -/
def block (time : String) (status : Status) : String :=
  faint ("[" ++ time ++ "]") ++ " " ++ status.mark ++ status.message

def lineCount (status : Status) : Nat := status.message.toList.count '\n' + 1

end Status

inductive Event
  | log (entry : LogEntry)
  /-- A line of the program's answer. -/
  | line (s : String)
  | status (time : String) (status : Status)
  | setVerbose (on : Bool)
  deriving DecidableEq, Repr

/-- What the console remembers between two events. -/
structure Console where
  verbose : Bool := false
  /-- Lines of the status block above the cursor, zero when there is none. -/
  statusLines : Nat := 0
  deriving DecidableEq, Repr

namespace Console

/-- The rows that one cursor movement can climb are counted in sixteen bits. -/
def climbLimit : Nat := 65536

/-- Prints one event. -/
def print (console : Console) : Event → Console × List Control
  | .log entry =>
    if entry.isShown console.verbose then
      ({ console with statusLines := 0 }, [.eraseLineEnd, .text entry.text, .newline])
    else (console, [])
  | .line s => (console, [.text s, .newline])
  | .status time status =>
    let overwrite : List Control :=
      if console.statusLines = 0 then []
      else [.cursorUp (console.statusLines % climbLimit), .eraseBelow]
    ({ console with statusLines := status.lineCount },
      overwrite ++ [.text (status.block time), .newline])
  | .setVerbose on => ({ console with verbose := on }, [])

/-- Prints events one after another. -/
def printAll (console : Console) : List Event → Console × List Control
  | [] => (console, [])
  | event :: rest =>
    let (next, first) := console.print event
    let (last, more) := next.printAll rest
    (last, first ++ more)

/-- The text that the events put on the output. -/
def render (console : Console) (events : List Event) : String :=
  String.join ((console.printAll events).2.map Control.encode)

/-- The lines that the events put on the output. -/
def renderLines (console : Console) (events : List Event) : List String :=
  Text.lines (console.render events)

end Console

end RouteTree.Terminal
