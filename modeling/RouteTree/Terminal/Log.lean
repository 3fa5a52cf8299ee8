import RouteTree.Terminal.Style

/-! Log entries. Every operation returns what it has to say; whether the entries for diagnosis are
shown is decided where they are printed. -/
namespace RouteTree.Terminal

inductive Level
  | info
  /-- Shown on request only. -/
  | debug
  deriving DecidableEq, Repr

structure LogEntry where
  level : Level
  tag : String
  message : String
  deriving DecidableEq, Repr

abbrev Log := List LogEntry

def info (tag message : String) : LogEntry := ⟨.info, tag, message⟩

def debug (tag message : String) : LogEntry := ⟨.debug, tag, message⟩

def warning (message : String) : LogEntry := info "warning" message

/-- The color of a tag, whose letter case does not matter. -/
def tagColor (tag : String) : Color :=
  match String.ofList (tag.toList.map Char.toLower) with
  | "routes" => .brightBlue
  | "watch" => .brightGreen
  | "error" => .brightRed
  | "warning" => .brightMagenta
  | _ => .brightYellow

namespace LogEntry

def isShown (verbose : Bool) (entry : LogEntry) : Bool :=
  verbose || entry.level = .info

/-- What stands on the line: the tag in brackets and in color, then the message. -/
def text (entry : LogEntry) : String :=
  bold ((tagColor entry.tag).paint ("[" ++ entry.tag ++ "]")) ++ " " ++ entry.message

end LogEntry

end RouteTree.Terminal
