/-! Colors and weights of terminal text. A style is switched on before its text and off after it,
so styled texts can be put side by side. -/
namespace RouteTree.Terminal

def escape : String := "\x1b["

inductive Color
  | red | green | yellow | cyan
  | brightRed | brightGreen | brightYellow | brightBlue | brightMagenta
  deriving DecidableEq, Repr

def Color.code : Color → Nat
  | .red => 31
  | .green => 32
  | .yellow => 33
  | .cyan => 36
  | .brightRed => 91
  | .brightGreen => 92
  | .brightYellow => 93
  | .brightBlue => 94
  | .brightMagenta => 95

/-- The text in a color; the default color comes back after it. -/
def Color.paint (color : Color) (s : String) : String :=
  escape ++ toString color.code ++ "m" ++ s ++ escape ++ "39m"

/-- The text in a heavy weight; every style ends after it. -/
def bold (s : String) : String := escape ++ "1m" ++ s ++ escape ++ "0m"

/-- The text in a faint weight; every style ends after it. -/
def faint (s : String) : String := escape ++ "2m" ++ s ++ escape ++ "0m"

end RouteTree.Terminal
