/-! A terminal without bounds, as far as the console drives it: it puts characters where its cursor
stands, ends lines, climbs and erases, and leaves colors and weights out. What is written on it is
one stream of characters, so it has to tell a control sequence from the text around it. -/
namespace RouteTree.Terminal

/-- The rows of a terminal. Those below the last one that was reached are empty. -/
structure Screen where
  /-- The rows above that of the cursor, the nearest one first. -/
  above : List (List Char) := []
  row : List Char := []
  column : Nat := 0
  below : List (List Char) := []
  deriving DecidableEq, Repr

namespace Screen

/-- All rows from the top on. -/
def rows (screen : Screen) : List (List Char) := screen.above.reverse ++ screen.row :: screen.below

/-- Puts a character in place of the one at the cursor, with blanks before it where the row is
shorter than that. -/
def put (screen : Screen) (c : Char) : Screen :=
  { screen with
    row := (screen.row.take screen.column).rightpad screen.column ' '
      ++ c :: screen.row.drop (screen.column + 1)
    column := screen.column + 1 }

/-- To the start of the next row. -/
def newline (screen : Screen) : Screen where
  above := screen.row :: screen.above
  row := screen.below.headD []
  column := 0
  below := screen.below.tail

/-- Up in the same column, and not beyond the top row. -/
def up : Nat → Screen → Screen
  | 0, screen => screen
  | n + 1, screen =>
    match screen.above with
    | [] => screen
    | row :: above => up n { screen with above, row, below := screen.row :: screen.below }

/-- Erases the cursor's row from the cursor on. -/
def eraseLineEnd (screen : Screen) : Screen :=
  { screen with row := screen.row.take screen.column }

/-- Erases all that stands from the cursor on. -/
def eraseBelow (screen : Screen) : Screen := { screen.eraseLineEnd with below := [] }

/-- Takes one character of a text. -/
def type (screen : Screen) (c : Char) : Screen :=
  if c = '\n' then screen.newline else screen.put c

/-- Takes a text. -/
def typeText (screen : Screen) (cs : List Char) : Screen := cs.foldl type screen

theorem typeText_append (screen : Screen) (cs more : List Char) :
    screen.typeText (cs ++ more) = (screen.typeText cs).typeText more := List.foldl_append

/-- Does what a control sequence with the given number, zero for none, and the given last character
asks for. Other sequences, those of color and weight among them, change nothing. -/
def control (screen : Screen) (number : Nat) : Char → Screen
  | 'A' => screen.up (max number 1)
  | 'J' => if number = 0 then screen.eraseBelow else screen
  | 'K' => if number = 0 then screen.eraseLineEnd else screen
  | _ => screen

end Screen

/-- What a terminal takes the next character for. -/
inductive Reading
  | text
  /-- After an escape character. -/
  | escaped
  /-- In a control sequence, after the digits of the number. -/
  | control (number : Nat)
  deriving DecidableEq, Repr

/-- A terminal between two characters. -/
structure Display where
  screen : Screen := {}
  reading : Reading := .text
  deriving DecidableEq, Repr

namespace Display

/-- Reads one character. A control sequence has one number at most. -/
def step (display : Display) (c : Char) : Display :=
  match display.reading with
  | .text =>
    if c = '\x1b' then { display with reading := .escaped }
    else { display with screen := display.screen.type c }
  | .escaped => { display with reading := if c = '[' then .control 0 else .text }
  | .control number =>
    if c.isDigit then { display with reading := .control (10 * number + (c.toNat - '0'.toNat)) }
    else { screen := display.screen.control number c }

theorem step_text (screen : Screen) {c : Char} (h : c ≠ '\x1b') :
    step { screen } c = { screen := screen.type c } := by
  simp only [step, if_neg h]

theorem step_digit (screen : Screen) (number : Nat) {c : Char} (h : c.isDigit) :
    step { screen, reading := .control number } c =
      { screen, reading := .control (10 * number + (c.toNat - '0'.toNat)) } := by
  simp only [step, if_pos h]

theorem step_last (screen : Screen) (number : Nat) {c : Char} (h : c.isDigit = false) :
    step { screen, reading := .control number } c = { screen := screen.control number c } := by
  simp [step, h]

/-- Reads a text one character after another. -/
def read (display : Display) (cs : List Char) : Display := cs.foldl step display

theorem read_append (display : Display) (cs more : List Char) :
    display.read (cs ++ more) = (display.read cs).read more := List.foldl_append

end Display

end RouteTree.Terminal
