import RouteTree.Text.Pieces

/-! The four kinds of TOML strings. Each reader starts after the opening quotes and gives back the
text and what follows the closing quotes. -/
namespace RouteTree.Toml

/-- Tabs and every character that is no control. -/
def isPrintable (c : Char) : Bool := c = '\t' || (32 ≤ c.toNat && c.toNat ≠ 127)

def hexDigit? (c : Char) : Option Nat :=
  if c.isDigit then some (c.toNat - '0'.toNat)
  else if 'a' ≤ c ∧ c ≤ 'f' then some (c.toNat - 'a'.toNat + 10)
  else if 'A' ≤ c ∧ c ≤ 'F' then some (c.toNat - 'A'.toNat + 10)
  else none

/-- The character of a number written in hexadecimal digits. -/
def scalarChar? (digits : List Char) : Option Char :=
  (digits.mapM hexDigit?).bind fun ds =>
    let n := ds.foldl (fun n d => n * 16 + d) 0
    if n.isValidChar then some (Char.ofNat n) else none

def namedEscape? (c : Char) : Option Char :=
  match c with
  | 'b' => some '\x08'
  | 't' => some '\t'
  | 'n' => some '\n'
  | 'f' => some '\x0c'
  | 'r' => some '\r'
  | '"' => some '"'
  | '\\' => some '\\'
  | _ => none

/-- The character of the escape after a backslash, and how long the escape is. -/
def escape? : List Char → Option (Char × Nat)
  | [] => none
  | 'u' :: cs => if cs.length < 4 then none else (scalarChar? (cs.take 4)).map (·, 5)
  | 'U' :: cs => if cs.length < 8 then none else (scalarChar? (cs.take 8)).map (·, 9)
  | c :: _ => (namedEscape? c).map (·, 1)

/-- A string between single double quotes. The first `skip` characters belong to an escape already
read; the text so far is in reverse. -/
def basicFrom (skip : Nat) (done : List Char) : List Char → Option (List Char × List Char)
  | [] => none
  | c :: cs =>
    match skip with
    | skip + 1 => basicFrom skip done cs
    | 0 =>
      if c = '"' then some (done.reverse, cs)
      else if c = '\\' then
        match escape? cs with
        | some (e, length) => basicFrom length (e :: done) cs
        | none => none
      else if isPrintable c then basicFrom 0 (c :: done) cs
      else none

def basic? (cs : List Char) : Option (List Char × List Char) := basicFrom 0 [] cs

/-- A string between single apostrophes. -/
def literalFrom (done : List Char) : List Char → Option (List Char × List Char)
  | [] => none
  | c :: cs =>
    if c = '\'' then some (done.reverse, cs)
    else if isPrintable c then literalFrom (c :: done) cs
    else none

def literal? (cs : List Char) : Option (List Char × List Char) := literalFrom [] cs

/-- A line end, written with or without a carriage return, is left out once. -/
def dropLineEnd : List Char → List Char
  | '\n' :: cs => cs
  | '\x0d' :: '\n' :: cs => cs
  | cs => cs

/-- The length of the blanks and line ends after a backslash at the end of a line, if there is a
line end among them before anything else. -/
def lineEscape? (cs : List Char) : Option Nat :=
  let blanks := cs.takeWhile fun c => c = ' ' || c = '\t'
  let rest := cs.drop blanks.length
  if (dropLineEnd rest).length < rest.length then some (blanks.length + gap rest) else none
where
  gap : List Char → Nat
    | '\n' :: cs | ' ' :: cs | '\t' :: cs => gap cs + 1
    | '\x0d' :: '\n' :: cs => gap cs + 2
    | _ => 0

/-- How a run of quotes in a string over several lines is read: up to two stand for themselves,
three or more close the string, after at most two that stand for themselves. -/
def closingRun (quotes : Nat) : Option (Nat × Nat) :=
  if quotes < 3 then none else some (min (quotes - 3) 2, min quotes 5)

/-- A string over several lines. `escapes` tells whether backslashes are special. -/
def multilineFrom (quote : Char) (escapes : Bool) (skip : Nat) (done : List Char) :
    List Char → Option (List Char × List Char)
  | [] => none
  | c :: cs =>
    match skip with
    | skip + 1 => multilineFrom quote escapes skip done cs
    | 0 =>
      if c = quote then
        let run := (c :: cs).takeWhile (· = quote)
        match closingRun run.length with
        | some (kept, length) =>
          some (done.reverse ++ List.replicate kept quote, (c :: cs).drop length)
        | none => multilineFrom quote escapes 0 (c :: done) cs
      else if c = '\n' then multilineFrom quote escapes 0 ('\n' :: done) cs
      else if c = '\r' then
        if cs.head? = some '\n' then multilineFrom quote escapes 1 ('\n' :: done) cs else none
      else if escapes && c = '\\' then
        match lineEscape? cs, escape? cs with
        | some length, _ => multilineFrom quote escapes length done cs
        | none, some (e, length) => multilineFrom quote escapes length (e :: done) cs
        | none, none => none
      else if isPrintable c then multilineFrom quote escapes 0 (c :: done) cs
      else none

/-- A string over several lines; a line end right after the opening quotes is no part of it. -/
def multiline? (quote : Char) (cs : List Char) : Option (List Char × List Char) :=
  multilineFrom quote (quote = '"') 0 [] (dropLineEnd cs)

/-- The string at the front of a text, its opening quotes included. -/
def string? : List Char → Option (List Char × List Char)
  | '"' :: '"' :: '"' :: cs => multiline? '"' cs
  | '"' :: cs => basic? cs
  | '\'' :: '\'' :: '\'' :: cs => multiline? '\'' cs
  | '\'' :: cs => literal? cs
  | _ => none

/-- The string on one line at the front of a text. -/
def lineString? : List Char → Option (List Char × List Char)
  | '"' :: cs => basic? cs
  | '\'' :: cs => literal? cs
  | _ => none

end RouteTree.Toml
