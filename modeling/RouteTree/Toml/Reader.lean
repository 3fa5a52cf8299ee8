import RouteTree.Toml.Document
import RouteTree.Toml.Quoted
import RouteTree.Toml.Scalar

/-! Reading TOML text, version 1.0. -/
namespace RouteTree.Toml

def isBlank (c : Char) : Bool := c = ' ' || c = '\t'

def dropBlanks (cs : List Char) : List Char := cs.dropWhile isBlank

/-- What follows a comment, which holds no control characters, up to its line end. -/
def dropComment? (cs : List Char) : Option (List Char) :=
  match cs.dropWhile isPrintable with
  | [] => some []
  | '\n' :: rest => some ('\n' :: rest)
  | '\x0d' :: '\n' :: rest => some ('\n' :: rest)
  | _ => none

/-- What follows the line: blanks and a comment at most may come before its end. -/
def endLine? (cs : List Char) : Option (List Char) :=
  match dropBlanks cs with
  | [] => some []
  | '#' :: cs => (dropComment? cs).map dropLineEnd
  | '\n' :: rest | '\x0d' :: '\n' :: rest => some rest
  | _ => none

def isBareKeyChar (c : Char) : Bool := c.isAlphanum || c = '_' || c = '-'

/-- One part of a key. -/
def keyPart? (cs : List Char) : Option (String × List Char) :=
  match cs with
  | '"' :: _ | '\'' :: _ => (lineString? cs).map fun (s, rest) => (String.ofList s, rest)
  | _ =>
    let bare := cs.takeWhile isBareKeyChar
    if bare.isEmpty then none else some (String.ofList bare, cs.drop bare.length)

/-- A key has fewer parts than this, and groups are nested less deep. -/
def depthLimit : Nat := 80

/-- A key of at most `parts` parts with dots between them, blanks around each. -/
def keyOf? : Nat → List Char → Option (List String × List Char)
  | 0, _ => none
  | parts + 1, cs =>
    match keyPart? (dropBlanks cs) with
    | none => none
    | some (part, rest) =>
      match dropBlanks rest with
      | '.' :: rest => (keyOf? parts rest).map fun (path, rest) => (part :: path, rest)
      | rest => some ([part], rest)

def key? (cs : List Char) : Option (List String × List Char) := keyOf? (depthLimit - 1) cs

/-- The blanks, comments and line ends within an array are left out. Every comment ends its line. -/
def dropGap? : Nat → List Char → Option (List Char)
  | 0, cs => some cs
  | n + 1, cs =>
    match dropBlanks cs with
    | '\n' :: rest | '\x0d' :: '\n' :: rest => dropGap? n rest
    | '#' :: rest => (dropComment? rest).bind (dropGap? n)
    | '\x0d' :: _ => none
    | rest => some rest

def endsWord (c : Char) : Bool :=
  isBlank c || c = '\n' || c = '\r' || c = '#' || c = ',' || c = ']' || c = '\x7d'

/-- A word is a value of its own. A date may go on with a time after one blank. -/
def word? (cs : List Char) : Option (Value × List Char) :=
  let word := cs.takeWhile (!endsWord ·)
  let rest := cs.drop word.length
  let longer := match rest with
    | ' ' :: more => word ++ ' ' :: more.takeWhile (!endsWord ·)
    | _ => word
  if isDate word && longer.length > word.length && isDatetime longer then
    (scalar? longer).map (·, cs.drop longer.length)
  else (scalar? word).map (·, rest)

mutual

/-- A value at a depth of nesting. `n` bounds the length of the text. -/
def valueFrom? (n depth : Nat) (cs : List Char) : Option (Value × List Char) :=
  match n with
  | 0 => none
  | n + 1 =>
    match cs with
    | '"' :: _ | '\'' :: _ => (string? cs).map fun (s, rest) => (.string (String.ofList s), rest)
    | '[' :: rest =>
      if depth + 1 < depthLimit then
        (itemsFrom? n (depth + 1) rest).map fun (items, rest) => (.array items, rest)
      else none
    | '\x7b' :: rest =>
      if depth + 1 < depthLimit then
        match dropBlanks rest with
        | '\x7d' :: rest => some (.table .braces [], rest)
        | _ => (membersFrom? n (depth + 1) [] rest).map fun (entries, rest) =>
            (.table .braces entries, rest)
      else none
    | _ => word? cs

/-- The items of an array up to its bracket; a comma may stand after the last. -/
def itemsFrom? (n depth : Nat) (cs : List Char) : Option (List Value × List Char) :=
  match n with
  | 0 => none
  | n + 1 =>
    match dropGap? cs.length cs with
    | none => none
    | some (']' :: rest) => some ([], rest)
    | some cs =>
      match valueFrom? n depth cs with
      | none => none
      | some (v, rest) =>
        match dropGap? rest.length rest with
        | some (']' :: rest) => some ([v], rest)
        | some (',' :: rest) =>
          (itemsFrom? n depth rest).map fun (items, rest) => (v :: items, rest)
        | _ => none

/-- The members of a table between braces, up to its brace. -/
def membersFrom? (n depth : Nat) (entries : Entries) (cs : List Char) :
    Option (Entries × List Char) :=
  match n with
  | 0 => none
  | n + 1 =>
    match key? cs with
    | some (path, '=' :: rest) =>
      match valueFrom? n depth (dropBlanks rest) with
      | none => none
      | some (v, rest) =>
        match entries.addDotted? v path with
        | none => none
        | some entries =>
          match dropBlanks rest with
          | '\x7d' :: rest => some (entries, rest)
          | ',' :: rest => membersFrom? n depth entries rest
          | _ => none
    | _ => none

end

def value? (cs : List Char) : Option (Value × List Char) := valueFrom? (cs.length + 1) 0 cs

/-- A line with a key and its value. -/
def keyLine? (draft : Draft) (cs : List Char) : Option (Draft × List Char) :=
  match key? cs with
  | some (path, '=' :: rest) => do
    let (v, rest) ← value? (dropBlanks rest)
    let rest ← endLine? rest
    let draft ← draft.addKey? path v
    some (draft, rest)
  | _ => none

/-- A line with a header, after its first bracket. -/
def headerLine? (draft : Draft) (cs : List Char) : Option (Draft × List Char) :=
  match cs with
  | '[' :: cs =>
    match key? cs with
    | some (path, ']' :: ']' :: rest) => do
      let rest ← endLine? rest
      let draft ← draft.openHeader? true path
      some (draft, rest)
    | _ => none
  | _ =>
    match key? cs with
    | some (path, ']' :: rest) => do
      let rest ← endLine? rest
      let draft ← draft.openHeader? false path
      some (draft, rest)
    | _ => none

/-- Reads lines up to the end of the text; `n` bounds their number. -/
def linesFrom? : Nat → Draft → List Char → Option Draft
  | 0, _, _ => none
  | n + 1, draft, cs =>
    match dropBlanks cs with
    | [] => some draft
    | '\n' :: rest | '\x0d' :: '\n' :: rest => linesFrom? n draft rest
    | '#' :: rest => (dropComment? rest).bind fun rest => linesFrom? n draft (dropLineEnd rest)
    | '[' :: rest => (headerLine? draft rest).bind fun (draft, rest) => linesFrom? n draft rest
    | cs => (keyLine? draft cs).bind fun (draft, rest) => linesFrom? n draft rest

def dropByteOrderMark : List Char → List Char
  | '\ufeff' :: cs => cs
  | cs => cs

/-- The entries of a document, or none if the text is not TOML. -/
def parse? (text : String) : Option Entries :=
  let cs := dropByteOrderMark text.toList
  (linesFrom? (cs.length + 1) .empty cs).map Draft.entries

end RouteTree.Toml
