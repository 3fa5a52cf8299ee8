import RouteTree.Json.Value
import RouteTree.Text.Pieces

/-! JSON text: compact, or spread over lines with two blanks for each level of nesting. -/
namespace RouteTree.Json

/-- The lower-case hexadecimal digit of a value below sixteen. -/
def hexDigit (n : Nat) : Char :=
  if n < 10 then Char.ofNat ('0'.toNat + n) else Char.ofNat ('a'.toNat + (n - 10))

/-- How a character stands between quotes. Quote, backslash and the control characters below the
blank are escaped, five of those by a letter; every other character stands for itself. -/
def escapeChar (c : Char) : List Char :=
  if c = '"' then ['\\', '"']
  else if c = '\\' then ['\\', '\\']
  else if c = '\n' then ['\\', 'n']
  else if c = '\r' then ['\\', 'r']
  else if c = '\t' then ['\\', 't']
  else if c = '\x08' then ['\\', 'b']
  else if c = '\x0c' then ['\\', 'f']
  else if c.toNat < 32 then
    ['\\', 'u', '0', '0', hexDigit (c.toNat / 16), hexDigit (c.toNat % 16)]
  else [c]

/-- The text as a string literal. -/
def quote (s : String) : String :=
  String.ofList ('"' :: s.toList.flatMap escapeChar ++ ['"'])

/-- The parts between brackets, with nothing between them but commas. -/
def compactGroup (opening closing : String) (parts : List String) : String :=
  opening ++ Text.join "," parts ++ closing

def indent (depth : Nat) : String := String.ofList (List.replicate (2 * depth) ' ')

/-- The parts between brackets, each on a line of its own; no parts need no lines. -/
def spreadGroup (opening closing : String) (depth : Nat) : List String → String
  | [] => opening ++ closing
  | parts =>
    opening ++ "\n" ++ indent (depth + 1) ++ Text.join (",\n" ++ indent (depth + 1)) parts
      ++ "\n" ++ indent depth ++ closing

mutual

def Value.compact : Value → String
  | .null => "null"
  | .bool b => if b then "true" else "false"
  | .number spelling => spelling
  | .string s => quote s
  | .array items => compactGroup "[" "]" (compactItems items)
  | .object members => compactGroup "\x7b" "\x7d" (compactMembers members)

def compactItems : List Value → List String
  | [] => []
  | v :: rest => v.compact :: compactItems rest

def compactMembers : List (String × Value) → List String
  | [] => []
  | (k, v) :: rest => (quote k ++ ":" ++ v.compact) :: compactMembers rest

end

mutual

/-- The value spread over lines, the first of which starts at the given depth of nesting. -/
def Value.spread (depth : Nat) : Value → String
  | .null => "null"
  | .bool b => if b then "true" else "false"
  | .number spelling => spelling
  | .string s => quote s
  | .array items => spreadGroup "[" "]" depth (spreadItems (depth + 1) items)
  | .object members => spreadGroup "\x7b" "\x7d" depth (spreadMembers (depth + 1) members)

def spreadItems (depth : Nat) : List Value → List String
  | [] => []
  | v :: rest => v.spread depth :: spreadItems depth rest

def spreadMembers (depth : Nat) : List (String × Value) → List String
  | [] => []
  | (k, v) :: rest => (quote k ++ ": " ++ v.spread depth) :: spreadMembers depth rest

end

def Value.pretty (v : Value) : String := v.spread 0

end RouteTree.Json
