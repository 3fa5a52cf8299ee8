import RouteTree.Json.Value
import RouteTree.Json.Number
import RouteTree.Text.Pieces

/-! Reading JSON text. The reader takes one character at a time and keeps the groups that are still
open on a stack, so every step moves to the next character. It stops after the first whole value
and hands back what is left. -/
namespace RouteTree.Json

/-- What is not whole when the input ends. -/
inductive Unfinished
  | value
  | array
  | object
  | string
  deriving DecidableEq, Repr

inductive SyntaxFault
  | endOfInput (within : Unfinished)
  | expectedValue
  | expectedKey
  | expectedColon
  | expectedItemEnd
  | expectedMemberEnd
  | trailingComma
  | badEscape
  /-- A leading surrogate without an escape after it. -/
  | brokenPair
  | loneSurrogate
  | controlCharacter
  | badWord
  | badNumber
  | numberOutOfRange
  | tooDeep
  | trailingCharacters
  deriving DecidableEq, Repr

def SyntaxFault.text : SyntaxFault → String
  | .endOfInput .value => "EOF while parsing a value"
  | .endOfInput .array => "EOF while parsing a list"
  | .endOfInput .object => "EOF while parsing an object"
  | .endOfInput .string => "EOF while parsing a string"
  | .expectedValue => "expected value"
  | .expectedKey => "key must be a string"
  | .expectedColon => "expected `:`"
  | .expectedItemEnd => "expected `,` or `]`"
  | .expectedMemberEnd => "expected `,` or `\x7d`"
  | .trailingComma => "trailing comma"
  | .badEscape => "invalid escape"
  | .brokenPair => "unexpected end of hex escape"
  | .loneSurrogate => "lone leading surrogate in hex escape"
  | .controlCharacter => "control character (\\u0000-\\u001F) found while parsing a string"
  | .badWord => "expected ident"
  | .badNumber => "invalid number"
  | .numberOutOfRange => "number out of range"
  | .tooDeep => "recursion limit exceeded"
  | .trailingCharacters => "trailing characters"

/-- A fault and where it was seen. -/
structure SyntaxError where
  fault : SyntaxFault
  line : Nat
  column : Nat
  deriving DecidableEq, Repr

def SyntaxError.message (e : SyntaxError) : String :=
  e.fault.text ++ " at line " ++ toString e.line ++ " column " ++ toString e.column

/-- The fault after the characters read so far. Columns count bytes. -/
def SyntaxError.after (read : List Char) (fault : SyntaxFault) : SyntaxError :=
  ⟨fault, read.count '\n' + 1, (String.ofList (read.reverse.takeWhile (· ≠ '\n'))).utf8ByteSize⟩

/-- An open group; its items so far are in reverse. -/
inductive Frame
  | array (items : List Value)
  | object (members : List (String × Value))
  /-- An object of which the value under the key is due. -/
  | member (members : List (String × Value)) (key : String)
  deriving Repr

/-- Where the reader is within a string. -/
inductive StringPart
  | plain
  | escape
  /-- The value of the hexadecimal digits read, and how many are to come. -/
  | unicode (value left : Nat)
  /-- A leading surrogate was read, the backslash of its partner is due. -/
  | partner (leading : Nat)
  | partnerEscape (leading : Nat)
  | partnerUnicode (leading value left : Nat)
  deriving Repr

inductive Mode
  /-- A value has to start. -/
  | value
  /-- After an opening bracket. -/
  | itemOrEnd
  /-- After a comma in an array. -/
  | item
  /-- After an opening brace. -/
  | keyOrEnd
  /-- After a comma in an object. -/
  | key
  | colon (name : String)
  /-- After a value in an open group. -/
  | commaOrEnd
  | stringValue (part : StringPart) (done : List Char)
  | stringKey (part : StringPart) (done : List Char)
  /-- A word of which these characters are due. -/
  | word (due : List Char) (v : Value)
  | number (part : NumberPart) (done : List Char)
  deriving Repr

structure State where
  stack : List Frame
  mode : Mode
  deriving Repr

/-- What a character leads to. -/
inductive Step
  | next (state : State)
  /-- The first value is whole, and the character belongs to it. -/
  | whole (v : Value)
  /-- The first value was whole before the character. -/
  | wholeBefore (v : Value)

def isBlank (c : Char) : Bool := c = ' ' || c = '\n' || c = '\t' || c = '\r'

/-- Groups may be nested 127 deep. -/
def depthLimit : Nat := 127

/-- A value has ended. -/
def finish (stack : List Frame) (v : Value) : Step :=
  match stack with
  | [] => .whole v
  | .array items :: rest => .next ⟨.array (v :: items) :: rest, .commaOrEnd⟩
  | .member members key :: rest => .next ⟨.object ((key, v) :: members) :: rest, .commaOrEnd⟩
  | .object _ :: rest => .next ⟨rest, .commaOrEnd⟩

def startValue (stack : List Frame) (c : Char) : Except SyntaxFault Step :=
  if isBlank c then .ok (.next ⟨stack, .value⟩)
  else if c = '"' then .ok (.next ⟨stack, .stringValue .plain []⟩)
  else if c = '[' then
    if stack.length < depthLimit then .ok (.next ⟨.array [] :: stack, .itemOrEnd⟩)
    else .error .tooDeep
  else if c = '\x7b' then
    if stack.length < depthLimit then .ok (.next ⟨.object [] :: stack, .keyOrEnd⟩)
    else .error .tooDeep
  else if c = 't' then .ok (.next ⟨stack, .word "rue".toList (.bool true)⟩)
  else if c = 'f' then .ok (.next ⟨stack, .word "alse".toList (.bool false)⟩)
  else if c = 'n' then .ok (.next ⟨stack, .word "ull".toList .null⟩)
  else match NumberPart.first? c with
    | some part => .ok (.next ⟨stack, .number part [c]⟩)
    | none => .error .expectedValue

/-- The character after a value in an open group. -/
def afterValue (stack : List Frame) (c : Char) : Except SyntaxFault Step :=
  if isBlank c then .ok (.next ⟨stack, .commaOrEnd⟩)
  else match stack with
    | .array items :: rest =>
      if c = ',' then .ok (.next ⟨stack, .item⟩)
      else if c = ']' then .ok (finish rest (.array items.reverse))
      else .error .expectedItemEnd
    | .object members :: rest =>
      if c = ',' then .ok (.next ⟨stack, .key⟩)
      else if c = '\x7d' then .ok (finish rest (.object members.reverse))
      else .error .expectedMemberEnd
    | _ => .error .trailingCharacters

def hexValue? (c : Char) : Option Nat :=
  if c.isDigit then some (c.toNat - '0'.toNat)
  else if 'a' ≤ c ∧ c ≤ 'f' then some (c.toNat - 'a'.toNat + 10)
  else if 'A' ≤ c ∧ c ≤ 'F' then some (c.toNat - 'A'.toNat + 10)
  else none

def simpleEscape? (c : Char) : Option Char :=
  match c with
  | '"' => some '"'
  | '\\' => some '\\'
  | '/' => some '/'
  | 'b' => some '\x08'
  | 'f' => some '\x0c'
  | 'n' => some '\n'
  | 'r' => some '\r'
  | 't' => some '\t'
  | _ => none

/-- What a character of a string leads to: the end of the string, or the part and the characters
read so far, in reverse. -/
inductive StringStep
  | next (part : StringPart) (done : List Char)
  | closed

def isLeading (n : Nat) : Bool := 0xD800 ≤ n && n < 0xDC00

def isTrailing (n : Nat) : Bool := 0xDC00 ≤ n && n < 0xE000

/-- The four digits of an escape are read. -/
def endUnicode (value : Nat) (done : List Char) : Except SyntaxFault StringStep :=
  if isLeading value then .ok (.next (.partner value) done)
  else if isTrailing value then .error .loneSurrogate
  else .ok (.next .plain (Char.ofNat value :: done))

def endPartner (leading value : Nat) (done : List Char) : Except SyntaxFault StringStep :=
  if isTrailing value then
    let code := 0x10000 + (leading - 0xD800) * 0x400 + (value - 0xDC00)
    .ok (.next .plain (Char.ofNat code :: done))
  else .error .loneSurrogate

def stepString (part : StringPart) (done : List Char) (c : Char) :
    Except SyntaxFault StringStep :=
  match part with
  | .plain =>
    if c = '"' then .ok .closed
    else if c = '\\' then .ok (.next .escape done)
    else if c.toNat < 32 then .error .controlCharacter
    else .ok (.next .plain (c :: done))
  | .escape =>
    if c = 'u' then .ok (.next (.unicode 0 4) done)
    else match simpleEscape? c with
      | some e => .ok (.next .plain (e :: done))
      | none => .error .badEscape
  | .unicode value left =>
    match hexValue? c with
    | none => .error .badEscape
    | some digit =>
      if left ≤ 1 then endUnicode (value * 16 + digit) done
      else .ok (.next (.unicode (value * 16 + digit) (left - 1)) done)
  | .partner leading =>
    if c = '\\' then .ok (.next (.partnerEscape leading) done) else .error .brokenPair
  | .partnerEscape leading =>
    if c = 'u' then .ok (.next (.partnerUnicode leading 0 4) done) else .error .brokenPair
  | .partnerUnicode leading value left =>
    match hexValue? c with
    | none => .error .badEscape
    | some digit =>
      if left ≤ 1 then endPartner leading (value * 16 + digit) done
      else .ok (.next (.partnerUnicode leading (value * 16 + digit) (left - 1)) done)

def step (state : State) (c : Char) : Except SyntaxFault Step :=
  match state.mode with
  | .value => startValue state.stack c
  | .itemOrEnd =>
    if c = ']' then .ok (finish (state.stack.drop 1) (.array []))
    else if isBlank c then .ok (.next state)
    else startValue state.stack c
  | .item =>
    if c = ']' then .error .trailingComma
    else if isBlank c then .ok (.next state)
    else startValue state.stack c
  | .keyOrEnd =>
    if isBlank c then .ok (.next state)
    else if c = '\x7d' then .ok (finish (state.stack.drop 1) (.object []))
    else if c = '"' then .ok (.next ⟨state.stack, .stringKey .plain []⟩)
    else .error .expectedKey
  | .key =>
    if isBlank c then .ok (.next state)
    else if c = '\x7d' then .error .trailingComma
    else if c = '"' then .ok (.next ⟨state.stack, .stringKey .plain []⟩)
    else .error .expectedKey
  | .colon name =>
    if isBlank c then .ok (.next state)
    else match c, state.stack with
      | ':', .object members :: rest => .ok (.next ⟨.member members name :: rest, .value⟩)
      | _, _ => .error .expectedColon
  | .commaOrEnd => afterValue state.stack c
  | .stringValue part done =>
    (stepString part done c).map fun
      | .next part done => .next ⟨state.stack, .stringValue part done⟩
      | .closed => finish state.stack (.string (String.ofList done.reverse))
  | .stringKey part done =>
    (stepString part done c).map fun
      | .next part done => .next ⟨state.stack, .stringKey part done⟩
      | .closed => .next ⟨state.stack, .colon (String.ofList done.reverse)⟩
  | .word due v =>
    match due with
    | [d] => if c = d then .ok (finish state.stack v) else .error .badWord
    | d :: due => if c = d then .ok (.next ⟨state.stack, .word due v⟩) else .error .badWord
    | [] => .error .badWord
  | .number part done =>
    match part.next? c with
    | some part => .ok (.next ⟨state.stack, .number part (c :: done)⟩)
    | none =>
      if !part.canEnd c then .error .badNumber
      else if overflows done.reverse then .error .numberOutOfRange
      else match finish state.stack (.number (String.ofList done.reverse)) with
        | .whole v => .ok (.wholeBefore v)
        | .next inner => afterValue inner.stack c
        | .wholeBefore v => .ok (.wholeBefore v)

/-- What is not whole when the input ends in a group after a value. -/
def openGroup (stack : List Frame) : Unfinished :=
  match stack with
  | .array _ :: _ => .array
  | .object _ :: _ | .member _ _ :: _ => .object
  | [] => .value

/-- The end of the input ends a number. -/
def atEnd (state : State) : Except SyntaxFault Value :=
  match state.mode with
  | .number part done =>
    if !part.isComplete then .error (.endOfInput .value)
    else if overflows done.reverse then .error .numberOutOfRange
    else match state.stack with
      | [] => .ok (.number (String.ofList done.reverse))
      | stack => .error (.endOfInput (openGroup stack))
  | .value | .item | .key | .word _ _ => .error (.endOfInput .value)
  | .itemOrEnd => .error (.endOfInput .array)
  | .keyOrEnd | .colon _ => .error (.endOfInput .object)
  | .commaOrEnd => .error (.endOfInput (openGroup state.stack))
  | .stringValue _ _ | .stringKey _ _ => .error (.endOfInput .string)

/-- Reads from a state on: the first whole value, and the characters after it. A fault comes with
the characters from the one that shows it on. -/
def run (state : State) : List Char → Except (SyntaxFault × List Char) (Value × List Char)
  | [] => ((atEnd state).mapError (·, [])).map (·, [])
  | c :: cs =>
    match step state c with
    | .error fault => .error (fault, c :: cs)
    | .ok (.next state) => run state cs
    | .ok (.whole v) => .ok (v, cs)
    | .ok (.wholeBefore v) => .ok (v, c :: cs)

/-- The error of a fault that shows at the given rest of a text. -/
def SyntaxError.at (text rest : List Char) (fault : SyntaxFault) : SyntaxError :=
  .after (text.take (text.length - rest.length + 1)) fault

/-- The first value of a text, and the characters after it. -/
def readFirst (text : List Char) : Except SyntaxError (Value × List Char) :=
  (run ⟨[], .value⟩ text).mapError fun (fault, rest) => .at text rest fault

/-- Only blanks may follow a value. -/
def checkEnd (text rest : List Char) : Except SyntaxError Unit :=
  match rest.dropWhile isBlank with
  | [] => .ok ()
  | rest => .error (.at text rest .trailingCharacters)

end RouteTree.Json
