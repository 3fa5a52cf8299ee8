import RouteTree.Config.Settings
import RouteTree.Text.Escaped
import RouteTree.Toml.Value

/-! Settings in TOML. Keys that mean nothing are passed over, and listed apart. A section may also
be given as an array of its values, in the order of its keys. -/
namespace RouteTree.Config

open Toml (Value Entries)

/-- What was found where something else was expected. -/
inductive Mismatch
  | wrongType (found : Value) (expected : String)
  | unknownVariant (found : String) (expected : List String)
  /-- A choice is neither a text nor a table. -/
  | noVariant
  /-- A table for a choice has not exactly one key. -/
  | variantCount (tooMany : Bool)
  /-- The content of a variant is not empty. -/
  | variantNotEmpty (array : Bool)
  | variantNotTable (found : Value)
  /-- An import source is neither a truth value nor a text. -/
  | noImportSource
  deriving Repr

/-- What a value is called where its type is wrong. -/
def describe : Value → String
  | .string s => "string " ++ Text.shown s
  | .integer n => "integer `" ++ toString n ++ "`"
  | .float x => "floating point `" ++ x.text ++ "`"
  | .boolean b => "boolean `" ++ (if b then "true" else "false") ++ "`"
  | .datetime _ | .table _ _ => "map"
  | .array _ | .tables _ => "sequence"

def typeName : Value → String
  | .string _ => "string"
  | .integer _ => "integer"
  | .float _ => "float"
  | .boolean _ => "boolean"
  | .datetime _ => "datetime"
  | .array _ => "array"
  | .table .braces _ => "inline table"
  | .table _ _ => "table"
  | .tables _ => "array of tables"

def oneOf (names : List String) : String :=
  match names.map fun name => "`" ++ name ++ "`" with
  | [a, b] => a ++ " or " ++ b
  | quoted => "one of " ++ Text.join ", " quoted

def Mismatch.message : Mismatch → String
  | .wrongType found expected => "invalid type: " ++ describe found ++ ", expected " ++ expected
  | .unknownVariant found expected =>
    "unknown variant `" ++ found ++ "`, expected " ++ oneOf expected
  | .noVariant => "wanted string or table"
  | .variantCount tooMany =>
    "wanted exactly 1 element, " ++ (if tooMany then "more than 1 element" else "found 0 elements")
  | .variantNotEmpty array => "expected empty " ++ (if array then "array" else "table")
  | .variantNotTable found => "expected table, found " ++ typeName found
  | .noImportSource => "data did not match any variant of untagged enum ImportSource"

def path (v : Value) : Except Mismatch Path :=
  match v with
  | .string s => .ok ⟨s⟩
  | _ => .error (.wrongType v "path string")

def chosen {α : Type} (variants : List (String × α)) (name : String) : Except Mismatch α :=
  match variants.lookup name with
  | some a => .ok a
  | none => .error (.unknownVariant name (variants.map Prod.fst))

/-- A choice is the name of a variant, or a table with nothing under that name. -/
def choice {α : Type} (variants : List (String × α)) (v : Value) : Except Mismatch α :=
  match v with
  | .string s => chosen variants s
  | .table _ [(name, content)] => do
    let a ← chosen variants name
    match content with
    | .table _ [] | .array [] => .ok a
    | .table _ _ => .error (.variantNotEmpty false)
    | .array _ | .tables _ => .error (.variantNotEmpty true)
    | _ => .error (.variantNotTable content)
  | .table _ [] => .error (.variantCount false)
  | .table _ _ => .error (.variantCount true)
  | _ => .error .noVariant

def importSource (v : Value) : Except Mismatch ImportSource :=
  match v with
  | .boolean b => .ok (.toggle b)
  | .string s => .ok (.module s)
  | _ => .error .noImportSource

def text (v : Value) : Except Mismatch String :=
  match v with
  | .string s => .ok s
  | _ => .error (.wrongType v "a string")

/-- The items of an array of either kind. -/
def items? (v : Value) : Option (List Value) :=
  match v with
  | .array items => some items
  | .tables elements => some (elements.reverse.map (.table .header))
  | _ => none

def texts (v : Value) : Except Mismatch (List String) :=
  match items? v with
  | some items => items.mapM text
  | none => .error (.wrongType v "a sequence")

/-- The entries of a table; a date counts as a table with one entry of its own. -/
def entries? (v : Value) : Option Entries :=
  match v with
  | .table _ entries => some entries
  | .datetime s => some [("$__toml_private_datetime", .string s)]
  | _ => none

inductive PagesField
  | dir
  | strategy
  | registry
  deriving DecidableEq, Repr

def PagesField.named : List (String × PagesField) :=
  [("dir", .dir), ("strategy", .strategy), ("registry", .registry)]

inductive OutputField
  | path
  | framework
  | importSource
  | plugins
  deriving DecidableEq, Repr

def OutputField.named : List (String × OutputField) :=
  [("path", .path), ("framework", .framework), ("import_source", .importSource),
    ("detect_from_plugins", .plugins)]

def setPages (pages : PagesSettings) (field : PagesField) (v : Value) :
    Except Mismatch PagesSettings :=
  match field with
  | .dir => (path v).map fun dir => { pages with dir }
  | .strategy => (choice Strategy.named v).map fun strategy => { pages with strategy }
  | .registry => (path v).map fun registry => { pages with registry }

def setOutput (output : OutputSettings) (field : OutputField) (v : Value) :
    Except Mismatch OutputSettings :=
  match field with
  | .path => (path v).map fun p => { output with path := some p }
  | .framework => (choice Framework.named v).map fun f => { output with framework := some f }
  | .importSource => (importSource v).map fun s => { output with importSource := some s }
  | .plugins => (texts v).map fun plugins => { output with plugins }

/-- A section: its fields by name, in the order of the text, or by position. -/
def readFields {α φ : Type} (fields : List (String × φ)) (typeName : String)
    (set : α → φ → Value → Except Mismatch α) (default : α) (v : Value) : Except Mismatch α :=
  match entries? v, items? v with
  | some entries, _ => entries.foldlM (fun a entry =>
      match fields.lookup entry.1 with
      | some field => set a field entry.2
      | none => .ok a) default
  | none, some items => (fields.zip items).foldlM (fun a item => set a item.1.2 item.2) default
  | none, none => .error (.wrongType v typeName)

def pagesSection (v : Value) : Except Mismatch PagesSettings :=
  readFields PagesField.named "struct PagesConfig" setPages {} v

def outputSection (v : Value) : Except Mismatch OutputSettings :=
  readFields OutputField.named "struct OutputConfig" setOutput {} v

/-- The settings of a document. -/
def decode (document : Entries) : Except Mismatch Settings :=
  document.foldlM (fun settings entry =>
    match entry.1 with
    | "pages" => (pagesSection entry.2).map fun pages => { settings with pages }
    | "output" => (outputSection entry.2).map fun output => { settings with output }
    | _ => .ok settings) {}

/-- The keys of a section that name no field, under the name of the section. -/
def unknownIn {φ : Type} (name : String) (fields : List (String × φ)) (v : Value) : List String :=
  ((entries? v).getD []).filterMap fun entry =>
    if (fields.lookup entry.1).isSome then none else some (name ++ "." ++ entry.1)

/-- The keys that mean nothing, each at the outermost place, in the order of the text. -/
def unknownKeys (document : Entries) : List String :=
  document.flatMap fun entry =>
    match entry.1 with
    | "pages" => unknownIn "pages" PagesField.named entry.2
    | "output" => unknownIn "output" OutputField.named entry.2
    | key => [key]

end RouteTree.Config
