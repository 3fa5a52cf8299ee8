import RouteTree.Toml.Value

/-! Putting keys into a TOML document. A key is given once, and a table is opened once; dotted keys
and headers may add to tables that were only implied. -/
namespace RouteTree.Toml

namespace Entries

/-- The value under a key. -/
def get? (key : String) (entries : Entries) : Option Value := entries.lookup key

/-- Sets the value under a key that is there, or adds the key at the end. -/
def set (key : String) (v : Value) : Entries → Entries
  | [] => [(key, v)]
  | (k, w) :: rest => if k = key then (k, v) :: rest else (k, w) :: set key v rest

def erase (key : String) (entries : Entries) : Entries := entries.filter fun e => e.1 ≠ key

/-- Adds a key that is new. -/
def add? (key : String) (v : Value) (entries : Entries) : Option Entries :=
  match entries.get? key with
  | some _ => none
  | none => some (entries ++ [(key, v)])

/-- Adds a value under a dotted key. The tables on the way are new or were opened by dotted keys
too. -/
def addDotted? (v : Value) : List String → Entries → Option Entries
  | [], _ => none
  | [key], entries => entries.add? key v
  | key :: rest, entries =>
    match entries.get? key with
    | none => (addDotted? v rest []).map fun inner => entries ++ [(key, .table .dotted inner)]
    | some (.table .dotted inner) =>
      (addDotted? v rest inner).map fun inner => entries.set key (.table .dotted inner)
    | some (.table .implied inner) =>
      -- Tables that headers implied or opened may be passed through, but not be added to.
      match rest with
      | [_] => none
      | _ => (addDotted? v rest inner).map fun inner => entries.set key (.table .implied inner)
    | some (.tables (latest :: earlier)) =>
      match rest with
      | [_] => none
      | _ => (addDotted? v rest latest).map fun latest =>
          entries.set key (.tables (latest :: earlier))
    | some _ => none

/-- Changes the entries of the table that a header path leads to. Tables missing on the way are
implied; of an array of tables the latest is meant. -/
def updateAt? (f : Entries → Option Entries) : List String → Entries → Option Entries
  | [], entries => f entries
  | key :: rest, entries =>
    match entries.get? key with
    | none => (updateAt? f rest []).map fun inner => entries ++ [(key, .table .implied inner)]
    | some (.table .braces _) => none
    | some (.table origin inner) =>
      (updateAt? f rest inner).map fun inner => entries.set key (.table origin inner)
    | some (.tables (latest :: earlier)) =>
      (updateAt? f rest latest).map fun latest => entries.set key (.tables (latest :: earlier))
    | some _ => none

/-- Opens the table of a header. One that was only implied moves to the end. -/
def openTable? (key : String) (entries : Entries) : Option Entries :=
  match entries.get? key with
  | none => some (entries ++ [(key, .table .header [])])
  | some (.table .implied inner) => some (entries.erase key ++ [(key, .table .header inner)])
  | some _ => none

/-- Opens one more table of a double-bracket header. -/
def openElement? (key : String) (entries : Entries) : Option Entries :=
  match entries.get? key with
  | none => some (entries ++ [(key, .tables [[]])])
  | some (.tables elements) => some (entries.set key (.tables ([] :: elements)))
  | some _ => none

end Entries

/-- A document being read: its entries, and the path of the table that keys go to. -/
structure Draft where
  entries : Entries
  current : List String

namespace Draft

def empty : Draft := ⟨[], []⟩

/-- A key with its value, in the table opened last. -/
def addKey? (draft : Draft) (path : List String) (v : Value) : Option Draft :=
  (Entries.updateAt? (Entries.addDotted? v path) draft.current draft.entries).map
    fun entries => { draft with entries }

/-- A header, of one bracket or of two. -/
def openHeader? (draft : Draft) (double : Bool) (path : List String) : Option Draft :=
  match path.getLast? with
  | none => none
  | some key =>
    let opened := if double then Entries.openElement? key else Entries.openTable? key
    (Entries.updateAt? opened path.dropLast draft.entries).map
      fun entries => ⟨entries, path⟩

end Draft

end RouteTree.Toml
