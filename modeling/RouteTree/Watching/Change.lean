import RouteTree.Files.Path
import RouteTree.Text.Pieces

/-! Changes of files, one path at a time. What is pending for a path and what happens to it next
are merged into what is pending from then on. -/
namespace RouteTree.Watching

inductive Change
  | created
  | modified
  | removed
  deriving DecidableEq, Repr

def Change.label : Change → String
  | .created => "created"
  | .modified => "modified"
  | .removed => "removed"

/-- What a notice of the file system is about. -/
inductive NoticeKind
  | create
  | modify
  /-- A change of times or permissions. Every write brings one along. -/
  | metadata
  | remove
  /-- Access and the like. -/
  | other
  deriving DecidableEq, Repr

/-- A notice of the file system. -/
structure Notice where
  kind : NoticeKind
  paths : List Path
  deriving DecidableEq, Repr

/-- The change that a notice tells of, if it tells of any. -/
def NoticeKind.change? : NoticeKind → Option Change
  | .create => some .created
  | .modify => some .modified
  | .remove => some .removed
  | .metadata | .other => none

/-- What one more change does to what is pending for a path. -/
inductive Merge
  | keep
  | put (change : Change)
  | drop
  deriving DecidableEq, Repr

/-- A path that was removed and comes back counts as it comes back. A path that was modified and is
removed counts as removed. A path that was created and is removed is as it was before. Else the
first change counts. -/
def Change.merge (next : Change) (pending : Option Change) : Merge :=
  match pending, next with
  | none, change => .put change
  | some .removed, .removed => .keep
  | some .removed, change => .put change
  | some .modified, .removed => .put .removed
  | some .created, .removed => .drop
  | some _, _ => .keep

/-- Extensions of the backup and swap files of editors. -/
def temporaryExtensions : List String := ["bck", "bak", "backup", "swp", "swo", "tmp"]

/-- Whether a path is a file that an editor keeps beside the one it edits. -/
def isTemporary (p : Path) : Bool :=
  (p.extension?.any fun extension => temporaryExtensions.contains extension)
    || (p.fileName?.any fun name => Text.endsWith "~" name || Text.startsWith ".#" name)

end RouteTree.Watching
