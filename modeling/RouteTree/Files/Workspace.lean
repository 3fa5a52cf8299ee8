import RouteTree.Files.Tree

/-! Files as a program sees them: a file tree and a working directory. Paths are looked up name by
name; a symbolic link on the way is replaced by its target. -/
namespace RouteTree

/-- Why a path could not be read or written. -/
inductive IoError
  | notFound
  | notDirectory
  | isDirectory
  | alreadyExists
  | tooManyLinks
  | nameTooLong
  | permissionDenied
  | notText
  /-- The path has a character that ends texts on the way to the system. -/
  | unexpectedNul
  deriving DecidableEq, Repr

def IoError.message : IoError → String
  | .notFound => "No such file or directory (os error 2)"
  | .notDirectory => "Not a directory (os error 20)"
  | .isDirectory => "Is a directory (os error 21)"
  | .alreadyExists => "File exists (os error 17)"
  | .tooManyLinks => "Too many levels of symbolic links (os error 40)"
  | .nameTooLong => "File name too long (os error 36)"
  | .permissionDenied => "Permission denied (os error 13)"
  | .notText => "stream did not contain valid UTF-8"
  | .unexpectedNul => "file name contained an unexpected NUL byte"

namespace Path

/-- The names to look up one after another. -/
def names (p : Path) : List String := Text.pieces p.text

/-- Whether the path ends in a slash, so that only a directory can be meant. -/
def endsInSlash (p : Path) : Bool := p.text.toList.getLast? = some '/'

/-- The names to look up, with a dot for a slash at the end. -/
def steps (p : Path) : List String := if p.endsInSlash then p.names ++ ["."] else p.names

/-- The names to look up for a file that is to be written. A slash at the end leaves no name for
it. -/
def writeSteps (p : Path) : List String :=
  if p.endsInSlash then p.names.dropLast ++ ["."] else p.names

/-- The most bytes that a path can have. -/
def sizeLimit : Nat := 4095

/-- Refuses a path for what it looks like, whatever the files are. -/
def accept (p : Path) : Except IoError Unit :=
  if p.text.toList.contains '\x00' then .error .unexpectedNul
  else if p.isEmpty then .error .notFound
  else if p.text.utf8ByteSize > sizeLimit then .error .nameTooLong
  else .ok ()

end Path

namespace FileTree

/-- The most bytes that the name of a node can have. -/
def nameLimit : Nat := 255

/-- Why there is nothing under a name. -/
def missing (name : String) : IoError :=
  if name.utf8ByteSize > nameLimit then .nameTooLong else .notFound

/-- Where a name leads from a directory. -/
inductive Turn
  | enter (there : Location)
  /-- The name is that of a symbolic link. -/
  | pass (target : Path)

/-- Looks one name up. -/
def turn (tree : FileTree) (here : Location) (name : String) : Except IoError Turn :=
  match tree.node? here with
  | none => .error .notFound
  | some .directory =>
    if name = "." then .ok (.enter here)
    else if name = ".." then .ok (.enter here.tail)
    else match tree.node? (name :: here) with
      | none => .error (missing name)
      | some (.link target) => .ok (.pass target)
      | some _ => .ok (.enter (name :: here))
  | some _ => .error .notDirectory

/-- Where the target of a link in a directory is looked up from. -/
def targetStart (here : Location) (target : Path) : Location :=
  if target.isAbsolute then [] else here

/-- Looks names up from a directory on. What to do at a symbolic link, with the names that are left
after it, is given. -/
def follow (tree : FileTree) (atLink : Location → List String → Except IoError Location)
    (here : Location) : List String → Except IoError Location
  | [] => .ok here
  | name :: rest =>
    match tree.turn here name with
    | .error e => .error e
    | .ok (.enter there) => tree.follow atLink there rest
    | .ok (.pass target) => atLink (targetStart here target) (target.steps ++ rest)

/-- Looks names up, passing through at most the given number of symbolic links. -/
def lookup (tree : FileTree) : Nat → Location → List String → Except IoError Location
  | 0 => tree.follow fun _ _ => .error .tooManyLinks
  | links + 1 => tree.follow (tree.lookup links)

/-- Where in a directory a file of the given name is written. The name may be free, or that of a
file; what to do at a symbolic link is given. -/
def place (tree : FileTree) (atLink : Location → List String → Except IoError Location)
    (here : Location) (name : String) : Except IoError Location :=
  match tree.node? here with
  | none => .error .notFound
  | some .directory =>
    if name.utf8ByteSize > nameLimit then .error .nameTooLong
    else if name = "." || name = ".." then .error .isDirectory
    else match tree.node? (name :: here) with
      | some .directory => .error .isDirectory
      | some (.link target) => atLink (targetStart here target) target.writeSteps
      | _ => .ok (name :: here)
  | some _ => .error .notDirectory

/-- Looks up all names but the last, which is that of the file to write. -/
def followToPlace (tree : FileTree) (atLink : Location → List String → Except IoError Location)
    (here : Location) : List String → Except IoError Location
  | [] => .error .isDirectory
  | [name] => tree.place atLink here name
  | name :: next :: rest =>
    match tree.turn here name with
    | .error e => .error e
    | .ok (.enter there) => tree.followToPlace atLink there (next :: rest)
    | .ok (.pass target) => atLink (targetStart here target) (target.steps ++ next :: rest)

/-- Looks up where a file is written, passing through at most the given number of symbolic
links. -/
def lookupPlace (tree : FileTree) : Nat → Location → List String → Except IoError Location
  | 0 => tree.followToPlace fun _ _ => .error .tooManyLinks
  | links + 1 => tree.followToPlace (tree.lookupPlace links)

end FileTree

/-- A path may pass through this many symbolic links. -/
def linkLimit : Nat := 40

/-- The files and the directory that relative paths start from. -/
structure Workspace where
  files : FileTree
  cwd : Location
  /-- Locations at which the system refuses to write a file. -/
  locked : List Location := []
  /-- Directories whose names the system does not tell. -/
  closed : List Location := []
  deriving Inhabited

namespace Workspace

def start (ws : Workspace) (p : Path) : Location := if p.isAbsolute then [] else ws.cwd

/-- The location that a path leads to. -/
def locate (ws : Workspace) (p : Path) : Except IoError Location := do
  p.accept
  ws.files.lookup linkLimit (ws.start p) p.steps

/-- The node that a path leads to; it is no link. -/
def node? (ws : Workspace) (p : Path) : Option Node :=
  (ws.locate p).toOption.bind ws.files.node?

def pathExists (ws : Workspace) (p : Path) : Bool := (ws.locate p).isOk

def isDirectory (ws : Workspace) (p : Path) : Bool := (ws.node? p).any Node.isDirectory

def isFile (ws : Workspace) (p : Path) : Bool :=
  match ws.node? p with
  | some (.file _) => true
  | _ => false

/-- The names in a directory. -/
def list (ws : Workspace) (here : Location) : Except IoError (List String) :=
  match ws.files.node? here with
  | some .directory =>
    if ws.closed.contains here then .error .permissionDenied else .ok (ws.files.children here)
  | _ => .error .notDirectory

theorem node?_of_list {ws : Workspace} {here : Location} {names : List String}
    (h : ws.list here = .ok names) : ws.files.node? here = some .directory := by
  unfold list at h
  split at h
  · assumption
  · cases h

/-- The text of a file. -/
def readText (ws : Workspace) (p : Path) : Except IoError String := do
  match ws.files.node? (← ws.locate p) with
  | some (.file content) =>
    match String.fromUTF8? content with
    | some s => .ok s
    | none => .error .notText
  | _ => .error .isDirectory

/-- The absolute form of a path: the canonical one where the path leads somewhere, else the path
itself, seen from the working directory. -/
def normalize (ws : Workspace) (p : Path) : Path :=
  match ws.locate p with
  | .ok loc => loc.path
  | .error _ => ws.cwd.path.join p

/-- The directory in which the last name of a path is looked up, and that name. -/
def parentAndName (ws : Workspace) (start : Location) (p : Path) :
    Except IoError (Location × String) := do
  p.accept
  match p.names.getLast? with
  | none => .error .notFound
  | some name =>
    let dir ← ws.files.lookup linkLimit start p.names.dropLast
    if name.utf8ByteSize > FileTree.nameLimit then .error .nameTooLong
    else match ws.files.node? dir with
      | some .directory => .ok (dir, name)
      | _ => .error .notDirectory

/-- Makes one directory. -/
def makeDirectory (ws : Workspace) (p : Path) : Except IoError Workspace := do
  if p.isAbsolute && p.names.isEmpty then .error .alreadyExists
  else
    let (dir, name) ← ws.parentAndName (ws.start p) p
    if name = "." || name = ".." || (ws.files.node? (name :: dir)).isSome then
      .error .alreadyExists
    else .ok { ws with files := ws.files.insert (name :: dir) .directory }

/-- Makes the first of the paths a directory, which may need the later ones to be made before. -/
def makeAll (ws : Workspace) : List Path → Workspace × Except IoError Unit
  | [] => (ws, .error .notFound)
  | p :: above =>
    if p.isEmpty then (ws, .ok ())
    else match ws.makeDirectory p with
      | .ok made => (made, .ok ())
      | .error .notFound =>
        match ws.makeAll above with
        | (ws, .error e) => (ws, .error e)
        | (ws, .ok ()) =>
          match ws.makeDirectory p with
          | .ok made => (made, .ok ())
          | .error e => (ws, if ws.isDirectory p then .ok () else .error e)
      | .error e => (ws, if ws.isDirectory p then .ok () else .error e)

/-- Makes a directory and those above it; one that is there already is no error. What was made
stays when a later step fails. -/
def makeDirectories (ws : Workspace) (p : Path) : Workspace × Except IoError Unit :=
  ws.makeAll p.ancestors

/-- The location of the file that writing to a path changes or makes. A link that leads nowhere is
followed too. -/
def writeLocation (ws : Workspace) (p : Path) : Except IoError Location := do
  p.accept
  ws.files.lookupPlace linkLimit (ws.start p) p.writeSteps

/-- Makes a file or replaces its content. -/
def write (ws : Workspace) (p : Path) (content : ByteArray) : Except IoError Workspace := do
  let loc ← ws.writeLocation p
  if ws.locked.contains loc then .error .permissionDenied
  else .ok { ws with files := ws.files.insert loc (.file content) }

/-- Makes a symbolic link. -/
def makeLink (ws : Workspace) (p target : Path) : Except IoError Workspace := do
  let (dir, name) ← ws.parentAndName (ws.start p) p
  if (ws.files.node? (name :: dir)).isSome then .error .alreadyExists
  else .ok { ws with files := ws.files.insert (name :: dir) (.link target) }

/-- Takes away a file, a link, or a directory with all that is in it. -/
def remove (ws : Workspace) (p : Path) : Except IoError Workspace := do
  let (dir, name) ← ws.parentAndName (ws.start p) p
  if (ws.files.node? (name :: dir)).isNone then .error .notFound
  else .ok { ws with files := ws.files.remove (name :: dir) }

end Workspace

end RouteTree
