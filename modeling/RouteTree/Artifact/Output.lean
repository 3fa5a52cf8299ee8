import RouteTree.Artifact.Module
import RouteTree.Failure
import RouteTree.Files.Workspace

/-! Writing the generated module. The file is always written whole. -/
namespace RouteTree.Artifact

/-- Why the module is not written. -/
inductive WriteError
  | directory (dir : Path) (cause : IoError)
  | file (path : Path) (cause : IoError)
  deriving DecidableEq, Repr

def WriteError.failure : WriteError → Failure
  | .directory dir cause => ⟨"cannot create directory `" ++ dir.text ++ "`", [cause.message]⟩
  | .file path cause => ⟨"cannot write `" ++ path.text ++ "`", [cause.message]⟩

/-- The directory that has to be there before a file is written, if the path names one. -/
def directoryOf? (path : Path) : Option Path :=
  path.parent?.filter fun dir => !dir.isEmpty

/-- Puts a text into a file. -/
def putText (ws : Workspace) (path : Path) (content : String) :
    Workspace × Except WriteError Unit :=
  match ws.write path content.toUTF8 with
  | .ok written => (written, .ok ())
  | .error e => (ws, .error (.file path e))

/-- Puts a text into a file and makes the directories above it. Directories stay when the file
cannot be written. -/
def put (ws : Workspace) (path : Path) (content : String) :
    Workspace × Except WriteError Unit :=
  match directoryOf? path with
  | none => putText ws path content
  | some dir =>
    match ws.makeDirectories dir with
    | (ws, .ok ()) => putText ws path content
    | (ws, .error e) => (ws, .error (.directory dir e))

/-- Writes the module for a table. -/
def emit (ws : Workspace) (table : RouteTable) (importSource : Option String) (path : Path) :
    Workspace × Except WriteError Unit :=
  put ws path (render table importSource)

end RouteTree.Artifact
