import RouteTree.CommandLine.Help
import RouteTree.CommandLine.Program
import Std.Time.DateTime.Timestamp

/-! The program on real files. It takes a picture of the files that the program may look at, lets
the program work on the picture, and puts down on disk what has become different in it. While
watching, a new picture is taken again and again until the standard input ends. -/
namespace RouteTree.Outer

/-- The files seen so far. -/
structure Picture where
  files : FileTree := .empty
  /-- The directories whose contents were looked at. -/
  listed : List Location := []
  /-- When a file was written last. -/
  stamps : List (Location × IO.FS.SystemTime) := []

/-- Whether two nodes are of one kind and hold the same. -/
def sameNode : Node → Node → Bool
  | .file a, .file b => a.data == b.data
  | .directory, .directory => true
  | .link a, .link b => a.text == b.text
  | _, _ => false

def Picture.put (pic : Picture) (loc : Location) (node : Node) : Picture :=
  if (pic.files.node? loc).any (sameNode node) then pic
  else { pic with files := pic.files.insert loc node }

/-- The file of a location. -/
def onDisk (loc : Location) := (do return (← IO.currentDir) / loc.path.text : IO _)

/-- Where a symbolic link leads to in the end; one that leads nowhere names no file. -/
def linkTarget (loc : Location) : IO Path := do
  try return ⟨(← IO.FS.realPath (← onDisk loc)).toString⟩
  catch _ => return ⟨"\x00"⟩

/-- Looks names up from a directory on, and keeps what is on the way. The content of a file is kept
on demand only. -/
partial def seeNames (pic : Picture) (withContent : Bool) (here : Location) :
    List String → IO (Picture × Option Location)
  | [] => return (pic, some here)
  | "." :: rest => seeNames pic withContent here rest
  | ".." :: rest => seeNames pic withContent here.tail rest
  | name :: rest => do
    let loc := name :: here
    try
      let about ← (← onDisk loc).symlinkMetadata
      match about.type with
      | .dir => seeNames (pic.put loc .directory) withContent loc rest
      | .symlink =>
        let target ← linkTarget loc
        seeNames (pic.put loc (.link target)) withContent [] (target.names ++ rest)
      | _ =>
        if !withContent && (pic.files.node? loc).isSome then return (pic, some loc)
        let content ← if withContent then IO.FS.readBinFile (← onDisk loc) else pure .empty
        let pic := pic.put loc (.file content)
        return ({ pic with stamps := (loc, about.modified) :: pic.stamps }, some loc)
    catch _ => return (pic, none)

/-- Keeps what a path leads to. -/
def see (pic : Picture) (cwd : Location) (p : Path) : IO (Picture × Option Location) :=
  seeNames pic true (if p.isAbsolute then [] else cwd) p.names

/-- Keeps a directory with all that is below it. -/
partial def seeBelow (pic : Picture) (here : Location) : IO Picture := do
  if pic.listed.contains here || !(pic.files.node? here).any Node.isDirectory then return pic
  let mut pic := { pic with listed := here :: pic.listed }
  for entry in ← (← onDisk here).readDir do
    let withContent := Pages.routeFiles.contains entry.fileName
    let (next, loc) ← seeNames pic withContent here [entry.fileName]
    pic ← match loc with
      | some loc => seeBelow next loc
      | none => pure next
  return pic

/-- Keeps all that a project is made from. -/
def seeProject (pic : Picture) (cwd : Location) (project : Project) : IO Picture := do
  let mut pic := pic
  for p in [project.root.join ⟨"src"⟩, project.output, project.registry] do
    pic := (← see pic cwd p).1
  for p in (RouteSource.ofProject project).watchRoots do
    let (next, loc) ← see pic cwd p
    pic ← match loc with
      | some loc => seeBelow next loc
      | none => pure next
  return pic

/-- Keeps the settings files that may be meant. -/
def seeSettings (cwd : Location) (config : Path) : IO Picture := do
  let mut pic : Picture := {}
  for dir in (Location.path cwd).ancestors do
    pic := (← see pic cwd (dir.join config)).1
  return pic

/-- The picture of the files for the given options. The settings have to be known before the files
of the project are. -/
def takePicture (cwd : Location) (options : CommandLine.Options) : IO Picture := do
  let pic ← seeSettings cwd options.config
  match (Config.load { files := pic.files, cwd } options).result with
  | .error _ => return pic
  | .ok project => seeProject pic cwd project

/-- Puts down what has become different. -/
def putDown (before after : FileTree) : IO Unit := do
  let fresh := after.entries.filter fun e => !(before.node? e.1).any (sameNode e.2)
  for (loc, node) in fresh.mergeSort fun a b => a.1.length ≤ b.1.length do
    match node with
    | .directory => IO.FS.createDirAll (← onDisk loc)
    | .file content => IO.FS.writeBinFile (← onDisk loc) content
    | .link _ => pure ()

/-- The time of day, in two digits each. -/
def timeOfDay : IO String := do
  let seconds := (← Std.Time.Timestamp.now).toSecondsSinceUnixEpoch.val.toNat
  return Text.join ":" ([seconds / 3600 % 24, seconds / 60 % 60, seconds % 60].map twoDigits)
where
  twoDigits (n : Nat) : String := (if n < 10 then "0" else "") ++ toString n

def printEvents (console : Terminal.Console) (events : List Terminal.Event) :
    IO Terminal.Console := do
  let (console, controls) := console.printAll events
  let out ← IO.getStdout
  out.putStr (String.join (controls.map Terminal.Control.encode))
  out.flush
  return console

/-- Reads the standard input to its end. -/
partial def drain : IO Unit := do
  if (← (← IO.getStdin).getLine).isEmpty then return else drain

/-- The files that were written between two pictures. -/
def touched (before after : Picture) : List Location :=
  (after.stamps.filter fun (loc, time) => before.stamps.lookup loc != some time).map Prod.fst

/-- Watches until the standard input ends. -/
partial def watch (ending : Task (Except IO.Error Unit)) (begun : Nat) (console : Terminal.Console)
    (pic : Picture) (session : Watching.Session) : IO Terminal.Console := do
  if ← IO.hasFinished ending then
    printEvents console (Watching.Session.stopLog.map .log)
  else
    IO.sleep 50
    let next ← seeProject {} session.workspace.cwd session.project
    let (session, log) := session.observe { session.workspace with files := next.files }
      (touched pic next)
    let time ← timeOfDay
    let (session, events) :=
      session.advance time false ((← IO.monoNanosNow) - begun - session.now)
    putDown next.files session.workspace.files
    let console ← printEvents console (log.map .log ++ events)
    watch ending begun console next session

def runOptions (options : CommandLine.Options) : IO UInt32 := do
  let cwd : Location :=
    (Text.pieces (← IO.FS.realPath (← IO.currentDir)).toString).reverse
  let begun ← IO.monoNanosNow
  let pic ← takePicture cwd options
  let progress := CommandLine.run options { files := pic.files, cwd }
  putDown pic.files progress.workspace.files
  let console ← printEvents {} progress.events
  for line in progress.errors do
    IO.eprintln line
  match progress.next with
  | .exit _ => pure ()
  | .watch session =>
    let ending ← IO.asTask drain
    let _ ← watch ending begun console pic session
  return UInt32.ofNat progress.next.exitCode

end RouteTree.Outer

open RouteTree in
def main (args : List String) : IO UInt32 := do
  match CommandLine.parse args with
  | .ok options => Outer.runOptions options
  | .error refusal =>
    for line in refusal.lines do
      if refusal.exitCode = 0 then IO.println line else IO.eprintln line
    return UInt32.ofNat refusal.exitCode
