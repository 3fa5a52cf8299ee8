import RouteTree.CommandLine.Options
import RouteTree.Config.Diagnostic
import RouteTree.Config.Project
import RouteTree.Config.Schema
import RouteTree.Failure
import RouteTree.Terminal.Log
import RouteTree.Toml.Reader

/-! Finding and reading the settings file. It is looked for in the working directory and in every
directory above; without one the working directory is the project and every setting has its
default. -/
namespace RouteTree.Config

/-- Why settings cannot be read. -/
inductive TomlFault
  /-- The text is not TOML. -/
  | syntaxError
  | mismatch (m : Mismatch)

def TomlFault.message : TomlFault → String
  | .syntaxError => "TOML parse error"
  | .mismatch m => m.message

/-- Why a project cannot be loaded. -/
inductive ConfigError
  | unreadable (file : Path) (cause : IoError)
  | toml (fault : TomlFault)
  | notFound (file : Path)
  | invalid (problems : List Diagnostic)

namespace ConfigError

def message : ConfigError → String
  | .unreadable file _ => "IO error when reading `" ++ file.text ++ "`"
  | .toml _ => "Config file parsing error"
  | .notFound file => "Config file not found: `" ++ file.text ++ "`"
  | .invalid problems => Diagnostic.report problems

/-- The error with what lies behind it. -/
def failure (e : ConfigError) : Failure :=
  ⟨e.message, match e with
    | .unreadable _ cause => [cause.message]
    | .toml fault => [fault.message]
    | .notFound _ | .invalid _ => []⟩

end ConfigError

/-- Settings and the unknown keys beside them. -/
def parse (content : String) : Except TomlFault (Settings × List String) :=
  match Toml.parse? content with
  | none => .error .syntaxError
  | some document =>
    match decode document with
    | .ok settings => .ok (settings, unknownKeys document)
    | .error m => .error (.mismatch m)

/-- The settings file: of the start directory and those above it, the first in which the name leads
to a file. An absolute name stands for itself if it leads anywhere. -/
def find? (ws : Workspace) (name start : Path) : Option Path :=
  if name.isAbsolute then (if ws.pathExists name then some name else none)
  else (start.ancestors.map fun dir => dir.join name).find? ws.isFile

/-- What loading comes to, and what it says on either output. -/
structure Loaded where
  log : Terminal.Log
  /-- Lines on the error output. -/
  errors : List String
  result : Except ConfigError Project

/-- A settings file read: its settings, and the unknown keys in it. -/
def readFile (ws : Workspace) (file : Path) : Except ConfigError (Settings × List String) := do
  let content ← (ws.readText file).mapError (.unreadable file)
  (parse content).mapError .toml

/-- Checks settings and resolves their paths against the directory of the settings file. -/
def settle (ws : Workspace) (options : CommandLine.Options) (config : Path) (settings : Settings) :
    Except ConfigError Project :=
  let settings := options.applyTo settings
  match check settings with
  | [] => .ok (Project.resolve ws config (config.parent?.getD ws.cwd.path) settings)
  | problems => .error (.invalid problems)

def unknownWarning (file : Path) : Terminal.LogEntry :=
  Terminal.warning ("unknown fields in " ++ file.fileName?.getD file.text ++ ", ignoring:")

/-- Loads the project that the options and the working directory mean. A settings file that is named
has to be there. -/
def load (ws : Workspace) (options : CommandLine.Options) : Loaded :=
  match find? ws options.config ws.cwd.path with
  | some file =>
    match readFile ws file with
    | .error e => ⟨[], [], .error e⟩
    | .ok (settings, unknown) =>
      { log := if unknown.isEmpty then [] else [unknownWarning file]
        errors := unknown.map ("- " ++ ·)
        result := settle ws options file settings }
  | none =>
    if options.config.same CommandLine.defaultConfig then
      { log := [Terminal.debug "config"
          ("no " ++ CommandLine.defaultConfig.text ++ " found, using defaults")]
        errors := []
        result := settle ws options (ws.cwd.path.join options.config) {} }
    else ⟨[], [], .error (.notFound options.config)⟩

end RouteTree.Config
