import RouteTree.Config.Settings
import RouteTree.Terminal.Style
import RouteTree.Text.Space

/-! Problems with settings that can be read. All of them are reported at once. -/
namespace RouteTree.Config

/-- A problem, the setting that has it, and how to get rid of it. -/
structure Diagnostic where
  field : String
  message : String
  hint : Option String
  deriving DecidableEq, Repr

namespace Diagnostic

open Terminal

/-- The name of the setting on its own. -/
def fieldLabel (field : String) : String := Color.brightBlue.paint ("`" ++ field ++ "`")

def text (d : Diagnostic) : String :=
  faint "[" ++ Color.cyan.paint d.field ++ faint "]" ++ "\n"
    ++ Color.red.paint "→" ++ " " ++ d.message
    ++ (match d.hint with
      | some hint => "\n  " ++ Color.yellow.paint "hint:" ++ " " ++ hint
      | none => "")

/-- The report of all problems; more than one are counted at the end. -/
def report (ds : List Diagnostic) : String :=
  bold (Color.red.paint "config validation failed:") ++ "\n\n"
    ++ RouteTree.Text.join "\n\n" (ds.map text)
    ++ (if ds.length > 1 then
        "\n\n" ++ faint "found" ++ " " ++ bold (Color.red.paint (toString ds.length)) ++ " "
          ++ faint "errors"
      else "")

end Diagnostic

/-- A path that names a file ends in a name. -/
def namesFile (p : Path) : Bool := p.fileName?.isSome

def checkPages (pages : PagesSettings) : List Diagnostic :=
  (if pages.dir.isEmpty then
    [⟨"pages.dir", "pages directory is empty", some "use `dir = \"pages\"`"⟩] else [])
  ++ (if pages.strategy = .registry && pages.registry.isEmpty then
    [⟨"pages.registry", "registry strategy needs a registry file",
      some "set `registry = \".routegen/registry.json\"` or use `strategy = \"fs\"`"⟩] else [])

def checkOutput (output : OutputSettings) : List Diagnostic :=
  (match output.importSource with
    | some (.module name) =>
      if Text.isBlank name then
        [⟨"output.import_source", "import source is empty",
          some "use `import_source = false` to disable the helper"⟩]
      else []
    | _ => [])
  ++ (match output.path with
    | some path =>
      if namesFile path then [] else [⟨"output.path", "output path must name a file", none⟩]
    | none => [])

/-- The problems of settings as they were given, before paths are resolved. -/
def check (settings : Settings) : List Diagnostic :=
  checkPages settings.pages ++ checkOutput settings.output

end RouteTree.Config
