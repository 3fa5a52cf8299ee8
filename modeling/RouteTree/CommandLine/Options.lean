import RouteTree.Config.Settings

/-! What the command line can ask for. -/
namespace RouteTree.CommandLine

/-- When output is colored. -/
inductive ColorChoice
  | auto
  | always
  | never
  deriving DecidableEq, Repr

def ColorChoice.named : List (String × ColorChoice) :=
  [("auto", .auto), ("always", .always), ("never", .never)]

def ColorChoice.name : ColorChoice → String
  | .auto => "auto"
  | .always => "always"
  | .never => "never"

inductive Command
  /-- Generates once; a strict build fails when nothing could be generated. -/
  | build (strict : Bool)
  /-- Generates now and after every change. -/
  | watch
  /-- Prints the routes. -/
  | routes (json : Bool)
  deriving DecidableEq, Repr

/-- The settings file that is looked for unless another one is named. -/
def defaultConfig : Path := ⟨"routegen.toml"⟩

structure Options where
  color : ColorChoice := .auto
  config : Path := defaultConfig
  pages : Option Path := none
  output : Option Path := none
  strategy : Option Strategy := none
  registry : Option Path := none
  framework : Option Framework := none
  noParamsHelper : Bool := false
  verbose : Bool := false
  command : Command
  deriving DecidableEq, Repr

/-- The settings with the options on top of them. -/
def Options.applyTo (options : Options) (settings : Settings) : Settings where
  pages := {
    dir := options.pages.getD settings.pages.dir
    strategy := options.strategy.getD settings.pages.strategy
    registry := options.registry.getD settings.pages.registry }
  output := {
    settings.output with
    path := options.output.or settings.output.path
    framework := options.framework.or settings.output.framework
    importSource :=
      if options.noParamsHelper then some (.toggle false) else settings.output.importSource }

end RouteTree.CommandLine
