import RouteTree.CommandLine.Options

/-! Reading the arguments. Options come before the command or after it; one that is given in both
places counts as given after it. Faults are told in the order of the arguments, but for a value in
an argument of its own, which is looked at when the next option comes or the arguments end. -/
namespace RouteTree.CommandLine

/-- Why arguments give no options. Requests for help and for the version are among these. -/
inductive Refusal
  | unknownArgument
  | invalidValue
  | invalidSubcommand
  | missingSubcommand
  | argumentConflict
  | tooManyValues
  | displayHelp
  | displayVersion
  | displayHelpOnMissing
  deriving DecidableEq, Repr

/-- The exit code after a refusal: help and version that were asked for are no fault. -/
def Refusal.exitCode : Refusal → Nat
  | .displayHelp | .displayVersion => 0
  | _ => 2

/-- Options that take a value. -/
inductive ValueOption
  | color
  | config
  | pages
  | output
  | strategy
  | registry
  | framework
  deriving DecidableEq, Repr

/-- Options without a value. -/
inductive Flag
  | noParamsHelper
  | verbose
  | strict
  | json
  | help
  | version
  deriving DecidableEq, Repr

inductive Switch
  | value (option : ValueOption)
  | flag (flag : Flag)
  deriving DecidableEq, Repr

/-- Where an argument stands: before the command, or after it. -/
inductive Place
  | top
  | build
  | watch
  | routes
  deriving DecidableEq, Repr

/-- Options that every place knows, by their long names. -/
def commonLong : List (String × Switch) := [
  ("color", .value .color), ("config", .value .config), ("pages", .value .pages),
  ("output", .value .output), ("strategy", .value .strategy), ("registry", .value .registry),
  ("framework", .value .framework), ("no-params-helper", .flag .noParamsHelper),
  ("verbose", .flag .verbose), ("help", .flag .help)]

def commonShort : List (Char × Switch) := [
  ('C', .value .config), ('p', .value .pages), ('o', .value .output), ('s', .value .strategy),
  ('r', .value .registry), ('f', .value .framework), ('v', .flag .verbose), ('h', .flag .help)]

namespace Place

def long (place : Place) : List (String × Switch) :=
  match place with
  | .top => ("version", .flag .version) :: commonLong
  | .build => ("strict", .flag .strict) :: commonLong
  | .watch => commonLong
  | .routes => ("json", .flag .json) :: commonLong

def short (place : Place) : List (Char × Switch) :=
  match place with
  | .top => ('V', .flag .version) :: commonShort
  | _ => commonShort

end Place

/-- The commands by name and by short name. -/
def commands : List (String × Place) := [
  ("build", .build), ("b", .build), ("watch", .watch), ("w", .watch),
  ("routes", .routes), ("r", .routes)]

def isCommandName (arg : String) : Bool := (commands.lookup arg).isSome || arg = "help"

/-- The options given in one place. -/
structure Given where
  color : Option ColorChoice := none
  config : Option Path := none
  pages : Option Path := none
  output : Option Path := none
  strategy : Option Strategy := none
  registry : Option Path := none
  framework : Option Framework := none
  noParamsHelper : Bool := false
  verbose : Bool := false
  strict : Bool := false
  json : Bool := false
  deriving DecidableEq, Repr

namespace Given

/-- A value for an option that has none yet. -/
def once {α : Type} (old : Option α) (read : String → Option α) (value : String) :
    Except Refusal (Option α) :=
  if old.isSome then .error .argumentConflict
  else match read value with
    | some a => .ok (some a)
    | none => .error .invalidValue

def path? (value : String) : Option Path := if value.isEmpty then none else some ⟨value⟩

def setValue (given : Given) (option : ValueOption) (value : String) : Except Refusal Given :=
  match option with
  | .color => (once given.color (List.lookup · ColorChoice.named) value).map fun a =>
      { given with color := a }
  | .config => (once given.config path? value).map fun a => { given with config := a }
  | .pages => (once given.pages path? value).map fun a => { given with pages := a }
  | .output => (once given.output path? value).map fun a => { given with output := a }
  | .strategy => (once given.strategy (List.lookup · Strategy.named) value).map fun a =>
      { given with strategy := a }
  | .registry => (once given.registry path? value).map fun a => { given with registry := a }
  | .framework => (once given.framework (List.lookup · Framework.named) value).map fun a =>
      { given with framework := a }

def onceFlag (old : Bool) : Except Refusal Bool :=
  if old then .error .argumentConflict else .ok true

def setFlag (given : Given) (flag : Flag) : Except Refusal Given :=
  match flag with
  | .noParamsHelper => (onceFlag given.noParamsHelper).map fun b =>
      { given with noParamsHelper := b }
  | .verbose => (onceFlag given.verbose).map fun b => { given with verbose := b }
  | .strict => (onceFlag given.strict).map fun b => { given with strict := b }
  | .json => (onceFlag given.json).map fun b => { given with json := b }
  | .help => .error .displayHelp
  | .version => .error .displayVersion

end Given

/-- What was read in one place. The option read last may wait for its value, or for its value to be
looked at. -/
structure Reading where
  given : Given := {}
  waiting : Option (ValueOption × Option String) := none

namespace Reading

/-- Looks at the value that waits. -/
def settle (r : Reading) : Except Refusal Given :=
  match r.waiting with
  | none => .ok r.given
  | some (_, none) => .error .invalidValue
  | some (option, some value) => r.given.setValue option value

def isWaiting (r : Reading) : Bool :=
  match r.waiting with
  | some (_, none) => true
  | _ => false

def readFlag (r : Reading) (flag : Flag) : Except Refusal Reading := do
  let given ← (← r.settle).setFlag flag
  .ok ⟨given, none⟩

/-- An option with a value in the same argument, or with one that is to come. -/
def readOption (r : Reading) (option : ValueOption) (attached : Option String) :
    Except Refusal Reading := do
  let given ← r.settle
  match attached with
  | none => .ok ⟨given, some (option, none)⟩
  | some value => .ok ⟨← given.setValue option value, none⟩

/-- A long option: its name, and after an equals sign its value. -/
def readLong (place : Place) (r : Reading) (body : List Char) : Except Refusal Reading :=
  let name := body.takeWhile (· ≠ '=')
  let attached := if name.length < body.length then
    some (String.ofList (body.drop (name.length + 1))) else none
  match place.long.lookup (String.ofList name), attached with
  | none, _ => .error .unknownArgument
  | some (.value option), attached => r.readOption option attached
  | some (.flag _), some _ => .error .tooManyValues
  | some (.flag flag), none => r.readFlag flag

/-- Short options in one argument. What follows one that takes a value is its value, with or
without an equals sign in front. -/
def readShort (place : Place) (r : Reading) : List Char → Except Refusal Reading
  | [] => .ok r
  | c :: cs =>
    match place.short.lookup c with
    | none => .error .unknownArgument
    | some (.flag flag) => do
      (← r.readFlag flag).readShort place cs
    | some (.value option) =>
      match cs with
      | [] => r.readOption option none
      | '=' :: value => r.readOption option (some (String.ofList value))
      | value => r.readOption option (some (String.ofList value))

end Reading

/-- An argument that is no option where none is expected. -/
def refuseWord (place : Place) : Refusal :=
  match place with
  | .top => .invalidSubcommand
  | _ => .unknownArgument

/-- After a double dash nothing but the end is expected. -/
def refuseAfterDashes (place : Place) (arg : String) : Refusal :=
  if place = .top && isCommandName arg then .unknownArgument else refuseWord place

/-- The help command takes the names of commands. -/
def refuseHelp : List String → Refusal
  | [] => .displayHelp
  | [name] => if isCommandName name then .displayHelp else .invalidSubcommand
  | _ => .invalidSubcommand

/-- Reads the arguments of one place: up to the end, or up to the command, which comes with the
arguments after it. -/
def readPlace (place : Place) (r : Reading) :
    List String → Except Refusal (Reading × Option (Place × List String))
  | [] => .ok (r, none)
  | arg :: rest =>
    if place = .top && !r.isWaiting && arg = "help" then .error (refuseHelp rest)
    else
      match if place = .top && !r.isWaiting then commands.lookup arg else none with
      | some command => .ok (r, some (command, rest))
      | none =>
        match arg.toList with
        | ['-', '-'] =>
          match rest with
          | [] => .ok (r, none)
          | next :: _ => .error (refuseAfterDashes place next)
        | '-' :: '-' :: body => do
          readPlace place (← r.readLong place body) rest
        | '-' :: c :: cs => do
          readPlace place (← r.readShort place (c :: cs)) rest
        | _ =>
          match r.waiting with
          | some (option, none) =>
            readPlace place { r with waiting := some (option, some arg) } rest
          | _ => .error (refuseWord place)

def commandOf (place : Place) (given : Given) : Command :=
  match place with
  | .build => .build given.strict
  | .routes => .routes given.json
  | _ => .watch

/-- What was given after the command goes before what was given in front of it. -/
def combine (command : Command) (top given : Given) : Options where
  color := (given.color.or top.color).getD .auto
  config := (given.config.or top.config).getD defaultConfig
  pages := given.pages.or top.pages
  output := given.output.or top.output
  strategy := given.strategy.or top.strategy
  registry := given.registry.or top.registry
  framework := given.framework.or top.framework
  noParamsHelper := given.noParamsHelper || top.noParamsHelper
  verbose := given.verbose || top.verbose
  command := command

/-- The options that the arguments give. -/
def parse (args : List String) : Except Refusal Options := do
  let (top, rest) ← readPlace .top {} args
  match rest with
  | some (place, rest) =>
    let (after, _) ← readPlace place {} rest
    let given ← after.settle
    let top ← top.settle
    .ok (combine (commandOf place given) top given)
  | none =>
    let given ← top.settle
    .error (if given = {} then .displayHelpOnMissing else .missingSubcommand)

end RouteTree.CommandLine
