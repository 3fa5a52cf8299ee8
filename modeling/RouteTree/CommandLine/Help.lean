import RouteTree.CommandLine.Reader

/-! What is shown when the arguments ask for help, or are refused. -/
namespace RouteTree.CommandLine

def version : String := "routegen 0.1.0"

def usage : List String := [
  "Typed route tree generator for Vike pages",
  "",
  "Usage: routegen [OPTIONS] <COMMAND>",
  "",
  "Commands:",
  "  build   Generate the route tree once [aliases: b]",
  "  watch   Generate the route tree and regenerate it on page changes [aliases: w]",
  "  routes  Print the discovered routes [aliases: r]",
  "  help    Print this message or the help of the given subcommand(s)",
  "",
  "Options:",
  "      --color <COLOR>          Control colored output (auto, always, never)",
  "  -C, --config <CONFIG>        Config file path (default: routegen.toml)",
  "  -p, --pages <PAGES>          Pages directory path (relative to project root)",
  "  -o, --output <OUTPUT>        Generated file path (relative to project root)",
  "  -s, --strategy <STRATEGY>    Route discovery strategy",
  "  -r, --registry <REGISTRY>    Page registry file for the registry strategy",
  "  -f, --framework <FRAMEWORK>  Framework whose page context the params helper imports",
  "      --no-params-helper       Do not generate the `useParams` helper",
  "  -v, --verbose                Print debug output",
  "  -h, --help                   Print help",
  "  -V, --version                Print version"]

namespace Refusal

def message : Refusal → String
  | .unknownArgument => "unexpected argument found"
  | .invalidValue => "an option has no value or an invalid one"
  | .invalidSubcommand => "unrecognized subcommand"
  | .missingSubcommand => "a subcommand is required but one was not provided"
  | .argumentConflict => "an option cannot be used multiple times"
  | .tooManyValues => "unexpected value for an option without one"
  | .displayHelp | .displayHelpOnMissing => "help"
  | .displayVersion => "version"

/-- What is shown, on the standard output if it was asked for. -/
def lines : Refusal → List String
  | .displayHelp | .displayHelpOnMissing => usage
  | .displayVersion => [version]
  | r => ["error: " ++ r.message, "", "For more information, try '--help'."]

end Refusal

end RouteTree.CommandLine
