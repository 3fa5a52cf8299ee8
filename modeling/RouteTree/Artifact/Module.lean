import RouteTree.Artifact.Source
import RouteTree.Artifact.Template
import RouteTree.Route.Table

/-! The generated module: a route table as typed source text. -/
namespace RouteTree.Artifact

/-- The type of a route's parameters. -/
def paramsType (r : Route) : String :=
  match r.kind with
  | .none => "\x7b\x7d"
  | .catchall => "string[]"
  | .named names =>
    "\x7b " ++ Text.join "; " (names.map fun name => Json.quote name ++ ": string") ++ " \x7d"

/-- The entry of a route in the map of parameter types. -/
def mapEntry (r : Route) : String :=
  "  " ++ Json.quote r.text ++ ": " ++ paramsType r ++ ";\n"

/-- The union of the routes of one shape; no routes are `never`. -/
def unionOf (table : RouteTable) (shape : Shape) : String :=
  match table.toList.filter (·.kind.shape = shape) with
  | [] => "never"
  | routes => Text.join " | " (routes.map fun r => Json.quote r.text)

def importLine (source : String) : String :=
  "import \x7b usePageContext \x7d from " ++ Json.quote source ++ ";\n\n"

/-- The values of the placeholders. The helper comes with the import that it needs. -/
def values (table : RouteTable) (importSource : Option String) : String → Option String
  | "IMPORTS" => some ((importSource.map importLine).getD "")
  | "PAGE_ROUTES" => some table.toPrettyJson
  | "ROUTE_PARAMS_MAP" => some (String.join (table.toList.map mapEntry))
  | "CATCHALL_ROUTES" => some (unionOf table .catchall)
  | "NAMED_ROUTES" => some (unionOf table .named)
  | "PARAMS_HELPER" => some (if importSource.isSome then paramsHelperSource else "")
  | _ => none

/-- The module for a table. With an import source it has the parameter helper, which imports the
page context from there. -/
def render (table : RouteTable) (importSource : Option String) : String :=
  fill (values table importSource) routeTreeSource

end RouteTree.Artifact
