import RouteTree.Text.Pieces

/-! The fixed text of the generated module. The route tree has a placeholder for each part that
depends on the table; the parameter helper has none. -/
namespace RouteTree.Artifact

/-- The module: the list of routes, the types of their parameters and the URL builder. -/
def routeTreeSource : String := Text.unlines [
  "/* eslint-disable */",
  "/* prettier-ignore-start */",
  "// This file is generated by routegen and rewritten whenever pages change.",
  "// Do not edit it by hand.",
  "",
  "__IMPORTS__export const pageRoutes = __PAGE_ROUTES__ as const;",
  "",
  "export type PageRoute = (typeof pageRoutes)[number];",
  "",
  "/** Parameters of each route: `\x7b\x7d`, named parameters, or catch-all segments. */",
  "export type RouteParamsMap = \x7b",
  "__ROUTE_PARAMS_MAP__\x7d;",
  "",
  "export type CatchallRoute = __CATCHALL_ROUTES__;",
  "",
  "export type NamedRoute = __NAMED_ROUTES__;",
  "",
  "export type RouteParams<T extends PageRoute> = RouteParamsMap[T];",
  "",
  "export type VikeRouteParams<T extends PageRoute> = RouteParams<T>;",
  "",
  "type SearchInit = ConstructorParameters<typeof URLSearchParams>[0];",
  "",
  "type RouteOptions<T extends PageRoute> = \x7b",
  "  search?: SearchInit;",
  "\x7d & (T extends CatchallRoute",
  "  ? \x7b params: string[] \x7d",
  "  : T extends NamedRoute",
  "    ? \x7b params: RouteParams<T> \x7d",
  "    : \x7b params?: undefined \x7d);",
  "",
  "type RouteArgs<T extends PageRoute> = T extends CatchallRoute | NamedRoute",
  "  ? [options: RouteOptions<T>]",
  "  : [options?: RouteOptions<T>];",
  "",
  "/**",
  " * Build a concrete URL for `route`.",
  " *",
  " * ```ts",
  " * getRoute(\"/profiles/@id\", \x7b params: \x7b id: \"carlo\" \x7d \x7d); // \"/profiles/carlo\"",
  " * getRoute(\"/catchall/@\", \x7b params: [\"a\", \"b\"] \x7d); // \"/catchall/a/b\"",
  " * getRoute(\"/dashboard\", \x7b search: \x7b tab: \"x\" \x7d \x7d); // \"/dashboard?tab=x\"",
  " * ```",
  " */",
  "export function getRoute<T extends PageRoute>(route: T, ...args: RouteArgs<T>): string \x7b",
  "  const options = args[0] as \x7b params?: unknown; search?: SearchInit \x7d | undefined;",
  "  let path: string = route;",
  "",
  "  if (route.endsWith(\"/@\")) \x7b",
  "    const segments = (options?.params as string[] | undefined) ?? [];",
  "    path = `$\x7broute.slice(0, -2)\x7d/$\x7bsegments.join(\"/\")\x7d`;",
  "  \x7d else if (route.includes(\"/@\")) \x7b",
  "    const named = (options?.params ?? \x7b\x7d) as Record<string, string>;",
  "    path = route",
  "      .split(\"/\")",
  "      .map((segment) => (segment.startsWith(\"@\") ? (named[segment.slice(1)] ?? segment) : segment))",
  "      .join(\"/\");",
  "  \x7d",
  "",
  "  const query = new URLSearchParams(options?.search).toString();",
  "  return query ? `$\x7bpath\x7d?$\x7bquery\x7d` : path;",
  "\x7d",
  "__PARAMS_HELPER__",
  "/* prettier-ignore-end */"]

/-- The helper that types the parameters of the current page. -/
def paramsHelperSource : String := Text.unlines [
  "",
  "type RawRouteParams = Record<string, string>;",
  "",
  "/**",
  " * Type the host router's raw captures for `route`.",
  " *",
  " * A catch-all capture (`*`) becomes its non-empty path segments.",
  " */",
  "export function extractRouteParams<T extends PageRoute>(",
  "  _route: T,",
  "  raw: RawRouteParams,",
  "): RouteParams<T> \x7b",
  "  if (\"*\" in raw) \x7b",
  "    return raw[\"*\"].split(\"/\").filter(Boolean) as unknown as RouteParams<T>;",
  "  \x7d",
  "  return raw as unknown as RouteParams<T>;",
  "\x7d",
  "",
  "/** Parameters of the current page, typed by its route. */",
  "export function useParams<T extends PageRoute>(\x7b from \x7d: \x7b from: T \x7d): RouteParams<T> \x7b",
  "  const pageContext = usePageContext();",
  "  return extractRouteParams(from, pageContext.routeParams as RawRouteParams);",
  "\x7d"]

end RouteTree.Artifact
