import RouteTree.Artifact.Module
import RouteTree.Proofs.Literals
import RouteTree.Proofs.Runtime

/-! The declarations of the generated module, read back from their texts. The types are made from
the segments of the routes, the branches of the URL builder are taken by the characters of their
texts, and both put every route into the same one of three cases. -/
namespace RouteTree

namespace Text

theorem lines_unlines {ls : List String} (h : ∀ l ∈ ls, '\n' ∉ l.toList) :
    lines (unlines ls) = ls := by
  have hsplit : splitOn '\n' (unlines ls).toList = ls.map String.toList ++ [[]] := by
    induction ls with
    | nil => simp [unlines]
    | cons l rest ih =>
      obtain ⟨hl, hrest⟩ := List.forall_mem_cons.1 h
      have hcons : (unlines (l :: rest)).toList = l.toList ++ '\n' :: (unlines rest).toList := by
        simp [unlines, String.join_cons]
      rw [hcons, splitOn_append_sep, splitOn_of_not_mem hl, ih hrest]
      rfl
  rw [lines, hsplit, List.reverse_append]
  simp [Function.comp_def]

end Text

namespace Json

theorem hexDigit_ne_newline : ∀ n < 16, '\n' ≠ hexDigit n := by
  decide

theorem newline_not_mem_escapeChar (c : Char) : '\n' ∉ escapeChar c := by
  unfold escapeChar
  split
  · decide
  split
  · decide
  split
  · decide
  next hnewline =>
  split
  · decide
  split
  · decide
  split
  · decide
  split
  · decide
  split
  · have hhigh := hexDigit_ne_newline (c.toNat / 16) (by omega)
    have hlow := hexDigit_ne_newline (c.toNat % 16) (by omega)
    simp [hhigh, hlow]
  · simpa using Ne.symm hnewline

theorem newline_not_mem_quote (s : String) : '\n' ∉ (quote s).toList := by
  simp [quote, newline_not_mem_escapeChar]

end Json

namespace Artifact

/-! ### Reading the texts -/

def readArray (array : String) : Option (List String) :=
  let texts := Json.literals array.toList
  if array = (Json.Value.array (texts.map .string)).pretty then some texts else none

/-- The members of a union of string literals; `never` has none. -/
def readUnion (union : String) : Option (List String) :=
  if union = "never" then some []
  else
    let texts := Json.literals union.toList
    if texts ≠ [] ∧ union = Text.join " | " (texts.map Json.quote) then some texts else none

/-- The key and the type on a line of a type with members. -/
def readMember (line : String) : Option (String × String) := do
  let (key, rest) ← Json.readLiteral (← Text.dropStart? [' ', ' ', '"'] line.toList)
  let type ← Text.dropStart? [':', ' '] rest
  return (String.ofList key, ← Text.stripEnd? ";" (String.ofList type))

/-- What a module declares about its routes. -/
structure Declared where
  /-- The literals of the array of routes. -/
  routes : List String
  /-- The keys of the map of parameter types with their types. -/
  types : List (String × String)
  /-- The members of the two unions. -/
  catchalls : List String
  named : List String

/-- The declarations of the module that is filled with the given values. -/
def readDeclared (value? : String → Option String) : Option Declared := do
  return {
    routes := ← readArray (← value? "PAGE_ROUTES")
    types := ← (Text.lines (← value? "ROUTE_PARAMS_MAP")).mapM readMember
    catchalls := ← readUnion (← value? "CATCHALL_ROUTES")
    named := ← readUnion (← value? "NAMED_ROUTES") }

theorem readArray_pretty (ts : List String) :
    readArray (Json.Value.array (ts.map .string)).pretty = some ts := by
  have hliterals : Json.literals (Json.Value.array (ts.map .string)).pretty.toList = ts := by
    rw [Json.pretty_strings]
    cases ts with
    | nil => simp [Json.spreadGroup, Json.literals]
    | cons t ts =>
      rw [List.map_cons, Json.toList_spreadGroup_cons, ← List.map_cons, List.append_assoc,
        Json.literals_append (by simp [Json.indent]), Json.literals_join (by simp [Json.indent])]
      simp [Json.literals]
  rw [readArray, hliterals]
  exact if_pos rfl

theorem readUnion_join {ts : List String} (h : ts ≠ []) :
    readUnion (Text.join " | " (ts.map Json.quote)) = some ts := by
  have hliterals : Json.literals (Text.join " | " (ts.map Json.quote)).toList = ts := by
    have hjoin : Json.literals ((Text.join " | " (ts.map Json.quote)).toList ++ []) =
        ts ++ Json.literals [] :=
      Json.literals_join (by decide) ts []
    rw [List.append_nil, Json.literals, List.append_nil] at hjoin
    exact hjoin
  have hnever : Text.join " | " (ts.map Json.quote) ≠ "never" := by
    intro heq
    have hnone : Json.literals ("never".toList ++ []) = Json.literals [] :=
      Json.literals_append (by decide) []
    rw [List.append_nil, ← heq, hliterals, Json.literals] at hnone
    exact h hnone
  rw [readUnion, if_neg hnever, hliterals]
  exact if_pos ⟨h, rfl⟩

theorem readUnion_unionOf (table : RouteTable) (shape : Shape) :
    readUnion (unionOf table shape) =
      some ((table.toList.filter (·.kind.shape = shape)).map Route.text) := by
  rw [unionOf]
  split
  · next hnone =>
    rw [hnone]
    rfl
  · next hsome =>
    rw [← readUnion_join (mt List.map_eq_nil_iff.1 hsome), List.map_map]
    rfl

def mapLine (r : Route) : String :=
  "  " ++ Json.quote r.text ++ ": " ++ paramsType r ++ ";"

theorem join_mapEntry (routes : List Route) :
    String.join (routes.map mapEntry) = Text.unlines (routes.map mapLine) := by
  have hentry (r : Route) : mapEntry r = mapLine r ++ "\n" := by
    have hend : ";\n" = ";" ++ "\n" := rfl
    simp only [mapEntry, mapLine, hend, String.append_assoc]
  rw [Text.unlines, List.map_map]
  exact congrArg String.join (List.map_congr_left fun r _ => hentry r)

theorem newline_not_mem_paramsType (r : Route) : '\n' ∉ (paramsType r).toList := by
  rw [paramsType]
  cases r.kind with
  | none => decide
  | catchall => decide
  | named names =>
    have hfields : '\n' ∉
        (Text.join "; " (names.map fun name => Json.quote name ++ ": string")).toList := by
      refine Text.not_mem_join (by decide) fun field hfield => ?_
      obtain ⟨name, -, rfl⟩ := List.mem_map.1 hfield
      simp [Json.newline_not_mem_quote]
    simp [hfields]

theorem newline_not_mem_mapLine (r : Route) : '\n' ∉ (mapLine r).toList := by
  simp [mapLine, Json.newline_not_mem_quote, newline_not_mem_paramsType]

theorem readMember_mapLine (r : Route) : readMember (mapLine r) = some (r.text, paramsType r) := by
  have hline : (mapLine r).toList = [' ', ' ', '"'] ++
      (r.text.toList.flatMap Json.escapeChar ++ '"' :: ([':', ' '] ++
        (paramsType r ++ ";").toList)) := by
    simp [mapLine, Json.quote]
  have hkey := Text.dropStart?_eq_some_iff.2 hline
  have htype : Text.dropStart? [':', ' '] ([':', ' '] ++ (paramsType r ++ ";").toList) =
      some (paramsType r ++ ";").toList :=
    Text.dropStart?_eq_some_iff.2 rfl
  have hend : Text.stripEnd? ";" (paramsType r ++ ";") = some (paramsType r) :=
    Text.stripEnd?_eq_some_iff.2 rfl
  simp only [readMember, hkey, Json.readLiteral_escaped, htype, String.ofList_toList, hend,
    Option.bind_eq_bind, Option.bind_some, Option.pure_def]

theorem mapM_readMember (routes : List Route) :
    (routes.map mapLine).mapM readMember = some (routes.map fun r => (r.text, paramsType r)) := by
  induction routes with
  | nil => rfl
  | cons r rest ih =>
    rw [List.map_cons, List.mapM_cons, readMember_mapLine, ih]
    rfl

def Declared.ofTable (table : RouteTable) : Declared where
  routes := table.texts
  types := table.toList.map fun r => (r.text, paramsType r)
  catchalls := (table.toList.filter (·.kind.shape = .catchall)).map Route.text
  named := (table.toList.filter (·.kind.shape = .named)).map Route.text

theorem readDeclared_values (table : RouteTable) (importSource : Option String) :
    readDeclared (values table importSource) = some (.ofTable table) := by
  have hlines : Text.lines (String.join (table.toList.map mapEntry)) = table.toList.map mapLine := by
    rw [join_mapEntry]
    refine Text.lines_unlines fun line hline => ?_
    obtain ⟨r, -, rfl⟩ := List.mem_map.1 hline
    exact newline_not_mem_mapLine r
  have hroutes : readArray table.toPrettyJson = some table.texts := readArray_pretty table.texts
  simp only [readDeclared, values, hroutes, hlines, mapM_readMember, readUnion_unionOf,
    Option.bind_eq_bind, Option.bind_some, Option.pure_def, Declared.ofTable]

/-! ### The three cases -/

namespace Declared

/-- Where a route stands if it is of the given shape. -/
def Lists (declared : Declared) (route : String) : Shape → Prop
  | .catchall => route ∈ declared.catchalls
  | .named => route ∈ declared.named
  | .none => (route, "\x7b\x7d") ∈ declared.types

variable {table : RouteTable} {route : String}

end Declared

end Artifact

end RouteTree
