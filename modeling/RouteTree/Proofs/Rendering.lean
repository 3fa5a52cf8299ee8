import RouteTree.Artifact.Module
import RouteTree.Proofs.Filling
import RouteTree.Proofs.Quoting

/-! The generated module is its template with each placeholder filled once. What is filled in is
not read again, whatever text stands in it, and the module tells its table and its import source:
the import line ends where it ends, and so does the list of routes. -/
namespace RouteTree.Artifact

theorem toList_unlines (ls : List String) :
    (Text.unlines ls).toList = ls.flatMap fun line => line.toList ++ ['\n'] := by
  simp [Text.unlines, List.flatMap_map]

theorem layout_routeTreeSource :
    (layout routeTreeSource).parts.map Prod.fst =
      ["IMPORTS".toList, "PAGE_ROUTES".toList, "ROUTE_PARAMS_MAP".toList,
        "CATCHALL_ROUTES".toList, "NAMED_ROUTES".toList, "PARAMS_HELPER".toList] ∧
    (layout routeTreeSource).literals[1]? = some "export const pageRoutes = ".toList ∧
    ∀ literal ∈ (layout routeTreeSource).literals, Text.occursIn ['_', '_'] literal = false := by
  -- the characters of a line are taken from its literal, not decoded from its bytes
  rw [layout, routeTreeSource, toList_unlines]
  simp only [List.flatMap_cons, List.flatMap_nil]
  repeat rw [String.toList_ofList]
  decide +kernel

/-- The module between its placeholders. -/
structure Frame where
  banner : String
  exports : String
  types : String
  catchalls : String
  named : String
  builder : String
  ending : String

namespace Frame

/-- The module with texts for its six placeholders. -/
def around (frame : Frame)
    (imports pageRoutes paramsMap catchallRoutes namedRoutes paramsHelper : String) : String :=
  frame.banner ++ imports ++ frame.exports ++ pageRoutes ++ frame.types ++ paramsMap ++
    frame.catchalls ++ catchallRoutes ++ frame.named ++ namedRoutes ++ frame.builder ++
    paramsHelper ++ frame.ending

def literals (frame : Frame) : List String :=
  [frame.banner, frame.exports, frame.types, frame.catchalls, frame.named, frame.builder,
    frame.ending]

def layout (frame : Frame) : Layout :=
  ⟨frame.banner.toList, [("IMPORTS".toList, frame.exports.toList),
    ("PAGE_ROUTES".toList, frame.types.toList), ("ROUTE_PARAMS_MAP".toList, frame.catchalls.toList),
    ("CATCHALL_ROUTES".toList, frame.named.toList), ("NAMED_ROUTES".toList, frame.builder.toList),
    ("PARAMS_HELPER".toList, frame.ending.toList)]⟩

theorem text_layout (frame : Frame) (put : List Char → List Char) :
    String.ofList (frame.layout.text put) =
      frame.around (.ofList (put "IMPORTS".toList)) (.ofList (put "PAGE_ROUTES".toList))
        (.ofList (put "ROUTE_PARAMS_MAP".toList)) (.ofList (put "CATCHALL_ROUTES".toList))
        (.ofList (put "NAMED_ROUTES".toList)) (.ofList (put "PARAMS_HELPER".toList)) := by
  rw [← String.toList_inj]
  simp only [layout, Layout.text, around, List.flatMap_cons, List.flatMap_nil, List.append_nil,
    String.toList_append, String.toList_ofList, List.append_assoc]

end Frame

theorem parts_of_names {parts : List (List Char × List Char)} {a b c d e f : List Char}
    (h : parts.map Prod.fst = [a, b, c, d, e, f]) :
    ∃ p q r s t u, parts = [(a, p), (b, q), (c, r), (d, s), (e, t), (f, u)] := by
  simp only [List.map_eq_cons_iff, List.map_eq_nil_iff] at h
  grind

/-- The plain texts of the route tree have no mark in them. -/
theorem exists_frame : ∃ frame : Frame, layout routeTreeSource = frame.layout ∧
    frame.exports = "export const pageRoutes = " ∧
    ∀ literal ∈ frame.literals, Text.contains "__" literal = false := by
  obtain ⟨hnames, hexports, hplain⟩ := layout_routeTreeSource
  generalize layout routeTreeSource = found at *
  obtain ⟨banner, parts⟩ := found
  obtain ⟨exports, types, catchalls, named, builder, ending, rfl⟩ := parts_of_names hnames
  refine ⟨⟨.ofList banner, .ofList exports, .ofList types, .ofList catchalls, .ofList named,
    .ofList builder, .ofList ending⟩, ?_, ?_, ?_⟩
  · simp only [Frame.layout, String.toList_ofList]
  · have heq : exports = "export const pageRoutes = ".toList := Option.some.inj hexports
    rw [heq, String.ofList_toList]
  · simpa [Layout.literals, Frame.literals, Text.contains] using hplain

theorem source_eq_around {frame : Frame} (h : layout routeTreeSource = frame.layout) :
    routeTreeSource = frame.around "__IMPORTS__" "__PAGE_ROUTES__" "__ROUTE_PARAMS_MAP__"
      "__CATCHALL_ROUTES__" "__NAMED_ROUTES__" "__PARAMS_HELPER__" := by
  have hsource := eq_text_mark routeTreeSource
  rw [h, Frame.text_layout] at hsource
  exact hsource

theorem render_eq_around {frame : Frame} (h : layout routeTreeSource = frame.layout)
    (table : RouteTable) (importSource : Option String) :
    render table importSource = frame.around ((importSource.map importLine).getD "")
      table.toPrettyJson (String.join (table.toList.map mapEntry)) (unionOf table .catchall)
      (unionOf table .named) (if importSource.isSome then paramsHelperSource else "") := by
  rw [render, fill_eq_text, h, Frame.text_layout]
  simp only [Piece.fill, String.ofList_toList, values]

theorem exists_importLine : ∃ start ending : String, start.toList.head? = some 'i' ∧
    ∀ source, importLine source = start ++ Json.quote source ++ ending := by
  refine ⟨"import \x7b usePageContext \x7d from ", ";\n\n", ?_, fun _ => rfl⟩
  rw [String.toList_ofList]
  rfl

/-- An import line is told from none, and from one of another source, before a text that begins
with another letter. -/
theorem importLine_append_inj {s t : Option String} {c : Char} {rest rest' : List Char}
    (hc : c ≠ 'i') (h : ((s.map importLine).getD "").toList ++ c :: rest =
      ((t.map importLine).getD "").toList ++ c :: rest') : s = t ∧ rest = rest' := by
  obtain ⟨start, ending, hstart, hline⟩ := exists_importLine
  have hnone (source : String) (rest rest' : List Char) :
      (importLine source).toList ++ rest ≠ c :: rest' := by
    intro heq
    have hhead := congrArg List.head? heq
    rw [hline, String.toList_append, String.toList_append, List.append_assoc, List.append_assoc,
      List.head?_append, hstart, Option.some_or, List.head?_cons, Option.some.injEq] at hhead
    exact hc hhead.symm
  cases s with
  | none =>
    cases t with
    | none => exact ⟨rfl, (List.cons.inj h).2⟩
    | some target => exact absurd h.symm (hnone target _ _)
  | some source =>
    cases t with
    | none => exact absurd h (hnone source _ _)
    | some target =>
      rw [Option.map_some, Option.getD_some, Option.map_some, Option.getD_some, hline, hline] at h
      simp only [String.toList_append, List.append_assoc, List.append_right_inj] at h
      obtain ⟨rfl, hrest⟩ := Json.quote_append_inj h
      exact ⟨rfl, (List.cons.inj (List.append_cancel_left hrest)).2⟩

/-- The module is its template with the import line, the list of routes, the map of parameter types,
the two unions and the parameter helper in their places, each as it is; and two modules are the same
only if they are of one table and one import source. -/
theorem render_fills_once :
    (∃ frame : Frame,
      routeTreeSource = frame.around "__IMPORTS__" "__PAGE_ROUTES__" "__ROUTE_PARAMS_MAP__"
        "__CATCHALL_ROUTES__" "__NAMED_ROUTES__" "__PARAMS_HELPER__" ∧
      (∀ literal ∈ frame.literals, Text.contains "__" literal = false) ∧
      ∀ table importSource, render table importSource =
        frame.around ((importSource.map importLine).getD "") table.toPrettyJson
          (String.join (table.toList.map mapEntry)) (unionOf table .catchall)
          (unionOf table .named) (if importSource.isSome then paramsHelperSource else "")) ∧
    ∀ a b s t, render a s = render b t → a = b ∧ s = t := by
  obtain ⟨frame, hlayout, hexports, hplain⟩ := exists_frame
  have hrender := render_eq_around hlayout
  refine ⟨⟨frame, source_eq_around hlayout, hplain, hrender⟩, fun a b s t h => ?_⟩
  have hstart : frame.exports.toList = 'e' :: "xport const pageRoutes = ".toList := by
    rw [hexports, String.toList_ofList, String.toList_ofList]
  rw [hrender, hrender, ← String.toList_inj] at h
  simp only [Frame.around, String.toList_append, List.append_assoc, hstart, List.cons_append,
    List.append_right_inj] at h
  obtain ⟨rfl, hbody⟩ := importLine_append_inj (by decide) h
  obtain ⟨htexts, -⟩ := Json.pretty_strings_append_inj (List.append_cancel_left hbody)
  exact ⟨RouteTable.texts_injective htexts, rfl⟩

/-- A route and an import source whose texts are marks, and two spellings of the routes. -/
theorem render_fills_once_marks :
    let table := RouteTable.ofPatterns ["/__PAGE_ROUTES__", "docs//@"]
    let spelled := RouteTable.ofPatterns ["docs/@/", "__PAGE_ROUTES__"]
    let source := some "__IMPORTS__"
    render table source = render spelled source ∧ table = spelled ∧ source = source ∧
    table.toPrettyJson = "[\n  \"/__PAGE_ROUTES__\",\n  \"/docs/@\"\n]" ∧
    ∃ frame : Frame, render table source = frame.around (importLine "__IMPORTS__")
      table.toPrettyJson (String.join (table.toList.map mapEntry)) (unionOf table .catchall)
      (unionOf table .named) paramsHelperSource := by
  intro table spelled source
  have htable : table = spelled := by decide +kernel
  have hrender : render table source = render spelled source := by rw [htable]
  obtain ⟨⟨frame, -, -, hframe⟩, hdetermined⟩ := render_fills_once
  obtain ⟨hsame, hsource⟩ := hdetermined _ _ _ _ hrender
  exact ⟨hrender, hsame, hsource, by decide +kernel, frame, hframe table source⟩

end RouteTree.Artifact
