import RouteTree.Artifact.Runtime
import RouteTree.Proofs.Building
import RouteTree.Proofs.Markers

/-! The functions of the generated module and those of the library compute the same. The module
takes a route apart by the characters of its text; it finds the same kind and the same segments, so
it builds the same URLs and returns the same values. -/
namespace RouteTree

namespace Text

theorem join_cons (sep s : String) (parts : List String) :
    join sep (s :: parts) = s ++ String.join (parts.map (sep ++ ·)) := by
  induction parts generalizing s with
  | nil => simp [join]
  | cons part rest ih =>
    rw [join_cons_cons, ih, List.map_cons, String.join_cons]
    simp only [String.append_assoc]

theorem slashSplit_append_slashed (a : String) {segments : List Segment}
    (h : ∀ s ∈ segments, s.Readable) :
    slashSplit (a ++ Route.slashed segments) = slashSplit a ++ segments.map Segment.text := by
  have hslashed : Route.slashed segments =
      String.join ((segments.map Segment.text).map ("/" ++ ·)) := by
    rw [Route.slashed, List.map_map]
    rfl
  rw [hslashed]
  exact slashSplit_append_join a (List.forall_mem_map.2 fun s hs => (h s hs).no_slash)

theorem pieces_eq_filter (s : String) :
    pieces s = (slashSplit s).filter fun part => !part.isEmpty := by
  rw [pieces, slashSplit, List.filter_map]
  congr 1
  refine List.filter_congr fun part _ => ?_
  cases part <;> simp

end Text

namespace Artifact.Runtime

open Text (Dictionary)

variable {r : Route} {values : Dictionary String}

theorem dropFront_append (s t : String) : dropFront s.toList.length (s ++ t) = t := by
  rw [dropFront, String.toList_append, List.drop_left, String.ofList_toList]

theorem dropBack_append (s t : String) : dropBack t.toList.length (s ++ t) = s := by
  rw [dropBack, String.toList_append, List.length_append, Nat.add_sub_cancel, List.take_left,
    String.ofList_toList]

theorem substitute_of_literal {text : String} (h : (Segment.literal text).Readable) :
    substitute values text = text := by
  have hhead : text.toList.head? ≠ some '@' := mt h.head?_text_iff.1 id
  rw [substitute, if_neg (mt Text.startsWith_at_iff.1 hhead)]

theorem substitute_named {name value : String} (h : values.get? name = some value) :
    substitute values (Segment.named name).text = value := by
  have hname : dropFront 1 ("@" ++ name) = name := dropFront_append "@" name
  rw [Segment.text, substitute, if_pos (Text.startsWith_at_iff.2 (by simp)), hname, h]
  rfl

theorem substitute_of_gives {s : Segment} {piece : String} (hs : s.Readable)
    (h : s.Gives values piece) : substitute values s.text = piece := by
  cases s with
  | literal text =>
    obtain rfl : piece = text := h
    exact substitute_of_literal hs
  | named name => exact substitute_named h
  | catchall => exact h.elim

theorem fill_eq_ok {segments : List Segment} {url : String} (hreadable : ∀ s ∈ segments, s.Readable)
    (hcatchall : Segment.catchall ∉ segments) (h : r.fill values segments = .ok url) :
    url = String.join (segments.map fun s => "/" ++ substitute values s.text) := by
  obtain ⟨pieces, hpieces, rfl⟩ := (Route.fill_eq_ok_iff hcatchall).1 h
  clear h hcatchall
  congr 1
  induction hpieces with
  | nil => rfl
  | cons hpiece _ ih =>
    obtain ⟨hs, hrest⟩ := List.forall_mem_cons.1 hreadable
    rw [List.map_cons, List.map_cons, substitute_of_gives hs hpiece, ih hrest]

theorem join_substitute_text (h : r.segments ≠ []) :
    Text.join "/" ((Text.slashSplit r.text).map (substitute values)) =
      String.join (r.segments.map fun s => "/" ++ substitute values s.text) := by
  have hparts : Text.slashSplit r.text = "" :: r.segments.map Segment.text := by
    have hslashed := Text.slashSplit_append_slashed "" r.readable
    rw [String.empty_append] at hslashed
    rw [Route.text_of_ne_nil h, hslashed]
    rfl
  have hempty : substitute values "" = "" := rfl
  rw [hparts, List.map_cons, Text.join_cons, hempty, List.map_map, List.map_map]
  simp [Function.comp_def]

/-- The case of `getRoute` that the text of a route selects. -/
def branch (route : String) : Shape :=
  if Text.endsWith "/@" route then .catchall
  else if Text.contains "/@" route then .named
  else .none

/-- The path of a URL in each case of `getRoute`. -/
def pathIn (route : String) (params : Params) : Shape → Option String
  | .catchall => (asList? params).map fun parts => dropBack 2 route ++ "/" ++ Text.join "/" parts
  | .named => (asRecord? params).map fun values =>
      Text.join "/" ((Text.slashSplit route).map (substitute values))
  | .none => some route

theorem path?_eq_pathIn (route : String) (params : Params) :
    path? route params = pathIn route params (branch route) := by
  rw [path?, branch]
  split
  · rfl
  split
  · rfl
  · rfl

theorem branch_text (r : Route) : branch r.text = r.kind.shape := by
  rw [branch]
  cases hkind : r.kind with
  | catchall =>
    rw [if_pos (Route.endsWith_text_iff.2 hkind)]
    rfl
  | named names =>
    have hend : ¬ Text.endsWith "/@" r.text := by simp [Route.endsWith_text_iff, hkind]
    have hmark : Text.contains "/@" r.text := by simp [Route.contains_text_iff, hkind]
    rw [if_neg hend, if_pos hmark]
    rfl
  | none =>
    have hend : ¬ Text.endsWith "/@" r.text := by simp [Route.endsWith_text_iff, hkind]
    have hmark : ¬ Text.contains "/@" r.text := by simp [Route.contains_text_iff, hkind]
    rw [if_neg hend, if_neg hmark]
    rfl

theorem path?_of_build {params : Params} {url : String} (h : r.build params = .ok url) :
    path? r.text params = some url := by
  rw [path?_eq_pathIn, branch_text]
  rcases Route.build_cases h with
    ⟨pieces, hkind, rfl, rfl⟩ | ⟨names, values, hkind, rfl, hfill⟩ | ⟨hkind, -, rfl⟩
  · have hbase : dropBack 2 r.text = r.base := by
      rw [Route.text_of_isCatchall (Route.kind_eq_catchall_iff.1 hkind)]
      exact dropBack_append r.base "/@"
    rw [hkind, ParamKind.shape, pathIn, hbase]
    rfl
  · have hcatchall : Segment.catchall ∉ r.segments := by
      refine Route.catchall_not_mem ?_
      simp [← Route.kind_eq_catchall_iff, hkind]
    have hne : r.segments ≠ [] := by
      intro hnil
      have hnone : r.kind = .none := Route.kind_eq_none_iff.2 (by simp [hnil])
      rw [hkind] at hnone
      cases hnone
    rw [hkind, ParamKind.shape, pathIn, fill_eq_ok r.readable hcatchall hfill,
      ← join_substitute_text hne]
    rfl
  · rw [hkind]
    rfl

/-- The values as the module has them: a record also where there are none. -/
def asValue : Params → Params
  | .none => .named .empty
  | params => params

theorem extractRouteParams_of_extract {raw : Dictionary String} {params : Params}
    (h : r.extract raw = .ok params) : extractRouteParams r.text raw = asValue params := by
  have hkey : raw.get? "*" = raw.get? restKey := rfl
  rw [extractRouteParams, hkey]
  rcases Route.extract_cases h with
    ⟨rest, hrest, -, rfl⟩ | ⟨hrest, names, -, -, rfl⟩ | ⟨hrest, -, rfl⟩
  · rw [hrest]
    exact congrArg Params.catchall (Text.pieces_eq_filter rest).symm
  · rw [hrest]
    rfl
  · rw [hrest]
    by_cases hempty : raw.isEmpty
    · have hraw : raw = .empty := Text.Ordered.ext (List.isEmpty_iff.1 hempty)
      rw [hraw]
      rfl
    · rw [if_neg hempty]
      rfl

/-- Whenever a URL can be built from a route, the module builds it from the text of the route, with
the same query; and whenever values can be extracted, the module returns them from the same
captures. -/
theorem runtime_agrees (r : Route) :
    (∀ params search url, r.buildWithSearch params search = .ok url →
      getRoute r.text params search = some url) ∧
    (∀ raw params, r.extract raw = .ok params →
      extractRouteParams r.text raw = asValue params) := by
  refine ⟨fun params search url h => ?_, fun raw params h => extractRouteParams_of_extract h⟩
  rw [Route.buildWithSearch] at h
  obtain ⟨path, hpath, rfl⟩ := map_eq_ok_iff.1 h
  rw [getRoute, path?_of_build hpath, Option.map_some]
  split
  · next hquery => simp [hquery]
  · next hquery =>
    have hne : Form.serialize search ≠ "" := hquery
    simp [hne]

/-- A name that begins with an at sign itself, with an empty value, beside a literal that holds one;
and a capture of all that is left with slashes to spare. -/
theorem runtime_agrees_shop :
    let shop := (Route.parse "/shop/@@id/a@b").toOption.getD .root
    let docs := (Route.parse "docs/@lang/@").toOption.getD .root
    let values : Params := .named (.ofList [("@id", "")])
    let raw : Dictionary String := .ofList [("*", "/123//4/"), ("lang", "en")]
    shop.buildWithSearch values [("q", "x y")] = .ok "/shop//a@b?q=x+y" ∧
    getRoute shop.text values [("q", "x y")] = some "/shop//a@b?q=x+y" ∧
    docs.extract raw = .ok (.catchall ["123", "4"]) ∧
    extractRouteParams docs.text raw = .catchall ["123", "4"] := by
  intro shop docs values raw
  have hbuild : shop.buildWithSearch values [("q", "x y")] = .ok "/shop//a@b?q=x+y" :=
    eq_ok_of_toOption (by decide +kernel)
  have hextract : docs.extract raw = .ok (.catchall ["123", "4"]) :=
    eq_ok_of_toOption (by decide +kernel)
  exact ⟨hbuild, (runtime_agrees shop).1 _ _ _ hbuild, hextract,
    (runtime_agrees docs).2 _ _ hextract⟩

end Artifact.Runtime

end RouteTree
