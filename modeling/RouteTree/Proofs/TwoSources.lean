import RouteTree.Artifact.Module
import RouteTree.Proofs.HostNotation
import RouteTree.Proofs.Table
import RouteTree.Proofs.Walk
import RouteTree.Registry.PageMap

/-! A pages tree and a registry of the same pages give the same table. The notations of the two
sources for a route that takes all that is left meet in one raw route, and a table depends on the
raw routes alone, not on their order or number. -/
namespace RouteTree

namespace RawRoute

/-- The notation of a host router for a route: a star after a slash takes all that is left. -/
def hostText (raw : RawRoute) : String :=
  if raw.catchall then (if raw.path = "/" then "/*" else raw.path ++ "/*") else raw.path

def EndsInStar (raw : RawRoute) : Prop := (Text.pieces raw.path).getLast? = some "*"

instance (raw : RawRoute) : Decidable raw.EndsInStar := inferInstanceAs (Decidable (_ = _))

theorem ofHost_of_not_endsInStar {raw : RawRoute} (hcatchall : raw.catchall = false)
    (h : ¬ raw.EndsInStar) : ofHost raw.path = raw := by
  have hstrip : Text.stripEnd? "/*" raw.path = none := by
    rw [Option.eq_none_iff_forall_ne_some]
    intro base heq
    have hpath : raw.path = base ++ "/" ++ "*" := by
      rw [Text.stripEnd?_eq_some_iff.1 heq, String.append_assoc]
      rfl
    apply h
    rw [EndsInStar, hpath, Text.pieces_append_slash, List.getLast?_append]
    rfl
  unfold ofHost
  rw [hstrip]
  cases raw
  cases hcatchall
  rfl

/-- A host router's notation means the route it was made from, unless a star in it is the name of
a directory. -/
theorem ofHost_hostText {raw : RawRoute} (hne : raw.path ≠ "")
    (h : raw.catchall = false → ¬ raw.EndsInStar) : ofHost raw.hostText = raw := by
  unfold hostText
  split
  · next hcatchall =>
    split
    · next hroot =>
      cases raw
      cases hcatchall
      cases hroot
      rfl
    · rw [ofHost_star hne]
      cases raw
      cases hcatchall
      rfl
  · next hcatchall =>
    rw [Bool.not_eq_true] at hcatchall
    exact ofHost_of_not_endsInStar hcatchall (h hcatchall)

end RawRoute

namespace Registry.PageMap

theorem mem_routes_ofList_iff {entries : List (String × PageEntry)}
    (hids : (entries.map Prod.fst).Nodup) {raw : RawRoute} :
    raw ∈ routes (.ofList entries) ↔
      ∃ text ∈ entries.filterMap fun entry => entry.2.routeText?, RawRoute.ofHost text = raw := by
  simp only [routes, List.mem_filterMap, Text.Ordered.mem_ofList_iff_of_nodup hids,
    Option.map_eq_some_iff]
  constructor
  · rintro ⟨entry, hentry, text, htext, hraw⟩
    exact ⟨text, ⟨entry, hentry, htext⟩, hraw⟩
  · rintro ⟨text, ⟨entry, hentry, htext⟩, hraw⟩
    exact ⟨entry, hentry, text, htext, hraw⟩

end Registry.PageMap

open Registry in
/-- A page map that gives every route of a pages tree in the notation of a host router, beside
pages without a route string, has the table of the tree, and the same text is generated from it. -/
theorem sources_agree {ws : Workspace} {root : Path} {entries : List (String × PageEntry)}
    (importSource : Option String) (hids : (entries.map Prod.fst).Nodup)
    (hentries : ∀ text, (text ∈ entries.filterMap fun entry => entry.2.routeText?) ↔
      text ∈ (Pages.routes (Pages.walk ws root)).map RawRoute.hostText)
    (hstar : ∀ raw ∈ Pages.routes (Pages.walk ws root),
      raw.catchall = false → ¬ raw.EndsInStar) :
    let registered := RouteTable.ofRaw (PageMap.routes (.ofList entries))
    let walked := RouteTable.ofRaw (Pages.routes (Pages.walk ws root))
    registered = walked ∧ registered.toJson = walked.toJson ∧
      Artifact.render registered importSource = Artifact.render walked importSource := by
  -- a path from the walk begins with a slash, so it is not mistaken for a star alone
  have hback (raw : RawRoute) (h : raw ∈ Pages.routes (Pages.walk ws root)) :
      RawRoute.ofHost raw.hostText = raw := by
    obtain ⟨rest, hpath⟩ := Pages.rooted_of_mem_walk h
    refine RawRoute.ofHost_hostText ?_ (hstar raw h)
    rw [hpath, Ne, ← String.toList_inj]
    simp
  have htable : RouteTable.ofRaw (PageMap.routes (.ofList entries)) =
      RouteTable.ofRaw (Pages.routes (Pages.walk ws root)) := by
    apply RouteTable.ofRaw_congr
    intro raw
    rw [PageMap.mem_routes_ofList_iff hids]
    simp only [hentries, List.mem_map]
    constructor
    · rintro ⟨_, ⟨found, hfound, rfl⟩, rfl⟩
      rwa [hback found hfound]
    · intro h
      exact ⟨raw.hostText, ⟨raw, h, rfl⟩, hback raw h⟩
  exact ⟨htable, by rw [htable], by rw [htable]⟩

/-- A tree with a default page, a page that takes all that is left, and a named directory. -/
def handbook : Workspace where
  files := [
    (["pages"], .directory), (["index", "pages"], .directory), (["docs", "pages"], .directory),
    (["@id", "pages"], .directory), (["+Page.tsx", "index", "pages"], .file .empty),
    (["+Page.vue", "docs", "pages"], .file .empty), (["+Page.tsx", "@id", "pages"], .file .empty),
    (["+route.ts", "docs", "pages"], .file "export default \"/docs/*\"".toUTF8)].foldl
      (fun tree e => tree.insert e.1 e.2) .empty
  cwd := []

open Registry in
/-- The registry of the handbook lists its pages in another order, beside an error page and a page
with a route function. -/
theorem sources_agree_handbook :
    let entries : List (String × PageEntry) := [
      ("/pages/index", ⟨some (.string "/")⟩), ("/pages/_error", ⟨none⟩),
      ("/pages/docs", ⟨some (.string "/docs/*")⟩), ("/pages/custom", ⟨some (.object [])⟩),
      ("/pages/@id", ⟨some (.string "/@id")⟩)]
    let found := Pages.routes (Pages.walk handbook ⟨"pages"⟩)
    (entries.map Prod.fst).Nodup ∧
    (∀ text, (text ∈ entries.filterMap fun entry => entry.2.routeText?) ↔
      text ∈ found.map RawRoute.hostText) ∧
    (∀ raw ∈ found, raw.catchall = false → ¬ raw.EndsInStar) ∧
    RouteTable.ofRaw (PageMap.routes (.ofList entries)) = RouteTable.ofRaw found ∧
    (RouteTable.ofRaw (PageMap.routes (.ofList entries))).toJson =
      (RouteTable.ofRaw found).toJson ∧
    Artifact.render (RouteTable.ofRaw (PageMap.routes (.ofList entries))) none =
      Artifact.render (RouteTable.ofRaw found) none := by
  intro entries found
  have hfound : found = [⟨"/@id", false⟩, ⟨"/docs", true⟩, ⟨"/", false⟩] := by decide +kernel
  have hids : (entries.map Prod.fst).Nodup := by decide
  have hentries (text : String) : (text ∈ entries.filterMap fun entry => entry.2.routeText?) ↔
      text ∈ found.map RawRoute.hostText := by
    rw [hfound]
    apply List.Perm.mem_iff
    decide
  have hstar : ∀ raw ∈ found, raw.catchall = false → ¬ raw.EndsInStar := by
    rw [hfound]
    decide
  exact ⟨hids, hentries, hstar, sources_agree none hids hentries hstar⟩

end RouteTree
