import RouteTree.Proofs.SamePages
import RouteTree.Proofs.TwoSources

/-! Pages that take all that is left of a URL. A route file beside the page is to say so. The names
of directories are read as a pattern as well, and there a single `@` at the end says it too, so the
two agree just when no page takes all that is left by such a name alone. -/
namespace RouteTree

/-- Every node has a name of its own, as in any tree of real files. -/
def FileTree.IsNamed (tree : FileTree) : Prop :=
  ∀ here name, (tree.node? (name :: here)).isSome → IsNodeName name

theorem FileTree.IsPlain.isNamed {tree : FileTree} (h : tree.IsPlain) : tree.IsNamed :=
  fun _ _ hsome => (h _ hsome).isNodeName

theorem Segment.ofPiece_injective : Function.Injective ofPiece := by
  intro a b h
  rw [← text_ofPiece a, h, text_ofPiece]

namespace Pages

variable {ws : Workspace} {root dir : Path} {page other : Page} {raw raw' : RawRoute} {r : Route}

/-- The names on the way to a page that count in its path. -/
def Page.path (page : Page) : List String := page.names.filter (· ≠ "index")

/-- A page has this route in the table. A page whose pattern cannot be read has none. -/
def HasRoute (ws : Workspace) (root : Path) (page : Page) (r : Route) : Prop :=
  ∃ raw, IsRouteOf ws root page raw ∧ Route.parse raw.pattern = .ok r

theorem IsRouteOf.eq (h : IsRouteOf ws root page raw) (h' : IsRouteOf ws root page raw') :
    raw = raw' := by
  obtain ⟨path, catchall⟩ := raw
  obtain ⟨path', catchall'⟩ := raw'
  have hpath : path = path' := h.path.trans h'.path.symm
  have hcatchall : catchall = catchall' := Bool.eq_iff_iff.2 (h.catchall.trans h'.catchall.symm)
  rw [hpath, hcatchall]

theorem mem_table_iff : r ∈ (RouteTable.ofRaw (routes (walk ws root))).toList ↔
    ∃ page, IsPage ws root page ∧ HasRoute ws root page r := by
  rw [RouteTable.ofRaw, RouteTable.mem_ofPatterns_iff]
  constructor
  · rintro ⟨pattern, hpattern, hparse⟩
    obtain ⟨raw, hraw, rfl⟩ := List.mem_map.1 hpattern
    obtain ⟨page, hpage, rfl⟩ := mem_routes_walk_iff.1 hraw
    exact ⟨page, hpage, _, hpage.isRouteOf, hparse⟩
  · rintro ⟨page, hpage, raw, hraw, hparse⟩
    rw [hraw.eq hpage.isRouteOf] at hparse
    exact ⟨_, List.mem_map_of_mem (mem_routes_walk_iff.2 ⟨page, hpage, rfl⟩), hparse⟩

section Named

variable (hnamed : ws.files.IsNamed)

include hnamed

theorem IsWay.isNodeName {names : List String} (h : IsWay ws dir names) {name : String}
    (hname : name ∈ names) : IsNodeName name := by
  induction names generalizing dir with
  | nil => cases hname
  | cons first rest ih =>
    obtain ⟨-, ⟨here, -, -, -, hsome⟩, -, -, hrest⟩ := isWay_cons_iff.1 h
    rcases List.mem_cons.1 hname with rfl | hname
    · exact hnamed here _ hsome
    · exact ih hrest hname

theorem pieces_routeFrom (hpage : IsPage ws root page) :
    Text.pieces (routeFrom ws root "" page).path = page.path := by
  rw [hpage.isRouteOf.path, ← Page.path, Text.pieces_slash_append,
    Text.pieces_join fun name hname => ?_]
  have hnode := hpage.way.isNodeName hnamed (List.mem_of_mem_filter hname)
  exact ⟨hnode.ne_nil, hnode.slash⟩

/-- The pattern of a page is read as the names that count, with the mark after them if the page's
directory says so. -/
theorem hasRoute_iff (hpage : IsPage ws root page) : HasRoute ws root page r ↔
    (page.path ++ if isCatchallDir ws (below root page.names) then ["@"] else []).map
      Segment.ofPiece = r.segments := by
  have hpattern : Text.pieces (routeFrom ws root "" page).pattern =
      page.path ++ if isCatchallDir ws (below root page.names) then ["@"] else [] := by
    have hcatchall : (routeFrom ws root "" page).catchall =
      isCatchallDir ws (below root page.names) := rfl
    have hmark (s : String) : s ++ "/@" = s ++ "/" ++ "@" := by
      rw [String.append_assoc]
      rfl
    rw [RawRoute.pattern, hcatchall, ← pieces_routeFrom hnamed hpage]
    cases isCatchallDir ws (below root page.names) with
    | false => simp
    | true =>
      rw [if_pos rfl, if_pos rfl, hmark, Text.pieces_append_slash, Text.pieces_trimEndSlashes]
      rfl
  rw [← hpattern, ← Route.parse_eq_ok_iff]
  constructor
  · rintro ⟨raw, hraw, hparse⟩
    rwa [← hraw.eq hpage.isRouteOf]
  · exact fun hparse => ⟨_, hpage.isRouteOf, hparse⟩

theorem HasRoute.isCatchall_iff (hpage : IsPage ws root page) (h : HasRoute ws root page r) :
    r.isCatchall ↔ SaysCatchall ws (below root page.names) ∨ page.path.getLast? = some "@" := by
  have hsegments := (hasRoute_iff hnamed hpage).1 h
  rw [← isCatchallDir_iff, Route.isCatchall, decide_eq_true_eq, ← hsegments, List.getLast?_map,
    Option.map_eq_some_iff]
  simp only [Segment.ofPiece_eq_catchall_iff, exists_eq_right]
  split
  · next hcatchall => simp [hcatchall]
  · next hcatchall => simp [hcatchall]

theorem exists_hasRoute (hpage : IsPage ws root page)
    (htells : ¬ SaysCatchall ws (below root page.names)) (hfree : "@" ∉ page.path.dropLast) :
    ∃ r, HasRoute ws root page r := by
  rw [← Route.catchall_mem_dropLast_iff] at hfree
  refine ⟨⟨page.path.map Segment.ofPiece, ?_, hfree⟩, (hasRoute_iff hnamed hpage).2 ?_⟩
  · intro s hs
    obtain ⟨name, hname, rfl⟩ := List.mem_map.1 hs
    have hnode := hpage.way.isNodeName hnamed (List.mem_of_mem_filter hname)
    have hpiece : name ∈ Text.pieces name := by
      rw [Text.pieces_of_piece hnode.ne_nil hnode.slash]
      exact List.mem_singleton_self name
    exact Segment.readable_ofPiece hpiece
  · rw [if_neg (mt isCatchallDir_iff.1 htells), List.append_nil]

/-- Pages take all that is left just as their directories say when every page below a directory of
the mark's name, which does not say so itself, has the route of a page that does. -/
theorem catchall_just_said_iff :
    (∀ page r, IsPage ws root page → HasRoute ws root page r →
      (r.isCatchall ↔
        SaysCatchall ws (below root page.names) ∨ page.path.getLast? = some "@")) ∧
    ((∀ r, r ∈ (RouteTable.ofRaw (routes (walk ws root))).toList ∧ r.isCatchall ↔
        ∃ page, IsPage ws root page ∧ SaysCatchall ws (below root page.names) ∧
          HasRoute ws root page r) ↔
      ∀ page above, IsPage ws root page → ¬ SaysCatchall ws (below root page.names) →
        page.path = above ++ ["@"] → "@" ∉ above →
        ∃ other, IsPage ws root other ∧ SaysCatchall ws (below root other.names) ∧
          other.path = above) := by
  refine ⟨fun page r hpage hroute => hroute.isCatchall_iff hnamed hpage, fun hjust => ?_, ?_⟩
  · intro page above hpage htells hpath hfree
    obtain ⟨r, hroute⟩ := exists_hasRoute hnamed hpage htells (by rwa [hpath, List.dropLast_concat])
    have hcatchall : r.isCatchall :=
      (hroute.isCatchall_iff hnamed hpage).2 (.inr (by rw [hpath, List.getLast?_concat]))
    obtain ⟨other, hother, htells', hroute'⟩ :=
      (hjust r).1 ⟨mem_table_iff.2 ⟨page, hpage, hroute⟩, hcatchall⟩
    have hsegments := (hasRoute_iff hnamed hpage).1 hroute
    rw [← (hasRoute_iff hnamed hother).1 hroute', if_pos (isCatchallDir_iff.2 htells'),
      if_neg (mt isCatchallDir_iff.1 htells), List.append_nil, hpath] at hsegments
    have hpaths := List.map_injective_iff.2 Segment.ofPiece_injective hsegments
    exact ⟨other, hother, htells', (List.append_left_inj _).1 hpaths.symm⟩
  · intro hmarks r
    constructor
    · rintro ⟨htable, hcatchall⟩
      obtain ⟨page, hpage, hroute⟩ := mem_table_iff.1 htable
      by_cases htells : SaysCatchall ws (below root page.names)
      · exact ⟨page, hpage, htells, hroute⟩
      · have hlast := ((hroute.isCatchall_iff hnamed hpage).1 hcatchall).resolve_left htells
        obtain ⟨above, hpath⟩ := List.getLast?_eq_some_iff.1 hlast
        have hsegments := (hasRoute_iff hnamed hpage).1 hroute
        rw [if_neg (mt isCatchallDir_iff.1 htells), List.append_nil] at hsegments
        have hfree := r.catchall_last
        rw [← hsegments, Route.catchall_mem_dropLast_iff, hpath, List.dropLast_concat] at hfree
        obtain ⟨other, hother, htells', habove⟩ := hmarks page above hpage htells hpath hfree
        refine ⟨other, hother, htells', (hasRoute_iff hnamed hother).2 ?_⟩
        rw [if_pos (isCatchallDir_iff.2 htells'), habove, ← hpath, hsegments]
    · rintro ⟨page, hpage, htells, hroute⟩
      exact ⟨mem_table_iff.2 ⟨page, hpage, hroute⟩,
        (hroute.isCatchall_iff hnamed hpage).2 (.inl htells)⟩

end Named

/-- No name of the handbook is that of the mark, so its pages say themselves what they take. -/
theorem catchall_just_said_iff_handbook :
    handbook.files.IsNamed ∧
    ∀ r, r ∈ (RouteTable.ofRaw (routes (walk handbook ⟨"pages"⟩))).toList ∧ r.isCatchall ↔
      ∃ page, IsPage handbook ⟨"pages"⟩ page ∧
        SaysCatchall handbook (below ⟨"pages"⟩ page.names) ∧ HasRoute handbook ⟨"pages"⟩ page r := by
  have hplain : handbook.files.IsPlain := FileTree.isPlain_of_fits (by decide +kernel)
  have hfound : routes (walk handbook ⟨"pages"⟩) =
      [⟨"/@id", false⟩, ⟨"/docs", true⟩, ⟨"/", false⟩] := by decide +kernel
  refine ⟨hplain.isNamed, (catchall_just_said_iff hplain.isNamed).2.2 ?_⟩
  intro page above hpage _ hpath _
  have hraw := mem_routes_walk_iff.2 ⟨page, hpage, rfl⟩
  have hlast : (Text.pieces (routeFrom handbook ⟨"pages"⟩ "" page).path).getLast? = some "@" := by
    rw [pieces_routeFrom hplain.isNamed hpage, hpath, List.getLast?_concat]
  have hnone : ∀ raw ∈ routes (walk handbook ⟨"pages"⟩),
      (Text.pieces raw.path).getLast? ≠ some "@" := by
    rw [hfound]
    decide
  exact absurd hlast (hnone _ hraw)

def marked : Workspace where
  files := [(["pages"], .directory), (["@", "pages"], .directory),
    (["+Page.tsx", "@", "pages"], .file .empty)].foldl (fun tree e => tree.insert e.1 e.2) .empty
  cwd := []

/-- The page takes all that is left although no route file says so. -/
theorem catchall_not_said_marked :
    marked.files.IsPlain ∧
    (RouteTable.ofRaw (routes (walk marked ⟨"pages"⟩))).texts = ["/@"] ∧
    ¬ ∀ r, r ∈ (RouteTable.ofRaw (routes (walk marked ⟨"pages"⟩))).toList ∧ r.isCatchall ↔
      ∃ page, IsPage marked ⟨"pages"⟩ page ∧
        SaysCatchall marked (below ⟨"pages"⟩ page.names) ∧ HasRoute marked ⟨"pages"⟩ page r := by
  have hfound : routes (walk marked ⟨"pages"⟩) = [⟨"/@", false⟩] := by decide +kernel
  have htable : (RouteTable.ofRaw [⟨"/@", false⟩]).toList.map Route.segments = [[.catchall]] := by
    decide +kernel
  refine ⟨FileTree.isPlain_of_fits (by decide +kernel), by rw [hfound]; decide +kernel, ?_⟩
  intro hjust
  obtain ⟨r, hr, hsegments⟩ := List.mem_map.1 (htable ▸ List.mem_singleton_self [Segment.catchall])
  obtain ⟨page, hpage, htells, -⟩ := (hjust r).1
    ⟨hfound ▸ hr, Route.isCatchall_iff.2 ⟨[], hsegments⟩⟩
  have hraw := mem_routes_walk_iff.2 ⟨page, hpage, rfl⟩
  rw [hfound, List.mem_singleton] at hraw
  have hfalse : isCatchallDir marked (below ⟨"pages"⟩ page.names) = false :=
    congrArg RawRoute.catchall hraw
  rw [← isCatchallDir_iff, hfalse] at htells
  cases htells

end Pages

end RouteTree
