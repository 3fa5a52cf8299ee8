import Mathlib.Data.List.Forall2
import Mathlib.Data.List.Induction
import RouteTree.Proofs.Walk
import RouteTree.Proofs.Ways

/-! The walk finds the pages that ways lead to, each of them once. -/
namespace RouteTree.Pages

variable {ws : Workspace} {above : List Location} {dir : Path} {base name : String} {here : Location}

/-- What the path becomes behind a name on a way. -/
def past (base name : String) : String := if name = "index" then base else extend base name

/-- The route of a page below a directory that `base` leads to. -/
def routeFrom (ws : Workspace) (dir : Path) (base : String) (page : Page) : RawRoute :=
  ⟨"/" ++ page.names.foldl past base, isCatchallDir ws (below dir page.names)⟩

def Page.under (name : String) (page : Page) : Page := { page with names := name :: page.names }

/-- The findings have one route for each of the pages in question, and no others. -/
def OneEach (ws : Workspace) (dir : Path) (base : String) (which : Page → Prop)
    (found : List Finding) : Prop :=
  ∃ pages : List Page, pages.Nodup ∧ (∀ page, page ∈ pages ↔ which page) ∧
    routes found = pages.map (routeFrom ws dir base)

namespace OneEach

variable {which other : Page → Prop} {found more : List Finding}

theorem congr (h : OneEach ws dir base which found) (hwhich : ∀ page, which page ↔ other page) :
    OneEach ws dir base other found := by
  rwa [← funext fun page => propext (hwhich page)]

theorem none (hwhich : ∀ page, ¬ which page) (hfound : routes found = []) :
    OneEach ws dir base which found :=
  ⟨[], List.nodup_nil, fun page => by simp [hwhich], by rw [hfound, List.map_nil]⟩

theorem append (h : OneEach ws dir base which found) (h' : OneEach ws dir base other more)
    (hapart : ∀ page, which page → ¬ other page) :
    OneEach ws dir base (fun page => which page ∨ other page) (found ++ more) := by
  obtain ⟨pages, hnodup, hmem, hroutes⟩ := h
  obtain ⟨pages', hnodup', hmem', hroutes'⟩ := h'
  refine ⟨pages ++ pages', List.nodup_append.2 ⟨hnodup, hnodup', ?_⟩, fun page => ?_, ?_⟩
  · rintro page hpage _ hpage' rfl
    exact hapart page ((hmem page).1 hpage) ((hmem' page).1 hpage')
  · rw [List.mem_append, hmem, hmem']
  · rw [List.map_append, ← hroutes, ← hroutes', routes, List.filterMap_append]
    rfl

theorem flatMap {names : List String} {findings : String → List Finding} (hnames : names.Nodup)
    (h : ∀ name ∈ names,
      OneEach ws dir base (fun page => which page ∧ page.names.head? = some name) (findings name)) :
    OneEach ws dir base (fun page => which page ∧ ∃ name ∈ names, page.names.head? = some name)
      (names.flatMap findings) := by
  induction names with
  | nil => exact none (by simp) rfl
  | cons name rest ih =>
    obtain ⟨hname, hrest⟩ := List.nodup_cons.1 hnames
    obtain ⟨hfirst, hlater⟩ := List.forall_mem_cons.1 h
    rw [List.flatMap_cons]
    refine (hfirst.append (ih hrest hlater) ?_).congr fun page => ?_
    · rintro page ⟨-, hhead⟩ ⟨-, other, hother, hhead'⟩
      rw [hhead] at hhead'
      exact hname (Option.some.inj hhead' ▸ hother)
    · simp only [List.exists_mem_cons_iff, and_or_left]

theorem under (h : OneEach ws (dir.join ⟨name⟩) (past base name) which found) :
    OneEach ws dir base (fun page => ∃ inner, which inner ∧ page = inner.under name) found := by
  obtain ⟨pages, hnodup, hmem, hroutes⟩ := h
  refine ⟨pages.map (Page.under name), ?_, fun page => ?_, ?_⟩
  · refine hnodup.map ?_
    rintro ⟨names, file⟩ ⟨names', file'⟩ heq
    simpa [Page.under] using heq
  · simp only [List.mem_map, hmem, eq_comm]
  · rw [hroutes, List.map_map]
    rfl

end OneEach

/-- A page file below a directory, whose way keeps out of the directories `above`. -/
structure IsPageFrom (ws : Workspace) (above : List Location) (dir : Path) (page : Page) :
    Prop where
  isPage : IsPage ws dir page
  apart : ∀ inner ∈ trail dir page.names, ∀ loc ∈ above, ws.locate inner ≠ .ok loc

namespace IsPageFrom

variable {page : Page}

theorem isDirectory (h : IsPageFrom ws above dir page) : ws.isDirectory dir :=
  h.isPage.way.directories dir (mem_trail_self dir page.names)

theorem not_mem_above (h : IsPageFrom ws above dir page) (hlocate : ws.locate dir = .ok here) :
    here ∉ above :=
  fun hmem => h.apart dir (mem_trail_self dir page.names) here hmem hlocate

theorem exists_hasEntry (h : IsPageFrom ws above dir page) : ∃ name, ws.HasEntry dir name := by
  obtain ⟨names, file⟩ := page
  cases names with
  | nil => exact ⟨file, h.isPage.file.entry⟩
  | cons name rest => exact ⟨name, (isWay_cons_iff.1 h.isPage.way).2.1⟩

end IsPageFrom

section Directory

variable {names : List String} (hlocate : ws.locate dir = .ok here) (hcycle : here ∉ above)
  (hlist : ws.list here = .ok names)

include hlocate hcycle in
theorem locate_ne_of_mem (loc : Location) (hloc : loc ∈ above) : ws.locate dir ≠ .ok loc := by
  rw [hlocate]
  exact fun heq => hcycle (Except.ok.inj heq ▸ hloc)

include hlocate hlist in
theorem hasEntry_iff_mem : ws.HasEntry dir name ↔ name ∈ names := by
  rw [Workspace.hasEntry_iff hlocate, hlist]
  simp

include hlocate hcycle hlist in
theorem isPageFrom_under_iff (page : Page) : IsPageFrom ws above dir (page.under name) ↔
    name ∈ names ∧ DirRule.classify name ≠ .skip ∧
      IsPageFrom ws (here :: above) (dir.join ⟨name⟩) page := by
  constructor
  · rintro ⟨⟨hway, hfile⟩, hapart⟩
    obtain ⟨-, hentry, hrule, hfresh, hrest⟩ := isWay_cons_iff.1 hway
    refine ⟨(hasEntry_iff_mem hlocate hlist).1 hentry, hrule, ⟨hrest, hfile⟩, ?_⟩
    intro inner hinner loc hloc
    rcases List.mem_cons.1 hloc with rfl | hloc
    · exact hlocate ▸ hfresh inner hinner
    · exact hapart inner (trail_cons dir name _ ▸ List.mem_cons_of_mem _ hinner) loc hloc
  · rintro ⟨hname, hrule, ⟨hrest, hfile⟩, hapart⟩
    have hentry := (hasEntry_iff_mem hlocate hlist).2 hname
    have hfresh : ∀ inner ∈ trail (dir.join ⟨name⟩) page.names, ws.locate inner ≠ ws.locate dir := by
      intro inner hinner
      rw [hlocate]
      exact hapart inner hinner here List.mem_cons_self
    refine ⟨⟨isWay_cons_iff.2 ⟨Workspace.isDirectory_of_list hlocate hlist, hentry, hrule, hfresh,
      hrest⟩, hfile⟩, fun inner hinner loc hloc => ?_⟩
    rw [Page.under, trail_cons] at hinner
    rcases List.mem_cons.1 hinner with rfl | hinner
    · exact locate_ne_of_mem hlocate hcycle loc hloc
    · exact hapart inner hinner loc (List.mem_cons_of_mem here hloc)

private def isPageThere (ws : Workspace) (dir : Path) (name : String) : Bool :=
  isPageFile name && match ws.node? (dir.join ⟨name⟩) with
    | some node => !node.isDirectory
    | none => false

include hlocate hlist in
private theorem hasPageFile_iff :
    HasPageFile ws dir name ↔ name ∈ names.filter (isPageThere ws dir) := by
  rw [List.mem_filter, ← hasEntry_iff_mem hlocate hlist, isPageThere, Bool.and_eq_true, isPageFile,
    List.contains_iff_mem]
  constructor
  · rintro ⟨hentry, hname, node, hnode, hother⟩
    exact ⟨hentry, hname, by simp [hnode, hother]⟩
  · rintro ⟨hentry, hname, hother⟩
    split at hother
    · next node hnode => exact ⟨hentry, hname, node, hnode, by simpa using hother⟩
    · cases hother

include hlocate hcycle hlist in
private theorem isPageFrom_nil_iff :
    IsPageFrom ws above dir ⟨[], name⟩ ↔ name ∈ names.filter (isPageThere ws dir) := by
  rw [← hasPageFile_iff hlocate hlist]
  constructor
  · exact fun h => h.isPage.file
  · intro hfile
    have hway := isWay_nil_iff.2 (Workspace.isDirectory_of_list hlocate hlist)
    refine ⟨⟨hway, hfile⟩, fun inner hinner => ?_⟩
    obtain rfl := List.mem_singleton.1 hinner
    exact locate_ne_of_mem hlocate hcycle

private theorem routes_pagesOf (names : List String) : routes (pagesOf ws dir base names) =
    (names.filter (isPageThere ws dir)).map fun _ => ⟨"/" ++ base, isCatchallDir ws dir⟩ := by
  have hpages : pagesOf ws dir base names = (fun pages : List String =>
      if pages.isEmpty then []
      else (markerNotes ws dir).map .note ++
        pages.map fun _ => .route ⟨"/" ++ base, isCatchallDir ws dir⟩)
      (names.filter (isPageThere ws dir)) := rfl
  rw [hpages]
  generalize names.filter (isPageThere ws dir) = pages
  cases pages with
  | nil => rfl
  | cons page rest => simp [routes, List.filterMap_map]

include hlocate hcycle hlist in
theorem oneEach_pagesOf : OneEach ws dir base
    (fun page => IsPageFrom ws above dir page ∧ page.names = []) (pagesOf ws dir base names) := by
  refine ⟨(names.filter (isPageThere ws dir)).map (Page.mk []), ?_, fun page => ?_, ?_⟩
  · refine ((Workspace.nodup_of_list hlist).filter _).map ?_
    exact fun file file' heq => (Page.mk.inj heq).2
  · rw [List.mem_map]
    constructor
    · rintro ⟨file, hfile, rfl⟩
      exact ⟨(isPageFrom_nil_iff hlocate hcycle hlist).2 hfile, rfl⟩
    · obtain ⟨_, file⟩ := page
      rintro ⟨hpage, rfl⟩
      exact ⟨file, (isPageFrom_nil_iff hlocate hcycle hlist).1 hpage, rfl⟩
  · rw [routes_pagesOf, List.map_map]
    rfl

private theorem classify_cases (base name : String) :
    DirRule.classify name = .skip ∨
      (DirRule.classify name = .transparent ∧ past base name = base) ∨
      (DirRule.classify name = .segment name ∧ past base name = extend base name) := by
  unfold DirRule.classify past
  split
  · exact .inl rfl
  · split
    · exact .inr (.inl ⟨rfl, rfl⟩)
    · exact .inr (.inr ⟨rfl, rfl⟩)

theorem walkInto_eq {inside : List Location} : walkInto ws inside dir base name =
    if ws.isDirectory (dir.join ⟨name⟩) ∧ DirRule.classify name ≠ .skip then
      walkFrom ws inside (dir.join ⟨name⟩) (past base name)
    else [] := by
  unfold walkInto
  by_cases hdirectory : ws.isDirectory (dir.join ⟨name⟩)
  · rw [if_pos hdirectory]
    rcases classify_cases base name with hrule | ⟨hrule, hpast⟩ | ⟨hrule, hpast⟩
    · rw [hrule, if_neg (by simp)]
    · rw [hrule, if_pos (by simp [hdirectory]), hpast]
    · rw [hrule, if_pos (by simp [hdirectory]), hpast]
  · rw [if_neg hdirectory, if_neg (by simp [hdirectory])]

include hlocate hcycle hlist in
theorem oneEach_walkInto (hbelow : OneEach ws (dir.join ⟨name⟩) (past base name)
      (IsPageFrom ws (here :: above) (dir.join ⟨name⟩))
      (walkFrom ws (here :: above) (dir.join ⟨name⟩) (past base name))) (hname : name ∈ names) :
    OneEach ws dir base (fun page => IsPageFrom ws above dir page ∧ page.names.head? = some name)
      (walkInto ws (here :: above) dir base name) := by
  have hunder (page : Page) :
      IsPageFrom ws above dir page ∧ page.names.head? = some name ↔
        DirRule.classify name ≠ .skip ∧ ∃ inner,
          IsPageFrom ws (here :: above) (dir.join ⟨name⟩) inner ∧ page = inner.under name := by
    constructor
    · obtain ⟨_ | ⟨first, rest⟩, file⟩ := page
      · rintro ⟨-, hhead⟩
        cases hhead
      · rintro ⟨hpage, hhead⟩
        cases hhead
        obtain ⟨-, hrule, hinner⟩ :=
          (isPageFrom_under_iff hlocate hcycle hlist ⟨rest, file⟩).1 hpage
        exact ⟨hrule, ⟨rest, file⟩, hinner, rfl⟩
    · rintro ⟨hrule, inner, hinner, rfl⟩
      exact ⟨(isPageFrom_under_iff hlocate hcycle hlist inner).2 ⟨hname, hrule, hinner⟩, rfl⟩
  rw [walkInto_eq]
  split
  · next henter =>
    exact hbelow.under.congr fun page => by rw [hunder, and_iff_right henter.2]
  · next hstay =>
    refine .none (fun page hpage => hstay ?_) rfl
    obtain ⟨hrule, inner, hinner, -⟩ := (hunder page).1 hpage
    exact ⟨hinner.isDirectory, hrule⟩

end Directory

/-- The walk from a directory finds the pages below it that ways lead to. -/
theorem oneEach_walkFrom :
    OneEach ws dir base (IsPageFrom ws above dir) (walkFrom ws above dir base) := by
  induction above, dir, base using walkFrom.induct ws with
  | case1 above dir base e hlocate =>
    rw [walkFrom_error hlocate]
    refine .none (fun page h => ?_) rfl
    obtain ⟨here, hhere, -⟩ := Workspace.isDirectory_iff.1 h.isDirectory
    rw [hlocate] at hhere
    cases hhere
  | case2 above dir base here hlocate hcycle =>
    rw [walkFrom_cycle hlocate hcycle]
    exact .none (fun page h => h.not_mem_above hlocate hcycle) rfl
  | case3 above dir base here hlocate hcycle e hlist =>
    rw [walkFrom_closed hlocate hcycle hlist]
    refine .none (fun page h => ?_) rfl
    obtain ⟨name, hentry⟩ := h.exists_hasEntry
    obtain ⟨names, hnames, -⟩ := (Workspace.hasEntry_iff hlocate).1 hentry
    rw [hlist] at hnames
    cases hnames
  | case4 above dir base here hlocate hcycle names hlist ihSame ihExtend =>
    rw [walkFrom_directory hlocate hcycle hlist]
    -- a name adds itself to the path or not, and each way the walk goes on below it
    have hbelow (name : String) : OneEach ws (dir.join ⟨name⟩) (past base name)
        (IsPageFrom ws (here :: above) (dir.join ⟨name⟩))
        (walkFrom ws (here :: above) (dir.join ⟨name⟩) (past base name)) := by
      unfold past
      split
      · exact ihSame name
      · exact ihExtend name name
    have hinner := OneEach.flatMap (Workspace.nodup_of_list hlist) fun name hname =>
      oneEach_walkInto hlocate hcycle hlist (hbelow name) hname
    refine ((oneEach_pagesOf hlocate hcycle hlist).append hinner ?_).congr fun page => ?_
    · rintro page ⟨-, hnil⟩ ⟨-, name, -, hhead⟩
      rw [hnil] at hhead
      cases hhead
    · constructor
      · rintro (⟨hpage, -⟩ | ⟨hpage, -⟩)
        · exact hpage
        · exact hpage
      · intro hpage
        obtain ⟨_ | ⟨name, rest⟩, file⟩ := page
        · exact .inl ⟨hpage, rfl⟩
        · have hname := ((isPageFrom_under_iff hlocate hcycle hlist ⟨rest, file⟩).1 hpage).1
          exact .inr ⟨hpage, name, hname, rfl⟩

theorem oneEach_walk (ws : Workspace) (root : Path) :
    OneEach ws root "" (IsPage ws root) (walk ws root) := by
  unfold walk
  split
  · refine oneEach_walkFrom.congr fun page => ⟨IsPageFrom.isPage, fun hpage => ⟨hpage, ?_⟩⟩
    simp
  · next hroot =>
    exact .none (fun page hpage => hroot (hpage.way.directories root (mem_trail_self root _))) rfl

theorem extend_join {parts : List String} (h : ∀ part ∈ parts, part ≠ "") (name : String) :
    extend (Text.join "/" parts) name = Text.join "/" (parts ++ [name]) := by
  cases parts with
  | nil => rfl
  | cons part rest =>
    have hne := Text.join_cons_ne_empty "/" rest (h part List.mem_cons_self)
    rw [extend, if_neg (by simpa using hne), Text.join_append_singleton]

theorem foldl_past {names : List String} (h : ∀ name ∈ names, name ≠ "") :
    names.foldl past "" = Text.join "/" (names.filter (· ≠ "index")) := by
  induction names using List.reverseRecOn with
  | nil => rfl
  | append_singleton names name ih =>
    have hnames : ∀ part ∈ names, part ≠ "" := fun part hpart => h part (by simp [hpart])
    rw [List.foldl_append, ih hnames, List.foldl_cons, List.foldl_nil, List.filter_append, past]
    split
    · next hindex => simp [hindex]
    · next hindex =>
      rw [extend_join fun part hpart => hnames part (List.mem_of_mem_filter hpart)]
      simp [hindex]

theorem IsPage.isRouteOf {page : Page} (h : IsPage ws dir page) :
    IsRouteOf ws dir page (routeFrom ws dir "" page) :=
  ⟨by rw [routeFrom, foldl_past fun name hname => h.way.ne_empty hname], isCatchallDir_iff⟩

/-- The walk gives one route for each page file that a way from the root leads to, and no others.
Where the trees hold their nodes does not matter: the routes are the same but for their order. -/
theorem walk_finds_each_page (ws : Workspace) (root : Path) :
    (∃ pages : List Page, pages.Nodup ∧ (∀ page, page ∈ pages ↔ IsPage ws root page) ∧
      List.Forall₂ (IsRouteOf ws root) pages (routes (walk ws root))) ∧
    ∀ other, ws.SameFiles other → (routes (walk other root)).Perm (routes (walk ws root)) := by
  obtain ⟨pages, hnodup, hmem, hroutes⟩ := oneEach_walk ws root
  refine ⟨⟨pages, hnodup, hmem, ?_⟩, fun other hsame => ?_⟩
  · rw [hroutes, List.forall₂_map_right_iff, List.forall₂_same]
    exact fun page hpage => ((hmem page).1 hpage).isRouteOf
  · obtain ⟨pages', hnodup', hmem', hroutes'⟩ := oneEach_walk other root
    have hpages : pages'.Perm pages := by
      refine (List.perm_ext_iff_of_nodup hnodup' hnodup).2 fun page => ?_
      rw [hmem, hmem']
      exact ⟨IsPage.of_sameFiles hsame.symm, IsPage.of_sameFiles hsame⟩
    have hroute (page : Page) : routeFrom other root "" page = routeFrom ws root "" page := by
      rw [routeFrom, routeFrom, isCatchallDir_congr hsame]
    rw [hroutes', hroutes, funext hroute]
    exact hpages.map _

/-- A tree with a page that takes all that is left, whose directory has a link back to the root and
another name, a default page, and a layout group. -/
def gallery : Workspace where
  files := [
    (["pages"], .directory), (["index", "pages"], .directory), (["docs", "pages"], .directory),
    (["(auth)", "pages"], .directory), (["manual", "pages"], .link ⟨"docs"⟩),
    (["back", "docs", "pages"], .link ⟨"/pages"⟩),
    (["+Page.tsx", "index", "pages"], .file .empty), (["+Page.tsx", "docs", "pages"], .file .empty),
    (["+Page.md", "docs", "pages"], .file .empty), (["+Page.tsx", "(auth)", "pages"], .file .empty),
    (["+route.ts", "docs", "pages"], .file "export default \"/docs/*\"".toUTF8)].foldl
      (fun tree e => tree.insert e.1 e.2) .empty
  cwd := []

def galleryTurned : Workspace where
  files := {
    entries := gallery.files.entries.reverse
    distinct := by
      rw [List.map_reverse]
      exact List.nodup_reverse.2 gallery.files.distinct }
  cwd := []

theorem walk_finds_each_page_gallery :
    gallery.SameFiles galleryTurned ∧
    routes (walk gallery ⟨"pages"⟩) =
      [⟨"/manual", true⟩, ⟨"/manual", true⟩, ⟨"/docs", true⟩, ⟨"/docs", true⟩, ⟨"/", false⟩] ∧
    (routes (walk galleryTurned ⟨"pages"⟩)).Perm (routes (walk gallery ⟨"pages"⟩)) ∧
    ∃ pages : List Page, pages.length = 5 ∧ pages.Nodup ∧
      ∀ page, page ∈ pages ↔ IsPage gallery ⟨"pages"⟩ page := by
  have hsame : gallery.SameFiles galleryTurned :=
    ⟨FileTree.node?_eq_of_perm (List.reverse_perm _).symm, rfl, fun loc => Iff.rfl⟩
  have hwalk : routes (walk gallery ⟨"pages"⟩) =
      [⟨"/manual", true⟩, ⟨"/manual", true⟩, ⟨"/docs", true⟩, ⟨"/docs", true⟩, ⟨"/", false⟩] := by
    decide +kernel
  obtain ⟨⟨pages, hnodup, hmem, hroutes⟩, horder⟩ := walk_finds_each_page gallery ⟨"pages"⟩
  refine ⟨hsame, hwalk, horder galleryTurned hsame, pages, ?_, hnodup, hmem⟩
  rw [hroutes.length_eq, hwalk]
  rfl

end RouteTree.Pages
