import RouteTree.Proofs.PagesFound
import RouteTree.Proofs.Rewriting

/-! What a walk sees of a file that was added. In a tree without links a new file of some other name
is no page and says nothing about pages, and what is in a new directory is new. So the pages are the
same as before. -/
namespace RouteTree

namespace FileTree

/-- One file was written at the location, and otherwise nothing but directories was made. Neither
tree has links. -/
structure Adds (before after : FileTree) (loc : Location) : Prop where
  isPlain : before.IsPlain
  isPlain_after : after.IsPlain
  isPlace : before.IsPlace loc
  file : ∃ content, after.node? loc = some (.file content)
  others : ∀ there, there ≠ loc → after.node? there = before.node? there ∨
    before.node? there = none ∧ after.node? there = some .directory

namespace Adds

variable {before after : FileTree} {loc there : Location}

theorem grows (h : before.Adds after loc) : before.Grows after := by
  have hkeep {there : Location} {node : Node} (hnode : before.node? there = some node)
      (hother : there ≠ loc) : after.node? there = some node := by
    rcases h.others there hother with hsame | ⟨hnone, -⟩
    · rw [hsame, hnode]
    · rw [hnone] at hnode
      cases hnode
  have hloc {node : Node} (hnode : before.node? loc = some node) :
      ∃ content, node = .file content := by
    rcases h.isPlace with hnone | ⟨content, hfile⟩
    · rw [hnone] at hnode
      cases hnode
    · rw [hfile] at hnode
      exact ⟨content, (Option.some.inj hnode).symm⟩
  refine ⟨fun {there} hdir => hkeep hdir ?_, fun {there target} hlink => ?_,
    fun {there content} hfile => ?_⟩
  · rintro rfl
    obtain ⟨content, hfile⟩ := hloc hdir
    cases hfile
  · exact absurd hlink ((h.isPlain there (by rw [hlink]; rfl)).ne_link target)
  · by_cases hthere : there = loc
    · exact hthere ▸ h.file
    · exact ⟨content, hkeep hfile hthere⟩

theorem file_iff (h : before.Adds after loc) (hthere : there ≠ loc) {content : ByteArray} :
    after.node? there = some (.file content) ↔ before.node? there = some (.file content) := by
  rcases h.others there hthere with hsame | ⟨hnone, hdir⟩
  · rw [hsame]
  · rw [hnone, hdir]
    simp

end Adds

end FileTree

namespace Pages

variable {ws : Workspace} {files : FileTree} {loc here : Location} {dir : Path}
  {name file last : String} {names : List String}

theorem IsWay.locate_below (hplain : ws.files.IsPlain) (hlocate : ws.locate dir = .ok here)
    (h : IsWay ws dir names) : ws.locate (below dir names) = .ok (names.reverse ++ here) := by
  induction names generalizing dir here with
  | nil => exact hlocate
  | cons name rest ih =>
    obtain ⟨-, ⟨here', hlocate', -, -, hentry⟩, -, -, hway⟩ := isWay_cons_iff.1 h
    obtain rfl : here = here' := Except.ok.inj (hlocate.symm.trans hlocate')
    obtain ⟨there, hthere, -⟩ :=
      Workspace.isDirectory_iff.1 (hway.directories _ (mem_trail_self _ rest))
    obtain ⟨rfl, -⟩ :=
      Workspace.eq_of_locate_join hplain hlocate (hplain _ hentry).isNodeName hthere
    rw [List.reverse_cons, List.append_assoc]
    exact ih hthere hway

theorem hasPageFile_iff_node (hplain : ws.files.IsPlain) (hlocate : ws.locate dir = .ok here) :
    HasPageFile ws dir file ↔ here ∉ ws.closed ∧ file ∈ pageFiles ∧
      (dir.join ⟨file⟩).accept = .ok () ∧
      ∃ content, ws.files.node? (file :: here) = some (.file content) := by
  constructor
  · rintro ⟨⟨here', hhere', -, hclosed, hsome⟩, hpage, node, hnode, hother⟩
    obtain rfl : here = here' := Except.ok.inj (hlocate.symm.trans hhere')
    have hreal := hplain _ hsome
    obtain ⟨there, hthere, hthere'⟩ := Workspace.node?_eq_some_iff.1 hnode
    obtain ⟨rfl, -⟩ := Workspace.eq_of_locate_join hplain hlocate hreal.isNodeName hthere
    refine ⟨hclosed, hpage, Workspace.accept_of_locate hthere, ?_⟩
    cases node with
    | file content => exact ⟨content, hthere'⟩
    | directory => cases hother
    | link target => exact absurd hthere' (hreal.ne_link target)
  · rintro ⟨hclosed, hpage, haccept, content, hfile⟩
    have hreal := hplain (file :: here) (by rw [hfile]; rfl)
    have hthere := Workspace.locate_join hplain hlocate hreal haccept
    exact ⟨⟨here, hlocate, hreal.directory, hclosed, hreal.isSome⟩, hpage, _,
      Workspace.node?_eq_some_iff.2 ⟨_, hthere, hfile⟩, rfl⟩

theorem mem_routes_walk_iff {raw : RawRoute} : raw ∈ routes (walk ws dir) ↔
    ∃ page, IsPage ws dir page ∧ routeFrom ws dir "" page = raw := by
  obtain ⟨pages, -, hmem, hroutes⟩ := oneEach_walk ws dir
  simp only [hroutes, List.mem_map, hmem]

/-- Below a path that leads nowhere there are no routes. -/
theorem routes_walk_of_error {e : IoError} (hlocate : ws.locate dir = .error e) :
    routes (walk ws dir) = [] := by
  refine List.eq_nil_iff_forall_not_mem.2 fun raw hraw => ?_
  obtain ⟨page, hpage, -⟩ := mem_routes_walk_iff.1 hraw
  obtain ⟨here, hhere, -⟩ :=
    Workspace.isDirectory_iff.1 (hpage.way.directories dir (mem_trail_self dir _))
  rw [hlocate] at hhere
  cases hhere

section Added

variable (h : ws.files.Adds files loc)

include h

theorem IsWay.of_adds (hway : IsWay ws dir names) : IsWay { ws with files } dir names where
  directories inner hinner :=
    Workspace.isDirectory_of_grows h.grows (hway.directories inner hinner)
  entries step hstep := by
    obtain ⟨here, hlocate, hdir, hclosed, hsome⟩ := hway.entries step hstep
    refine ⟨here, Workspace.locate_of_grows h.grows hlocate, h.grows.directory hdir, hclosed, ?_⟩
    exact ((h.isPlain _ hsome).of_grows h.grows).isSome
  rules := hway.rules
  fresh := by
    have hsame : (trail dir names).map ({ ws with files } : Workspace).locate =
        (trail dir names).map ws.locate := by
      refine List.map_congr_left fun inner hinner => ?_
      obtain ⟨there, hthere, -⟩ := Workspace.isDirectory_iff.1 (hway.directories inner hinner)
      rw [hthere, Workspace.locate_of_grows h.grows hthere]
    rw [hsame]
    exact hway.fresh

/-- A way that leads to a node that was there was a way before. -/
theorem IsWay.of_adds_of_isReal (hlocate : ws.locate dir = .ok here)
    (hreal : ws.files.IsReal (last :: (names.reverse ++ here)))
    (hway : IsWay { ws with files } dir names) : IsWay ws dir names := by
  induction names generalizing dir here with
  | nil => exact isWay_nil_iff.2 (Workspace.isDirectory_iff.2 ⟨here, hlocate, hreal.directory⟩)
  | cons name rest ih =>
    have hlocate' := Workspace.locate_of_grows h.grows hlocate
    obtain ⟨-, ⟨here', hhere', -, hclosed, -⟩, hrule, hfresh, hrest⟩ := isWay_cons_iff.1 hway
    obtain rfl : here = here' := Except.ok.inj (hlocate'.symm.trans hhere')
    rw [List.reverse_cons, List.append_assoc, List.singleton_append] at hreal
    have hname : ws.files.IsReal (name :: here) :=
      hreal.of_suffix (.trans (List.suffix_append _ _) (List.suffix_cons _ _))
    obtain ⟨there, hthere, -⟩ :=
      Workspace.isDirectory_iff.1 (hrest.directories _ (mem_trail_self _ rest))
    have hnext := Workspace.locate_join h.isPlain hlocate hname (Workspace.accept_of_locate hthere)
    have hrest' := ih hnext hreal hrest
    refine isWay_cons_iff.2 ⟨Workspace.isDirectory_iff.2 ⟨here, hlocate, hname.directory⟩,
      ⟨here, hlocate, hname.directory, hclosed, hname.isSome⟩, hrule, ?_, hrest'⟩
    intro inner hinner heq
    rw [hlocate] at heq
    apply hfresh inner hinner
    rw [hlocate', Workspace.locate_of_grows h.grows heq]

theorem node?_join_iff (hlocate : ws.locate dir = .ok here) (hname : IsNodeName name)
    (hother : name :: here ≠ loc) {content : ByteArray} :
    ({ ws with files } : Workspace).node? (dir.join ⟨name⟩) = some (.file content) ↔
      ws.node? (dir.join ⟨name⟩) = some (.file content) := by
  have hlocate' := Workspace.locate_of_grows h.grows hlocate
  simp only [Workspace.node?_eq_some_iff]
  constructor
  · rintro ⟨there, hthere, hfile⟩
    obtain ⟨rfl, -⟩ := Workspace.eq_of_locate_join h.isPlain_after hlocate' hname hthere
    have hbefore := (h.file_iff hother).1 hfile
    have hreal := h.isPlain _ (by rw [hbefore]; rfl)
    exact ⟨_, Workspace.locate_join h.isPlain hlocate hreal (Workspace.accept_of_locate hthere),
      hbefore⟩
  · rintro ⟨there, hthere, hfile⟩
    obtain ⟨rfl, -⟩ := Workspace.eq_of_locate_join h.isPlain hlocate hname hthere
    exact ⟨_, Workspace.locate_of_grows h.grows hthere, (h.file_iff hother).2 hfile⟩

theorem hasPageFile_iff_of_adds (hlocate : ws.locate dir = .ok here)
    (hname : ∀ name, loc.head? = some name → name ∉ pageFiles) :
    HasPageFile { ws with files } dir file ↔ HasPageFile ws dir file := by
  rw [hasPageFile_iff_node h.isPlain hlocate,
    hasPageFile_iff_node h.isPlain_after (Workspace.locate_of_grows h.grows hlocate)]
  have hother (hpage : file ∈ pageFiles) : file :: here ≠ loc := by
    rintro rfl
    exact hname file rfl hpage
  constructor
  · rintro ⟨hclosed, hpage, haccept, content, hfile⟩
    exact ⟨hclosed, hpage, haccept, content, (h.file_iff (hother hpage)).1 hfile⟩
  · rintro ⟨hclosed, hpage, haccept, content, hfile⟩
    exact ⟨hclosed, hpage, haccept, content, (h.file_iff (hother hpage)).2 hfile⟩

/-- A page file was there before, and so was every directory around it. -/
theorem IsPage.isReal_of_adds (hlocate : ({ ws with files } : Workspace).locate dir = .ok here)
    (hname : ∀ name, loc.head? = some name → name ∉ pageFiles) {page : Page}
    (hpage : IsPage { ws with files } dir page) :
    ws.files.IsReal (page.file :: (page.names.reverse ++ here)) := by
  have hbelow := hpage.way.locate_below h.isPlain_after hlocate
  obtain ⟨-, hpageFile, -, content, hfile⟩ :=
    (hasPageFile_iff_node h.isPlain_after hbelow).1 hpage.file
  have hother : page.file :: (page.names.reverse ++ here) ≠ loc := by
    rintro rfl
    exact hname page.file rfl hpageFile
  exact h.isPlain _ (by rw [(h.file_iff hother).1 hfile]; rfl)

theorem isPage_iff_of_adds (hlocate : ws.locate dir = .ok here)
    (hname : ∀ name, loc.head? = some name → name ∉ pageFiles) (page : Page) :
    IsPage { ws with files } dir page ↔ IsPage ws dir page := by
  constructor
  · intro hpage
    have hreal := hpage.isReal_of_adds h (Workspace.locate_of_grows h.grows hlocate) hname
    have hway := IsWay.of_adds_of_isReal h hlocate hreal hpage.way
    exact ⟨hway, (hasPageFile_iff_of_adds h (hway.locate_below h.isPlain hlocate) hname).1
      hpage.file⟩
  · intro hpage
    exact ⟨hpage.way.of_adds h, (hasPageFile_iff_of_adds h
      (hpage.way.locate_below h.isPlain hlocate) hname).2 hpage.file⟩

omit h in
theorem isNodeName_of_mem_routeFiles (hfile : file ∈ routeFiles) : IsNodeName file := by
  simp only [routeFiles, List.mem_cons, List.not_mem_nil, or_false] at hfile
  rcases hfile with rfl | rfl | rfl | rfl <;> decide

theorem isCatchallDir_of_adds (hlocate : ws.locate dir = .ok here)
    (hname : ∀ name, loc.head? = some name → name ∉ routeFiles) :
    isCatchallDir { ws with files } dir = isCatchallDir ws dir := by
  have hfile (file : String) (hfile : file ∈ routeFiles) (content : ByteArray) :
      ({ ws with files } : Workspace).node? (dir.join ⟨file⟩) = some (.file content) ↔
        ws.node? (dir.join ⟨file⟩) = some (.file content) := by
    refine node?_join_iff h hlocate (isNodeName_of_mem_routeFiles hfile) ?_
    rintro rfl
    exact hname file rfl hfile
  rw [Bool.eq_iff_iff, isCatchallDir_iff, isCatchallDir_iff]
  unfold SaysCatchall
  refine exists_congr fun before => exists_congr fun file => exists_congr fun after =>
    exists_congr fun content => exists_congr fun text => and_congr_right fun hfiles => ?_
  have hmem (earlier : String) (hearlier : earlier ∈ before) : earlier ∈ routeFiles := by
    rw [hfiles]
    exact List.mem_append_left _ hearlier
  have hself : file ∈ routeFiles := by
    rw [hfiles]
    simp
  rw [hfile file hself]
  refine and_congr_left' (forall₂_congr fun earlier hearlier => not_congr ?_)
  rw [Workspace.isFile_iff, Workspace.isFile_iff]
  exact exists_congr (hfile earlier (hmem earlier hearlier))

/-- The walk finds the same routes as before. -/
theorem mem_routes_walk_of_adds (hlocate : ws.locate dir = .ok here)
    (hname : ∀ name, loc.head? = some name → name ∉ pageFiles ∧ name ∉ routeFiles)
    (raw : RawRoute) :
    raw ∈ routes (walk { ws with files } dir) ↔ raw ∈ routes (walk ws dir) := by
  rw [mem_routes_walk_iff, mem_routes_walk_iff]
  refine exists_congr fun page => ?_
  rw [isPage_iff_of_adds h hlocate fun name hhead => (hname name hhead).1]
  refine and_congr_right fun hpage => ?_
  rw [routeFrom, routeFrom, isCatchallDir_of_adds h (hpage.way.locate_below h.isPlain hlocate)
    fun name hhead => (hname name hhead).2]

/-- Below a directory that was not there before there are no routes. -/
theorem routes_walk_of_new (hlocate : ({ ws with files } : Workspace).locate dir = .ok here)
    (hnone : ws.files.node? here = none)
    (hname : ∀ name, loc.head? = some name → name ∉ pageFiles) :
    routes (walk { ws with files } dir) = [] := by
  refine List.eq_nil_iff_forall_not_mem.2 fun raw hraw => ?_
  obtain ⟨page, hpage, -⟩ := mem_routes_walk_iff.1 hraw
  have hreal := hpage.isReal_of_adds h hlocate hname
  have hhere := hreal.of_suffix (.trans (List.suffix_append _ _) (List.suffix_cons _ _))
  have hsome := hhere.isSome
  rw [hnone] at hsome
  cases hsome

end Added

end Pages

end RouteTree
