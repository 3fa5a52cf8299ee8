import RouteTree.Proofs.SamePages
import RouteTree.Proofs.Table

/-! Building twice. In a tree without links a build pass adds directories and the generated file,
and neither is seen by a second pass. What can be seen is what these directories make reachable: a
path that goes through a directory that was missing, and back out of it, leads somewhere only after
the first pass. -/
namespace RouteTree

/-- A path that led nowhere leads by now to something that was there before. -/
def Workspace.Uncovers (before after : Workspace) (p : Path) : Prop :=
  before.pathExists p = false ∧ ∃ loc, after.locate p = .ok loc ∧ (before.files.node? loc).isSome

namespace FileTree

variable {before after : FileTree} {here loc : Location} {names : List String}

theorem Grows.directory_before (hgrows : before.Grows after) (hreal : before.IsReal here)
    (hdir : after.node? here = some .directory) : before.node? here = some .directory := by
  obtain ⟨node, hnode⟩ := Option.isSome_iff_exists.1 hreal.isSome
  cases node with
  | directory => exact hnode
  | file content =>
    obtain ⟨content', hfile⟩ := hgrows.file hnode
    rw [hdir] at hfile
    cases hfile
  | link target => exact absurd hnode (hreal.ne_link target)

section

variable (hgrows : before.Grows after) (hplain' : after.IsPlain) (hup : ".." ∉ names)
  (hreal : before.IsReal loc)

include hgrows hplain' hup hreal

theorem Grows.follow_before {atLink : Location → List String → Except IoError Location}
    (h : after.follow atLink here names = .ok loc)
    (atLink' : Location → List String → Except IoError Location) :
    here <:+ loc ∧ before.follow atLink' here names = .ok loc := by
  induction names generalizing here with
  | nil =>
    obtain rfl := Except.ok.inj h
    exact ⟨List.suffix_rfl, rfl⟩
  | cons name rest ih =>
    rw [List.mem_cons, not_or] at hup
    rw [follow]
    obtain ⟨hdir, ⟨rfl, hrest⟩ | ⟨rfl, -⟩ | ⟨-, -, -, hrest⟩⟩ := hplain'.follow_cons_eq_ok h
    · obtain ⟨hsuffix, hfollow⟩ := ih hup.2 hrest
      rw [turn, hgrows.directory_before (hreal.of_suffix hsuffix) hdir]
      exact ⟨hsuffix, hfollow⟩
    · exact absurd rfl hup.1
    · obtain ⟨hsuffix, hfollow⟩ := ih hup.2 hrest
      rw [(hreal.of_suffix hsuffix).turn]
      exact ⟨.trans (List.suffix_cons _ _) hsuffix, hfollow⟩

theorem Grows.lookup_before (links : Nat) (h : after.lookup links here names = .ok loc) :
    before.lookup links here names = .ok loc := by
  cases links with
  | zero => exact (hgrows.follow_before hplain' hup hreal h _).2
  | succ links => exact (hgrows.follow_before hplain' hup hreal h _).2

end

end FileTree

/-- A path that never goes up is not uncovered. -/
theorem Workspace.not_uncovers {ws : Workspace} {files : FileTree} {p : Path}
    (hgrows : ws.files.Grows files) (hplain : ws.files.IsPlain) (hplain' : files.IsPlain)
    (hup : ".." ∉ p.names) : ¬ ws.Uncovers { ws with files } p := by
  rintro ⟨hmissing, loc, hlocate, hsome⟩
  have hsteps : ".." ∉ p.steps := by
    unfold Path.steps
    split
    · simpa using hup
    · exact hup
  have hbefore : ws.locate p = .ok loc := by
    rw [locate_of_accept (accept_of_locate hlocate)]
    exact hgrows.lookup_before hplain' hsteps (hplain loc hsome) linkLimit
      (lookup_of_locate hlocate)
  rw [pathExists, hbefore] at hmissing
  cases hmissing

namespace RouteSource

/-- The path that routes are read from. -/
def path : RouteSource → Path
  | .pages dir => dir
  | .registry file => file

def table (source : RouteSource) (ws : Workspace) : RouteTable :=
  match (source.discover ws).routes with
  | .ok raw => .ofRaw raw
  | .error _ => .empty

variable {ws : Workspace} {files : FileTree} {source again : RouteSource} {loc here : Location}

theorem eq_of_path (hstrategy : again.strategy = source.strategy)
    (hpath : again.path = source.path) : again = source := by
  cases again with
  | pages dir =>
    cases source with
    | pages other => exact congrArg pages hpath
    | registry file => cases hstrategy
  | registry file =>
    cases source with
    | pages dir => cases hstrategy
    | registry other => exact congrArg registry hpath

theorem table_pages (ws : Workspace) (dir : Path) :
    (pages dir).table ws = .ofRaw (Pages.routes (Pages.walk ws dir)) := rfl

theorem readRegistry_of_error {file : Path} {e : IoError} (h : ws.readText file = .error e) :
    readRegistry ws file = .error (.unreadable file e) := by
  simp [readRegistry, h, Except.mapError, bind, Except.bind]

theorem table_registry_of_error {file : Path} {e : IoError} (h : ws.readText file = .error e) :
    (registry file).table ws = .empty := by
  rw [table, discover, readRegistry_of_error h]

theorem table_registry_congr {other : Workspace} {file : Path}
    (h : other.readText file = ws.readText file) :
    (registry file).table other = (registry file).table ws := by
  simp only [table, discover, readRegistry, h]

theorem table_of_error {e : IoError} (h : ws.locate source.path = .error e) :
    source.table ws = .empty := by
  cases source with
  | pages dir => exact congrArg RouteTable.ofRaw (Pages.routes_walk_of_error h)
  | registry file =>
    have hread : ws.readText file = .error e := by
      simp only [path] at h
      simp [Workspace.readText, h, bind, Except.bind]
    exact table_registry_of_error hread

theorem table_of_uncovers {after : Workspace} (h : ws.Uncovers after source.path) :
    source.table ws = .empty := by
  have hmissing := h.1
  cases hlocate : ws.locate source.path with
  | ok there =>
    rw [Workspace.pathExists, hlocate] at hmissing
    cases hmissing
  | error e => exact table_of_error hlocate

section Added

variable (h : ws.files.Adds files loc)
  (hname : ∀ name, loc.head? = some name → name ∉ Pages.pageFiles ∧ name ∉ Pages.routeFiles)

include h hname

theorem table_of_adds (hlocate : ws.locate source.path = .ok here)
    (hother : source.strategy = .registry → here ≠ loc) :
    source.table { ws with files } = source.table ws := by
  cases source with
  | pages dir =>
    rw [table_pages, table_pages]
    exact RouteTable.ofRaw_congr (Pages.mem_routes_walk_of_adds h hlocate hname)
  | registry file =>
    have hlocate' := Workspace.locate_of_grows h.grows hlocate
    simp only [path] at hlocate hlocate'
    rcases h.others here (hother rfl) with hsame | ⟨hnone, hdir⟩
    · apply table_registry_congr
      simp only [Workspace.readText, hlocate, hlocate', hsame, bind, Except.bind]
    · rw [table_registry_of_error (e := .isDirectory), table_registry_of_error (e := .isDirectory)]
      · simp [Workspace.readText, hlocate, hnone, bind, Except.bind]
      · simp [Workspace.readText, hlocate', hdir, bind, Except.bind]

/-- A source that is there only since has nothing in it. -/
theorem table_of_new (hlocate : ({ ws with files } : Workspace).locate source.path = .ok here)
    (hnone : ws.files.node? here = none) (hother : source.strategy = .registry → here ≠ loc) :
    source.table { ws with files } = .empty := by
  cases source with
  | pages dir =>
    exact congrArg RouteTable.ofRaw
      (Pages.routes_walk_of_new h hlocate hnone fun name hhead => (hname name hhead).1)
  | registry file =>
    simp only [path] at hlocate
    have hread : ({ ws with files } : Workspace).readText file = .error .isDirectory := by
      rcases h.others here (hother rfl) with hsame | ⟨-, hdir⟩
      · simp [Workspace.readText, hlocate, hsame, hnone, bind, Except.bind]
      · simp [Workspace.readText, hlocate, hdir, bind, Except.bind]
    exact table_registry_of_error hread

/-- The same source finds the same table, unless it has been uncovered. The source may be named by
another path by now, if it was not there before. -/
theorem table_again (hstrategy : again.strategy = source.strategy)
    (hpath : again.path = source.path ∨ ws.pathExists source.path = false ∧
      ∀ there, ({ ws with files } : Workspace).locate again.path = .ok there →
        ({ ws with files } : Workspace).locate source.path = .ok there)
    (hother : source.strategy = .registry →
      ({ ws with files } : Workspace).locate source.path ≠ .ok loc)
    (hcovered : ¬ ws.Uncovers { ws with files } source.path) :
    again.table { ws with files } = source.table ws := by
  cases hlocate : ws.locate source.path with
  | ok here =>
    have hexists : ws.pathExists source.path := by
      rw [Workspace.pathExists, hlocate]
      rfl
    have hsame : again = source := by
      rcases hpath with hpath | ⟨hmissing, -⟩
      · exact eq_of_path hstrategy hpath
      · rw [hexists] at hmissing
        cases hmissing
    rw [hsame]
    refine table_of_adds h hname hlocate fun hregistry heq => hother hregistry ?_
    rw [← heq]
    exact Workspace.locate_of_grows h.grows hlocate
  | error e =>
    have hmissing : ws.pathExists source.path = false := by
      rw [Workspace.pathExists, hlocate]
      rfl
    rw [table_of_error hlocate]
    cases hagain : ({ ws with files } : Workspace).locate again.path with
    | error e' => exact table_of_error hagain
    | ok there =>
      have hthere : ({ ws with files } : Workspace).locate source.path = .ok there := by
        rcases hpath with hpath | ⟨-, hpath⟩
        · rwa [← hpath]
        · exact hpath there hagain
      have hnone : ws.files.node? there = none := by
        by_contra hsome
        exact hcovered ⟨hmissing, there, hthere, Option.isSome_iff_ne_none.2 hsome⟩
      refine table_of_new h hname hagain hnone fun hregistry heq => ?_
      exact hother (hstrategy ▸ hregistry) (heq ▸ hthere)

end Added

end RouteSource

namespace Generator

variable {g : Generator} {ws : Workspace} {n : Nat}

theorem plan_of_fresh (hfresh : g.lastEmitted = none) (ws : Workspace) :
    g.plan false (g.source.discover ws).routes = .write (g.source.table ws) := by
  unfold plan RouteSource.table
  cases (g.source.discover ws).routes with
  | ok raw => rfl
  | error e => simp [hfresh]

theorem build_eq_emitted (hfresh : g.lastEmitted = none)
    (h : (g.build ws).outcome = .emitted n) :
    n = (g.source.table ws).length ∧
      (g.build ws).generator = { g with lastEmitted := some (g.source.table ws) } ∧
      Artifact.put ws g.output (Artifact.render (g.source.table ws) g.importSource) =
        ((g.build ws).workspace, .ok ()) := by
  have hwrite := plan_of_fresh hfresh ws
  rw [build] at h ⊢
  obtain ⟨outcome, hplan, -⟩ | ⟨table, hplan, ⟨after, hput, hpass⟩ | ⟨after, e, -, hpass⟩⟩ :=
    g.pass_cases ws false
  · rw [hplan] at hwrite
    cases hwrite
  · rw [hplan] at hwrite
    cases hwrite
    rw [hpass] at h ⊢
    exact ⟨(Outcome.emitted.inj h).symm, rfl, hput⟩
  · rw [hpass] at h
    cases h

theorem build_of_put (hfresh : g.lastEmitted = none) {after : Workspace}
    (hput : Artifact.put ws g.output (Artifact.render (g.source.table ws) g.importSource) =
      (after, .ok ())) :
    (g.build ws).outcome = .emitted (g.source.table ws).length ∧
      (g.build ws).generator = { g with lastEmitted := some (g.source.table ws) } ∧
      (g.build ws).workspace = after := by
  have hwrite := plan_of_fresh hfresh ws
  rw [build]
  obtain ⟨outcome, hplan, -⟩ | ⟨table, hplan, ⟨other, hother, hpass⟩ | ⟨other, e, hother, -⟩⟩ :=
    g.pass_cases ws false
  · rw [hplan] at hwrite
    cases hwrite
  · rw [hplan] at hwrite
    cases hwrite
    rw [hput] at hother
    cases hother
    rw [hpass]
    exact ⟨rfl, rfl, rfl⟩
  · rw [hplan] at hwrite
    cases hwrite
    rw [hput] at hother
    cases hother

end Generator

theorem Artifact.exists_adds_of_put {ws after : Workspace} {p : Path} {text : String}
    (hplain : ws.files.IsPlain) (h : put ws p text = (after, .ok ())) :
    ∃ loc, ws.files.Adds after.files loc ∧ IsReady after p loc ∧
      after = { ws with files := after.files } ∧ after.locate p = .ok loc ∧
      after.files.node? loc = some (.file text.toUTF8) ∧
      ∃ name, loc.head? = some name ∧ p.names.getLast? = some name ∧ IsNodeName name := by
  obtain ⟨files, loc, hadds, hplain', hready, rfl⟩ := exists_isReady_of_put hplain h
  have hagain := isReady_written hplain' hready text
  have hfile := node?_written hplain' hready text
  refine ⟨loc, ⟨hplain, isPlain_written hplain' hready text, ?_, ⟨_, hfile⟩, ?_⟩, hagain, rfl,
    locate_of_isReady hagain hfile, hfile, ?_⟩
  · obtain ⟨name, dir, rfl, -, -, hroom⟩ := exists_hasRoom hplain' hready
    rcases hroom.isPlace with hnone | ⟨content, hold⟩
    · rcases hadds (name :: dir) with hsame | ⟨hbefore, -⟩
      · exact .inl (hsame.symm.trans hnone)
      · exact .inl hbefore
    · exact .inr ⟨content, hadds.file_iff.1 hold⟩
  · intro there hthere
    have hsame : (written { ws with files } loc text).files.node? there = files.node? there :=
      FileTree.node?_insert_of_ne _ hthere
    rw [hsame]
    exact hadds there
  · obtain ⟨name, dir, rfl, hlast, hname, -⟩ := exists_hasRoom hplain' hready
    exact ⟨name, rfl, hlast, hname⟩

namespace Workspace

variable {ws : Workspace} {files : FileTree} {p : Path}

theorem normalize_join {r : Location} {name : String} (hplain : ws.files.IsPlain)
    (hreal : ws.files.IsReal r) (hroot : ws.locate r.path = .ok r) (hname : IsNodeName name) :
    ws.normalize (r.path.join ⟨name⟩) = Location.path (name :: r) := by
  unfold normalize
  cases hlocate : ws.locate (r.path.join ⟨name⟩) with
  | ok found =>
    obtain ⟨rfl, -⟩ := eq_of_locate_join hplain hroot hname hlocate
    rfl
  | error e => rw [Location.join_path hreal.isClean hname, Path.join,
      if_pos (Location.isAbsolute_path _)]

/-- Resolved again, a path is the same, or by now the canonical path of what it leads to. -/
theorem normalize_again (hgrows : ws.files.Grows files) (habs : p.isAbsolute) :
    ({ ws with files } : Workspace).normalize p = ws.normalize p ∨
      ws.normalize p = p ∧ ws.pathExists p = false ∧ ∃ loc,
        ({ ws with files } : Workspace).locate p = .ok loc ∧
        ({ ws with files } : Workspace).normalize p = loc.path := by
  unfold normalize pathExists
  cases hlocate : ws.locate p with
  | ok loc =>
    rw [locate_of_grows hgrows hlocate]
    exact .inl rfl
  | error e =>
    have hself : ws.cwd.path.join p = p := by rw [Path.join, if_pos habs]
    cases hagain : ({ ws with files } : Workspace).locate p with
    | ok loc => exact .inr ⟨hself, rfl, loc, rfl, rfl⟩
    | error e' => exact .inl rfl

end Workspace

namespace Project

variable {ws : Workspace} {config root : Path} {settings : Settings}

theorem isDirectory_src_of_put {after : Workspace} {r : Location} {text : String}
    (hplain : ws.files.IsPlain) (hreal : ws.files.IsReal r)
    (hdir : ws.files.node? r = some .directory)
    (hput : Artifact.put ws (ws.normalize (r.path.join outputName)) text = (after, .ok ()))
    (hsrc : after.isDirectory (r.path.join ⟨"src"⟩)) : ws.isDirectory (r.path.join ⟨"src"⟩) := by
  have hname : IsNodeName outputName.text := by decide
  have hsrcName : IsNodeName "src" := by decide
  obtain ⟨loc, hadds, -⟩ := Artifact.exists_adds_of_put hplain hput
  obtain ⟨there, hthere, hnode⟩ := Workspace.isDirectory_iff.1 hsrc
  have haccept := Workspace.accept_of_locate hthere
  have hroot : ws.locate r.path = .ok r := Workspace.locate_path hreal
    (Path.accept_of_join r.text_path_ne_empty (Path.isAbsolute_of_isNodeName hsrcName) haccept)
  -- the root is there, so nothing but the file is added
  have houtput : ws.normalize (r.path.join outputName) = Location.path (outputName.text :: r) :=
    Workspace.normalize_join hplain hreal hroot hname
  have hclean : Location.IsClean (outputName.text :: r) :=
    List.forall_mem_cons.2 ⟨hname, hreal.isClean⟩
  have hdirectory (dir : Path) (h : Artifact.directoryOf? (Location.path (outputName.text :: r)) =
      some dir) : ws.isDirectory dir := by
    rw [Artifact.directoryOf?, Location.parent?_path hclean, Option.filter_eq_some_iff] at h
    obtain rfl : r.path = dir := Option.some.inj h.1
    exact Workspace.isDirectory_iff.2 ⟨r, hroot, hdir⟩
  rw [houtput, Artifact.put_eq_putText hplain hdirectory] at hput
  obtain ⟨e, herror⟩ | ⟨place, -, -, hok⟩ :=
    Artifact.putText_cases ws (Location.path (outputName.text :: r)) text
  · rw [herror] at hput
    cases hput
  · rw [hok] at hput
    obtain rfl := (Prod.mk.inj hput).1
    have hroot' := Workspace.locate_of_grows hadds.grows hroot
    obtain ⟨rfl, -⟩ :=
      Workspace.eq_of_locate_join hadds.isPlain_after hroot' hsrcName hthere
    have hother : "src" :: r ≠ place := by
      rintro rfl
      rw [FileTree.node?_insert_self _ (List.cons_ne_nil _ _)] at hnode
      cases hnode
    have hbefore : ws.files.node? ("src" :: r) = some .directory := by
      rw [← hnode]
      exact (FileTree.node?_insert_of_ne _ hother).symm
    exact Workspace.isDirectory_iff.2 ⟨_, Workspace.locate_join hplain hroot
      (hplain _ (by rw [hbefore]; rfl)) haccept, hbefore⟩

/-- The generated file of a project is meant to be written to the same path after a pass. -/
theorem outputPath_again {after : Workspace} {r : Location} {text : String}
    (hplain : ws.files.IsPlain) (hreal : ws.files.IsReal r)
    (hdir : ws.files.node? r = some .directory) (hgrows : ws.files.Grows after.files)
    (hafter : after = { ws with files := after.files })
    (hput : Artifact.put ws (ws.normalize (outputPath ws r.path settings)) text =
      (after, .ok ())) : outputPath after r.path settings = outputPath ws r.path settings := by
  unfold outputPath at hput ⊢
  cases hpath : settings.output.path with
  | some path => rfl
  | none =>
    rw [hpath] at hput
    dsimp only at hput ⊢
    have hsame : after.isDirectory (r.path.join ⟨"src"⟩) =
        ws.isDirectory (r.path.join ⟨"src"⟩) := by
      by_cases hsrc : ws.isDirectory (r.path.join ⟨"src"⟩)
      · rw [hsrc, hafter]
        exact Workspace.isDirectory_of_grows hgrows hsrc
      · rw [if_neg hsrc] at hput
        rw [Bool.eq_false_iff.2 hsrc, Bool.eq_false_iff]
        exact fun hnew => hsrc (isDirectory_src_of_put hplain hreal hdir hput hnew)
    rw [hsame]

end Project

namespace RouteSource

theorem strategy_ofProject (project : Project) :
    (ofProject project).strategy = project.settings.pages.strategy := by
  unfold ofProject
  cases project.settings.pages.strategy <;> rfl

def pathIn (root : Path) (settings : Settings) : Path :=
  match settings.pages.strategy with
  | .fs => root.join settings.pages.dir
  | .registry => root.join settings.pages.registry

theorem path_ofProject (ws : Workspace) (config root : Path) (settings : Settings) :
    (ofProject (.resolve ws config root settings)).path =
      ws.normalize (pathIn (ws.normalize root) settings) := by
  unfold ofProject pathIn
  simp only [Project.resolve]
  cases settings.pages.strategy <;> rfl

end RouteSource

/-- The paths of a project after a pass: they are those from before, or resolved again. Either way
the source is the one from before, and the generated file goes to the same place. -/
structure Project.Continues (ws after : Workspace) (loc : Location) (project again : Project) :
    Prop where
  settings : again.settings = project.settings
  path : (RouteSource.ofProject again).path = (RouteSource.ofProject project).path ∨
    ws.pathExists (RouteSource.ofProject project).path = false ∧
      ∀ there, after.locate (RouteSource.ofProject again).path = .ok there →
        after.locate (RouteSource.ofProject project).path = .ok there
  output : Artifact.IsReady after again.output loc

section

variable {ws after : Workspace} {config root : Path} {settings : Settings} {project : Project}
  {loc : Location} {text : String}

theorem Project.continues_resolve (hplain : ws.files.IsPlain) (hroot : ws.isDirectory root)
    (hproject : project = .resolve ws config root settings)
    (hput : Artifact.put ws project.output text = (after, .ok ()))
    (hadds : ws.files.Adds after.files loc) (hafter : after = { ws with files := after.files })
    (hready : Artifact.IsReady after project.output loc)
    (hlocate : after.locate project.output = .ok loc) :
    Project.Continues ws after loc project (.resolve after config root settings) := by
  obtain ⟨r, hr, hdir⟩ := Workspace.isDirectory_iff.1 hroot
  have hreal := hplain r (by rw [hdir]; rfl)
  have hnormal : ws.normalize root = r.path := by rw [Workspace.normalize, hr]
  have hnormal' : after.normalize root = r.path := by
    rw [hafter, Workspace.normalize, Workspace.locate_of_grows hadds.grows hr]
  have houtput : project.output = ws.normalize (outputPath ws r.path settings) := by
    rw [hproject, Project.resolve]
    simp only [hnormal]
  have houtput' : (Project.resolve after config root settings).output =
      after.normalize (outputPath ws r.path settings) := by
    rw [houtput] at hput
    rw [Project.resolve]
    simp only [hnormal', outputPath_again hplain hreal hdir hadds.grows hafter hput]
  refine ⟨by rw [hproject]; rfl, ?_, ?_⟩
  · have habs : (RouteSource.pathIn r.path settings).isAbsolute := by
      unfold RouteSource.pathIn
      split <;> exact Path.isAbsolute_join r.isAbsolute_path _
    rw [hproject, RouteSource.path_ofProject, RouteSource.path_ofProject, hnormal, hnormal']
    rcases Workspace.normalize_again hadds.grows habs with hsame | ⟨hself, hnone, l, hl, hl'⟩
    · exact .inl (by rw [hafter]; exact hsame)
    · refine .inr ⟨by rw [hself]; exact hnone, fun there hthere => ?_⟩
      rw [← hafter] at hl hl'
      rw [hl'] at hthere
      rw [hself, Workspace.eq_of_locate_path (Workspace.isReal_of_locate habs hl) hthere]
      exact hl
  · have habs := isAbsolute_outputPath ws r.isAbsolute_path settings
    rw [houtput']
    rcases Workspace.normalize_again hadds.grows habs with hsame | ⟨hself, -, l, hl, hl'⟩
    · rw [hafter, hsame, ← houtput, ← hafter]
      exact hready
    · rw [← hafter] at hl hl'
      rw [houtput, hself] at hready hlocate
      rw [hl']
      obtain rfl := Except.ok.inj (hl.symm.trans hlocate)
      exact Artifact.isReady_path hadds.isPlain_after hready habs hl

theorem Project.Continues.build_same {again : Project}
    (h : Project.Continues ws after loc project again) (hplain : after.files.IsPlain)
    (htable : (RouteSource.ofProject again).table after = (RouteSource.ofProject project).table ws)
    (hfile : after.files.node? loc = some (.file (Artifact.render
      ((RouteSource.ofProject project).table ws) project.settings.output.importSource?).toUTF8)) :
    let second := (Generator.ofProject again).build after
    let table := (RouteSource.ofProject project).table ws
    second.outcome = .emitted table.length ∧ second.generator.lastEmitted = some table ∧
      second.workspace.node? again.output =
        some (.file (Artifact.render table project.settings.output.importSource?).toUTF8) ∧
      second.workspace.SameFiles after := by
  intro second table
  obtain ⟨houtcome, hlast, hafter⟩ := Generator.build_of_put (g := .ofProject again) rfl
    (Artifact.put_of_isReady hplain h.output _)
  have htext : Artifact.render ((Generator.ofProject again).source.table after)
      (Generator.ofProject again).importSource =
        Artifact.render table project.settings.output.importSource? := by
    simp only [Generator.ofProject, htable, h.settings, table]
  rw [htext] at hafter
  have hfile' := Artifact.node?_written hplain h.output
    (Artifact.render table project.settings.output.importSource?)
  have hready := Artifact.isReady_written hplain h.output
    (Artifact.render table project.settings.output.importSource?)
  have hsame := Artifact.sameFiles_written hplain h.output hfile
  rw [← hafter] at hfile' hready hsame
  refine ⟨?_, ?_, ?_, hsame⟩
  · rw [houtcome]
    exact congrArg (fun table : RouteTable => Outcome.emitted table.length) htable
  · rw [hlast]
    exact congrArg some htable
  · exact Workspace.node?_eq_some_iff.2 ⟨loc, Artifact.locate_of_isReady hready hfile', hfile'⟩

/-- **Building twice is building once**, with the paths of the first pass or with paths that are
resolved again: the second pass finds the same routes and leaves every file as it is, wherever the
generated file lies. It is otherwise only when the first pass uncovers the source, by a path that
goes up again out of a directory that was missing; then the first pass has found nothing. -/
theorem rebuild_same {first : Pass} {n : Nat} (hplain : ws.files.IsPlain)
    (hroot : ws.isDirectory root) (hproject : project = .resolve ws config root settings)
    (hfirst : first = (Generator.ofProject project).build ws)
    (hemitted : first.outcome = .emitted n)
    (hname : ∀ name, project.output.fileName? = some name →
      name ∉ Pages.pageFiles ∧ name ∉ Pages.routeFiles)
    (hregistry : settings.pages.strategy = .registry →
      first.workspace.locate project.registry ≠ first.workspace.locate project.output) :
    ∀ again ∈ [project, .resolve first.workspace config root settings],
      let second := (Generator.ofProject again).build first.workspace
      let source := RouteSource.ofProject project
      (∃ m, second.outcome = .emitted m) ∧
      (¬ ws.Uncovers first.workspace source.path →
        second.outcome = .emitted n ∧
        second.generator.lastEmitted = first.generator.lastEmitted ∧
        (∃ content, first.workspace.node? project.output = some (.file content) ∧
          second.workspace.node? again.output = some (.file content)) ∧
        second.workspace.SameFiles first.workspace) ∧
      (ws.Uncovers first.workspace source.path →
        ".." ∈ source.path.names ∧ first.generator.lastEmitted = some .empty) := by
  intro again hagain second source
  obtain ⟨hcount, hgenerator, hput⟩ :=
    Generator.build_eq_emitted (g := .ofProject project) rfl (hfirst ▸ hemitted)
  rw [← hfirst] at hgenerator hput
  obtain ⟨loc, hadds, hready, hafter, hlocate, hfile, name, hhead, hlast, hnodeName⟩ :=
    Artifact.exists_adds_of_put hplain hput
  have hsettings : project.settings = settings := by
    rw [hproject]
    rfl
  have hnames (other : String) (hother : loc.head? = some other) :
      other ∉ Pages.pageFiles ∧ other ∉ Pages.routeFiles := by
    have habs : project.output.isAbsolute := by
      rw [hproject]
      exact ws.isAbsolute_normalize _
    obtain rfl := Option.some.inj (hhead.symm.trans hother)
    exact hname name (Path.fileName?_of_getLast? habs hlast hnodeName.ne_dot hnodeName.ne_up)
  have hcontinues : Project.Continues ws first.workspace loc project again := by
    rcases List.mem_cons.1 hagain with rfl | hagain
    · exact ⟨rfl, .inl rfl, hready⟩
    · rw [List.mem_singleton.1 hagain]
      exact Project.continues_resolve hplain hroot hproject hput hadds hafter hready hlocate
  have hstrategy : (RouteSource.ofProject again).strategy = source.strategy := by
    rw [RouteSource.strategy_ofProject, RouteSource.strategy_ofProject, hcontinues.settings]
  have hother : source.strategy = .registry → first.workspace.locate source.path ≠ .ok loc := by
    intro hstrategy
    have hsource : source = .registry project.registry := by
      rw [RouteSource.strategy_ofProject] at hstrategy
      simp only [source, RouteSource.ofProject, hstrategy]
    rw [RouteSource.strategy_ofProject, hsettings] at hstrategy
    rw [hsource, ← hlocate]
    exact hregistry hstrategy
  refine ⟨⟨_, (Generator.build_of_put (g := .ofProject again) rfl
    (Artifact.put_of_isReady hadds.isPlain_after hcontinues.output _)).1⟩, fun hcovered => ?_,
    fun hcovered => ⟨?_, ?_⟩⟩
  · have htable : (RouteSource.ofProject again).table first.workspace = source.table ws := by
      rw [hafter] at hcovered hother hcontinues ⊢
      exact RouteSource.table_again hadds hnames hstrategy hcontinues.path hother hcovered
    obtain ⟨houtcome, hlast', hfile', hsame⟩ :=
      hcontinues.build_same hadds.isPlain_after htable hfile
    refine ⟨?_, ?_, ⟨_, Workspace.node?_eq_some_iff.2 ⟨loc, hlocate, hfile⟩, hfile'⟩, hsame⟩
    · rw [houtcome, hcount]
      rfl
    · rw [hlast', hgenerator]
      rfl
  · by_contra hup
    rw [hafter] at hcovered
    exact Workspace.not_uncovers hadds.grows hplain hadds.isPlain_after hup hcovered
  · rw [hgenerator]
    exact congrArg some (RouteSource.table_of_uncovers hcovered)

end

private def aboutPage : Workspace where
  files := ⟨[(["+Page.tsx", "about", "pages"], .file "".toUTF8), (["about", "pages"], .directory),
    (["pages"], .directory)], by decide⟩
  cwd := []

private theorem isPlain_aboutPage : aboutPage.files.IsPlain :=
  FileTree.isPlain_of_fits (by decide +kernel)

/-- The generated file goes into a new directory among the pages; neither is taken for a page. -/
theorem rebuild_same_nested :
    let settings : Settings := { output := { path := some ⟨"pages/gen/routes.ts"⟩ } }
    let project := Project.resolve aboutPage ⟨"/routegen.toml"⟩ ⟨"/"⟩ settings
    let first := (Generator.ofProject project).build aboutPage
    let second := (Generator.ofProject project).build first.workspace
    first.outcome = .emitted 1 ∧ second.outcome = .emitted 1 ∧
      second.generator.lastEmitted = first.generator.lastEmitted ∧
      second.workspace.SameFiles first.workspace := by
  intro settings project first second
  have hroot : aboutPage.isDirectory ⟨"/"⟩ := by decide +kernel
  have hemitted : first.outcome = .emitted 1 := by decide +kernel
  have hexists : aboutPage.pathExists (RouteSource.ofProject project).path := by decide +kernel
  have hfile : project.output.fileName? = some "routes.ts" := by decide +kernel
  have hname (name : String) (h : project.output.fileName? = some name) :
      name ∉ Pages.pageFiles ∧ name ∉ Pages.routeFiles := by
    obtain rfl := Option.some.inj (hfile.symm.trans h)
    decide
  obtain ⟨-, hsame, -⟩ := rebuild_same isPlain_aboutPage hroot (Eq.refl project) (Eq.refl first)
    hemitted hname (by simp [settings]) project (by simp)
  obtain ⟨houtcome, hlast, -, hfiles⟩ := hsame fun hcovered => by simp [hcovered.1] at hexists
  exact ⟨hemitted, houtcome, hlast, hfiles⟩

/-- The directory of the pages is spelled by a way through the directory of the generated file. The
first pass comes before that directory and finds no pages; the second one finds them. -/
theorem rebuild_finds_more :
    let settings : Settings :=
      { pages := { dir := ⟨"gen/../pages"⟩ }, output := { path := some ⟨"gen/routes.ts"⟩ } }
    let project := Project.resolve aboutPage ⟨"/routegen.toml"⟩ ⟨"/"⟩ settings
    let first := (Generator.ofProject project).build aboutPage
    let again := Project.resolve first.workspace ⟨"/routegen.toml"⟩ ⟨"/"⟩ settings
    let second := (Generator.ofProject again).build first.workspace
    aboutPage.files.IsPlain ∧ Config.check settings = [] ∧
      project.output.fileName? = some "routes.ts" ∧ settings.pages.strategy = .fs ∧
      first.outcome = .emitted 0 ∧ second.outcome = .emitted 1 ∧
      second.generator.lastEmitted ≠ first.generator.lastEmitted := by
  refine ⟨isPlain_aboutPage, ?_⟩
  decide +kernel

end RouteTree
