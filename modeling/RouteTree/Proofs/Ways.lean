import Mathlib.Data.List.Basic
import RouteTree.Pages.Walk
import RouteTree.Proofs.Lookup

/-! Ways through a pages tree, told without the walk: names that lead from directory to directory
and never back into one of them. -/
namespace RouteTree.Pages

/-- The directories that names lead through, the first one included. -/
def trail (dir : Path) (names : List String) : List Path :=
  names.scanl (fun inner name => inner.join ⟨name⟩) dir

/-- The directory that names lead to. -/
def below (dir : Path) (names : List String) : Path :=
  names.foldl (fun inner name => inner.join ⟨name⟩) dir

/-- Names that lead down from a directory, each an entry of the directory that those before it lead
to, itself a directory, and none that the rules leave out. -/
structure IsWay (ws : Workspace) (dir : Path) (names : List String) : Prop where
  directories : ∀ inner ∈ trail dir names, ws.isDirectory inner
  entries : ∀ step ∈ (trail dir names).zip names, ws.HasEntry step.1 step.2
  rules : ∀ name ∈ names, DirRule.classify name ≠ .skip
  /-- No directory is entered again, whatever name or link leads back to it. -/
  fresh : ((trail dir names).map ws.locate).Nodup

variable {ws : Workspace} {dir : Path} {name : String} {names : List String}

theorem trail_cons (dir : Path) (name : String) (names : List String) :
    trail dir (name :: names) = dir :: trail (dir.join ⟨name⟩) names :=
  List.scanl_cons

theorem mem_trail_self (dir : Path) (names : List String) : dir ∈ trail dir names := by
  cases names with
  | nil => exact List.mem_singleton_self dir
  | cons name rest =>
    rw [trail_cons]
    exact List.mem_cons_self

theorem isWay_nil_iff : IsWay ws dir [] ↔ ws.isDirectory dir := by
  constructor
  · intro h
    exact h.directories dir (mem_trail_self dir [])
  · intro h
    exact ⟨by simpa [trail] using h, by simp, by simp, by simp [trail]⟩

theorem isWay_cons_iff : IsWay ws dir (name :: names) ↔
    ws.isDirectory dir ∧ ws.HasEntry dir name ∧ DirRule.classify name ≠ .skip ∧
      (∀ inner ∈ trail (dir.join ⟨name⟩) names, ws.locate inner ≠ ws.locate dir) ∧
      IsWay ws (dir.join ⟨name⟩) names := by
  constructor
  · rintro ⟨hdirectories, hentries, hrules, hfresh⟩
    rw [trail_cons] at hdirectories hentries hfresh
    rw [List.zip_cons_cons] at hentries
    rw [List.map_cons, List.nodup_cons, List.mem_map] at hfresh
    obtain ⟨hdirectory, hdirectories⟩ := List.forall_mem_cons.1 hdirectories
    obtain ⟨hentry, hentries⟩ := List.forall_mem_cons.1 hentries
    obtain ⟨hrule, hrules⟩ := List.forall_mem_cons.1 hrules
    exact ⟨hdirectory, hentry, hrule, fun inner hinner heq => hfresh.1 ⟨inner, hinner, heq⟩,
      hdirectories, hentries, hrules, hfresh.2⟩
  · rintro ⟨hdirectory, hentry, hrule, hapart, hway⟩
    refine ⟨?_, ?_, List.forall_mem_cons.2 ⟨hrule, hway.rules⟩, ?_⟩
    · rw [trail_cons]
      exact List.forall_mem_cons.2 ⟨hdirectory, hway.directories⟩
    · rw [trail_cons, List.zip_cons_cons]
      exact List.forall_mem_cons.2 ⟨hentry, hway.entries⟩
    · rw [trail_cons, List.map_cons, List.nodup_cons, List.mem_map]
      exact ⟨fun ⟨inner, hinner, heq⟩ => hapart inner hinner heq, hway.fresh⟩

/-- No name on a way is empty: it would lead to where the way is already. -/
theorem IsWay.ne_empty (h : IsWay ws dir names) (hname : name ∈ names) : name ≠ "" := by
  induction names generalizing dir with
  | nil => cases hname
  | cons first rest ih =>
    obtain ⟨-, -, -, hapart, hway⟩ := isWay_cons_iff.1 h
    rcases List.mem_cons.1 hname with rfl | hrest
    · rintro rfl
      have hself := mem_trail_self (dir.join ⟨""⟩) rest
      obtain ⟨here, hlocate, -⟩ := Workspace.isDirectory_iff.1 (hway.directories _ hself)
      apply hapart _ hself
      rw [hlocate, Workspace.locate_of_join_empty hlocate]
    · exact ih hway hrest

/-- A page file: the names that lead to its directory, and its own name. -/
structure Page where
  names : List String
  file : String
  deriving DecidableEq, Repr

structure HasPageFile (ws : Workspace) (dir : Path) (file : String) : Prop where
  entry : ws.HasEntry dir file
  pageFile : file ∈ pageFiles
  node : ∃ node, ws.node? (dir.join ⟨file⟩) = some node ∧ node.isDirectory = false

/-- A page file below a directory. -/
structure IsPage (ws : Workspace) (dir : Path) (page : Page) : Prop where
  way : IsWay ws dir page.names
  file : HasPageFile ws (below dir page.names) page.file

/-- Whether the directory of a page says that the page takes all that is left: its first route file
is a text with a wildcard at the end of a quoted string. -/
def SaysCatchall (ws : Workspace) (dir : Path) : Prop :=
  ∃ before file after content text,
    routeFiles = before ++ file :: after ∧
    (∀ earlier ∈ before, ¬ ws.isFile (dir.join ⟨earlier⟩)) ∧
    ws.node? (dir.join ⟨file⟩) = some (.file content) ∧
    String.fromUTF8? content = some text ∧
    ("/*\"".toList <:+: text.toList ∨ "/* \"".toList <:+: text.toList)

/-- The route of a page. -/
structure IsRouteOf (ws : Workspace) (dir : Path) (page : Page) (raw : RawRoute) : Prop where
  path : raw.path = "/" ++ Text.join "/" (page.names.filter (· ≠ "index"))
  catchall : raw.catchall ↔ SaysCatchall ws (below dir page.names)

theorem hasWildcardMarker_iff {text : String} : hasWildcardMarker text ↔
    "/*\"".toList <:+: text.toList ∨ "/* \"".toList <:+: text.toList := by
  rw [hasWildcardMarker, Bool.or_eq_true, Text.contains_iff, Text.contains_iff]

theorem isCatchallDir_iff : isCatchallDir ws dir ↔ SaysCatchall ws dir := by
  have hread : isCatchallDir ws dir ↔ ∃ file text,
      routeFiles.find? (fun name => ws.isFile (dir.join ⟨name⟩)) = some file ∧
        ws.readText (dir.join ⟨file⟩) = .ok text ∧ hasWildcardMarker text := by
    rw [isCatchallDir, routeFile?, List.find?_map, Function.comp_def]
    cases routeFiles.find? fun name => ws.isFile (dir.join ⟨name⟩) with
    | none => simp
    | some file =>
      cases htext : ws.readText (dir.join ⟨file⟩) <;> simp [htext]
  rw [hread, SaysCatchall]
  simp only [List.find?_eq_some_iff_append, Workspace.readText_eq_ok_iff, hasWildcardMarker_iff]
  constructor
  · rintro ⟨file, text, ⟨hfile, before, after, hfiles, hbefore⟩, ⟨content, hnode, htext⟩, hmarker⟩
    exact ⟨before, file, after, content, text, hfiles, by simpa using hbefore, hnode, htext, hmarker⟩
  · rintro ⟨before, file, after, content, text, hfiles, hbefore, hnode, htext, hmarker⟩
    exact ⟨file, text, ⟨Workspace.isFile_iff.2 ⟨content, hnode⟩, before, after, hfiles,
      by simpa using hbefore⟩, ⟨content, hnode, htext⟩, hmarker⟩

section SameFiles

variable {a b : Workspace} {page : Page} (h : a.SameFiles b)

include h

theorem IsWay.of_sameFiles (hway : IsWay a dir names) : IsWay b dir names where
  directories inner hinner := h.isDirectory_eq inner ▸ hway.directories inner hinner
  entries step hstep := h.hasEntry_iff.1 (hway.entries step hstep)
  rules := hway.rules
  fresh := funext h.locate_eq ▸ hway.fresh

theorem IsPage.of_sameFiles (hpage : IsPage a dir page) : IsPage b dir page where
  way := hpage.way.of_sameFiles h
  file := ⟨h.hasEntry_iff.1 hpage.file.entry, hpage.file.pageFile, h.node?_eq _ ▸ hpage.file.node⟩

theorem isCatchallDir_congr (dir : Path) : isCatchallDir a dir = isCatchallDir b dir := by
  rw [Bool.eq_iff_iff, isCatchallDir_iff, isCatchallDir_iff]
  simp only [SaysCatchall, Workspace.isFile_iff, h.node?_eq]

end SameFiles

end RouteTree.Pages
