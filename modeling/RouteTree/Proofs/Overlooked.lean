import RouteTree.Proofs.Batches
import RouteTree.Proofs.Parents
import RouteTree.Proofs.SamePages
import RouteTree.Proofs.Table

/-! Changes that are overlooked because of a name. A batcher pays no attention to the files that
editors keep beside others, and tells them by the last name of a path. No page or route file has
such a name, but a directory may. -/
namespace RouteTree

namespace Path

variable {p q : Path} {name : String}

private def EndsIn (name : String) (cs : List Char) : Prop :=
  cs = name.toList ∨ ∃ before, cs = before ++ '/' :: name.toList

private theorem getLast?_spansFrom (h : IsNodeName name) (offset : Nat) {cs : List Char}
    (hcs : EndsIn name cs) :
    ((spansFrom offset [] cs).map Span.component).getLast? = some (.name name) := by
  have hself (offset : Nat) : (spansFrom offset [] name.toList).map Span.component =
      [.name name] := by
    rw [spansFrom_of_not_mem offset h.slash, List.reverse_nil, List.nil_append, h.ofPart?]
    rfl
  rcases hcs with rfl | ⟨before, rfl⟩
  · rw [hself]
    rfl
  · rw [spansFrom_append_slash, List.map_append, hself, List.getLast?_concat]

private theorem EndsIn.behind_slash (h : IsNodeName name) {rest : List Char}
    (hcs : EndsIn name ('/' :: rest)) : EndsIn name rest := by
  rcases hcs with hname | ⟨before, hbefore⟩
  · exact absurd (hname ▸ List.mem_cons_self) h.slash
  · cases before with
    | nil => exact .inl (List.cons.inj hbefore).2
    | cons c before => exact .inr ⟨before, (List.cons.inj hbefore).2⟩

private theorem fileName?_of_endsIn (h : IsNodeName name) (htext : EndsIn name p.text.toList) :
    p.fileName? = some name := by
  have hlast : p.components.getLast? = some (.name name) := by
    have hcons (first : Component) {cs : List Component} (hcs : cs.getLast? = some (.name name)) :
        (first :: cs).getLast? = some (.name name) := by
      rw [List.getLast?_cons, hcs, Option.getD_some]
    unfold components spans
    split
    · next rest hrest =>
      exact hcons _ (getLast?_spansFrom h 1 ((hrest ▸ htext).behind_slash h))
    · next hdot =>
      rw [hdot] at htext
      rcases htext with hname | ⟨before, hbefore⟩
      · exact absurd (String.toList_inj.1 hname.symm) h.ne_dot
      · simp [List.cons_eq_append_iff] at hbefore
    · next rest hrest =>
      rw [hrest] at htext
      refine hcons _ (getLast?_spansFrom h 2 (.behind_slash h ?_))
      rcases htext with hname | ⟨before, hbefore⟩
      · exact absurd (hname ▸ List.mem_cons_of_mem _ List.mem_cons_self) h.slash
      · cases before with
        | nil => simp at hbefore
        | cons c before => exact .inr ⟨before, (List.cons.inj hbefore).2⟩
    · exact getLast?_spansFrom h 0 htext
  rw [fileName?, hlast]

theorem fileName?_join (h : IsNodeName name) (p : Path) :
    (p.join ⟨name⟩).fileName? = some name := by
  apply fileName?_of_endsIn h
  rw [join, isAbsolute_of_isNodeName h, if_neg Bool.false_ne_true]
  split
  · next hend =>
    rcases Bool.or_eq_true_iff.1 hend with hempty | hslash
    · have htext : p.text = "" := by simpa [isEmpty] using hempty
      exact .inl (by simp [htext])
    · obtain ⟨before, hbefore⟩ := List.getLast?_eq_some_iff.1 (of_decide_eq_true hslash)
      exact .inr ⟨before, by simp [hbefore]⟩
  · exact .inr ⟨p.text.toList, by simp⟩

end Path

namespace Watching

variable {p q : Path} {name : String}

/-- Only the last name of a path tells whether it is that of a temporary file. -/
theorem isTemporary_congr (h : p.fileName? = q.fileName?) : isTemporary p = isTemporary q := by
  rw [isTemporary, isTemporary, Path.extension?, Path.extension?, h]

theorem isTemporary_iff (h : p.fileName? = some name) : isTemporary p ↔
    Text.endsWith "~" name ∨ Text.startsWith ".#" name ∨
      ∃ extension ∈ temporaryExtensions, p.extension? = some extension := by
  rw [isTemporary, h]
  simp only [Bool.or_eq_true, Option.any_eq_true, Option.any_some, List.contains_iff_mem]
  constructor
  · rintro (⟨extension, heq, hmem⟩ | hends | hstarts)
    · exact .inr (.inr ⟨extension, hmem, heq⟩)
    · exact .inl hends
    · exact .inr (.inl hstarts)
  · rintro (hends | hstarts | ⟨extension, hmem, heq⟩)
    · exact .inr (.inl hends)
    · exact .inr (.inr hstarts)
    · exact .inl ⟨extension, heq, hmem⟩

theorem isTemporary_eq_false (h : name ∈ Pages.pageFiles ++ Pages.routeFiles)
    (hp : p.fileName? = some name) : isTemporary p = false := by
  have hnames : ∀ name ∈ Pages.pageFiles ++ Pages.routeFiles,
      (⟨name⟩ : Path).fileName? = some name ∧ isTemporary ⟨name⟩ = false := by decide +kernel
  obtain ⟨hfile, htemporary⟩ := hnames name h
  rw [isTemporary_congr (hp.trans hfile.symm), htemporary]

/-- A change that is noticed at the path is merged into what waits for it, whatever the batcher has
been told and whatever the files are by then. -/
def Counts (p : Path) : Prop :=
  ∀ (b : Batcher) (ws : Workspace) (now : Nat) (kind : NoticeKind) (change : Change),
    kind.change? = some change →
      (b.add ws now ⟨kind, [p]⟩).1.pending? (ws.normalize p) =
        Change.rule (b.pending? (ws.normalize p)) change

theorem counts_iff : Counts p ↔ isTemporary p = false := by
  constructor
  · intro h
    by_contra htemporary
    rw [Bool.not_eq_false] at htemporary
    have hnone : Batcher.noticed default ⟨.create, [p]⟩ = [] := by simp [Batcher.noticed, htemporary]
    have hcreate := h {} default 0 .create .created rfl
    rw [Batcher.add] at hcreate
    dsimp only [NoticeKind.change?] at hcreate
    rw [hnone] at hcreate
    cases hcreate
  · intro htemporary b ws now kind change hchange
    have hself : (ws.normalize p).same (ws.normalize p) := Path.same_iff.2 rfl
    have hone : Batcher.noticed ws ⟨kind, [p]⟩ = [ws.normalize p] := by
      simp [Batcher.noticed, htemporary]
    rw [Batcher.add]
    dsimp only
    rw [hchange, hone]
    dsimp only
    rw [Batcher.recordAll_fst, Batcher.recordEach, List.map_singleton, List.foldl_cons,
      List.foldl_nil, Batcher.pending?_record, if_pos hself, Change.joined_eq_rule]

end Watching

namespace FileTree

variable {before after : FileTree} {here loc there : Location} {names : List String}
  {content : ByteArray}

theorem IsReal.directory_of_suffix {tree : FileTree} (h : tree.IsReal loc) (hsuffix : here <:+ loc)
    (hne : here ≠ loc) : tree.node? here = some .directory := by
  induction h with
  | root => exact absurd (List.suffix_nil.1 hsuffix) hne
  | @enter name dir node hdir hdirectory hname hnode hlink ih =>
    have hinner := (List.suffix_cons_iff.1 hsuffix).resolve_left hne
    by_cases heq : here = dir
    · rw [heq, hdirectory]
    · exact ih hinner heq

section NewFile

variable (hplain : after.IsPlain) (hfile : after.node? loc = some (.file content))
  (hothers : ∀ there, there ≠ loc → after.node? there = before.node? there)

include hplain hfile hothers

/-- Names lead through directories, so a file is on the way to nothing but itself. -/
theorem follow_before_file {atLink : Location → List String → Except IoError Location}
    (hthere : there ≠ loc) (h : after.follow atLink here names = .ok there)
    (atLink' : Location → List String → Except IoError Location) :
    before.follow atLink' here names = .ok there := by
  induction names generalizing here with
  | nil => exact h
  | cons name rest ih =>
    obtain ⟨hdir, hcases⟩ := hplain.follow_cons_eq_ok h
    have hdirectory : before.node? here = some .directory := by
      rw [← hothers here, hdir]
      rintro rfl
      rw [hfile] at hdir
      cases hdir
    rw [follow, turn, hdirectory]
    rcases hcases with ⟨rfl, hrest⟩ | ⟨rfl, hrest⟩ | ⟨hdot, hup, hreal, hrest⟩
    · exact ih hrest
    · exact ih hrest
    · have hother : name :: here ≠ loc := by
        rintro rfl
        cases rest with
        | nil => exact hthere (Except.ok.inj hrest).symm
        | cons next rest =>
          have hinner := (hplain.follow_cons_eq_ok hrest).1
          rw [hfile] at hinner
          cases hinner
      obtain ⟨node, hnode⟩ := Option.isSome_iff_exists.1 hreal.isSome
      have hbefore := hothers _ hother ▸ hnode
      simp only [hdot, hup, if_false, hbefore]
      cases node with
      | link target => exact absurd hnode (hreal.ne_link target)
      | file content => exact ih hrest
      | directory => exact ih hrest

theorem lookup_before_file (links : Nat) (hthere : there ≠ loc)
    (h : after.lookup links here names = .ok there) :
    before.lookup links here names = .ok there := by
  cases links with
  | zero => exact follow_before_file hplain hfile hothers hthere h _
  | succ links => exact follow_before_file hplain hfile hothers hthere h _

end NewFile

end FileTree

/-- A node appears under a name in a directory, with all that it contains, and everything else stays
as it was. Seen the other way round, it is taken away. -/
structure Workspace.Appears (before after : Workspace) (dir : Path) (name : String)
    (here : Location) (node : Node) : Prop where
  locate : after.locate dir = .ok here
  isNodeName : IsNodeName name
  free : before.files.node? (name :: here) = none
  node : after.files.node? (name :: here) = some node
  others : ∀ loc, ¬ name :: here <:+ loc → after.files.node? loc = before.files.node? loc
  same : after = { before with files := after.files }

namespace Workspace.Appears

variable {before after : Workspace} {dir root : Path} {name : String} {here there : Location}
  {node : Node} {content : ByteArray}

section NewFile

variable (h : before.Appears after dir name here (.file content)) (hplain : before.files.IsPlain)
  (hplain' : after.files.IsPlain)

include h hplain hplain'

theorem eq_of_file (loc : Location) (hloc : loc ≠ name :: here) :
    after.files.node? loc = before.files.node? loc := by
  by_cases hinner : name :: here <:+ loc
  · -- nothing is below a file, nor below a name that is free
    have hnone {files : FileTree} (hfiles : files.IsPlain)
        (hother : files.node? (name :: here) ≠ some .directory) : files.node? loc = none := by
      by_contra hsome
      have hreal := hfiles loc (Option.isSome_iff_ne_none.2 hsome)
      exact hother (hreal.directory_of_suffix hinner (Ne.symm hloc))
    rw [hnone hplain (by simp [h.free]), hnone hplain' (by simp [h.node])]
  · exact h.others loc hinner

theorem adds : before.files.Adds after.files (name :: here) where
  isPlain := hplain
  isPlain_after := hplain'
  isPlace := .inl h.free
  file := ⟨content, h.node⟩
  others loc hloc := .inl (h.eq_of_file hplain hplain' loc hloc)

theorem locate_before {p : Path} (hother : there ≠ name :: here) (hp : after.locate p = .ok there) :
    before.locate p = .ok there := by
  have hlookup := lookup_of_locate hp
  have hstart : after.start p = before.start p := by rw [h.same, start, start]
  rw [locate_of_accept (accept_of_locate hp), ← hstart]
  exact FileTree.lookup_before_file hplain' h.node (h.eq_of_file hplain hplain') linkLimit hother
    hlookup

/-- A file of another name than those of page files and route files is nothing to the walk. -/
theorem mem_routes_walk_iff (hname : name ∉ Pages.pageFiles ++ Pages.routeFiles) (raw : RawRoute) :
    raw ∈ Pages.routes (Pages.walk after root) ↔ raw ∈ Pages.routes (Pages.walk before root) := by
  have hadds := h.adds hplain hplain'
  have hsame := h.same
  cases hroot : before.locate root with
  | ok there =>
    rw [hsame]
    refine Pages.mem_routes_walk_of_adds hadds hroot ?_ raw
    intro name' hhead
    obtain rfl : name = name' := by simpa using hhead
    simpa using hname
  | error e =>
    rw [Pages.routes_walk_of_error hroot]
    refine iff_of_false (fun hraw => ?_) List.not_mem_nil
    obtain ⟨page, hpage, -⟩ := Pages.mem_routes_walk_iff.1 hraw
    obtain ⟨there, hthere, hdir⟩ :=
      isDirectory_iff.1 (hpage.way.directories root (Pages.mem_trail_self root _))
    have hother : there ≠ name :: here := by
      rintro rfl
      rw [h.node] at hdir
      cases hdir
    rw [h.locate_before hplain hplain' hother hthere] at hroot
    cases hroot

end NewFile

end Workspace.Appears

namespace Watching

/-- Where a node that appears or goes changes the table, the notice of it counts unless its name is
like that of a temporary file. Where there are no links it is then a directory, never a file. -/
theorem counts_iff_not_like_temporary {before after : Workspace} {root dir : Path} {name : String}
    {here : Location} {node : Node} (happears : before.Appears after dir name here node)
    (htable : RouteTable.ofRaw (Pages.routes (Pages.walk after root)) ≠
      RouteTable.ofRaw (Pages.routes (Pages.walk before root))) :
    let p := dir.join ⟨name⟩
    (Counts p ↔ ¬ (Text.endsWith "~" name ∨ Text.startsWith ".#" name ∨
      ∃ extension ∈ temporaryExtensions, p.extension? = some extension)) ∧
    (before.files.IsPlain → after.files.IsPlain → ¬ Counts p → node = .directory) := by
  intro p
  have hlast : p.fileName? = some name := Path.fileName?_join happears.isNodeName dir
  refine ⟨?_, fun hplain hplain' hcounts => ?_⟩
  · rw [counts_iff, ← isTemporary_iff hlast, Bool.not_eq_true]
  · cases node with
    | directory => rfl
    | link target =>
      have hreal := hplain' _ (by rw [happears.node]; rfl)
      exact absurd happears.node (hreal.ne_link target)
    | file content =>
      refine absurd (RouteTable.ofRaw_congr fun raw => ?_) htable
      refine happears.mem_routes_walk_iff hplain hplain' (fun hname => hcounts ?_) raw
      exact counts_iff.2 (isTemporary_eq_false hname hlast)

def shelf : Workspace where
  files := (FileTree.empty.insert ["pages"] .directory).insert ["+Page.tsx", "pages"] (.file .empty)
  cwd := []

/-- The shelf with one more page, in a directory of its own. -/
def shelfWith (name : String) : Workspace where
  files := (shelf.files.insert [name, "pages"] .directory).insert ["+Page.tsx", name, "pages"]
    (.file .empty)
  cwd := []

theorem appears_shelfWith (hlocate : (shelfWith name).locate ⟨"pages"⟩ = .ok ["pages"])
    (hname : IsNodeName name) (hfree : shelf.files.node? [name, "pages"] = none) :
    shelf.Appears (shelfWith name) ⟨"pages"⟩ name ["pages"] .directory where
  locate := hlocate
  isNodeName := hname
  free := hfree
  node := by
    rw [shelfWith, FileTree.node?_insert_of_ne _ (by simp),
      FileTree.node?_insert_self _ (List.cons_ne_nil _ _)]
  others loc houtside := by
    rw [shelfWith, FileTree.node?_insert_of_ne, FileTree.node?_insert_of_ne]
    · rintro rfl
      exact houtside (List.suffix_refl _)
    · rintro rfl
      exact houtside (List.suffix_cons _ _)
  same := rfl

/-- An ordinary directory does not escape notice. -/
theorem counts_iff_not_like_temporary_archive :
    shelf.Appears (shelfWith "archive") ⟨"pages"⟩ "archive" ["pages"] .directory ∧
    RouteTable.ofRaw (Pages.routes (Pages.walk (shelfWith "archive") ⟨"pages"⟩)) ≠
      RouteTable.ofRaw (Pages.routes (Pages.walk shelf ⟨"pages"⟩)) ∧
    Counts ⟨"pages/archive"⟩ := by
  have happears : shelf.Appears (shelfWith "archive") ⟨"pages"⟩ "archive" ["pages"] .directory :=
    appears_shelfWith (by decide +kernel) (by decide) (by decide +kernel)
  have htable : RouteTable.ofRaw (Pages.routes (Pages.walk (shelfWith "archive") ⟨"pages"⟩)) ≠
      RouteTable.ofRaw (Pages.routes (Pages.walk shelf ⟨"pages"⟩)) := by decide +kernel
  exact ⟨happears, htable,
    (counts_iff_not_like_temporary happears htable).1.2 (by decide +kernel)⟩

/-- The pages of a directory come and go without notice if its name ends like that of a backup
file. -/
theorem not_counts_backup :
    shelf.Appears (shelfWith "2024.bak") ⟨"pages"⟩ "2024.bak" ["pages"] .directory ∧
    (RouteTable.ofRaw (Pages.routes (Pages.walk shelf ⟨"pages"⟩))).texts = ["/"] ∧
    (RouteTable.ofRaw (Pages.routes (Pages.walk (shelfWith "2024.bak") ⟨"pages"⟩))).texts =
      ["/", "/2024.bak"] ∧
    ¬ Counts ⟨"pages/2024.bak"⟩ ∧
    ∀ (b : Batcher) (ws : Workspace) (now : Nat) (kind : NoticeKind),
      b.add ws now ⟨kind, [⟨"pages/2024.bak"⟩]⟩ = (b, []) := by
  have htemporary : isTemporary ⟨"pages/2024.bak"⟩ = true := by decide +kernel
  refine ⟨appears_shelfWith (by decide +kernel) (by decide) (by decide +kernel),
    by decide +kernel, by decide +kernel, ?_, fun b ws now kind => ?_⟩
  · rw [counts_iff, htemporary]
    decide
  · rw [Batcher.add, Batcher.noticed, List.filter_cons, htemporary]
    cases kind <;> rfl

end Watching

end RouteTree
