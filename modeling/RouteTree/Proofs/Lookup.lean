import Mathlib.Data.List.Nodup
import RouteTree.Proofs.Canonical

/-! What a look-up depends on. It reads the files one node at a time, so the order in which a tree
holds them makes no difference, and a slash at the end of a path does not lead it elsewhere. -/
namespace RouteTree

namespace FileTree

theorem mem_children_iff {tree : FileTree} {here : Location} {name : String} :
    name ∈ tree.children here ↔ (tree.node? (name :: here)).isSome := by
  rw [children, List.mem_filterMap, node?, List.lookup_isSome_iff]
  constructor
  · rintro ⟨⟨loc, node⟩, hentry, hname⟩
    cases loc with
    | nil => cases hname
    | cons first dir =>
      dsimp only at hname
      split at hname
      · next hdir =>
        cases hname
        exact ⟨⟨name :: dir, node⟩, hentry, by simp [hdir]⟩
      · cases hname
  · rintro ⟨⟨loc, node⟩, hentry, hloc⟩
    obtain rfl : name :: here = loc := by simpa using hloc
    exact ⟨_, hentry, if_pos rfl⟩

theorem nodup_children (tree : FileTree) (here : Location) : (tree.children here).Nodup := by
  have hlocations : tree.children here = (tree.entries.map Prod.fst).filterMap fun
      | name :: dir => if dir = here then some name else none
      | [] => none := by
    rw [children, List.filterMap_map]
    congr 1
    funext entry
    obtain ⟨loc, node⟩ := entry
    cases loc <;> rfl
  rw [hlocations]
  refine List.Nodup.filterMap ?_ tree.distinct
  intro a b name ha hb
  cases a with
  | nil => cases ha
  | cons first dir =>
    cases b with
    | nil => cases hb
    | cons other dir' =>
      simp only [Option.mem_def, Option.ite_none_right_eq_some, Option.some.injEq] at ha hb
      rw [ha.1, ha.2, hb.1, hb.2]

theorem lookup_eq_some_iff_mem {entries : List (Location × Node)}
    (h : (entries.map Prod.fst).Nodup) {loc : Location} {node : Node} :
    entries.lookup loc = some node ↔ (loc, node) ∈ entries := by
  constructor
  · intro hlookup
    obtain ⟨before, after, rfl, -⟩ := List.lookup_eq_some_iff.1 hlookup
    exact List.mem_append_right _ List.mem_cons_self
  · intro hmem
    obtain ⟨found, hfound⟩ : ∃ found, entries.lookup loc = some found :=
      Option.isSome_iff_exists.1 (List.lookup_isSome_iff.2 ⟨_, hmem, beq_self_eq_true loc⟩)
    obtain ⟨before, after, rfl, -⟩ := List.lookup_eq_some_iff.1 hfound
    have hentry := List.inj_on_of_nodup_map h hmem (List.mem_append_right _ List.mem_cons_self) rfl
    rw [hfound, (Prod.mk.inj hentry).2]

/-- The place of a node among the others makes no difference. -/
theorem node?_eq_of_perm {a b : FileTree} (h : a.entries.Perm b.entries) (loc : Location) :
    a.node? loc = b.node? loc := by
  cases loc with
  | nil => rfl
  | cons name dir =>
    apply Option.ext
    intro node
    rw [node?, node?, lookup_eq_some_iff_mem a.distinct, lookup_eq_some_iff_mem b.distinct]
    exact h.mem_iff

theorem turn_congr {a b : FileTree} (h : ∀ loc, a.node? loc = b.node? loc) (here : Location)
    (name : String) : a.turn here name = b.turn here name := by
  unfold turn
  rw [h, h]

theorem follow_congr {a b : FileTree} (h : ∀ loc, a.node? loc = b.node? loc)
    {atLink : Location → List String → Except IoError Location} (here : Location)
    (names : List String) : a.follow atLink here names = b.follow atLink here names := by
  induction names generalizing here with
  | nil => rfl
  | cons name rest ih =>
    rw [follow, follow, turn_congr h]
    split
    · rfl
    · exact ih _
    · rfl

theorem lookup_congr {a b : FileTree} (h : ∀ loc, a.node? loc = b.node? loc) (links : Nat) :
    a.lookup links = b.lookup links := by
  induction links with
  | zero =>
    funext here names
    exact follow_congr h here names
  | succ links ih =>
    funext here names
    rw [lookup, lookup, ih]
    exact follow_congr h here names

variable {tree : FileTree} {here loc : Location} {names : List String}

theorem follow_of_dot {atLink : Location → List String → Except IoError Location}
    (hatLink : ∀ here names, atLink here (names ++ ["."]) = .ok loc → atLink here names = .ok loc)
    (h : tree.follow atLink here (names ++ ["."]) = .ok loc) :
    tree.follow atLink here names = .ok loc := by
  induction names generalizing here with
  | nil =>
    rw [List.nil_append, follow] at h
    split at h
    · cases h
    · next hturn =>
      cases turn_dot hturn
      exact h
    · next hturn => cases turn_dot hturn
  | cons name rest ih =>
    rw [List.cons_append, follow] at h
    rw [follow]
    cases hturn : tree.turn here name with
    | error e =>
      rw [hturn] at h
      cases h
    | ok t =>
      rw [hturn] at h
      cases t with
      | enter there => exact ih h
      | pass target =>
        dsimp only at h
        rw [← List.append_assoc] at h
        exact hatLink _ _ h

/-- A dot at the end leads nowhere else. -/
theorem lookup_of_dot {links : Nat} (h : tree.lookup links here (names ++ ["."]) = .ok loc) :
    tree.lookup links here names = .ok loc := by
  induction links generalizing here names with
  | zero => exact follow_of_dot (fun _ _ hlink => by cases hlink) h
  | succ links ih => exact follow_of_dot (fun _ _ hlink => ih hlink) h

end FileTree

namespace Path

theorem accept_of_append {s t : String} (hne : s ≠ "") (h : (⟨s ++ t⟩ : Path).accept = .ok ()) :
    (⟨s⟩ : Path).accept = .ok () := by
  unfold accept at h ⊢
  split at h
  · cases h
  · next hnul =>
    split at h
    · cases h
    · split at h
      · cases h
      · next hsize =>
        rw [String.toList_append, List.contains_append, Bool.or_eq_true, not_or] at hnul
        rw [String.utf8ByteSize_append] at hsize
        have hsmall : ¬ s.utf8ByteSize > sizeLimit := by omega
        rw [if_neg hnul.1, if_neg (by simpa [isEmpty] using hne), if_neg hsmall]

theorem join_empty (p : Path) : p.join ⟨""⟩ = p ∨
    p.text ≠ "" ∧ p.endsInSlash = false ∧ p.join ⟨""⟩ = ⟨p.text ++ "/"⟩ := by
  have habsolute : (⟨""⟩ : Path).isAbsolute = false := rfl
  rw [join, if_neg (by simp [habsolute])]
  split
  · exact .inl (by rw [String.append_empty])
  · next h =>
    rw [Bool.or_eq_true, not_or] at h
    refine .inr ⟨by simpa [isEmpty] using h.1, by simpa [endsInSlash] using h.2, ?_⟩
    rw [String.append_empty]

theorem steps_slash (s : String) : (⟨s ++ "/"⟩ : Path).steps = Text.pieces s ++ ["."] := by
  have hends : (⟨s ++ "/"⟩ : Path).endsInSlash := by simp [endsInSlash]
  rw [steps, if_pos hends, names]
  simpa using Text.pieces_append_slash s ""

end Path

namespace Workspace

variable {a b ws : Workspace} {dir : Path} {here loc : Location} {name : String}

theorem accept_of_locate {p : Path} (h : ws.locate p = .ok loc) : p.accept = .ok () := by
  unfold locate at h
  cases haccept : p.accept with
  | error e =>
    rw [haccept] at h
    cases h
  | ok => rfl

theorem locate_of_accept {p : Path} (h : p.accept = .ok ()) :
    ws.locate p = ws.files.lookup linkLimit (ws.start p) p.steps := by
  rw [locate, h]
  rfl

theorem locate_of_join_empty (h : ws.locate (dir.join ⟨""⟩) = .ok loc) :
    ws.locate dir = .ok loc := by
  rcases dir.join_empty with heq | ⟨hne, hends, heq⟩
  · rwa [heq] at h
  · rw [heq] at h
    have haccept : (⟨dir.text⟩ : Path).accept = .ok () :=
      Path.accept_of_append hne (accept_of_locate h)
    have hlookup := lookup_of_locate h
    have hstart : ws.start ⟨dir.text ++ "/"⟩ = ws.start dir := by
      obtain ⟨c, cs, htext⟩ := List.exists_cons_of_ne_nil (mt String.toList_eq_nil_iff.1 hne)
      simp [start, Path.isAbsolute, htext]
    have hsteps : dir.steps = Text.pieces dir.text := by
      rw [Path.steps, if_neg (by simp [hends]), Path.names]
    rw [Path.steps_slash, hstart, ← hsteps] at hlookup
    exact (locate_of_accept haccept).trans (FileTree.lookup_of_dot hlookup)

theorem node?_eq_some_iff {p : Path} {node : Node} : ws.node? p = some node ↔
    ∃ there, ws.locate p = .ok there ∧ ws.files.node? there = some node := by
  rw [node?]
  cases ws.locate p with
  | error e => simp [Except.toOption]
  | ok there => simp [Except.toOption]

theorem isDirectory_iff : ws.isDirectory dir ↔
    ∃ here, ws.locate dir = .ok here ∧ ws.files.node? here = some .directory := by
  rw [isDirectory, node?]
  cases ws.locate dir with
  | error e => simp [Except.toOption]
  | ok here =>
    simp only [Except.toOption, Option.bind_some, Except.ok.injEq, exists_eq_left']
    cases ws.files.node? here with
    | none => simp
    | some node => cases node <;> simp [Node.isDirectory]

theorem isFile_iff {p : Path} : ws.isFile p ↔ ∃ content, ws.node? p = some (.file content) := by
  rw [isFile]
  split
  · next content hfile => simp [hfile]
  · next hother => simpa using hother

theorem readText_eq_ok_iff {p : Path} {text : String} : ws.readText p = .ok text ↔
    ∃ content, ws.node? p = some (.file content) ∧ String.fromUTF8? content = some text := by
  rw [readText, node?]
  cases ws.locate p with
  | error e => simp [Except.toOption, bind, Except.bind]
  | ok here =>
    simp only [Except.toOption, Option.bind_some, bind, Except.bind]
    split
    · next content hfile =>
      rw [hfile]
      cases htext : String.fromUTF8? content <;> simp [htext]
    · next hother => simpa using fun content hfile => absurd hfile (hother content)

/-- A directory that tells its names has one of the given name. -/
def HasEntry (ws : Workspace) (dir : Path) (name : String) : Prop :=
  ∃ here, ws.locate dir = .ok here ∧ ws.files.node? here = some .directory ∧ here ∉ ws.closed ∧
    (ws.files.node? (name :: here)).isSome

theorem hasEntry_iff (h : ws.locate dir = .ok here) :
    ws.HasEntry dir name ↔ ∃ names, ws.list here = .ok names ∧ name ∈ names := by
  simp only [HasEntry, h, Except.ok.injEq, exists_eq_left', ← FileTree.mem_children_iff]
  unfold list
  split
  · next hdirectory =>
    by_cases hclosed : here ∈ ws.closed
    · simp [hclosed]
    · simp [hclosed, hdirectory]
  · next hother =>
    simp only [reduceCtorEq, false_and, exists_false, iff_false, not_and]
    exact fun hdirectory => absurd hdirectory hother

theorem isDirectory_of_list {names : List String} (hlocate : ws.locate dir = .ok here)
    (hlist : ws.list here = .ok names) : ws.isDirectory dir :=
  isDirectory_iff.2 ⟨here, hlocate, node?_of_list hlist⟩

theorem nodup_of_list {names : List String} (h : ws.list here = .ok names) : names.Nodup := by
  unfold list at h
  split at h
  · split at h
    · cases h
    · cases h
      exact ws.files.nodup_children here
  · cases h

/-- The same nodes, seen from the same directory, and the same directories closed. Where the trees
hold the nodes does not matter, and so neither does the order that the names of a directory come
in. -/
structure SameFiles (a b : Workspace) : Prop where
  node? : ∀ loc, a.files.node? loc = b.files.node? loc
  cwd : a.cwd = b.cwd
  closed : ∀ loc, loc ∈ a.closed ↔ loc ∈ b.closed

theorem SameFiles.symm (h : a.SameFiles b) : b.SameFiles a :=
  ⟨fun loc => (h.node? loc).symm, h.cwd.symm, fun loc => (h.closed loc).symm⟩

theorem SameFiles.locate_eq (h : a.SameFiles b) (p : Path) : a.locate p = b.locate p := by
  rw [locate, locate, start, start, h.cwd, FileTree.lookup_congr h.node?]

theorem SameFiles.node?_eq (h : a.SameFiles b) (p : Path) : a.node? p = b.node? p := by
  rw [Workspace.node?, Workspace.node?, h.locate_eq, funext h.node?]

theorem SameFiles.isDirectory_eq (h : a.SameFiles b) (p : Path) :
    a.isDirectory p = b.isDirectory p := by
  rw [isDirectory, isDirectory, h.node?_eq]

theorem SameFiles.hasEntry_iff (h : a.SameFiles b) : a.HasEntry dir name ↔ b.HasEntry dir name := by
  simp only [HasEntry, h.locate_eq, h.node?, h.closed]

end Workspace

end RouteTree
