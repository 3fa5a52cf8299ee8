import RouteTree.Artifact.Output

/-! What a write leaves behind. Names that could be looked up still lead to the same location, and
the path that was written to leads to a file with the new content, whatever symbolic links there
are on the way. -/
namespace RouteTree

namespace FileTree

private theorem lookup_filter_ne {entries : List (Location × Node)} {loc there : Location}
    (h : there ≠ loc) : (entries.filter fun e => e.1 ≠ loc).lookup there = entries.lookup there := by
  induction entries with
  | nil => rfl
  | cons e entries ih =>
    obtain ⟨at_, node⟩ := e
    by_cases heq : at_ = loc
    · subst heq
      rw [List.filter_cons_of_neg (by simp), ih, List.lookup_cons, beq_false_of_ne h]
    · rw [List.filter_cons_of_pos (by simpa using heq), List.lookup_cons, List.lookup_cons, ih]

theorem node?_insert_self {tree : FileTree} {loc : Location} (node : Node) (h : loc ≠ []) :
    (tree.insert loc node).node? loc = some node := by
  obtain ⟨name, dir, rfl⟩ := List.exists_cons_of_ne_nil h
  simp [node?, insert]

theorem node?_insert_of_ne {tree : FileTree} {loc there : Location} (node : Node)
    (h : there ≠ loc) : (tree.insert loc node).node? there = tree.node? there := by
  cases there with
  | nil => rfl
  | cons name dir =>
    rw [node?, node?, insert, List.lookup_cons, beq_false_of_ne h]
    exact lookup_filter_ne h

/-- Every directory and every link stays, and every file stays a file. -/
structure Grows (before after : FileTree) : Prop where
  directory {loc : Location} : before.node? loc = some .directory →
    after.node? loc = some .directory
  link {loc : Location} {target : Path} : before.node? loc = some (.link target) →
    after.node? loc = some (.link target)
  file {loc : Location} {content : ByteArray} : before.node? loc = some (.file content) →
    ∃ content', after.node? loc = some (.file content')

def IsPlace (tree : FileTree) (loc : Location) : Prop :=
  tree.node? loc = none ∨ ∃ content, tree.node? loc = some (.file content)

theorem grows_insert_file {tree : FileTree} {loc : Location} (content : ByteArray)
    (h : tree.IsPlace loc) : tree.Grows (tree.insert loc (.file content)) := by
  have hkeep (there : Location) (node : Node) (hnode : tree.node? there = some node)
      (hfile : ∀ old, node ≠ .file old) :
      (tree.insert loc (.file content)).node? there = some node := by
    rw [node?_insert_of_ne, hnode]
    rintro rfl
    rcases h with hnone | ⟨old, hold⟩
    · rw [hnone] at hnode
      cases hnode
    · rw [hold, Option.some.injEq] at hnode
      exact hfile old hnode.symm
  refine ⟨fun hdir => hkeep _ _ hdir (by simp), fun hlink => hkeep _ _ hlink (by simp), ?_⟩
  intro there old hold
  by_cases heq : there = loc
  · subst heq
    have hne : there ≠ [] := by
      rintro rfl
      cases hold
    exact ⟨content, node?_insert_self _ hne⟩
  · exact ⟨old, by rw [node?_insert_of_ne _ heq, hold]⟩

theorem grows_refl (tree : FileTree) : tree.Grows tree :=
  ⟨id, id, fun h => ⟨_, h⟩⟩

theorem grows_insert_free {tree : FileTree} {loc : Location} (node : Node)
    (h : tree.node? loc = none) : tree.Grows (tree.insert loc node) := by
  have hkeep {there : Location} {old : Node} (hold : tree.node? there = some old) :
      (tree.insert loc node).node? there = some old := by
    rw [node?_insert_of_ne, hold]
    rintro rfl
    rw [h] at hold
    cases hold
  exact ⟨fun hdir => hkeep hdir, fun hlink => hkeep hlink, fun hfile => ⟨_, hkeep hfile⟩⟩

theorem turn_of_grows {before after : FileTree} (hgrows : before.Grows after) {here : Location}
    {name : String} {t : Turn} (h : before.turn here name = .ok t) :
    after.turn here name = .ok t := by
  unfold turn at h ⊢
  split at h
  · cases h
  · next hhere =>
    rw [hgrows.directory hhere]
    dsimp only
    split at h
    · next hdot => rwa [if_pos hdot]
    · next hdot =>
      rw [if_neg hdot]
      split at h
      · next hup => rwa [if_pos hup]
      · next hup =>
        rw [if_neg hup]
        split at h
        · cases h
        · next hlink => rwa [hgrows.link hlink]
        · next node hlink hnode =>
          cases node with
          | file content =>
            obtain ⟨content', hfile⟩ := hgrows.file hnode
            rwa [hfile]
          | directory => rwa [hgrows.directory hnode]
          | link target => exact absurd rfl (hlink target)
  · cases h

theorem follow_of_grows {before after : FileTree} (hgrows : before.Grows after)
    {atLink atLink' : Location → List String → Except IoError Location}
    (hatLink : ∀ here names loc, atLink here names = .ok loc → atLink' here names = .ok loc)
    {here loc : Location} {names : List String} (h : before.follow atLink here names = .ok loc) :
    after.follow atLink' here names = .ok loc := by
  induction names generalizing here with
  | nil => exact h
  | cons name rest ih =>
    rw [follow] at h ⊢
    split at h
    · cases h
    · next hturn =>
      rw [turn_of_grows hgrows hturn]
      exact ih h
    · next hturn =>
      rw [turn_of_grows hgrows hturn]
      exact hatLink _ _ _ h

/-- Names lead where they led before. -/
theorem lookup_of_grows {before after : FileTree} (hgrows : before.Grows after) {links : Nat}
    {here loc : Location} {names : List String} (h : before.lookup links here names = .ok loc) :
    after.lookup links here names = .ok loc := by
  induction links generalizing here loc names with
  | zero => exact follow_of_grows hgrows (fun _ _ _ hlink => by cases hlink) h
  | succ links ih => exact follow_of_grows hgrows (fun _ _ _ hlink => ih hlink) h

theorem followToPlace_dot_ne {tree : FileTree}
    {atLink : Location → List String → Except IoError Location}
    (hatLink : ∀ here names loc, atLink here (names ++ ["."]) ≠ .ok loc)
    (here : Location) (names : List String) (loc : Location) :
    tree.followToPlace atLink here (names ++ ["."]) ≠ .ok loc := by
  induction names generalizing here with
  | nil =>
    rw [List.nil_append, followToPlace, place]
    split
    · simp
    · split <;> simp
    · simp
  | cons name rest ih =>
    obtain ⟨next, more, hmore⟩ := List.exists_cons_of_ne_nil
      (show rest ++ ["."] ≠ [] by simp)
    rw [List.cons_append, hmore, followToPlace, ← hmore]
    split
    · simp
    · exact ih _
    · rw [← List.append_assoc]
      exact hatLink _ _ loc

theorem lookupPlace_dot_ne (tree : FileTree) (links : Nat) (here : Location) (names : List String)
    (loc : Location) : tree.lookupPlace links here (names ++ ["."]) ≠ .ok loc := by
  induction links generalizing here names loc with
  | zero => exact followToPlace_dot_ne (fun _ _ _ => by simp) here names loc
  | succ links ih => exact followToPlace_dot_ne ih here names loc

theorem writeSteps_eq_steps {tree : FileTree} {links : Nat} {here loc : Location} {p : Path}
    (h : tree.lookupPlace links here p.writeSteps = .ok loc) : p.writeSteps = p.steps := by
  unfold Path.writeSteps at h ⊢
  split
  · next hslash =>
    rw [if_pos hslash] at h
    exact absurd h (lookupPlace_dot_ne tree links here _ loc)
  · next hslash => rw [Path.steps, if_neg hslash]

/-- All that the last name of a path to write to can be. -/
theorem place_cases {tree : FileTree} {atLink : Location → List String → Except IoError Location}
    {here loc : Location} {name : String} (h : tree.place atLink here name = .ok loc) :
    tree.node? here = some .directory ∧ name ≠ "." ∧ name ≠ ".." ∧
      ((∃ target, tree.node? (name :: here) = some (.link target) ∧
          atLink (targetStart here target) target.writeSteps = .ok loc) ∨
        (tree.IsPlace (name :: here) ∧ loc = name :: here)) := by
  unfold place at h
  split at h
  · cases h
  · next hhere =>
    split at h
    · cases h
    · split at h
      · cases h
      · next hdots =>
        obtain ⟨hdot, hup⟩ : name ≠ "." ∧ name ≠ ".." := by simpa using hdots
        refine ⟨hhere, hdot, hup, ?_⟩
        split at h
        · cases h
        · next target hlink => exact .inl ⟨target, hlink, h⟩
        · next hlink hdir =>
          refine .inr ⟨?_, (Except.ok.inj h).symm⟩
          cases hnode : tree.node? (name :: here) with
          | none => exact .inl hnode
          | some node =>
            cases node with
            | file content => exact .inr ⟨content, hnode⟩
            | directory => exact absurd hnode hlink
            | link target => exact absurd hnode (hdir target)
  · cases h

theorem isPlace_of_followToPlace {tree : FileTree}
    {atLink : Location → List String → Except IoError Location}
    (hatLink : ∀ here names loc, atLink here names = .ok loc → tree.IsPlace loc ∧ loc ≠ [])
    {here loc : Location} {names : List String}
    (h : tree.followToPlace atLink here names = .ok loc) : tree.IsPlace loc ∧ loc ≠ [] := by
  fun_induction followToPlace tree atLink here names with
  | case1 => cases h
  | case2 here name =>
    obtain ⟨-, -, -, ⟨target, -, hlink⟩ | ⟨hplace, rfl⟩⟩ := place_cases h
    · exact hatLink _ _ _ hlink
    · exact ⟨hplace, List.cons_ne_nil name here⟩
  | case3 => cases h
  | case4 here name next rest there hturn ih => exact ih h
  | case5 => exact hatLink _ _ _ h

theorem isPlace_of_lookupPlace {tree : FileTree} {links : Nat} {here loc : Location}
    {names : List String} (h : tree.lookupPlace links here names = .ok loc) :
    tree.IsPlace loc ∧ loc ≠ [] := by
  induction links generalizing here loc names with
  | zero => exact isPlace_of_followToPlace (fun _ _ _ hlink => by cases hlink) h
  | succ links ih => exact isPlace_of_followToPlace (fun _ _ _ hlink => ih hlink) h

theorem follow_of_followToPlace {before after : FileTree} (hgrows : before.Grows after)
    {atLink atLink' : Location → List String → Except IoError Location} {loc : Location}
    {content : ByteArray} (hfile : after.node? loc = some (.file content))
    (hatLink : ∀ here names, atLink here names = .ok loc → atLink' here names = .ok loc)
    (hsteps : ∀ here (target : Path), atLink here target.writeSteps = .ok loc →
      target.writeSteps = target.steps)
    {here : Location} {names : List String}
    (h : before.followToPlace atLink here names = .ok loc) :
    after.follow atLink' here names = .ok loc := by
  fun_induction followToPlace before atLink here names with
  | case1 => cases h
  | case2 here name =>
    obtain ⟨hhere, hdot, hup, hlast⟩ := place_cases h
    rw [follow, turn, hgrows.directory hhere]
    simp only [hdot, hup, if_false]
    -- the name stays that of a link, or is by now that of the new file
    rcases hlast with ⟨target, hlink, htarget⟩ | ⟨-, rfl⟩
    · rw [hgrows.link hlink]
      simp only [List.append_nil]
      rw [← hsteps _ _ htarget]
      exact hatLink _ _ htarget
    · rw [hfile]
      rfl
  | case3 => cases h
  | case4 here name next rest there hturn ih =>
    rw [follow, turn_of_grows hgrows hturn]
    exact ih h
  | case5 here name next rest target hturn =>
    rw [follow, turn_of_grows hgrows hturn]
    exact hatLink _ _ h

theorem lookup_of_lookupPlace {before after : FileTree} (hgrows : before.Grows after)
    {links : Nat} {here loc : Location} {names : List String} {content : ByteArray}
    (hfile : after.node? loc = some (.file content))
    (h : before.lookupPlace links here names = .ok loc) :
    after.lookup links here names = .ok loc := by
  induction links generalizing here names with
  | zero =>
    refine follow_of_followToPlace hgrows hfile ?_ ?_ h
    · intro _ _ hlink
      cases hlink
    · intro _ _ hlink
      cases hlink
  | succ links ih =>
    exact follow_of_followToPlace hgrows hfile (fun _ _ hlink => ih hlink)
      (fun _ _ hlink => writeSteps_eq_steps hlink) h

end FileTree

namespace Workspace

/-- A write changes one file, to which the path leads from then on. -/
theorem write_eq_ok {ws after : Workspace} {p : Path} {content : ByteArray}
    (h : ws.write p content = .ok after) :
    ∃ loc, after = { ws with files := ws.files.insert loc (.file content) } ∧
      ws.files.Grows after.files ∧ after.locate p = .ok loc ∧
      after.files.node? loc = some (.file content) := by
  unfold write writeLocation at h
  cases haccept : p.accept with
  | error e =>
    rw [haccept] at h
    cases h
  | ok =>
    cases hplace : ws.files.lookupPlace linkLimit (ws.start p) p.writeSteps with
    | error e =>
      rw [haccept] at h
      simp only [bind, Except.bind, hplace, reduceCtorEq] at h
    | ok loc =>
      rw [haccept] at h
      simp only [bind, Except.bind, hplace] at h
      split at h
      · cases h
      · cases h
        obtain ⟨hfree, hne⟩ := FileTree.isPlace_of_lookupPlace hplace
        have hgrows := FileTree.grows_insert_file content hfree
        have hfile : (ws.files.insert loc (.file content)).node? loc = some (.file content) :=
          FileTree.node?_insert_self _ hne
        refine ⟨loc, rfl, hgrows, ?_, hfile⟩
        have hlookup := FileTree.lookup_of_lookupPlace hgrows hfile hplace
        rw [FileTree.writeSteps_eq_steps hplace] at hlookup
        unfold locate
        rw [haccept]
        exact hlookup

theorem grows_of_makeDirectory {ws after : Workspace} {p : Path}
    (h : ws.makeDirectory p = .ok after) : ws.files.Grows after.files := by
  unfold makeDirectory at h
  split at h
  · cases h
  · cases hparent : ws.parentAndName (ws.start p) p with
    | error e =>
      rw [hparent] at h
      cases h
    | ok found =>
      obtain ⟨dir, name⟩ := found
      simp only [hparent, bind, Except.bind] at h
      split at h
      · cases h
      · next hfree =>
        cases h
        refine FileTree.grows_insert_free _ ?_
        simp only [Bool.or_eq_true, not_or, Option.isSome_iff_ne_none, ne_eq,
          Decidable.not_not] at hfree
        exact hfree.2

end Workspace

namespace Artifact

/-- The path that was written to leads to a file with the text. -/
theorem put_eq_ok {ws after : Workspace} {p : Path} {text : String}
    (h : put ws p text = (after, .ok ())) :
    ∃ loc, after.locate p = .ok loc ∧ after.files.node? loc = some (.file text.toUTF8) := by
  have hputText {before : Workspace} (h : putText before p text = (after, .ok ())) :
      ∃ loc, after.locate p = .ok loc ∧ after.files.node? loc = some (.file text.toUTF8) := by
    unfold putText at h
    split at h
    · next written hwrite =>
      obtain ⟨loc, -, -, hlocate, hfile⟩ := Workspace.write_eq_ok hwrite
      cases h
      exact ⟨loc, hlocate, hfile⟩
    · simp at h
  unfold put at h
  split at h
  · exact hputText h
  · split at h
    · exact hputText h
    · simp at h

end Artifact

end RouteTree
