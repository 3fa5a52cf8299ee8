import RouteTree.Proofs.Writing

/-! What putting a text into a file adds. Directories that are missing are made; then the one file
is made or gets its new content, or else nothing more is done. So a text that cannot be put into its
file leaves every file as it was. -/
namespace RouteTree

namespace FileTree

/-- Every node is as it was, and one that was not there is a directory. -/
def AddsDirectories (before after : FileTree) : Prop :=
  ∀ loc, after.node? loc = before.node? loc ∨
    before.node? loc = none ∧ after.node? loc = some .directory

namespace AddsDirectories

variable {before between after : FileTree} {loc : Location} {node : Node}

theorem refl (tree : FileTree) : tree.AddsDirectories tree := fun _ => .inl rfl

theorem trans (h : before.AddsDirectories between) (h' : between.AddsDirectories after) :
    before.AddsDirectories after := by
  intro loc
  rcases h' loc with hlater | ⟨hnone, hdir⟩
  · rw [hlater]
    exact h loc
  · rcases h loc with hfirst | ⟨-, hmade⟩
    · exact .inr ⟨hfirst ▸ hnone, hdir⟩
    · rw [hmade] at hnone
      cases hnone

theorem insert (h : before.node? loc = none) :
    before.AddsDirectories (before.insert loc .directory) := by
  intro there
  by_cases hthere : there = loc
  · subst hthere
    have hne : there ≠ [] := by
      rintro rfl
      cases h
    exact .inr ⟨h, node?_insert_self _ hne⟩
  · exact .inl (node?_insert_of_ne _ hthere)

theorem keeps (h : before.AddsDirectories after) (hnode : before.node? loc = some node) :
    after.node? loc = some node := by
  rcases h loc with hsame | ⟨hnone, -⟩
  · rw [hsame, hnode]
  · rw [hnone] at hnode
    cases hnode

theorem grows (h : before.AddsDirectories after) : before.Grows after :=
  ⟨h.keeps, h.keeps, fun hfile => ⟨_, h.keeps hfile⟩⟩

theorem file_iff (h : before.AddsDirectories after) {content : ByteArray} :
    after.node? loc = some (.file content) ↔ before.node? loc = some (.file content) := by
  refine ⟨fun hfile => ?_, h.keeps⟩
  rcases h loc with hsame | ⟨-, hdir⟩
  · rw [← hsame, hfile]
  · rw [hdir] at hfile
    cases hfile

end AddsDirectories

end FileTree

namespace Workspace

variable {ws made : Workspace} {p : Path}

theorem locate_of_grows {files : FileTree} (hgrows : ws.files.Grows files) {loc : Location}
    (h : ws.locate p = .ok loc) : ({ ws with files } : Workspace).locate p = .ok loc := by
  unfold locate at h ⊢
  cases haccept : p.accept with
  | error e =>
    rw [haccept] at h
    cases h
  | ok =>
    rw [haccept] at h
    exact FileTree.lookup_of_grows hgrows h

theorem makeDirectory_eq_ok (h : ws.makeDirectory p = .ok made) : ∃ dir name,
    ws.parentAndName (ws.start p) p = .ok (dir, name) ∧ name ≠ "." ∧ name ≠ ".." ∧
      ws.files.node? (name :: dir) = none ∧
      made = { ws with files := ws.files.insert (name :: dir) .directory } := by
  unfold makeDirectory at h
  split at h
  · cases h
  · cases hparent : ws.parentAndName (ws.start p) p with
    | error e =>
      rw [hparent] at h
      cases h
    | ok found =>
      obtain ⟨dir, name⟩ := found
      simp only [hparent, bind, Except.bind] at h
      split at h
      · cases h
      · next hfree =>
        simp only [Bool.or_eq_true, decide_eq_true_eq, not_or, Option.isSome_iff_ne_none, ne_eq,
          Decidable.not_not] at hfree
        exact ⟨dir, name, rfl, hfree.1.1, hfree.1.2, hfree.2, (Except.ok.inj h).symm⟩

/-- What making one directory preserves, making any number of them preserves. -/
theorem makeAll_induction {motive : Workspace → Prop}
    (hstep : ∀ {before made p}, motive before → before.makeDirectory p = .ok made → motive made)
    (h : motive ws) (paths : List Path) : motive (ws.makeAll paths).1 := by
  induction paths generalizing ws with
  | nil => exact h
  | cons p above ih =>
    rw [makeAll]
    split
    · exact h
    · split
      · next hmade => exact hstep h hmade
      · have habove := ih h
        split
        · next hafter => rwa [hafter] at habove
        · next after hafter =>
          rw [hafter] at habove
          split
          · next made hmade => exact hstep habove hmade
          · exact habove
      · exact h

theorem exists_addsDirectories_makeAll (ws : Workspace) (paths : List Path) : ∃ files,
    ws.files.AddsDirectories files ∧ (ws.makeAll paths).1 = { ws with files } := by
  refine makeAll_induction
    (motive := fun made => ∃ files, ws.files.AddsDirectories files ∧ made = { ws with files })
    ?_ ⟨ws.files, .refl _, rfl⟩ paths
  rintro _ made p ⟨files, hadds, rfl⟩ hmade
  obtain ⟨dir, name, -, -, -, hfree, rfl⟩ := makeDirectory_eq_ok hmade
  exact ⟨_, hadds.trans (.insert hfree), rfl⟩

end Workspace

namespace Artifact

theorem putText_cases (ws : Workspace) (p : Path) (text : String) :
    (∃ e, putText ws p text = (ws, .error e)) ∨
    ∃ loc, ws.writeLocation p = .ok loc ∧ ws.locked.contains loc = false ∧
      putText ws p text =
        ({ ws with files := ws.files.insert loc (.file text.toUTF8) }, .ok ()) := by
  unfold putText Workspace.write
  cases ws.writeLocation p with
  | error e => exact .inl ⟨_, rfl⟩
  | ok loc =>
    simp only [bind, Except.bind]
    cases hlocked : ws.locked.contains loc with
    | true => exact .inl ⟨_, rfl⟩
    | false => exact .inr ⟨loc, rfl, hlocked, rfl⟩

theorem put_after_directories (ws : Workspace) (p : Path) (text : String) : ∃ files,
    ws.files.AddsDirectories files ∧ (put ws p text = putText { ws with files } p text ∨
      ∃ e, put ws p text = ({ ws with files }, .error e)) := by
  cases hdirectory : directoryOf? p with
  | none => exact ⟨ws.files, .refl _, .inl (by simp only [put, hdirectory])⟩
  | some dir =>
    obtain ⟨files, hadds, hfiles⟩ := ws.exists_addsDirectories_makeAll dir.ancestors
    rw [← Workspace.makeDirectories] at hfiles
    refine ⟨files, hadds, ?_⟩
    rw [← hfiles]
    cases hmake : ws.makeDirectories dir with
    | mk made result =>
      cases result with
      | ok => exact .inl (by simp only [put, hdirectory, hmake])
      | error e => exact .inr ⟨.directory dir e, by simp only [put, hdirectory, hmake]⟩

/-- All that putting a text into a file can do. -/
theorem put_cases (ws : Workspace) (p : Path) (text : String) : ∃ files,
    ws.files.AddsDirectories files ∧
      ((∃ e, put ws p text = ({ ws with files }, .error e)) ∨
      ∃ loc, ({ ws with files } : Workspace).writeLocation p = .ok loc ∧
        put ws p text = ({ ws with files := files.insert loc (.file text.toUTF8) }, .ok ())) := by
  obtain ⟨files, hadds, hput | herror⟩ := put_after_directories ws p text
  · refine ⟨files, hadds, ?_⟩
    rw [hput]
    obtain herror | ⟨loc, hloc, -, hok⟩ := putText_cases { ws with files } p text
    · exact .inl herror
    · exact .inr ⟨loc, hloc, hok⟩
  · exact ⟨files, hadds, .inl herror⟩

end Artifact

end RouteTree
