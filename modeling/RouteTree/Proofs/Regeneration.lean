import RouteTree.Config.Loading
import RouteTree.Proofs.Canonical
import RouteTree.Proofs.Passes

/-! Whether the generated file triggers its own generation. A pass sees its own write as a change.
The path of the generated file is resolved once, when the file may not be there yet, and is compared
with canonical paths of changes later on: this goes well just when it passes neither a symbolic link
nor a double dot. -/
namespace RouteTree

theorem FileTree.IsReal.of_grows {before after : FileTree} (hgrows : before.Grows after)
    {loc : Location} (h : before.IsReal loc) : after.IsReal loc := by
  induction h with
  | root => exact .root
  | @enter name dir node hdir here hname hnode hlink ih =>
    have here := hgrows.directory here
    cases node with
    | file content =>
      obtain ⟨content', hfile⟩ := hgrows.file hnode
      exact .enter ih here hname hfile (by simp)
    | directory => exact .enter ih here hname (hgrows.directory hnode) (by simp)
    | link target => exact absurd rfl (hlink target)

namespace Generator

variable {g : Generator} {ws : Workspace}

theorem isOutput_path {loc : Location} (h : ws.files.IsReal loc) :
    g.isOutput ws loc.path = loc.path.same g.output := by
  rw [isOutput, ws.normalize_path h, Bool.or_self]

end Generator

/-- A path as the watcher reports it for a location. -/
def Workspace.Reports (ws : Workspace) (loc : Location) (p : Path) : Prop :=
  ∃ q, ws.locate q = .ok loc ∧ p = ws.normalize q

/-- A pass that emits leaves a file behind, and changes of this file alone are ignored just when the
path of the generated file, as it was resolved with the settings, is straight. -/
theorem own_changes_ignored_iff {before ws : Workspace} {config root : Path} {settings : Settings}
    {g : Generator} {compare : Bool} {n : Nat}
    (houtput : g.output = (Project.resolve before config root settings).output)
    (hemitted : (g.pass ws compare).outcome = .emitted n) :
    let pass := g.pass ws compare
    ∃ loc, pass.workspace.locate g.output = .ok loc ∧
      ∀ batch, batch ≠ [] → (∀ p ∈ batch, pass.workspace.Reports loc p) →
        let next := pass.generator.react pass.workspace batch
        (next.outcome = .ignored ↔ pass.workspace.isStraight g.output) ∧
        (next.outcome = .ignored →
          next.generator = pass.generator ∧ next.workspace = pass.workspace) := by
  intro pass
  obtain ⟨table, hgenerator, hput⟩ := Generator.pass_eq_emitted hemitted
  obtain ⟨loc, hlocate, -⟩ := Artifact.put_eq_ok hput
  refine ⟨loc, hlocate, fun batch hne hbatch => ?_⟩
  intro next
  refine ⟨?_, Generator.react_eq_of_ignored⟩
  have habs : g.output.isAbsolute := by
    rw [houtput]
    exact before.isAbsolute_normalize _
  have hreal := Workspace.isReal_of_locate habs hlocate
  -- what is reported is the canonical path, which resolving does not change any more
  have hpath (p : Path) (hp : p ∈ batch) : p = loc.path := by
    obtain ⟨q, hq, rfl⟩ := hbatch p hp
    rw [Workspace.normalize, hq]
  have houtput : pass.generator.output = g.output := by rw [hgenerator]
  rw [← Workspace.path_same_iff_isStraight habs hlocate, Generator.react_outcome_eq_ignored_iff,
    List.all_eq_true]
  constructor
  · intro hall
    obtain ⟨p, rest, hcons⟩ := List.exists_cons_of_ne_nil hne
    have hp : p ∈ batch := by simp [hcons]
    have hsame := hall p hp
    rwa [hpath p hp, Generator.isOutput_path hreal, houtput] at hsame
  · intro hsame p hp
    rwa [hpath p hp, Generator.isOutput_path hreal, houtput]

/-- A directory, and a symbolic link to it. -/
def linkedDirectory : Workspace where
  files := (FileTree.empty.insert ["real"] .directory).insert ["linked"] (.link ⟨"real"⟩)
  cwd := []

def settingsFor (output : String) : Settings := { output := { path := some ⟨output⟩ } }

def linkedProject (output : String) : Project :=
  .resolve linkedDirectory ⟨"/routegen.toml"⟩ ⟨"/"⟩ (settingsFor output)

private theorem exists_reports {ws : Workspace} {q : Path} (h : (ws.locate q).isOk) :
    ∃ loc, ws.locate q = .ok loc ∧ ws.Reports loc (ws.normalize q) := by
  cases hlocate : ws.locate q with
  | ok loc => exact ⟨loc, rfl, q, hlocate, rfl⟩
  | error e =>
    rw [hlocate] at h
    cases h

/-- A generated file that is named through the link is written again for its own change. -/
theorem own_change_not_ignored_linked :
    let g := Generator.ofProject (linkedProject "linked/routes.ts")
    let pass := g.build linkedDirectory
    Config.check (settingsFor "linked/routes.ts") = [] ∧ pass.outcome = .emitted 0 ∧
      (∃ loc, pass.workspace.locate g.output = .ok loc ∧
        ∀ p ∈ [(⟨"/real/routes.ts"⟩ : Path)], pass.workspace.Reports loc p) ∧
      (pass.generator.react pass.workspace [⟨"/real/routes.ts"⟩]).outcome = .emitted 0 := by
  intro g pass
  refine ⟨by decide +kernel, by decide +kernel, ?_, by decide +kernel⟩
  obtain ⟨loc, hlocate, hreports⟩ := exists_reports
    (show (pass.workspace.locate g.output).isOk by decide +kernel)
  have hpath : pass.workspace.normalize g.output = ⟨"/real/routes.ts"⟩ := by decide +kernel
  rw [hpath] at hreports
  exact ⟨loc, hlocate, by simpa using hreports⟩

/-- One that is named directly is not. -/
theorem own_changes_ignored_iff_real :
    let g := Generator.ofProject (linkedProject "real/routes.ts")
    let pass := g.build linkedDirectory
    pass.outcome = .emitted 0 ∧ pass.workspace.isStraight g.output ∧
      (∃ loc, pass.workspace.locate g.output = .ok loc ∧
        ∀ p ∈ [(⟨"/real/routes.ts"⟩ : Path)], pass.workspace.Reports loc p) ∧
      (pass.generator.react pass.workspace [⟨"/real/routes.ts"⟩]).outcome = .ignored := by
  intro g pass
  have hemitted : pass.outcome = .emitted 0 := by decide +kernel
  have hstraight : pass.workspace.isStraight g.output := by decide +kernel
  have hpath : pass.workspace.normalize g.output = ⟨"/real/routes.ts"⟩ := by decide +kernel
  have houtput : g.output = (Project.resolve linkedDirectory ⟨"/routegen.toml"⟩ ⟨"/"⟩
      (settingsFor "real/routes.ts")).output := rfl
  obtain ⟨loc, hlocate, hbatch⟩ := own_changes_ignored_iff houtput hemitted
  have hreports : ∀ p ∈ [(⟨"/real/routes.ts"⟩ : Path)], pass.workspace.Reports loc p := by
    intro p hp
    rw [List.mem_singleton.1 hp]
    exact ⟨g.output, hlocate, hpath.symm⟩
  obtain ⟨hiff, -⟩ := hbatch _ (List.cons_ne_nil _ _) hreports
  exact ⟨hemitted, hstraight, ⟨loc, hlocate, hreports⟩, hiff.2 hstraight⟩

end RouteTree
