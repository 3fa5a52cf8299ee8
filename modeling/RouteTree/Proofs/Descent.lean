import Mathlib.Data.Finset.Basic
import RouteTree.Proofs.Walk

/-! The walk with one set of directories for the whole descent. A directory is put into the set when
it is entered and taken out when it is left, so a directory that is passed on the way to one page
does not stand in the way of another. The descent always ends: each one that goes deeper has one
more directory of the tree in the set. -/
namespace RouteTree.Pages

/-- The findings below a directory, and the set that is left. `above` are the directories that the
descent is in; the names of a directory are gone through one after another, each with the set that
the one before has left. The descent may go the given number of directories deep, this one counted;
there is no result when it has to go deeper. -/
def descend (ws : Workspace) :
    Nat → Path → String → Finset Location → Option (List Finding × Finset Location)
  | 0, _, _, _ => none
  | depth + 1, dir, base, above =>
    match ws.locate dir with
    | .error e => some ([skipped dir e], above)
    | .ok here =>
      if here ∈ above then some ([cycle dir], above)
      else match ws.list here with
        | .error e => some ([skipped dir e], above)
        | .ok names => do
          let (found, inside) ← names.foldlM (fun (found, inside) name =>
            if ws.isDirectory (dir.join ⟨name⟩) then
              match DirRule.classify name with
              | .skip => some (found, inside)
              | .transparent => do
                let (more, inside) ← descend ws depth (dir.join ⟨name⟩) base inside
                some (found ++ more, inside)
              | .segment segment => do
                let (more, inside) ← descend ws depth (dir.join ⟨name⟩) (extend base segment) inside
                some (found ++ more, inside)
            else some (found, inside)) (pagesOf ws dir base names, insert here above)
          some (found, inside.erase here)

variable {ws : Workspace} {dir : Path} {base : String}

theorem foldlM_eq_flatMap {step : List Finding × Finset Location → String →
      Option (List Finding × Finset Location)}
    {inside : Finset Location} (findings : String → List Finding)
    (h : ∀ found name, step (found, inside) name = some (found ++ findings name, inside))
    (found : List Finding) (names : List String) :
    names.foldlM step (found, inside) = some (found ++ names.flatMap findings, inside) := by
  induction names generalizing found with
  | nil => rw [List.flatMap_nil, List.append_nil, List.foldlM_nil, Option.pure_def]
  | cons name rest ih =>
    rw [List.foldlM_cons, h, Option.bind_eq_bind, Option.bind_some, ih, List.flatMap_cons,
      List.append_assoc]

/-- A descent that starts with a set of directories finds what the walk from these directories
finds, and has the same set at its end. No descent is deeper than there are directories left. -/
theorem descend_eq_of_mem_iff {depth : Nat} {seen : List Location} {above : Finset Location}
    (hseen : ∀ loc, loc ∈ seen ↔ loc ∈ above) (hdepth : ws.files.directoriesLeft seen < depth) :
    descend ws depth dir base above = some (walkFrom ws seen dir base, above) := by
  induction seen, dir, base using walkFrom.induct ws generalizing depth above with
  | case1 seen dir base e hlocate =>
    obtain ⟨depth, rfl⟩ := Nat.exists_eq_add_of_lt hdepth
    rw [descend, walkFrom_error hlocate, hlocate]
  | case2 seen dir base here hlocate hcycle =>
    obtain ⟨depth, rfl⟩ := Nat.exists_eq_add_of_lt hdepth
    rw [descend, walkFrom_cycle hlocate hcycle, hlocate]
    exact if_pos ((hseen here).1 hcycle)
  | case3 seen dir base here hlocate hcycle e hlist =>
    obtain ⟨depth, rfl⟩ := Nat.exists_eq_add_of_lt hdepth
    rw [descend, walkFrom_closed hlocate hcycle hlist, hlocate]
    simp only [mt (hseen here).2 hcycle, if_false, hlist]
  | case4 seen dir base here hlocate hcycle names hlist ihSame ihExtend =>
    have hnew : here ∉ above := mt (hseen here).2 hcycle
    have hinside (loc : Location) : loc ∈ here :: seen ↔ loc ∈ insert here above := by
      rw [List.mem_cons, Finset.mem_insert, hseen]
    have hfewer := FileTree.directoriesLeft_cons_lt (Workspace.node?_of_list hlist) hcycle
    obtain ⟨deeper, rfl⟩ := Nat.exists_eq_add_of_lt hdepth
    have hdeeper : ws.files.directoriesLeft (here :: seen) <
        ws.files.directoriesLeft seen + deeper := Nat.lt_add_right deeper hfewer
    rw [descend, walkFrom_directory hlocate hcycle hlist, hlocate]
    simp only [hnew, if_false, hlist]
    rw [foldlM_eq_flatMap (walkInto ws (here :: seen) dir base)]
    · simp only [Option.bind_eq_bind, Option.bind_some, Finset.erase_insert hnew]
    · intro found name
      unfold walkInto
      by_cases hdirectory : ws.isDirectory (dir.join ⟨name⟩)
      · simp only [if_pos hdirectory]
        cases DirRule.classify name with
        | skip => simp
        | transparent => simp [ihSame name hinside hdeeper]
        | segment segment => simp [ihExtend name segment hinside hdeeper]
      · simp [hdirectory]

/-- From every directory and with every set of directories that the descent is taken to be in, the
descent ends with the findings of the walk, no deeper than there are directories outside the set.
It leaves the set as it found it: when the directory leads nowhere, when the descent is in it
already, when its names are not told, and when all below it has been gone through. -/
theorem descend_returns (ws : Workspace) (dir : Path) (base : String) (above : Finset Location)
    {depth : Nat} (hdepth : ws.files.directoriesLeft above.toList < depth) :
    descend ws depth dir base above = some (walkFrom ws above.toList dir base, above) :=
  descend_eq_of_mem_iff (fun _ => Finset.mem_toList) hdepth

/-- Two directories with links to each other and to the directory around them. -/
def neighbours : Workspace where
  files := [
    (["pages"], .directory), (["left", "pages"], .directory), (["right", "pages"], .directory),
    (["across", "left", "pages"], .link ⟨"../right"⟩),
    (["across", "right", "pages"], .link ⟨"/pages/left"⟩),
    (["up", "right", "pages"], .link ⟨".."⟩),
    (["+Page.vue", "left", "pages"], .file .empty)].foldl
      (fun tree e => tree.insert e.1 e.2) .empty
  cwd := []

theorem descend_returns_neighbours :
    neighbours.files.directoriesLeft (∅ : Finset Location).toList < 5 ∧
    ∃ found, descend neighbours 5 ⟨"pages"⟩ "" ∅ = some (found, ∅) ∧
      routes found = [⟨"/right/across", false⟩, ⟨"/left", false⟩] := by
  have hdepth : neighbours.files.directoriesLeft (∅ : Finset Location).toList < 5 := by
    rw [Finset.toList_empty]
    decide +kernel
  refine ⟨hdepth, _, descend_returns neighbours ⟨"pages"⟩ "" ∅ hdepth, ?_⟩
  rw [Finset.toList_empty]
  decide +kernel

end RouteTree.Pages
