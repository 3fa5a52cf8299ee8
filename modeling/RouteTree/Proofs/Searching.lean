import RouteTree.Config.Loading
import RouteTree.Proofs.Cutting
import RouteTree.Proofs.Lookup

/-! The search for the settings file goes up from the start directory, one component at a time, and
ends at the root at the latest. It stops at the first directory in which the name leads to a file; a
directory of that name is passed by. -/
namespace RouteTree

namespace Path

/-- The directory that many levels above. -/
def above : Nat → Path → Option Path
  | 0, p => some p
  | n + 1, p => p.parent?.bind (above n)

variable {p dir : Path}

theorem above_eq_getElem? (h : p.isAbsolute) (n : Nat) : p.above n = p.ancestors[n]? := by
  induction n generalizing p with
  | zero => simp [above, ancestors_of_isAbsolute h]
  | succ n ih =>
    rcases parent?_cases h with ⟨hparent, hancestors, -⟩ | ⟨dir, hparent, hancestors, hdir, -⟩
    · simp [above, hparent, hancestors]
    · simp [above, hparent, hancestors, ih hdir]

theorem isAbsolute_above (h : p.isAbsolute) {n : Nat} (hdir : p.above n = some dir) :
    dir.isAbsolute := by
  induction n generalizing p with
  | zero => rwa [← Option.some.inj hdir]
  | succ n ih =>
    rcases parent?_cases h with ⟨hparent, -⟩ | ⟨parent, hparent, -, habs, -⟩
    · simp [above, hparent] at hdir
    · rw [above, hparent, Option.bind_some] at hdir
      exact ih habs hdir

theorem map_components_above (h : p.isAbsolute) (n : Nat) :
    (p.above n).map components =
      if n < p.components.length then some (p.components.take (p.components.length - n))
      else none := by
  induction n generalizing p with
  | zero =>
    have hpos : 0 < p.components.length := by
      rcases parent?_cases h with ⟨-, -, hroot⟩ | ⟨dir, -, -, -, last, hlast⟩
      · simp [hroot]
      · simp [hlast]
    simp [above, hpos]
  | succ n ih =>
    rcases parent?_cases h with ⟨hparent, -, hroot⟩ | ⟨dir, hparent, -, hdir, last, hlast⟩
    · simp [above, hparent, hroot]
    · rw [above, hparent, Option.bind_some, ih hdir, hlast, List.length_append]
      have hlength : dir.components.length + 1 - (n + 1) = dir.components.length - n := by omega
      simp [hlength, List.take_append_of_le_length]

end Path

namespace Config

variable {ws : Workspace} {name start dir : Path}

theorem find?_eq_find? (hname : name.isAbsolute = false) :
    find? ws name start = (start.ancestors.map fun dir => dir.join name).find? ws.isFile := by
  rw [find?, if_neg (by simp [hname])]

/-- The search looks at the start directory first, and then searches from its parent. -/
theorem find?_step (hname : name.isAbsolute = false) (hstart : start.isAbsolute) :
    find? ws name start = if ws.isFile (start.join name) then some (start.join name)
      else start.parent?.bind (find? ws name) := by
  rw [find?_eq_find? hname]
  rcases Path.parent?_cases hstart with ⟨hparent, hancestors, -⟩ | ⟨dir, hparent, hancestors, -⟩
  · rw [hparent, hancestors, List.map_singleton, List.find?_singleton]
    rfl
  · rw [hparent, hancestors, List.map_cons, List.find?_cons, Option.bind_some, find?_eq_find? hname]
    cases ws.isFile (start.join name) <;> rfl

theorem isFile_eq_false_of_isDirectory {p : Path} (h : ws.isDirectory p) : ws.isFile p = false := by
  obtain ⟨loc, hlocate, hdir⟩ := Workspace.isDirectory_iff.1 h
  rw [Workspace.isFile, Workspace.node?_eq_some_iff.2 ⟨loc, hlocate, hdir⟩]

theorem find?_eq_none_iff (hname : name.isAbsolute = false) (hstart : start.isAbsolute) :
    find? ws name start = none ↔
      ∀ n dir, start.above n = some dir → ws.isFile (dir.join name) = false := by
  simp only [find?_eq_find? hname, List.find?_eq_none, Path.above_eq_getElem? hstart]
  constructor
  · intro hnone n dir hdir
    have hjoin := hnone _ (List.mem_map_of_mem (List.mem_of_getElem? hdir))
    simpa using hjoin
  · intro hnone file hfile
    obtain ⟨dir, hdir, rfl⟩ := List.mem_map.1 hfile
    obtain ⟨n, hn⟩ := List.mem_iff_getElem?.1 hdir
    simp [hnone n dir hn]

theorem find?_eq_some_iff {file : Path} (hname : name.isAbsolute = false)
    (hstart : start.isAbsolute) :
    find? ws name start = some file ↔
      ∃ n dir, start.above n = some dir ∧ dir.join name = file ∧ ws.isFile file ∧
        ∀ m < n, ∀ lower, start.above m = some lower → ws.isFile (lower.join name) = false := by
  simp only [find?_eq_find? hname, List.find?_eq_some_iff_getElem, Path.above_eq_getElem? hstart,
    List.getElem?_eq_some_iff]
  constructor
  · rintro ⟨hfile, n, hn, hjoin, hbefore⟩
    rw [List.length_map] at hn
    refine ⟨n, _, ⟨hn, rfl⟩, by simpa using hjoin, hfile, ?_⟩
    rintro m hm lower ⟨-, rfl⟩
    simpa using hbefore m hm
  · rintro ⟨n, dir, ⟨hn, rfl⟩, rfl, hfile, hbefore⟩
    refine ⟨hfile, n, by simpa using hn, by simp, fun m hm => ?_⟩
    simpa using hbefore m hm _ ⟨Nat.lt_trans hm hn, rfl⟩

/-- What is found is where the name leads to a file from the nearest directory on the way up;
nothing is found if there is none up to the root; and a directory of that name does not end the
search. -/
theorem find?_nearest (hname : name.isAbsolute = false) (hstart : start.isAbsolute) :
    (∀ file, find? ws name start = some file ↔
      ∃ n dir, start.above n = some dir ∧ dir.join name = file ∧ ws.isFile file ∧
        ∀ m < n, ∀ lower, start.above m = some lower → ws.isFile (lower.join name) = false) ∧
    (find? ws name start = none ↔
      ∀ n dir, start.above n = some dir → ws.isFile (dir.join name) = false) ∧
    (∀ n, (start.above n).map Path.components =
      if n < start.components.length then
        some (start.components.take (start.components.length - n))
      else none) ∧
    ∀ n dir, start.above n = some dir → ws.isDirectory (dir.join name) →
      find? ws name dir = dir.parent?.bind (find? ws name) := by
  refine ⟨fun file => find?_eq_some_iff hname hstart, find?_eq_none_iff hname hstart,
    Path.map_components_above hstart, fun n dir hdir hlike => ?_⟩
  rw [find?_step hname (Path.isAbsolute_above hstart hdir), isFile_eq_false_of_isDirectory hlike]
  rfl

/-- Files with a settings file at the root, and a directory of its name further in. -/
def lookAlike : Workspace where
  files := ((FileTree.empty.insert ["routegen.toml"] (.file "".toUTF8)).insert ["app"] .directory)
    |>.insert ["routegen.toml", "app"] .directory |>.insert ["pages", "app"] .directory
  cwd := ["pages", "app"]

/-- The search passes by the directory, and ends at the root where there is no file. -/
theorem find?_nearest_lookAlike :
    let start : Path := ⟨"/app/./pages//"⟩
    find? lookAlike ⟨"routegen.toml"⟩ start = some ⟨"/routegen.toml"⟩ ∧
    find? lookAlike ⟨"other.toml"⟩ start = none ∧
    start.above 1 = some ⟨"/app"⟩ ∧ lookAlike.isDirectory ⟨"/app/routegen.toml"⟩ ∧
    find? lookAlike ⟨"routegen.toml"⟩ ⟨"/app"⟩ =
      (⟨"/app"⟩ : Path).parent?.bind (find? lookAlike ⟨"routegen.toml"⟩) := by
  intro start
  have hstart : start.isAbsolute := by decide +kernel
  have hname : (⟨"routegen.toml"⟩ : Path).isAbsolute = false := by decide +kernel
  have habove : start.above 1 = some ⟨"/app"⟩ := by decide +kernel
  have hlike : lookAlike.isDirectory ⟨"/app/routegen.toml"⟩ := by decide +kernel
  have hbefore : ∀ m < 2, (start.above m).all fun lower =>
      lookAlike.isFile (lower.join ⟨"routegen.toml"⟩) = false := by decide +kernel
  obtain ⟨hsome, -, -, hpassed⟩ := @find?_nearest lookAlike _ _ hname hstart
  refine ⟨(hsome _).2 ⟨2, ⟨"/"⟩, by decide +kernel, by decide +kernel, by decide +kernel, ?_⟩,
    by decide +kernel, habove, hlike, hpassed 1 _ habove hlike⟩
  intro m hm lower hlower
  simpa [hlower] using hbefore m hm

end Config

end RouteTree
