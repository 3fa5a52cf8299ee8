import RouteTree.Pages.Walk

/-! The walk through a pages tree, case by case. -/
namespace RouteTree.Pages

variable {ws : Workspace} {above : List Location} {dir : Path} {base : String} {here : Location}

theorem walkFrom_error {e : IoError} (h : ws.locate dir = .error e) :
    walkFrom ws above dir base = [skipped dir e] := by
  rw [walkFrom, h]

theorem walkFrom_cycle (h : ws.locate dir = .ok here) (hcycle : here ∈ above) :
    walkFrom ws above dir base = [cycle dir] := by
  rw [walkFrom, h]
  exact dif_pos hcycle

theorem walkFrom_closed {e : IoError} (h : ws.locate dir = .ok here) (hcycle : here ∉ above)
    (hlist : ws.list here = .error e) : walkFrom ws above dir base = [skipped dir e] := by
  rw [walkFrom, h]
  simp only [hcycle, dite_false]
  split
  · next hother =>
    rw [hlist] at hother
    cases hother
    rfl
  · next hother =>
    rw [hlist] at hother
    cases hother

/-- The findings below one name in a directory. `inside` are the directories that the walk is in,
this one included. -/
def walkInto (ws : Workspace) (inside : List Location) (dir : Path) (base name : String) :
    List Finding :=
  if ws.isDirectory (dir.join ⟨name⟩) then
    match DirRule.classify name with
    | .skip => []
    | .transparent => walkFrom ws inside (dir.join ⟨name⟩) base
    | .segment segment => walkFrom ws inside (dir.join ⟨name⟩) (extend base segment)
  else []

theorem walkFrom_directory {names : List String} (h : ws.locate dir = .ok here)
    (hcycle : here ∉ above) (hlist : ws.list here = .ok names) :
    walkFrom ws above dir base =
      pagesOf ws dir base names ++ names.flatMap (walkInto ws (here :: above) dir base) := by
  rw [walkFrom, h]
  simp only [hcycle, dite_false]
  split
  · next hother =>
    rw [hlist] at hother
    cases hother
  · next hother =>
    rw [hlist] at hother
    cases hother
    rfl

theorem mem_routes_iff {raw : RawRoute} {findings : List Finding} :
    raw ∈ routes findings ↔ .route raw ∈ findings := by
  rw [routes, List.mem_filterMap]
  constructor
  · rintro ⟨finding, hmem, heq⟩
    cases finding with
    | route found =>
      cases heq
      exact hmem
    | note entry => cases heq
  · intro h
    exact ⟨.route raw, h, rfl⟩

theorem eq_of_mem_pagesOf {names : List String} {raw : RawRoute}
    (h : .route raw ∈ pagesOf ws dir base names) :
    raw = ⟨"/" ++ base, isCatchallDir ws dir⟩ := by
  simp only [pagesOf] at h
  split at h
  · simp at h
  · simp only [List.mem_append, List.mem_map, reduceCtorEq, and_false, exists_false,
      false_or] at h
    obtain ⟨_, -, heq⟩ := h
    exact (Finding.route.inj heq).symm

theorem rooted_of_mem_walkFrom {raw : RawRoute} (h : .route raw ∈ walkFrom ws above dir base) :
    ∃ rest, raw.path = "/" ++ rest := by
  induction above, dir, base using walkFrom.induct ws with
  | case1 above dir base e hlocate =>
    rw [walkFrom_error hlocate] at h
    simp [skipped] at h
  | case2 above dir base here hlocate hcycle =>
    rw [walkFrom_cycle hlocate hcycle] at h
    simp [cycle] at h
  | case3 above dir base here hlocate hcycle e hlist =>
    rw [walkFrom_closed hlocate hcycle hlist] at h
    simp [skipped] at h
  | case4 above dir base here hlocate hcycle names hlist ihSame ihExtend =>
    rw [walkFrom_directory hlocate hcycle hlist, List.mem_append, List.mem_flatMap] at h
    rcases h with hpage | ⟨name, -, hbelow⟩
    · exact ⟨base, by rw [eq_of_mem_pagesOf hpage]⟩
    · unfold walkInto at hbelow
      split at hbelow
      · split at hbelow
        · simp at hbelow
        · exact ihSame name hbelow
        · exact ihExtend name _ hbelow
      · simp at hbelow

theorem rooted_of_mem_walk {root : Path} {raw : RawRoute} (h : raw ∈ routes (walk ws root)) :
    ∃ rest, raw.path = "/" ++ rest := by
  rw [mem_routes_iff, walk] at h
  split at h
  · exact rooted_of_mem_walkFrom h
  · simp at h

end RouteTree.Pages
