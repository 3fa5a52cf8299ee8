import RouteTree.Proofs.PlainTrees

/-! Directories in a tree without links. Making one brings in no link, what was to be made is there
afterwards, and a directory that is there is not made again. A file is written where all names of
the path but the last lead to, under the last one. -/
namespace RouteTree

namespace Workspace

variable {ws : Workspace} {p : Path} {here loc : Location} {name : String}

theorem parentAndName_eq_ok {start : Location} (h : ws.parentAndName start p = .ok (here, name)) :
    p.accept = .ok () ∧ p.names = p.names.dropLast ++ [name] ∧
      ws.files.lookup linkLimit start p.names.dropLast = .ok here ∧
      ws.files.node? here = some .directory := by
  unfold parentAndName at h
  cases haccept : p.accept with
  | error e =>
    rw [haccept] at h
    cases h
  | ok =>
    rw [haccept] at h
    simp only [bind, Except.bind] at h
    split at h
    · cases h
    · next last hlast =>
      split at h
      · cases h
      · next dir hdir =>
        split at h
        · cases h
        · split at h
          · next hnode =>
            cases h
            exact ⟨rfl, (List.dropLast_append_getLast? _ hlast).symm, hdir, hnode⟩
          · cases h

section Making

variable {made : Workspace} (hplain : ws.files.IsPlain) (h : ws.makeDirectory p = .ok made)

include hplain h

theorem isPlain_makeDirectory : made.files.IsPlain := by
  obtain ⟨here, name, hparent, hdot, hup, hfree, rfl⟩ := makeDirectory_eq_ok h
  obtain ⟨-, hnames, -, hhere⟩ := parentAndName_eq_ok hparent
  have hmem : name ∈ Text.pieces p.text := by
    rw [← Path.names, hnames]
    simp
  have hpiece := Text.piece_of_mem_pieces hmem
  exact hplain.insert hhere ⟨hpiece.1, hpiece.2, hdot, hup⟩ (by simp)
    (FileTree.grows_insert_free _ hfree)

theorem isDirectory_makeDirectory : made.isDirectory p := by
  have hplain' := isPlain_makeDirectory hplain h
  have hgrows := grows_of_makeDirectory h
  obtain ⟨here, name, hparent, hdot, hup, hfree, hmade⟩ := makeDirectory_eq_ok h
  obtain ⟨haccept, hnames, hlookup, hhere⟩ := parentAndName_eq_ok hparent
  have hnode : made.files.node? (name :: here) = some .directory := by
    rw [hmade]
    exact FileTree.node?_insert_self _ (List.cons_ne_nil _ _)
  have hturn := (hplain' (name :: here) (by rw [hnode]; rfl)).turn
  have hstart : made.start p = ws.start p := by
    rw [hmade]
    rfl
  have hthere : made.files.lookup linkLimit (made.start p) p.names = .ok (name :: here) := by
    rw [hnames, hplain'.lookup_append, hstart, FileTree.lookup_of_grows hgrows hlookup,
      Except.bind, linkLimit, FileTree.lookup, FileTree.follow, hturn]
    rfl
  exact isDirectory_iff.2 ⟨_, locate_of_lookup_names hplain' haccept hthere hnode, hnode⟩

end Making

theorem makeDirectory_of_isDirectory (hplain : ws.files.IsPlain) (h : ws.isDirectory p) :
    ∃ e, ws.makeDirectory p = .error e ∧ e ≠ .notFound := by
  obtain ⟨here, hlocate, hdir⟩ := isDirectory_iff.1 h
  have haccept := accept_of_locate hlocate
  unfold makeDirectory
  split
  · exact ⟨_, rfl, by simp⟩
  · next hroot =>
    have hnames : p.names ≠ [] := fun hnil => hroot (by
      simp [hnil, Path.isAbsolute_of_names_eq_nil hnil (Path.text_ne_empty_of_accept haccept)])
    have hlast : p.names.getLast? = some (p.names.getLast hnames) :=
      List.getLast?_eq_some_getLast hnames
    have hsplit : p.names = p.names.dropLast ++ [p.names.getLast hnames] :=
      (List.dropLast_append_getLast hnames).symm
    generalize p.names.getLast hnames = name at hlast hsplit
    have hlookup := lookup_names_of_locate hlocate
    rw [hsplit, hplain.lookup_append] at hlookup
    cases hbefore : ws.files.lookup linkLimit (ws.start p) p.names.dropLast with
    | error e =>
      rw [hbefore] at hlookup
      cases hlookup
    | ok dir =>
      rw [hbefore, Except.bind, linkLimit, FileTree.lookup] at hlookup
      obtain ⟨hnode, hname⟩ := hplain.follow_cons_eq_ok hlookup
      have hthere : name = "." ∨ name = ".." ∨ (ws.files.node? (name :: dir)).isSome := by
        rcases hname with ⟨hdot, -⟩ | ⟨hup, -⟩ | ⟨-, -, hreal, -⟩
        · exact .inl hdot
        · exact .inr (.inl hup)
        · exact .inr (.inr hreal.isSome)
      simp only [parentAndName, haccept, hlast, hbefore, hnode, bind, Except.bind]
      by_cases hsize : name.utf8ByteSize > FileTree.nameLimit
      · exact ⟨.nameTooLong, by simp [hsize], by simp⟩
      · refine ⟨.alreadyExists, ?_, by simp⟩
        simp only [hsize, if_false]
        rw [if_pos (by simpa [or_assoc] using hthere)]

theorem makeAll_of_isDirectory (hplain : ws.files.IsPlain) (h : ws.isDirectory p)
    (above : List Path) : ws.makeAll (p :: above) = (ws, .ok ()) := by
  obtain ⟨e, he, hne⟩ := makeDirectory_of_isDirectory hplain h
  rw [makeAll]
  split
  · rfl
  · rw [he]
    cases e <;> simp_all

theorem isPlain_makeAll (hplain : ws.files.IsPlain) (paths : List Path) :
    (ws.makeAll paths).1.files.IsPlain :=
  makeAll_induction (motive := fun made => made.files.IsPlain) isPlain_makeDirectory hplain paths

/-- What was to be made is there afterwards. -/
theorem isDirectory_makeAll (hplain : ws.files.IsPlain) {above : List Path} {after : Workspace}
    (hp : p.isEmpty = false) (h : ws.makeAll (p :: above) = (after, .ok ())) :
    after.isDirectory p := by
  have hthere {before : Workspace} {e : IoError}
      (h : (before, if before.isDirectory p then .ok () else .error e) =
        ((after, .ok ()) : Workspace × Except IoError Unit)) : after.isDirectory p := by
    obtain ⟨rfl, hresult⟩ := Prod.mk.inj h
    split at hresult
    · assumption
    · cases hresult
  rw [makeAll, if_neg (by simp [hp])] at h
  split at h
  · next made hmade =>
    cases h
    exact isDirectory_makeDirectory hplain hmade
  · have habove := isPlain_makeAll hplain above
    split at h
    · cases h
    · next between hbetween =>
      rw [hbetween] at habove
      split at h
      · next made hmade =>
        cases h
        exact isDirectory_makeDirectory habove hmade
      · exact hthere h
  · exact hthere h

theorem isDirectory_of_grows {files : FileTree} (hgrows : ws.files.Grows files)
    (h : ws.isDirectory p) : ({ ws with files } : Workspace).isDirectory p := by
  obtain ⟨here, hlocate, hdir⟩ := isDirectory_iff.1 h
  exact isDirectory_iff.2 ⟨here, locate_of_grows hgrows hlocate, hgrows.directory hdir⟩

theorem writeLocation_eq_ok_iff (hplain : ws.files.IsPlain) : ws.writeLocation p = .ok loc ↔
    p.accept = .ok () ∧ ∃ before name here, p.writeSteps = before ++ [name] ∧
      ws.files.lookup linkLimit (ws.start p) before = .ok here ∧ ws.files.HasRoom here name ∧
      loc = name :: here := by
  have hsteps : ws.files.lookupPlace linkLimit (ws.start p) p.writeSteps = .ok loc ↔
      ∃ before name here, p.writeSteps = before ++ [name] ∧
        ws.files.lookup linkLimit (ws.start p) before = .ok here ∧ ws.files.HasRoom here name ∧
        loc = name :: here := by
    rcases List.eq_nil_or_concat p.writeSteps with hnil | ⟨before, name, hlast⟩
    · simp [hnil, FileTree.lookupPlace_nil]
    · rw [List.concat_eq_append] at hlast
      rw [hlast, hplain.lookupPlace_append_eq_ok_iff]
      constructor
      · rintro ⟨here, hhere⟩
        exact ⟨before, name, here, rfl, hhere⟩
      · rintro ⟨other, name', here, hother, hhere⟩
        obtain ⟨rfl, hname⟩ := List.append_inj' hother rfl
        cases hname
        exact ⟨here, hhere⟩
  rw [← hsteps, writeLocation]
  cases p.accept with
  | error e => simp [bind, Except.bind]
  | ok => simp [bind, Except.bind]

end Workspace

end RouteTree
