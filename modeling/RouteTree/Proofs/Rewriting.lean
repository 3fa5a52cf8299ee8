import RouteTree.Proofs.Directories
import RouteTree.Proofs.Parents

/-! Writing a file again. Once a text has been put into a file, the directories are there and the
path leads to the file, so the next text goes to the same place and nothing else changes. This is
so under the canonical path of the file as well. -/
namespace RouteTree

namespace Artifact

variable {ws after : Workspace} {p : Path} {loc : Location} {text : String}

/-- A text that is put into a file goes to the location, and no directory has to be made for it. -/
structure IsReady (ws : Workspace) (p : Path) (loc : Location) : Prop where
  directory : ∀ dir, directoryOf? p = some dir → ws.isDirectory dir
  place : ws.writeLocation p = .ok loc
  unlocked : ws.locked.contains loc = false

def written (ws : Workspace) (loc : Location) (text : String) : Workspace :=
  { ws with files := ws.files.insert loc (.file text.toUTF8) }

theorem putText_of_isReady (h : IsReady ws p loc) (text : String) :
    putText ws p text = (written ws loc text, .ok ()) := by
  unfold putText Workspace.write
  rw [h.place]
  simp only [bind, Except.bind, h.unlocked]
  rfl

theorem put_eq_putText (hplain : ws.files.IsPlain)
    (h : ∀ dir, directoryOf? p = some dir → ws.isDirectory dir) (text : String) :
    put ws p text = putText ws p text := by
  unfold put
  cases hdirectory : directoryOf? p with
  | none => rfl
  | some dir =>
    have hmake : ws.makeDirectories dir = (ws, .ok ()) :=
      Workspace.makeAll_of_isDirectory hplain (h dir hdirectory) _
    simp only [hmake]

theorem put_of_isReady (hplain : ws.files.IsPlain) (h : IsReady ws p loc) (text : String) :
    put ws p text = (written ws loc text, .ok ()) :=
  (put_eq_putText hplain h.directory text).trans (putText_of_isReady h text)

theorem locate_of_isReady (h : IsReady ws p loc) {content : ByteArray}
    (hfile : ws.files.node? loc = some (.file content)) : ws.locate p = .ok loc := by
  have hplace := h.place
  unfold Workspace.writeLocation at hplace
  cases haccept : p.accept with
  | error e =>
    rw [haccept] at hplace
    cases hplace
  | ok =>
    rw [haccept] at hplace
    simp only [bind, Except.bind] at hplace
    have hlookup := FileTree.lookup_of_lookupPlace (FileTree.grows_refl _) hfile hplace
    rw [FileTree.writeSteps_eq_steps hplace] at hlookup
    exact (Workspace.locate_of_accept haccept).trans hlookup

/-- A text that was put into a file was put there after the directories had been made. -/
theorem exists_isReady_of_put (hplain : ws.files.IsPlain) (h : put ws p text = (after, .ok ())) :
    ∃ files loc, ws.files.AddsDirectories files ∧ files.IsPlain ∧
      IsReady { ws with files } p loc ∧ after = written { ws with files } loc text := by
  have hputText {before : Workspace}
      (hdirectory : ∀ dir, directoryOf? p = some dir → before.isDirectory dir)
      (h : putText before p text = (after, .ok ())) :
      ∃ loc, IsReady before p loc ∧ after = written before loc text := by
    obtain ⟨e, herror⟩ | ⟨loc, hplace, hunlocked, hok⟩ := putText_cases before p text
    · rw [herror] at h
      cases h
    · rw [hok] at h
      exact ⟨loc, ⟨hdirectory, hplace, hunlocked⟩, (Prod.mk.inj h).1.symm⟩
  unfold put at h
  cases hdirectory : directoryOf? p with
  | none =>
    rw [hdirectory] at h
    obtain ⟨loc, hready, hafter⟩ := hputText (by simp [hdirectory]) h
    exact ⟨ws.files, loc, .refl _, hplain, hready, hafter⟩
  | some dir =>
    rw [hdirectory] at h
    have hne : dir.isEmpty = false := by
      have hfilter := (Option.filter_eq_some_iff.1 hdirectory).2
      simpa using hfilter
    obtain ⟨files, hadds, hfiles⟩ := ws.exists_addsDirectories_makeAll dir.ancestors
    have hplain' := Workspace.isPlain_makeAll hplain dir.ancestors
    rw [hfiles] at hplain'
    cases hmake : ws.makeDirectories dir with
    | mk made result =>
      simp only [hmake] at h
      cases result with
      | error e => cases h
      | ok =>
        have hmade : made = { ws with files } := by
          rw [← hfiles, ← Workspace.makeDirectories, hmake]
        have hthere : made.isDirectory dir := Workspace.isDirectory_makeAll hplain hne hmake
        subst hmade
        obtain ⟨loc, hready, hafter⟩ := hputText
          (fun other hother => Option.some.inj (hdirectory.symm.trans hother) ▸ hthere) h
        exact ⟨files, loc, hadds, hplain', hready, hafter⟩

section Again

variable (hplain : ws.files.IsPlain) (h : IsReady ws p loc)

include hplain h

theorem exists_hasRoom : ∃ name dir, loc = name :: dir ∧ p.names.getLast? = some name ∧
    IsNodeName name ∧ ws.files.HasRoom dir name := by
  obtain ⟨-, before, name, dir, hsteps, -, hroom, rfl⟩ :=
    (Workspace.writeLocation_eq_ok_iff hplain).1 h.place
  have hlast : p.names.getLast? = some name := by
    rw [Path.writeSteps] at hsteps
    split at hsteps
    · obtain ⟨-, hdot⟩ := List.append_inj' hsteps rfl
      exact absurd (List.cons.inj hdot).1.symm hroom.ne_dot
    · rw [hsteps, List.getLast?_concat]
  obtain ⟨hne, hslash⟩ := Text.piece_of_mem_pieces (List.mem_of_getLast? hlast)
  exact ⟨name, dir, rfl, hlast, ⟨hne, hslash, hroom.ne_dot, hroom.ne_up⟩, hroom⟩

theorem grows_written (text : String) : ws.files.Grows (written ws loc text).files := by
  obtain ⟨name, dir, rfl, -, -, hroom⟩ := exists_hasRoom hplain h
  exact FileTree.grows_insert_file _ hroom.isPlace

theorem isPlain_written (text : String) : (written ws loc text).files.IsPlain := by
  have hgrows := grows_written hplain h text
  obtain ⟨name, dir, rfl, -, hname, hroom⟩ := exists_hasRoom hplain h
  exact hplain.insert hroom.directory hname (by simp) hgrows

theorem node?_written (text : String) :
    (written ws loc text).files.node? loc = some (.file text.toUTF8) := by
  obtain ⟨name, dir, rfl, -⟩ := exists_hasRoom hplain h
  exact FileTree.node?_insert_self _ (List.cons_ne_nil name dir)

/-- The next text goes to the same place. -/
theorem isReady_written (text : String) : IsReady (written ws loc text) p loc := by
  have hgrows := grows_written hplain h text
  have hfile := node?_written hplain h text
  refine ⟨fun dir hdir => Workspace.isDirectory_of_grows hgrows (h.directory dir hdir), ?_,
    h.unlocked⟩
  obtain ⟨haccept, before, name, dir, hsteps, hlookup, hroom, rfl⟩ :=
    (Workspace.writeLocation_eq_ok_iff hplain).1 h.place
  exact (Workspace.writeLocation_eq_ok_iff (isPlain_written hplain h text)).2
    ⟨haccept, before, name, dir, hsteps, FileTree.lookup_of_grows hgrows hlookup,
      ⟨hgrows.directory hroom.directory, hroom.ne_dot, hroom.ne_up, hroom.size,
        .inr ⟨_, hfile⟩⟩, rfl⟩

/-- The same text again makes no difference. -/
theorem sameFiles_written (hfile : ws.files.node? loc = some (.file text.toUTF8)) :
    (written ws loc text).SameFiles ws := by
  refine ⟨fun there => ?_, rfl, fun _ => Iff.rfl⟩
  by_cases hthere : there = loc
  · rw [hthere, node?_written hplain h text, hfile]
  · exact FileTree.node?_insert_of_ne _ hthere

end Again

/-- Once the file is there, its canonical path leads to the same place. -/
theorem isReady_path (hplain : ws.files.IsPlain) (h : IsReady ws p loc)
    (habs : p.isAbsolute) (hlocate : ws.locate p = .ok loc) : IsReady ws loc.path loc := by
  have hreal := Workspace.isReal_of_locate habs hlocate
  have haccept := Workspace.accept_path_of_locate hplain habs hlocate
  obtain ⟨name, dir, rfl, -, hname, hroom⟩ := exists_hasRoom hplain h
  have hdir : ws.files.IsReal dir := hreal.tail
  refine ⟨fun other hother => ?_, ?_, h.unlocked⟩
  · rw [directoryOf?, Location.parent?_path hreal.isClean, Option.filter_eq_some_iff] at hother
    obtain rfl : Location.path dir = other := Option.some.inj hother.1
    have haccept' : (Location.path dir).accept = .ok () := by
      cases dir with
      | nil => rfl
      | cons first dir =>
        rw [Location.path_cons_cons, String.append_assoc] at haccept
        exact Path.accept_of_append (Location.text_path_ne_empty _) haccept
    exact Workspace.isDirectory_iff.2
      ⟨dir, Workspace.locate_path hdir haccept', hroom.directory⟩
  · rw [Workspace.writeLocation_eq_ok_iff hplain]
    have hsteps : (Location.path (name :: dir)).writeSteps = dir.reverse ++ [name] := by
      rw [Location.writeSteps_path hreal.isClean (List.cons_ne_nil _ _), List.reverse_cons]
    refine ⟨haccept, dir.reverse, name, dir, hsteps, ?_, hroom, rfl⟩
    rw [Workspace.start, if_pos (Location.isAbsolute_path _), linkLimit, FileTree.lookup]
    have hfollow : ws.files.follow (ws.files.lookup 39) [] (dir.reverse ++ []) = .ok dir :=
      FileTree.follow_reverse hdir []
    rwa [List.append_nil] at hfollow

end Artifact

end RouteTree
