import RouteTree.Config.Diagnostic
import RouteTree.Generator.Basic
import RouteTree.Proofs.Cutting

/-! How the generated file is named in messages. The name is meant to be read from the root, and it
names the file just when the file lies within the root. A file elsewhere is named as if its absolute
path began at the root. -/
namespace RouteTree

namespace Path

variable {p q base : Path} {earlier later : List Span} {span last : Span}

theorem parts_append_slash (s t : String) :
    parts ⟨s ++ "/" ++ t⟩ = parts ⟨s⟩ ++ parts ⟨t⟩ := by
  have htext : (s ++ "/" ++ t).toList = s.toList ++ '/' :: t.toList := by simp
  rw [parts, htext, Text.splitOn_append_sep, List.filterMap_append]
  rfl

/-- The components of a path seen from a directory stand behind those of the directory. -/
theorem components_join (hp : p.isAbsolute) (hq : q.isAbsolute = false) :
    (p.join q).components = p.components ++ q.parts := by
  rw [components_eq_cons_parts (isAbsolute_join hp q), components_eq_cons_parts hp,
    List.cons_append, List.cons.injEq]
  refine ⟨rfl, ?_⟩
  obtain ⟨rest, htext⟩ := exists_toList hp
  have hempty : p.isEmpty = false := by
    rw [isEmpty, ← Bool.not_eq_true, String.isEmpty_iff]
    rintro hnil
    rw [hnil] at htext
    cases htext
  rw [join, if_neg (by simp [hq]), hempty, Bool.false_or]
  split
  · next hslash =>
    obtain ⟨before, hbefore⟩ := List.getLast?_eq_some_iff.1 (of_decide_eq_true hslash)
    have hsplit : p.text = String.ofList before ++ "/" := by
      rw [← String.toList_inj, hbefore]
      simp
    have hself : p.parts = parts ⟨String.ofList before⟩ := by
      have hnothing := parts_append_slash (String.ofList before) ""
      rw [String.append_empty, ← hsplit] at hnothing
      rw [hnothing]
      simp [parts, Component.ofPart?]
    rw [hself, hsplit, parts_append_slash]
  · rw [parts_append_slash]

/-- The text from the start of a component to the end of the last has the components from there
on. -/
theorem parts_slice (h : p.isAbsolute) (hne : earlier ≠ [])
    (hspans : p.spans = earlier ++ span :: later) (hlast : (span :: later).getLast? = some last) :
    (p.slice span.start last.stop).parts = (span :: later).map Span.component := by
  obtain ⟨rest, htext⟩ := exists_toList h
  rw [spans_of_toList htext] at hspans
  cases earlier with
  | nil => exact absurd rfl hne
  | cons root earlier =>
    obtain ⟨rfl, hrest⟩ := List.cons.inj hspans
    obtain ⟨before, part, after, rfl, hcut⟩ := exists_cut hrest
    obtain ⟨others, hothers⟩ := List.getLast?_eq_some_iff.1 hlast
    obtain ⟨inner, ending, none, hsplit, hend⟩ := exists_cut (hothers ▸ hcut.onward)
    have hslice : (p.slice span.start last.stop).text.toList = inner ++ ending := by
      have htext' : p.text.toList = '/' :: before ++ (inner ++ ending) ++ none := by
        rw [htext, List.append_assoc, hsplit]
        simp
      have hstart : span.start = ('/' :: before).length := by
        rw [hcut.start, List.length_cons, Nat.add_comm]
      have hstop : last.stop = ('/' :: before ++ (inner ++ ending)).length := by
        rw [hend.stop, hstart, List.length_append, List.length_append, Nat.add_assoc]
      rw [slice, htext', hstop, List.take_left, hstart, List.drop_left, String.toList_ofList]
    rw [parts, hslice, hothers, ← hend.upTo, map_component_spansFrom _ _ List.not_mem_nil]
    rfl

theorem spansAfter?_eq_some_iff {components : List Component} {spans rest : List Span} :
    spansAfter? components spans = some rest ↔
      ∃ earlier, spans = earlier ++ rest ∧ earlier.map Span.component = components := by
  induction components generalizing spans with
  | nil =>
    simp only [spansAfter?, Option.some.injEq, List.map_eq_nil_iff]
    exact ⟨fun h => ⟨[], h, rfl⟩, fun ⟨_, h, hnil⟩ => by rw [h, hnil, List.nil_append]⟩
  | cons c components ih =>
    cases spans with
    | nil =>
      simp only [spansAfter?, reduceCtorEq, false_iff]
      rintro ⟨earlier, hnil, hcomponents⟩
      rw [(List.append_eq_nil_iff.1 hnil.symm).1] at hcomponents
      cases hcomponents
    | cons span spans =>
      have hcons : (∃ earlier, span :: spans = earlier ++ rest ∧
            earlier.map Span.component = c :: components) ↔
          c = span.component ∧
            ∃ earlier, spans = earlier ++ rest ∧ earlier.map Span.component = components := by
        constructor
        · rintro ⟨earlier, hspans, hcomponents⟩
          obtain ⟨first, earlier, rfl, rfl, rfl⟩ := List.map_eq_cons_iff.1 hcomponents
          obtain ⟨rfl, rfl⟩ := List.cons.inj hspans
          exact ⟨rfl, earlier, rfl, rfl⟩
        · rintro ⟨rfl, earlier, rfl, rfl⟩
          exact ⟨span :: earlier, rfl, rfl⟩
      rw [hcons, spansAfter?, ← ih]
      split
      · next hc => simp [hc]
      · next hc => simp [hc]

theorem exists_stripBase?_of_prefix (h : base.components <+: p.components) :
    ∃ q, base.stripBase? p = some q := by
  obtain ⟨behind, hbehind⟩ := h
  obtain ⟨earlier, rest, hspans, hearlier, -⟩ := List.map_eq_append_iff.1 hbehind.symm
  have hrest := spansAfter?_eq_some_iff.2 ⟨earlier, hspans, hearlier⟩
  exact ⟨_, by rw [stripBase?, hrest, Option.map_some]⟩

theorem components_of_stripBase? (hbase : base.isAbsolute) (hp : p.isAbsolute)
    (h : base.stripBase? p = some q) : p.components = base.components ++ q.parts := by
  obtain ⟨rest, hrest, rfl⟩ := Option.map_eq_some_iff.1 h
  obtain ⟨earlier, hspans, hcomponents⟩ := spansAfter?_eq_some_iff.1 hrest
  have hne : earlier ≠ [] := by
    rintro rfl
    rw [components_eq_cons_parts hbase] at hcomponents
    cases hcomponents
  rw [components, hspans, List.map_append, hcomponents, List.append_cancel_left_eq]
  cases rest with
  | nil => rfl
  | cons first rest =>
    obtain ⟨last, hlast⟩ : ∃ last, (first :: rest).getLast? = some last :=
      ⟨_, List.getLast?_eq_some_getLast (List.cons_ne_nil first rest)⟩
    simp only [hlast, Option.elim_some]
    exact (parts_slice hp hne hspans hlast).symm

theorem parts_dot_slash (s : String) : (⟨"./" ++ s⟩ : Path).isAbsolute = false ∧
    parts ⟨"./" ++ s⟩ = parts ⟨s⟩ := by
  have hdot : "./" ++ s = "." ++ "/" ++ s := rfl
  refine ⟨by simp [isAbsolute], ?_⟩
  rw [hdot, parts_append_slash]
  rfl

end Path

namespace Project

variable {project : Project}

theorem components_join_displayPath (hroot : project.root.isAbsolute)
    (houtput : project.output.isAbsolute) :
    (project.root.join ⟨project.displayPath⟩).components =
      if project.root.components <+: project.output.components then project.output.components
      else project.root.components ++ project.output.components.tail := by
  obtain ⟨hrelative, hparts⟩ := Path.parts_dot_slash (project.relative project.output).text
  rw [displayPath, Path.components_join hroot hrelative, hparts, relative]
  split
  · next hwithin =>
    obtain ⟨q, hq⟩ := Path.exists_stripBase?_of_prefix hwithin
    rw [hq, Option.getD_some, Path.components_of_stripBase? hroot houtput hq]
  · next helsewhere =>
    cases hq : Path.stripBase? project.root project.output with
    | none =>
      rw [Option.getD_none, Path.components_eq_cons_parts houtput, List.tail_cons]
    | some q =>
      exact absurd ⟨_, (Path.components_of_stripBase? hroot houtput hq).symm⟩ helsewhere

/-- Unless another path is set, the generated file is put behind the root. -/
theorem prefix_outputPath {ws : Workspace} {root : Path} {settings : Settings}
    (hroot : root.isAbsolute)
    (hrelative : ∀ path ∈ settings.output.path, path.isAbsolute = false) :
    root.components <+: (outputPath ws root settings).components := by
  have hbehind {dir p : Path} (hdir : dir.isAbsolute) (hp : p.isAbsolute = false) :
      dir.components <+: (dir.join p).components :=
    ⟨p.parts, (Path.components_join hdir hp).symm⟩
  unfold outputPath
  split
  · next path hpath => exact hbehind hroot (hrelative path hpath)
  · dsimp only
    split
    · exact (hbehind hroot (by decide)).trans
        (hbehind (Path.isAbsolute_join hroot _) (by decide))
    · exact hbehind hroot (by decide)

/-- Read from the root, the name that messages give the generated file means that file just when the
file lies within the root. Elsewhere it means a file of the same names behind the root. A file that
is not there yet lies within the root, whatever double dots lead to it, unless its path is set to
one that is absolute. -/
theorem display_names_output_iff (ws : Workspace) (config root : Path) (settings : Settings) :
    let project := resolve ws config root settings
    let generator := Generator.ofProject project
    let named := project.root.join ⟨generator.displayPath⟩
    (named.same generator.output ↔ project.root.components <+: generator.output.components) ∧
    (named.same generator.output = false →
      named.components = project.root.components ++ generator.output.components.tail) ∧
    ((∀ path ∈ settings.output.path, path.isAbsolute = false) →
      ∀ e, ws.locate (outputPath ws project.root settings) = .error e →
        named.same generator.output) := by
  intro project generator named
  have hroot : project.root.isAbsolute := ws.isAbsolute_normalize root
  have hnamed : named.components = _ :=
    components_join_displayPath hroot (ws.isAbsolute_normalize _)
  have hsame : named.same generator.output ↔
      project.root.components <+: generator.output.components := by
    rw [Path.same, decide_eq_true_eq, hnamed]
    split
    · next hwithin => exact iff_of_true rfl hwithin
    · next helsewhere => exact iff_of_false (fun heq => helsewhere ⟨_, heq⟩) helsewhere
  refine ⟨hsame, fun hother => ?_, fun hrelative e hmissing => hsame.2 ?_⟩
  · have helsewhere := mt hsame.2 (Bool.eq_false_iff.1 hother)
    exact hnamed.trans (if_neg helsewhere)
  · have houtput : generator.output = outputPath ws project.root settings := by
      show ws.normalize (outputPath ws project.root settings) = _
      rw [Workspace.normalize, hmissing]
      exact if_pos (isAbsolute_outputPath ws hroot settings)
    rw [houtput]
    exact prefix_outputPath hroot hrelative

/-- A path set above the root, to a file that is not there yet. -/
theorem display_names_output_iff_above :
    let ws : Workspace := ⟨.empty, [], [], []⟩
    let settings : Settings := { output := { path := some ⟨"../lib//gen.ts"⟩ } }
    let project := resolve ws ⟨"/app/routegen.toml"⟩ ⟨"/app"⟩ settings
    let generator := Generator.ofProject project
    Config.check settings = [] ∧ generator.displayPath = "./../lib//gen.ts" ∧
    (∀ path ∈ settings.output.path, path.isAbsolute = false) ∧
    ws.locate (outputPath ws project.root settings) = .error .notFound ∧
    (project.root.join ⟨generator.displayPath⟩).same generator.output := by
  intro ws settings project generator
  have hrelative : ∀ path ∈ settings.output.path, path.isAbsolute = false := by decide +kernel
  have hmissing : ws.locate (outputPath ws project.root settings) = .error .notFound := by
    decide +kernel
  obtain ⟨-, -, hnamed⟩ := display_names_output_iff ws ⟨"/app/routegen.toml"⟩ ⟨"/app"⟩ settings
  exact ⟨by decide +kernel, by decide +kernel, hrelative, hmissing, hnamed hrelative _ hmissing⟩

/-- A file set elsewhere is named as if it lay within the root. -/
theorem display_names_other_file :
    let settings : Settings := { output := { path := some ⟨"/elsewhere/x.ts"⟩ } }
    let project := resolve ⟨.empty, [], [], []⟩ ⟨"/project/routegen.toml"⟩ ⟨"/project"⟩ settings
    let generator := Generator.ofProject project
    let named := project.root.join ⟨generator.displayPath⟩
    Config.check settings = [] ∧ (⟨"/project"⟩ : Path).isAbsolute ∧
    generator.output = ⟨"/elsewhere/x.ts"⟩ ∧ generator.displayPath = ".//elsewhere/x.ts" ∧
    named.same ⟨"/project/elsewhere/x.ts"⟩ ∧ named.same generator.output = false := by
  decide +kernel

end Project

end RouteTree
