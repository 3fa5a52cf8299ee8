import RouteTree.Generator.Basic
import RouteTree.Proofs.Quoting
import RouteTree.Proofs.Writing

/-! What a pass can do. It writes nothing, or the module for a table, which it then remembers; when
the module cannot be written it remembers what it did before. -/
namespace RouteTree

namespace Workspace

theorem isOk_write_congr (ws : Workspace) (p : Path) (content content' : ByteArray) :
    (ws.write p content).isOk = (ws.write p content').isOk := by
  unfold write
  cases ws.writeLocation p with
  | error e => rfl
  | ok loc =>
    simp only [bind, Except.bind]
    split <;> rfl

end Workspace

namespace Artifact

/-- Whether a text can be put into a file. -/
def writable (ws : Workspace) (path : Path) : Bool := (put ws path "").2.isOk

private theorem isOk_putText_congr (ws : Workspace) (path : Path) (text text' : String) :
    (putText ws path text).2.isOk = (putText ws path text').2.isOk := by
  have h := ws.isOk_write_congr path text.toUTF8 text'.toUTF8
  unfold putText
  cases hw : ws.write path text.toUTF8 <;> cases hw' : ws.write path text'.toUTF8 <;>
    simp_all [Except.isOk, Except.toBool]

theorem isOk_put (ws : Workspace) (path : Path) (text : String) :
    (put ws path text).2.isOk = writable ws path := by
  unfold writable put
  cases directoryOf? path with
  | none => exact isOk_putText_congr ws path text ""
  | some dir =>
    dsimp only
    split
    · exact isOk_putText_congr _ path text ""
    · rfl

theorem writable_of_put {ws after : Workspace} {path : Path} {text : String}
    {written : Except WriteError Unit} (h : put ws path text = (after, written)) :
    writable ws path = written.isOk := by
  rw [← isOk_put ws path text, h]

end Artifact

namespace Generator

variable {g : Generator} {ws : Workspace}

def passLog (g : Generator) (ws : Workspace) (compare : Bool) : Terminal.Log :=
  (g.source.discover ws).log ++ g.remarks compare (g.source.discover ws).routes

/-- All that a pass can do: nothing, write a table, or fail to write it. -/
theorem pass_cases (g : Generator) (ws : Workspace) (compare : Bool) :
    (∃ outcome, g.plan compare (g.source.discover ws).routes = .rest outcome ∧
      g.pass ws compare = ⟨g, ws, g.passLog ws compare, outcome⟩) ∨
    ∃ table, g.plan compare (g.source.discover ws).routes = .write table ∧
      ((∃ after, Artifact.put ws g.output (Artifact.render table g.importSource) =
          (after, .ok ()) ∧
        g.pass ws compare = ⟨{ g with lastEmitted := some table }, after, g.passLog ws compare,
          .emitted table.length⟩) ∨
      ∃ after e, Artifact.put ws g.output (Artifact.render table g.importSource) =
          (after, .error e) ∧
        g.pass ws compare = ⟨g, after, g.passLog ws compare, .failed e.failure.chain⟩) := by
  simp only [pass]
  cases g.plan compare (g.source.discover ws).routes with
  | rest outcome => exact .inl ⟨outcome, rfl, rfl⟩
  | write table =>
    obtain ⟨⟨after, written⟩, hput⟩ :
        ∃ result, Artifact.put ws g.output (Artifact.render table g.importSource) = result :=
      ⟨_, rfl⟩
    refine .inr ⟨table, rfl, ?_⟩
    simp only [carryOut, Artifact.emit, hput]
    cases written with
    | ok => exact .inl ⟨after, rfl, rfl⟩
    | error e => exact .inr ⟨after, e, rfl, rfl⟩

theorem hasEmitted_iff {table : RouteTable} :
    g.hasEmitted table ↔ g.lastEmitted = some table := by
  unfold hasEmitted
  split
  · next last hlast => rw [decide_eq_true_eq, hlast, Option.some.injEq, RouteTable.toJson_injective.eq_iff]
  · next hlast => simp [hlast]

/-- Nothing is written when the table found is the one that was written last, or when no routes are
found for an error and some table was written before. -/
theorem plan_eq_rest {compare : Bool} {found : Except SourceError (List RawRoute)}
    {outcome : Outcome} (h : g.plan compare found = .rest outcome) :
    (∃ raw, found = .ok raw ∧ g.lastEmitted = some (.ofRaw raw) ∧ outcome = .unchanged) ∨
      ∃ e, found = .error e ∧ g.lastEmitted.isSome ∧ outcome = .failed e.failure.chain := by
  cases found with
  | ok raw =>
    simp only [plan] at h
    split at h
    · next hskip =>
      obtain ⟨-, hemitted⟩ := Bool.and_eq_true_iff.1 hskip
      exact .inl ⟨raw, rfl, hasEmitted_iff.1 hemitted, (Plan.rest.inj h).symm⟩
    · cases h
  | error e =>
    simp only [plan] at h
    split at h
    · next hsome => exact .inr ⟨e, rfl, hsome, (Plan.rest.inj h).symm⟩
    · cases h

theorem plan_eq_write {compare : Bool} {found : Except SourceError (List RawRoute)}
    {table : RouteTable} (h : g.plan compare found = .write table) :
    (∃ raw, found = .ok raw ∧ table = .ofRaw raw) ∨
      ∃ e, found = .error e ∧ g.lastEmitted = none ∧ table = .empty := by
  cases found with
  | ok raw =>
    simp only [plan] at h
    split at h
    · cases h
    · exact .inl ⟨raw, rfl, (Plan.write.inj h).symm⟩
  | error e =>
    simp only [plan] at h
    split at h
    · cases h
    · next hnone => exact .inr ⟨e, rfl, by simpa using hnone, (Plan.write.inj h).symm⟩

/-- A pass that emits has put the module for the table that it remembers into the file. -/
theorem pass_eq_emitted {compare : Bool} {n : Nat}
    (h : (g.pass ws compare).outcome = .emitted n) :
    ∃ table, (g.pass ws compare).generator = { g with lastEmitted := some table } ∧
      Artifact.put ws g.output (Artifact.render table g.importSource) =
        ((g.pass ws compare).workspace, .ok ()) := by
  obtain ⟨outcome, hplan, hpass⟩ | ⟨table, -, ⟨after, hput, hpass⟩ | ⟨after, e, -, hpass⟩⟩ :=
    g.pass_cases ws compare
  · rw [hpass] at h
    obtain ⟨raw, -, -, rfl⟩ | ⟨e, -, -, rfl⟩ := plan_eq_rest hplan
    · cases h
    · cases h
  · rw [hpass]
    exact ⟨table, rfl, hput⟩
  · rw [hpass] at h
    cases h

theorem outcome_pass_ne_ignored (g : Generator) (ws : Workspace) (compare : Bool) :
    (g.pass ws compare).outcome ≠ .ignored := by
  obtain ⟨outcome, hplan, hpass⟩ | ⟨table, -, ⟨after, -, hpass⟩ | ⟨after, e, -, hpass⟩⟩ :=
    g.pass_cases ws compare
  · rw [hpass]
    obtain ⟨raw, -, -, rfl⟩ | ⟨e, -, -, rfl⟩ := plan_eq_rest hplan
    · simp
    · simp
  · simp [hpass]
  · simp [hpass]

theorem react_outcome_eq_ignored_iff {batch : List Path} :
    (g.react ws batch).outcome = .ignored ↔ batch.all (g.isOutput ws) := by
  unfold react
  split
  · next h => simp [h]
  · next h => simp [h, outcome_pass_ne_ignored g ws]

theorem react_eq_of_ignored {batch : List Path} (h : (g.react ws batch).outcome = .ignored) :
    (g.react ws batch).generator = g ∧ (g.react ws batch).workspace = ws := by
  rw [react_outcome_eq_ignored_iff] at h
  rw [react, if_pos h]
  exact ⟨rfl, rfl⟩

end Generator

end RouteTree
