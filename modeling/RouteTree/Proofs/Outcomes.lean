import RouteTree.Proofs.Additions
import RouteTree.Proofs.Lockstep

/-! What the outcome of a pass tells. A pass that does not emit leaves the remembered table and
every file as they were; one that emits remembers the table that it found, and the generated file is
the module for it. So at all times the generated file is the module for the table that is
remembered. -/
namespace RouteTree

/-- Every file is as it was, and a path that led to something leads there still. -/
structure Workspace.Keeps (before after : Workspace) : Prop where
  file : ∀ loc content, after.files.node? loc = some (.file content) ↔
    before.files.node? loc = some (.file content)
  path : ∀ p node, before.node? p = some node → after.node? p = some node

theorem Workspace.keeps_of_addsDirectories {ws : Workspace} {files : FileTree}
    (hadds : ws.files.AddsDirectories files) : ws.Keeps { ws with files } := by
  refine ⟨fun loc content => hadds.file_iff, fun p node hnode => ?_⟩
  rw [node?] at hnode ⊢
  cases hlocate : ws.locate p with
  | error e =>
    rw [hlocate] at hnode
    cases hnode
  | ok loc =>
    rw [hlocate] at hnode
    rw [locate_of_grows hadds.grows hlocate]
    exact hadds.keeps hnode

/-- The directories that are made for a write do not show another file under the path of the
generated file when the write fails after all. -/
def Generator.FailsCleanly (g : Generator) (ws : Workspace) : Prop :=
  Artifact.writable ws g.output = false → ∀ text,
    (Artifact.put ws g.output text).1.node? g.output = ws.node? g.output

/-- The table that a pass means to write: that of the routes found, or the empty one when there are
none for an error and no table has been written before. -/
def Generator.tableFound? (g : Generator) (ws : Workspace) : Option RouteTable :=
  match (g.source.discover ws).routes with
  | .ok raw => some (.ofRaw raw)
  | .error _ => if g.lastEmitted.isSome then none else some .empty

structure Pass.Rests (g : Generator) (ws : Workspace) (pass : Pass) : Prop where
  generator : pass.generator = g
  files : ws.Keeps pass.workspace
  output : g.FailsCleanly ws → pass.workspace.node? g.output = ws.node? g.output

structure Pass.Writes (g : Generator) (ws : Workspace) (pass : Pass) (table : RouteTable) :
    Prop where
  found : g.tableFound? ws = some table
  generator : pass.generator = { g with lastEmitted := some table }
  output : pass.workspace.node? g.output =
    some (.file (Artifact.render table g.importSource).toUTF8)

/-- What the outcome of a pass says about the generator and the files after it. -/
def Pass.Tells (g : Generator) (ws : Workspace) (pass : Pass) : Prop :=
  match pass.outcome with
  | .emitted n => ∃ table, n = table.length ∧ pass.Writes g ws table
  | .unchanged | .ignored | .failed _ => pass.Rests g ws

section Pass

variable {g : Generator} {ws : Workspace}

private theorem rests_of_same {log : Terminal.Log} {outcome : Outcome} :
    (Pass.mk g ws log outcome).Rests g ws :=
  ⟨rfl, ⟨fun _ _ => Iff.rfl, fun _ _ hnode => hnode⟩, fun _ => rfl⟩

private theorem rests_of_put_error {after : Workspace} {text : String} {e : Artifact.WriteError}
    {log : Terminal.Log} {outcome : Outcome}
    (hput : Artifact.put ws g.output text = (after, .error e)) :
    (Pass.mk g after log outcome).Rests g ws := by
  refine ⟨rfl, ?_, fun hclean => ?_⟩
  · obtain ⟨files, hadds, ⟨other, herror⟩ | ⟨loc, -, hok⟩⟩ := Artifact.put_cases ws g.output text
    · rw [herror] at hput
      cases hput
      exact Workspace.keeps_of_addsDirectories hadds
    · rw [hok] at hput
      cases hput
  · have hkept := hclean (Artifact.writable_of_put hput) text
    rwa [hput] at hkept

private theorem tableFound?_of_plan {compare : Bool} {table : RouteTable}
    (hplan : g.plan compare (g.source.discover ws).routes = .write table) :
    g.tableFound? ws = some table := by
  unfold Generator.tableFound?
  obtain ⟨raw, hroutes, rfl⟩ | ⟨e, hroutes, hnone, rfl⟩ := Generator.plan_eq_write hplan
  · rw [hroutes]
  · simp [hroutes, hnone]

theorem pass_tells (g : Generator) (ws : Workspace) (compare : Bool) :
    (g.pass ws compare).Tells g ws := by
  obtain ⟨outcome, hplan, hpass⟩ | ⟨table, hplan, ⟨after, hput, hpass⟩ | ⟨after, e, hput, hpass⟩⟩ :=
    g.pass_cases ws compare
  · rw [hpass]
    obtain ⟨raw, -, -, rfl⟩ | ⟨e, -, -, rfl⟩ := Generator.plan_eq_rest hplan
    · exact rests_of_same
    · exact rests_of_same
  · rw [hpass]
    obtain ⟨loc, hlocate, hfile⟩ := Artifact.put_eq_ok hput
    refine ⟨table, rfl, tableFound?_of_plan hplan, rfl, ?_⟩
    rw [Workspace.node?, hlocate]
    exact hfile
  · rw [hpass]
    exact rests_of_put_error hput

theorem respond_tells (g : Generator) (ws : Workspace) (request : Request) :
    (g.respond ws request).Tells g ws := by
  cases request with
  | start => exact pass_tells g ws false
  | change paths =>
    rw [Generator.respond, Generator.react]
    split
    · exact rests_of_same
    · exact pass_tells g ws _

end Pass

/-- The generated file is the module for the table that is remembered, if one is. -/
def Site.Matches (site : Site) : Prop :=
  ∀ table, site.generator.lastEmitted = some table →
    site.workspace.node? site.generator.output =
      some (.file (Artifact.render table site.generator.importSource).toUTF8)

/-- The sites that a run comes through: passes, and between them any changes of the files that leave
the generated file alone. -/
inductive Reachable (g : Generator) (ws : Workspace) : Site → Prop
  | start : Reachable g ws ⟨g, ws⟩
  | edit {site : Site} (found : Workspace) (hreach : Reachable g ws site)
      (hkept : found.node? site.generator.output = site.workspace.node? site.generator.output) :
      Reachable g ws ⟨site.generator, found⟩
  | pass {site : Site} (request : Request) (hreach : Reachable g ws site) :
      Reachable g ws (site.generator.respond site.workspace request).site

theorem matches_respond {g : Generator} {ws : Workspace} (request : Request)
    (h : Site.Matches ⟨g, ws⟩) : (g.respond ws request).site.Matches := by
  have htells := respond_tells g ws request
  generalize g.respond ws request = pass at htells
  obtain ⟨next, after, log, outcome⟩ := pass
  have hrests (hrests : Pass.Rests g ws ⟨next, after, log, outcome⟩) :
      (Pass.mk next after log outcome).site.Matches := by
    intro table hlast
    obtain ⟨rfl, hfiles, -⟩ := hrests
    exact hfiles.path _ _ (h table hlast)
  cases outcome with
  | emitted n =>
    obtain ⟨table, -, -, hgenerator, houtput⟩ := htells
    intro last hlast
    simp only at hgenerator
    subst hgenerator
    obtain rfl : table = last := Option.some.inj hlast
    exact houtput
  | unchanged => exact hrests htells
  | ignored => exact hrests htells
  | failed reason => exact hrests htells

theorem matches_of_reachable {g : Generator} {ws : Workspace} {site : Site}
    (hnone : g.lastEmitted = none) (hreach : Reachable g ws site) : site.Matches := by
  induction hreach with
  | start =>
    intro table hlast
    rw [show g.lastEmitted = some table from hlast] at hnone
    cases hnone
  | edit found hreach hkept ih => exact fun table hlast => hkept.trans (ih table hlast)
  | pass request hreach ih => exact matches_respond request ih

/-- The outcome of a pass, from any state and over any files, tells what it has done; and in every
state that passes lead to, with any changes in between that leave the generated file alone, this
file is the module for the table that is remembered. -/
theorem outcome_tells :
    (∀ (g : Generator) (ws : Workspace) (request : Request), (g.respond ws request).Tells g ws) ∧
    ∀ (g : Generator) (ws : Workspace) (site : Site), g.lastEmitted = none →
      Reachable g ws site → site.Matches :=
  ⟨respond_tells, fun _ _ _ hnone hreach => matches_of_reachable hnone hreach⟩

private theorem reachable_desk {last : Option RouteTable} {ws : Workspace} (request : Request)
    (table : RouteTable) {n : Nat}
    (hreach : Reachable clerk (desk none none []) ⟨{ clerk with lastEmitted := last }, ws⟩)
    (hemitted :
      (({ clerk with lastEmitted := last } : Generator).respond ws request).outcome = .emitted n)
    (hfound : ({ clerk with lastEmitted := last } : Generator).tableFound? ws = some table)
    (registry : String) (locked : List Location) :
    Reachable clerk (desk none none []) ⟨{ clerk with lastEmitted := some table },
      desk registry (some (Artifact.render table none).toUTF8) locked⟩ := by
  have htells := respond_tells { clerk with lastEmitted := last } ws request
  rw [Pass.Tells, hemitted] at htells
  obtain ⟨other, -, hother, hgenerator, houtput⟩ := htells
  rw [hfound, Option.some.injEq] at hother
  subst hother
  have hedit := (hreach.pass request).edit
    (desk registry (some (Artifact.render table none).toUTF8) locked) (by
      rw [Pass.site, hgenerator, houtput]
      exact node?_desk _ _ locked)
  rwa [Pass.site, hgenerator] at hedit

/-- No registry, then a page, and another page while the generated file cannot be written: the pass
fails, and the generated file is the module for the first page still. -/
theorem outcome_tells_locked : ∃ site : Site, Reachable clerk (desk none none []) site ∧
    let pass := site.generator.respond site.workspace (.change [⟨"/pages.json"⟩])
    pass.outcome = .failed "cannot write `/routes.ts`: Permission denied (os error 13)" ∧
      pass.Rests site.generator site.workspace ∧
      pass.generator.lastEmitted = some (.ofRaw [⟨"/", false⟩]) ∧
      pass.workspace.node? clerk.output =
        some (.file (Artifact.render (.ofRaw [⟨"/", false⟩]) none).toUTF8) := by
  have hempty : Reachable clerk (desk none none []) _ :=
    reachable_desk .start .empty (n := 0) .start (by decide +kernel) (by decide +kernel)
      "\x7b\"/pages/index\": \x7b\"route\": \"/\"\x7d\x7d" []
  have hlocked := reachable_desk (.change [⟨"/pages.json"⟩]) (.ofRaw [⟨"/", false⟩]) (n := 1)
    hempty (by decide +kernel) (by decide +kernel)
    "\x7b\"/pages/docs\": \x7b\"route\": \"/docs/*\"\x7d\x7d" [["routes.ts"]]
  refine ⟨_, hlocked, ?_⟩
  generalize hsite : Site.mk _ _ = site at hlocked
  intro pass
  have hfailed : pass.outcome =
      .failed "cannot write `/routes.ts`: Permission denied (os error 13)" := by
    subst hsite
    decide +kernel
  have hrests := outcome_tells.1 site.generator site.workspace (.change [⟨"/pages.json"⟩])
  rw [Pass.Tells, hfailed] at hrests
  have hmatches := outcome_tells.2 _ _ _ rfl (hlocked.pass (.change [⟨"/pages.json"⟩]))
  have hlast : pass.generator.lastEmitted = some (.ofRaw [⟨"/", false⟩]) := by
    rw [hrests.generator, ← hsite]
  have houtput := hmatches _ hlast
  simp only [Pass.site, hrests.generator] at houtput
  subst hsite
  exact ⟨hfailed, hrests, hlast, houtput⟩

end RouteTree
