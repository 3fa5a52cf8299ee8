import RouteTree.Proofs.Passes

/-! Nobody sees that a table which has not changed is not written again. A generator is run in
lockstep with one that writes in every pass. Each has files of its own, and between two passes these
may become any others, as long as both find the same routes and neither finds the generated file
changed. -/
namespace RouteTree

inductive Request
  | start
  | change (paths : List Path)

/-- A generator and the files that it leaves behind. -/
structure Site where
  generator : Generator
  workspace : Workspace

def Pass.site (pass : Pass) : Site := ⟨pass.generator, pass.workspace⟩

namespace Generator

def respond (g : Generator) (ws : Workspace) : Request → Pass
  | .start => g.build ws
  | .change paths => g.react ws paths

def ignores (g : Generator) (ws : Workspace) : Request → Bool
  | .start => false
  | .change paths => paths.all (g.isOutput ws)

/-- Writes whatever is found, also when it is what was written last. -/
def respondEagerly (g : Generator) (ws : Workspace) : Request → Pass
  | .start => g.build ws
  | .change paths => if paths.all (g.isOutput ws) then g.react ws paths else g.pass ws false

def lastAfterPass (g : Generator) (ws : Workspace) (last : Option RouteTable) :
    Option RouteTable :=
  if Artifact.writable ws g.output then
    match (g.source.discover ws).routes with
    | .ok raw => some (.ofRaw raw)
    | .error _ => last.or (some .empty)
  else last

/-- The table that counts as written after a request. -/
def lastAfter (g : Generator) (last : Option RouteTable) (ws : Workspace) (request : Request) :
    Option RouteTable :=
  if g.ignores ws request then last else g.lastAfterPass ws last

/-- What the generated file holds: the module for the table, or what it held at the start. -/
def content (g : Generator) (ws : Workspace) : Option RouteTable → Option Node
  | none => ws.node? g.output
  | some table => some (.file (Artifact.render table g.importSource).toUTF8)

end Generator

/-- The generator is the given one, but remembers a table; the generated file holds that table. -/
structure Site.Holds (site : Site) (g : Generator) (ws : Workspace)
    (last : Option RouteTable) : Prop where
  generator : site.generator = { g with lastEmitted := last }
  content : site.workspace.node? g.output = g.content ws last

/-- The files that a generator finds for its next pass: nobody has changed the generated file, and
a failing write does not change it either. -/
structure Undisturbed (g : Generator) (left found : Workspace) : Prop where
  kept : found.node? g.output = left.node? g.output
  kept_of_failing : Artifact.writable found g.output = false → ∀ text,
    (Artifact.put found g.output text).1.node? g.output = found.node? g.output

section Pass

variable {g : Generator} {ws found : Workspace} {site : Site} {last : Option RouteTable}

private theorem lastAfterPass_of_rest {compare : Bool} {outcome : Outcome}
    (h : ({ g with lastEmitted := last } : Generator).plan compare
      (g.source.discover found).routes = .rest outcome) : g.lastAfterPass found last = last := by
  unfold Generator.lastAfterPass
  obtain ⟨raw, hroutes, hlast, -⟩ | ⟨e, hroutes, hlast, -⟩ := Generator.plan_eq_rest h
  · simp only [hroutes]
    rw [show last = some (.ofRaw raw) from hlast, ite_self]
  · obtain ⟨table, htable⟩ := Option.isSome_iff_exists.1 hlast
    simp only [hroutes]
    rw [show last = some table from htable, Option.some_or, ite_self]

private theorem lastAfterPass_of_write {compare : Bool} {table : RouteTable}
    (h : ({ g with lastEmitted := last } : Generator).plan compare
      (g.source.discover found).routes = .write table) :
    g.lastAfterPass found last =
      if Artifact.writable found g.output then some table else last := by
  unfold Generator.lastAfterPass
  obtain ⟨raw, hroutes, rfl⟩ | ⟨e, hroutes, hlast, rfl⟩ := Generator.plan_eq_write h
  · simp only [hroutes]
  · simp only [hroutes]
    rw [show last = none from hlast, Option.none_or]

/-- A pass leaves the same table and the same generated file behind whether it compares tables or
not. -/
theorem holds_pass (compare : Bool) (hsite : site.Holds g ws last)
    (hfound : Undisturbed g site.workspace found) :
    (site.generator.pass found compare).site.Holds g ws (g.lastAfterPass found last) := by
  have hcontent := hfound.kept.trans hsite.content
  rw [hsite.generator]
  obtain ⟨outcome, hplan, hpass⟩ | ⟨table, hplan, ⟨after, hput, hpass⟩ | ⟨after, e, hput, hpass⟩⟩ :=
    ({ g with lastEmitted := last } : Generator).pass_cases found compare
  · rw [hpass, lastAfterPass_of_rest hplan]
    exact ⟨rfl, hcontent⟩
  · obtain ⟨loc, hlocate, hfile⟩ := Artifact.put_eq_ok hput
    have hwritable : Artifact.writable found g.output = true := Artifact.writable_of_put hput
    rw [hpass, lastAfterPass_of_write hplan, hwritable]
    refine ⟨rfl, ?_⟩
    simp only [Pass.site, Workspace.node?, hlocate]
    exact hfile
  · have hwritable : Artifact.writable found g.output = false := Artifact.writable_of_put hput
    have hkept := hfound.kept_of_failing hwritable (Artifact.render table g.importSource)
    rw [hput] at hkept
    rw [hpass, lastAfterPass_of_write hplan, hwritable]
    exact ⟨rfl, hkept.trans hcontent⟩

private theorem holds_nothing (hsite : site.Holds g ws last)
    (hfound : Undisturbed g site.workspace found) (log : Terminal.Log) (outcome : Outcome) :
    (Pass.site ⟨site.generator, found, log, outcome⟩).Holds g ws last :=
  ⟨hsite.generator, hfound.kept.trans hsite.content⟩

private theorem all_isOutput_eq (hsite : site.Holds g ws last) (paths : List Path) :
    paths.all (site.generator.isOutput found) = paths.all (g.isOutput found) := by
  rw [hsite.generator]
  rfl

theorem holds_respond (request : Request) (hsite : site.Holds g ws last)
    (hfound : Undisturbed g site.workspace found) :
    (site.generator.respond found request).site.Holds g ws (g.lastAfter last found request) := by
  cases request with
  | start => exact holds_pass false hsite hfound
  | change paths =>
    unfold Generator.respond Generator.react Generator.lastAfter Generator.ignores
    by_cases hignored : paths.all (g.isOutput found)
    · simp only [all_isOutput_eq hsite, hignored, if_true]
      exact holds_nothing hsite hfound _ _
    · simp only [all_isOutput_eq hsite, hignored]
      exact holds_pass _ hsite hfound

theorem holds_respondEagerly (request : Request) (hsite : site.Holds g ws last)
    (hfound : Undisturbed g site.workspace found) :
    (site.generator.respondEagerly found request).site.Holds g ws
      (g.lastAfter last found request) := by
  cases request with
  | start => exact holds_pass false hsite hfound
  | change paths =>
    unfold Generator.respondEagerly Generator.react Generator.lastAfter Generator.ignores
    by_cases hignored : paths.all (g.isOutput found)
    · simp only [all_isOutput_eq hsite, hignored, if_true]
      exact holds_nothing hsite hfound _ _
    · simp only [all_isOutput_eq hsite, hignored]
      exact holds_pass false hsite hfound

end Pass

/-- A request, and the files that each of the two generators finds then. -/
structure Round where
  request : Request
  sparing : Workspace
  eager : Workspace

/-- Both generators find the same routes, can write or not, and take the same changes for their
own. -/
structure Round.Even (r : Round) (g : Generator) : Prop where
  routes : (g.source.discover r.sparing).routes = (g.source.discover r.eager).routes
  writable : Artifact.writable r.sparing g.output = Artifact.writable r.eager g.output
  ignores : g.ignores r.sparing r.request = g.ignores r.eager r.request

/-- Runs of a generator and of one that writes in every pass, from the same files. -/
inductive Lockstep (g : Generator) (ws : Workspace) : List Round → Site → Site → Prop
  | start : Lockstep g ws [] ⟨g, ws⟩ ⟨g, ws⟩
  | round {rounds : List Round} {sparing eager : Site} (r : Round) (heven : r.Even g)
      (hsparing : Undisturbed g sparing.workspace r.sparing)
      (heager : Undisturbed g eager.workspace r.eager)
      (hrun : Lockstep g ws rounds sparing eager) :
      Lockstep g ws (rounds ++ [r]) (sparing.generator.respond r.sparing r.request).site
        (eager.generator.respondEagerly r.eager r.request).site

/-- The table of the last pass that found routes and could write them. A pass that finds no routes
for an error counts as one with no routes when it is the first. -/
def Generator.lastOf (g : Generator) (rounds : List Round) : Option RouteTable :=
  rounds.foldl (fun last r => g.lastAfter last r.sparing r.request) none

private theorem lastAfter_of_even {g : Generator} {r : Round} (heven : r.Even g)
    (last : Option RouteTable) :
    g.lastAfter last r.eager r.request = g.lastAfter last r.sparing r.request := by
  unfold Generator.lastAfter Generator.lastAfterPass
  rw [heven.routes, heven.writable, heven.ignores]

/-- Every run keeps both generators at the table of the last pass that was written. -/
theorem Lockstep.holds {g : Generator} {ws : Workspace} {rounds : List Round} {sparing eager : Site}
    (hnone : g.lastEmitted = none) (hrun : Lockstep g ws rounds sparing eager) :
    sparing.Holds g ws (g.lastOf rounds) ∧ eager.Holds g ws (g.lastOf rounds) := by
  -- both are carried along together: they have files of their own, and only the table ties them
  induction hrun with
  | start =>
    have hself : g = { g with lastEmitted := none } := by rw [← hnone]
    exact ⟨⟨hself, rfl⟩, ⟨hself, rfl⟩⟩
  | round r heven hsparing heager hrun ih =>
    obtain ⟨ihsparing, iheager⟩ := ih
    rw [Generator.lastOf, List.foldl_append]
    refine ⟨holds_respond r.request ihsparing hsparing, ?_⟩
    have heager := holds_respondEagerly r.request iheager heager
    rwa [lastAfter_of_even heven] at heager

theorem Lockstep.exists_round {g : Generator} {ws : Workspace} {rounds : List Round}
    {sparing eager : Site} (hnone : g.lastEmitted = none)
    (hrun : Lockstep g ws rounds sparing eager) (request : Request) {found : Workspace}
    (hkept : found.node? g.output = g.content ws (g.lastOf rounds))
    (hfailing : Artifact.writable found g.output = false → ∀ text,
      (Artifact.put found g.output text).1.node? g.output = found.node? g.output) :
    ∃ sparing eager, Lockstep g ws (rounds ++ [⟨request, found, found⟩]) sparing eager := by
  obtain ⟨hsparing, heager⟩ := hrun.holds hnone
  have hsparing : Undisturbed g sparing.workspace found :=
    ⟨hkept.trans hsparing.content.symm, hfailing⟩
  have heager : Undisturbed g eager.workspace found :=
    ⟨hkept.trans heager.content.symm, hfailing⟩
  exact ⟨_, _, .round ⟨request, found, found⟩ ⟨rfl, rfl, rfl⟩ hsparing heager hrun⟩

/-- After every run, a generator that leaves out tables which have not changed remembers the same
table and has the same generated file as one that never does: the module for the last pass that
found routes and could write them. -/
theorem sparing_eq_eager {g : Generator} {ws : Workspace} {rounds : List Round}
    {sparing eager : Site} (hnone : g.lastEmitted = none)
    (hrun : Lockstep g ws rounds sparing eager) :
    sparing.generator.lastEmitted = eager.generator.lastEmitted ∧
      sparing.workspace.node? g.output = eager.workspace.node? g.output ∧
      sparing.generator.lastEmitted = g.lastOf rounds ∧
      sparing.workspace.node? g.output = g.content ws (g.lastOf rounds) := by
  obtain ⟨hsparing, heager⟩ := hrun.holds hnone
  have hlast {site : Site} (h : site.Holds g ws (g.lastOf rounds)) :
      site.generator.lastEmitted = g.lastOf rounds := by rw [h.generator]
  refine ⟨?_, ?_, hlast hsparing, hsparing.content⟩
  · rw [hlast hsparing, hlast heager]
  · rw [hsparing.content, heager.content]

def clerk : Generator where
  source := .registry ⟨"/pages.json"⟩
  output := ⟨"/routes.ts"⟩
  displayPath := "./routes.ts"
  importSource := none

def desk (registry : Option String) (generated : Option ByteArray) (locked : List Location) :
    Workspace where
  files :=
    let entries := (registry.map fun text => (["pages.json"], Node.file text.toUTF8)).toList ++
      (generated.map fun content => (["routes.ts"], Node.file content)).toList
    entries.foldl (fun tree e => tree.insert e.1 e.2) .empty
  cwd := []
  locked := locked

/-- A request to the clerk, and what is found then. Others may have written the registry and may
have locked the generated file. -/
def deskRound (request : Request) (registry : Option String) (last : Option RouteTable)
    (locked : List Location) : Round :=
  let files := desk registry (last.map fun table => (Artifact.render table none).toUTF8) locked
  ⟨request, files, files⟩

section Desk

variable (registry : Option String) (generated : Option ByteArray)

theorem node?_desk (locked : List Location) :
    (desk registry generated locked).node? clerk.output = generated.map .file := by
  cases registry <;> cases generated <;> rfl

private theorem writable_desk : Artifact.writable (desk registry generated []) clerk.output = true := by
  cases registry <;> cases generated <;> rfl

private theorem put_desk_locked (text : String) :
    (Artifact.put (desk registry generated [["routes.ts"]]) clerk.output text).1 =
      desk registry generated [["routes.ts"]] := by
  cases registry <;> cases generated <;> rfl

end Desk

private theorem exists_deskRound {rounds : List Round}
    (hrun : ∃ sparing eager, Lockstep clerk (desk none none []) rounds sparing eager)
    (request : Request) (registry : Option String) (last : Option RouteTable)
    (locked : List Location) (hlast : clerk.lastOf rounds = last)
    (hlocked : locked = [] ∨ locked = [["routes.ts"]]) :
    ∃ sparing eager, Lockstep clerk (desk none none [])
      (rounds ++ [deskRound request registry last locked]) sparing eager := by
  obtain ⟨sparing, eager, hrun⟩ := hrun
  refine hrun.exists_round rfl request ?_ ?_
  · rw [node?_desk, hlast]
    cases last <;> rfl
  · intro hfailing text
    rcases hlocked with rfl | rfl
    · rw [writable_desk] at hfailing
      cases hfailing
    · rw [put_desk_locked]

private def onePage : String := "\x7b\"/pages/index\": \x7b\"route\": \"/\"\x7d\x7d"

private def twoPages : String :=
  "\x7b\"/pages/index\": \x7b\"route\": \"/\"\x7d, \"/pages/docs\": \x7b\"route\": \"/docs/*\"\x7d\x7d"

private def index : RouteTable := .ofRaw [⟨"/", false⟩]

private def registryChange : Request := .change [⟨"/pages.json"⟩]

/-- No registry, then a page, a second page while the generated file cannot be written, the first
page alone again, and a registry that cannot be read. -/
def week : List Round :=
  [deskRound .start none none [], deskRound registryChange onePage (some .empty) [],
    deskRound registryChange twoPages (some index) [["routes.ts"]],
    deskRound registryChange onePage (some index) [],
    deskRound registryChange "\x7b" (some index) []]

/-- The week ends with the module for the one page. -/
theorem sparing_eq_eager_week : ∃ sparing eager,
    Lockstep clerk (desk none none []) week sparing eager ∧
    sparing.generator.lastEmitted = eager.generator.lastEmitted ∧
    sparing.workspace.node? clerk.output = eager.workspace.node? clerk.output ∧
    sparing.generator.lastEmitted = clerk.lastOf week ∧
    sparing.workspace.node? clerk.output = clerk.content (desk none none []) (clerk.lastOf week) ∧
    clerk.lastOf week = some (.ofRaw [⟨"/", false⟩]) := by
  have hempty := exists_deskRound ⟨_, _, .start⟩ .start none none [] rfl (.inl rfl)
  have hfirst := exists_deskRound hempty registryChange onePage (some .empty) []
    (by decide +kernel) (.inl rfl)
  have hlocked := exists_deskRound hfirst registryChange twoPages (some index) [["routes.ts"]]
    (by decide +kernel) (.inr rfl)
  have hsame := exists_deskRound hlocked registryChange onePage (some index) []
    (by decide +kernel) (.inl rfl)
  have hbroken := exists_deskRound hsame registryChange "\x7b" (some index) []
    (by decide +kernel) (.inl rfl)
  obtain ⟨sparing, eager, hrun⟩ := hbroken
  obtain ⟨hlast, hfile, htable, hcontent⟩ := sparing_eq_eager rfl hrun
  exact ⟨sparing, eager, hrun, hlast, hfile, htable, hcontent, by decide +kernel⟩

end RouteTree
