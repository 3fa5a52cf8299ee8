import RouteTree.Proofs.OrderedSet
import RouteTree.Proofs.Outcomes

/-! Tables are compared by their JSON texts. No two tables share one, so a pass over a registry
finds its routes unchanged just when they are those of the table that was emitted last, however many
passes have failed or have written nothing since. -/
namespace RouteTree

namespace RouteTable

variable {a b : RouteTable}

def SameRoutes (a b : RouteTable) : Prop := ∀ r, r ∈ a.toList ↔ r ∈ b.toList

theorem sameRoutes_iff : a.SameRoutes b ↔ a = b := by
  constructor
  · exact Text.Ordered.eq_of_mem_iff
  · rintro rfl r
    exact Iff.rfl

theorem toJson_eq_iff : a.toJson = b.toJson ↔ a.SameRoutes b := by
  rw [toJson_injective.eq_iff, sameRoutes_iff]

theorem toPrettyJson_eq_iff : a.toPrettyJson = b.toPrettyJson ↔ a.SameRoutes b := by
  rw [toPrettyJson_injective.eq_iff, sameRoutes_iff]

end RouteTable

namespace Generator

variable {g : Generator} {ws : Workspace} {raw : List RawRoute}

/-- A pass that compares is content with what was written last, and with nothing else. -/
theorem pass_outcome_eq_unchanged_iff (hroutes : (g.source.discover ws).routes = .ok raw) :
    (g.pass ws true).outcome = .unchanged ↔ g.lastEmitted = some (.ofRaw raw) := by
  constructor
  · intro h
    obtain ⟨outcome, hplan, -⟩ | ⟨table, -, ⟨after, -, hpass⟩ | ⟨after, e, -, hpass⟩⟩ :=
      g.pass_cases ws true
    · obtain ⟨found, hfound, hlast, -⟩ | ⟨e, herror, -, -⟩ := plan_eq_rest hplan
      · rw [hroutes] at hfound
        cases hfound
        exact hlast
      · rw [hroutes] at herror
        cases herror
    · rw [hpass] at h
      cases h
    · rw [hpass] at h
      cases h
  · intro hlast
    have hplan : g.plan true (g.source.discover ws).routes = .rest .unchanged := by
      rw [hroutes]
      simp [plan, hasEmitted_iff.2 hlast]
    rw [pass, hplan]
    rfl

theorem react_outcome_eq_unchanged_iff {file : Path} {changed : List Path}
    (hsource : g.source = .registry file) (hother : ∃ p ∈ changed, ¬ g.isOutput ws p)
    (hroutes : (g.source.discover ws).routes = .ok raw) :
    (g.react ws changed).outcome = .unchanged ↔ g.lastEmitted = some (.ofRaw raw) := by
  have hcompare : g.source.comparesFirst = true := by rw [hsource]; rfl
  rw [react, if_neg (by simpa using hother), hcompare, pass_outcome_eq_unchanged_iff hroutes]

/-- The generator after some requests, each with the files found then, the latest first. -/
def after (g : Generator) : List (Request × Workspace) → Generator
  | [] => g
  | (request, ws) :: earlier => ((g.after earlier).respond ws request).generator

def emitted? (g : Generator) (ws : Workspace) (request : Request) : Option RouteTable :=
  match (g.respond ws request).outcome with
  | .emitted _ => g.tableFound? ws
  | .unchanged | .ignored | .failed _ => none

def emittedLast? (g : Generator) : List (Request × Workspace) → Option RouteTable
  | [] => none
  | (request, ws) :: earlier =>
    ((g.after earlier).emitted? ws request).or (g.emittedLast? earlier)

theorem generator_respond (g : Generator) (ws : Workspace) (request : Request) :
    (g.respond ws request).generator =
      { g with lastEmitted := (g.emitted? ws request).or g.lastEmitted } := by
  have htells := respond_tells g ws request
  have hrests (hrests : (g.respond ws request).Rests g ws) :
      (g.respond ws request).generator = { g with lastEmitted := none.or g.lastEmitted } :=
    hrests.generator
  rw [Pass.Tells] at htells
  rw [emitted?]
  cases houtcome : (g.respond ws request).outcome with
  | emitted n =>
    rw [houtcome] at htells
    obtain ⟨table, -, hwrites⟩ := htells
    rw [hwrites.generator, hwrites.found, Option.some_or]
  | unchanged =>
    rw [houtcome] at htells
    exact hrests htells
  | ignored =>
    rw [houtcome] at htells
    exact hrests htells
  | failed reason =>
    rw [houtcome] at htells
    exact hrests htells

/-- What a run leaves of the generator is which table it has emitted last. -/
theorem after_eq (g : Generator) (requests : List (Request × Workspace)) :
    g.after requests =
      { g with lastEmitted := (g.emittedLast? requests).or g.lastEmitted } := by
  induction requests with
  | nil => rfl
  | cons first earlier ih =>
    obtain ⟨request, ws⟩ := first
    rw [after, generator_respond, emittedLast?, Option.or_assoc, ih]

end Generator

/-- Two tables have the same JSON text, on one line or over lines, just when they hold the same
routes. So a generator for a registry that has emitted a table, now or many requests ago, answers
that nothing has changed just when the routes it finds are those of this table. -/
theorem same_text_iff_same_routes :
    (∀ a b : RouteTable, (a.toJson = b.toJson ↔ a.SameRoutes b) ∧
      (a.toPrettyJson = b.toPrettyJson ↔ a.SameRoutes b)) ∧
    ∀ (g : Generator) (file : Path) (requests : List (Request × Workspace)) (last : RouteTable)
      (ws : Workspace) (changed : List Path) (raw : List RawRoute),
      g.source = .registry file → g.emittedLast? requests = some last →
      (∃ p ∈ changed, ¬ g.isOutput ws p) → (g.source.discover ws).routes = .ok raw →
      (((g.after requests).react ws changed).outcome = .unchanged ↔
        (RouteTable.ofRaw raw).SameRoutes last) := by
  refine ⟨fun a b => ⟨RouteTable.toJson_eq_iff, RouteTable.toPrettyJson_eq_iff⟩, ?_⟩
  intro g file requests last ws changed raw hsource hlast hother hroutes
  have hunchanged := Generator.react_outcome_eq_unchanged_iff
    (g := { g with lastEmitted := some last }) hsource hother hroutes
  rw [g.after_eq, hlast, Option.some_or, hunchanged, Option.some.injEq, RouteTable.sameRoutes_iff,
    eq_comm]

/-- A page whose name looks like the end of a text and the begin of another. -/
private def pageWithQuotes : String := "\x7b\"a\": \x7b\"route\": \"/a\\\",\\\"/b\"\x7d\x7d"

private def pagesApart : String :=
  "\x7b\"a\": \x7b\"route\": \"/a\"\x7d, \"b\": \x7b\"route\": \"/b\"\x7d\x7d"

/-- The page is emitted, and then two pages are found that would have the same text without escapes,
while the generated file cannot be written. The page is what was emitted last still: to find it is
no change, and to find the two pages is one. -/
theorem same_text_iff_same_routes_quotes :
    let page := RouteTable.ofRaw [⟨"/a\",\"/b", false⟩]
    let pages := RouteTable.ofRaw [⟨"/a", false⟩, ⟨"/b", false⟩]
    let generated := some (Artifact.render page none).toUTF8
    let changed : List Path := [⟨"/pages.json"⟩]
    let requests := [(.change changed, desk pagesApart generated [["routes.ts"]]),
      (.start, desk pageWithQuotes none [])]
    clerk.emittedLast? requests = some page ∧ page.SameRoutes page ∧ ¬ pages.SameRoutes page ∧
      ((clerk.after requests).react (desk pageWithQuotes generated []) changed).outcome =
        .unchanged ∧
      ((clerk.after requests).react (desk pagesApart generated []) changed).outcome ≠
        .unchanged := by
  intro page pages generated changed requests
  have hlast : clerk.emittedLast? requests = some page := by decide +kernel
  have hsame : page.SameRoutes page := (same_text_iff_same_routes.1 page page).1.1 rfl
  have hdiffer : ¬ pages.SameRoutes page := by
    rw [← (same_text_iff_same_routes.1 pages page).1]
    decide +kernel
  have hpage := same_text_iff_same_routes.2 clerk ⟨"/pages.json"⟩ requests page
    (desk pageWithQuotes generated []) changed [⟨"/a\",\"/b", false⟩] rfl hlast
    ⟨_, List.mem_cons_self, by decide +kernel⟩ (by decide +kernel)
  have hpages := same_text_iff_same_routes.2 clerk ⟨"/pages.json"⟩ requests page
    (desk pagesApart generated []) changed [⟨"/a", false⟩, ⟨"/b", false⟩] rfl hlast
    ⟨_, List.mem_cons_self, by decide +kernel⟩ (by decide +kernel)
  exact ⟨hlast, hsame, hdiffer, hpage.2 hsame, fun h => hdiffer (hpages.1 h)⟩

end RouteTree
