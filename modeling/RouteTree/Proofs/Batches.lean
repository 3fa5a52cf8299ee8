import RouteTree.Proofs.PathOrder
import RouteTree.Proofs.Pending

/-! The batches that a batcher gives over a run of calls. Between two batches a batcher is what it
was told since the first of them, so the paths of a batch are found by following each path alone
through its own changes. -/
namespace RouteTree.Watching

/-- What waits for a path after one more change, as a rule for this path alone. -/
def Change.rule : Option Change → Change → Option Change
  | none, first => some first
  | some .removed, .created => some .created
  | some .removed, .modified => some .modified
  | some .modified, .removed => some .removed
  | some .created, .removed => none
  | some kept, _ => some kept

theorem Change.joined_eq_rule : Change.joined = Change.rule := by
  funext pending next
  cases pending with
  | none => rfl
  | some old => cases old <;> cases next <;> rfl

inductive Call
  | tell (report : Report)
  | take

namespace Batcher

variable {b : Batcher} {now : Nat} {p : Path} {change : Change}

/-- The batcher after some calls, each at its time, the latest first. -/
def after : List (Nat × Call) → Batcher
  | [] => {}
  | (now, .tell report) :: earlier => (after earlier).tell now report
  | (now, .take) :: earlier => ((after earlier).take now).1

/-- The reports since the last batch, the earliest first. A call that gives no batch changes
nothing about them. -/
def reportsSince : List (Nat × Call) → List (Nat × Report)
  | [] => []
  | (now, .tell report) :: earlier => reportsSince earlier ++ [(now, report)]
  | (now, .take) :: earlier =>
    match ((after earlier).take now).2 with
    | none => reportsSince earlier
    | some _ => []

def batchTime? : List (Nat × Call) → Option Nat
  | [] => none
  | (_, .tell _) :: earlier => batchTime? earlier
  | (now, .take) :: earlier =>
    match ((after earlier).take now).2 with
    | none => batchTime? earlier
    | some _ => some now

theorem take_cases (b : Batcher) (now : Nat) :
    (b.isReady now = false ∧ b.take now = (b, none)) ∨
    (b.isReady now = true ∧ b.take now = ({ lastPass := some now }, some (b.sorted.map Prod.fst))) := by
  rw [take]
  cases b.isReady now with
  | false => exact .inl ⟨rfl, rfl⟩
  | true => exact .inr ⟨rfl, rfl⟩

theorem tellAll_append (reports others : List (Nat × Report)) :
    b.tellAll (reports ++ others) = (b.tellAll reports).tellAll others :=
  List.foldl_append

/-- All that is left of a run is when the last batch was taken and what was told since. -/
theorem after_eq_tellAll (calls : List (Nat × Call)) :
    after calls = ({ lastPass := batchTime? calls } : Batcher).tellAll (reportsSince calls) := by
  induction calls with
  | nil => rfl
  | cons call earlier ih =>
    obtain ⟨now, call⟩ := call
    cases call with
    | tell report =>
      rw [after, reportsSince, batchTime?, tellAll_append, ← ih]
      rfl
    | take =>
      rw [after, reportsSince, batchTime?]
      rcases take_cases (after earlier) now with ⟨-, htake⟩ | ⟨-, htake⟩
      · rw [htake]
        exact ih
      · rw [htake]
        rfl

/-- What every change keeps is kept by all that a batcher is told. -/
theorem tellAll_induction {P : Batcher → Prop} (reports : List (Nat × Report))
    (hrecord : ∀ b now p change, P b → P (b.record now p change)) (h : P b) :
    P (b.tellAll reports) := by
  have heach (changes : List (Path × Change)) (now : Nat) (b : Batcher) (h : P b) :
      P (b.recordEach now changes) := by
    induction changes generalizing b with
    | nil => exact h
    | cons e rest ih => exact ih _ (hrecord b now e.1 e.2 h)
  induction reports generalizing b with
  | nil => exact h
  | cons report rest ih =>
    rw [tellAll, List.foldl_cons, ← tellAll, tell_eq_recordEach]
    exact ih (heach _ _ b h)

/-- At most one change waits for a path, however the path is spelled. -/
def Distinct (b : Batcher) : Prop := (b.pending.map fun e => e.1.components).Nodup

theorem components_putChange (pending : List (Path × Change)) :
    (putChange p change pending).map (fun e => e.1.components) =
      if p.components ∈ pending.map fun e => e.1.components
      then pending.map fun e => e.1.components
      else pending.map (fun e => e.1.components) ++ [p.components] := by
  induction pending with
  | nil => rfl
  | cons e rest ih =>
    obtain ⟨q, old⟩ := e
    rw [putChange]
    by_cases hqp : q.same p
    · rw [if_pos hqp, List.map_cons, List.map_cons, ← Path.same_iff.1 hqp,
        if_pos List.mem_cons_self]
    · have hne : p.components ≠ q.components := fun heq => hqp (Path.same_iff.2 heq.symm)
      rw [if_neg hqp, List.map_cons, List.map_cons, ih]
      split
      · next hmem => rw [if_pos (List.mem_cons_of_mem _ hmem)]
      · next hmem => rw [if_neg (by simp [hne, hmem]), List.cons_append]

theorem Distinct.record (h : b.Distinct) (now : Nat) (p : Path) (change : Change) :
    (b.record now p change).Distinct := by
  rw [Batcher.record]
  cases change.merge (b.pending? p) with
  | keep => exact h
  | put next =>
    rw [Distinct, components_putChange]
    split
    · exact h
    · next hmem =>
      rw [← List.concat_eq_append]
      exact h.concat hmem
  | drop => exact h.sublist (List.filter_sublist.map _)

theorem distinct_after (calls : List (Nat × Call)) : (after calls).Distinct := by
  rw [after_eq_tellAll]
  refine tellAll_induction _ (fun b now p change h => h.record now p change) ?_
  exact List.nodup_nil

theorem pending?_ne_none_iff : b.pending? p ≠ none ↔ ∃ e ∈ b.pending, e.1.same p := by
  rw [pending?, Ne, Option.map_eq_none_iff, List.find?_eq_none]
  simp

/-- What waits for a path is found from the changes of this path since the last batch. -/
theorem pending?_after (calls : List (Nat × Call)) (p : Path) : (after calls).pending? p =
    (changesOf p (history (reportsSince calls))).foldl Change.rule none := by
  rw [after_eq_tellAll, pending?_tellAll, Change.joined_eq_rule]
  rfl

theorem take_eq_some {batch : List Path} (h : (b.take now).2 = some batch) :
    b.isReady now ∧ b.sorted.map Prod.fst = batch ∧ (b.take now).1 = { lastPass := some now } := by
  rcases take_cases b now with ⟨-, htake⟩ | ⟨hready, htake⟩
  · rw [htake] at h
    cases h
  · rw [htake] at h ⊢
    exact ⟨hready, Option.some.inj h, rfl⟩

theorem eq_of_take_eq_none (h : (b.take now).2 = none) : (b.take now).1 = b := by
  rcases take_cases b now with ⟨-, htake⟩ | ⟨-, htake⟩
  · rw [htake]
  · rw [htake] at h
    cases h

variable {calls : List (Nat × Call)} {batch : List Path}

theorem batch_ne_nil (h : ((after calls).take now).2 = some batch) : batch ≠ [] := by
  obtain ⟨hready, rfl, -⟩ := take_eq_some h
  rw [isReady, Bool.and_eq_true] at hready
  have hpending : (after calls).pending ≠ [] := by simpa using hready.2
  have hperm : (after calls).sorted.Perm (after calls).pending := List.mergeSort_perm _ _
  rw [Ne, List.map_eq_nil_iff]
  exact fun hnil => hpending (hnil ▸ hperm).nil_eq.symm

theorem increasing_batch (h : ((after calls).take now).2 = some batch) :
    Path.Increasing batch := by
  obtain ⟨-, rfl, -⟩ := take_eq_some h
  exact Path.increasing_mergeSort (distinct_after calls)

theorem mem_batch_iff (h : ((after calls).take now).2 = some batch) : (∃ q ∈ batch, q.same p) ↔
    (changesOf p (history (reportsSince calls))).foldl Change.rule none ≠ none := by
  obtain ⟨-, rfl, -⟩ := take_eq_some h
  have hperm : (after calls).sorted.Perm (after calls).pending := List.mergeSort_perm _ _
  rw [← pending?_after, pending?_ne_none_iff]
  constructor
  · rintro ⟨q, hq, hsame⟩
    obtain ⟨e, he, rfl⟩ := List.mem_map.1 hq
    exact ⟨e, hperm.mem_iff.1 he, hsame⟩
  · rintro ⟨e, he, hsame⟩
    exact ⟨e.1, List.mem_map_of_mem (hperm.mem_iff.2 he), hsame⟩

/-- A call that gives no batch changes nothing. A batch is not empty, is in path order, and holds
just the paths for which something waits after their own changes since the batch before; then
nothing waits any more. So another run that ends in a batch, in which every path has the same
changes since the batch before, gives the same paths, however the changes of different paths lie
between one another. -/
theorem batch_eq_changes_since (calls : List (Nat × Call)) (now : Nat) :
    let b := after calls
    let waiting (p : Path) := (changesOf p (history (reportsSince calls))).foldl Change.rule none
    ((b.take now).2 = none → (b.take now).1 = b) ∧
    ∀ batch, (b.take now).2 = some batch →
      batch ≠ [] ∧ Path.Increasing batch ∧ (∀ p, (∃ q ∈ batch, q.same p) ↔ waiting p ≠ none) ∧
      (b.take now).1.pending = [] ∧
      ∀ others later batch', ((after others).take later).2 = some batch' →
        (∀ p, changesOf p (history (reportsSince others)) =
          changesOf p (history (reportsSince calls))) →
        batch'.map Path.components = batch.map Path.components := by
  intro b waiting
  refine ⟨eq_of_take_eq_none, fun batch h => ?_⟩
  have hleft : (b.take now).1.pending = [] := by rw [(take_eq_some h).2.2]
  refine ⟨batch_ne_nil h, increasing_batch h, fun p => mem_batch_iff h, hleft, ?_⟩
  intro others later batch' h' hchanges
  refine (increasing_batch h').map_components_eq (increasing_batch h) fun p => ?_
  have hsame := (mem_batch_iff (p := p) h').trans (hchanges p ▸ (mem_batch_iff h).symm)
  simpa only [Path.same_iff] using hsame

/-- Tells of pages, in an empty file tree. -/
def tellPages (kind : NoticeKind) (pages : List Path) : Call :=
  .tell (.notice { files := .empty, cwd := [] } ⟨kind, pages⟩)

private theorem take_of_two {p q : Path} {change other : Change} (hready : b.isReady now)
    (hpending : b.pending = [(p, change), (q, other)]) (horder : p.compare q = .gt) :
    (b.take now).2 = some [q, p] := by
  have hsorted : b.sorted = [(q, other), (p, change)] := by
    rw [sorted, hpending]
    simp [List.mergeSort, horder]
  rw [take, if_pos hready, hsorted]
  rfl

/-- Two pages are saved and one of them is taken away, after an earlier batch and a call that comes
too early. In another run the changes come one by one, with an editor's file in between and another
spelling. -/
theorem batch_eq_changes_since_regrouped :
    let docs : Path := ⟨"/pages/docs/+Page.tsx"⟩
    let home : Path := ⟨"/pages/home/+Page.tsx"⟩
    let spelled : Path := ⟨"/pages//home/+Page.tsx"⟩
    let calls := [(950 * millisecond, .take), (510 * millisecond, tellPages .remove [home]),
      (500 * millisecond, tellPages .modify [home, docs]), (400 * millisecond, .take),
      (0, tellPages .create [docs])]
    let others := [(30 * millisecond, tellPages .modify [docs, ⟨"/pages/docs/+Page.tsx~"⟩]),
      (20 * millisecond, tellPages .remove [spelled]),
      (10 * millisecond, tellPages .modify [spelled])]
    let late := 1300 * millisecond
    let waiting (p : Path) := (changesOf p (history (reportsSince calls))).foldl Change.rule none
    ((after calls).take late).2 = some [docs, home] ∧
    ((after others).take late).2 = some [docs, spelled] ∧
    (∀ p, changesOf p (history (reportsSince others)) =
      changesOf p (history (reportsSince calls))) ∧
    Path.Increasing [docs, home] ∧
    (∀ p, (∃ q ∈ [docs, home], q.same p) ↔ waiting p ≠ none) ∧
    ((after calls).take late).1.pending = [] ∧
    [docs, spelled].map Path.components = [docs, home].map Path.components := by
  intro docs home spelled calls others late waiting
  have hbatch : ((after calls).take late).2 = some [docs, home] := by
    have hpending : (after calls).pending = [(home, .removed), (docs, .modified)] := by
      decide +kernel
    exact take_of_two (by decide +kernel) hpending (by decide +kernel)
  have hbatch' : ((after others).take late).2 = some [docs, spelled] := by
    have hpending : (after others).pending = [(spelled, .removed), (docs, .modified)] := by
      decide +kernel
    exact take_of_two (by decide +kernel) hpending (by decide +kernel)
  have hcalls : history (reportsSince calls) =
      [(home, .modified), (docs, .modified), (home, .removed)] := by decide +kernel
  have hothers : history (reportsSince others) =
      [(spelled, .modified), (spelled, .removed), (docs, .modified)] := by decide +kernel
  have hchanges (p : Path) : changesOf p (history (reportsSince others)) =
      changesOf p (history (reportsSince calls)) := by
    have hspelled : spelled.same p = home.same p := by
      have hcomponents : spelled.components = home.components := by decide +kernel
      rw [Path.same, Path.same, hcomponents]
    rw [hcalls, hothers]
    by_cases hdocs : docs.same p
    · have hhome : home.same p = false := by
        rw [Path.same, ← Path.same_iff.1 hdocs]
        decide +kernel
      simp [changesOf, hdocs, hhome, hspelled]
    · by_cases hhome : home.same p <;> simp [changesOf, hdocs, hhome, hspelled]
  obtain ⟨-, hincreasing, hpaths, hleft, hothers'⟩ :=
    (batch_eq_changes_since calls late).2 _ hbatch
  exact ⟨hbatch, hbatch', hchanges, hincreasing, hpaths, hleft, hothers' others late _ hbatch' hchanges⟩

end Batcher

end RouteTree.Watching
