import RouteTree.Watching.Batcher

/-! What waits for a path in a batcher. It is made of the changes of this path alone, one after
another, however they are mixed with those of other paths and put together in notices. -/
namespace RouteTree

theorem Path.same_iff {a b : Path} : a.same b = true ↔ a.components = b.components := by
  rw [same, decide_eq_true_eq]

namespace Watching

def Merge.apply (pending : Option Change) : Merge → Option Change
  | .keep => pending
  | .put change => some change
  | .drop => none

/-- What waits for a path after one more change of it. -/
def Change.joined (pending : Option Change) (next : Change) : Option Change :=
  (next.merge pending).apply pending

/-- What a batcher is told: a notice, with the files as they are then, or a change of one path. -/
inductive Report
  | notice (ws : Workspace) (notice : Notice)
  | path (p : Path) (change : Change)

def Report.changes : Report → List (Path × Change)
  | .notice ws seen =>
    match seen.kind.change? with
    | none => []
    | some change => (Batcher.noticed ws seen).map (·, change)
  | .path p change => [(p, change)]

/-- All changes that count, one after another. -/
def history (reports : List (Nat × Report)) : List (Path × Change) :=
  reports.flatMap fun report => report.2.changes

def changesOf (p : Path) (changes : List (Path × Change)) : List Change :=
  (changes.filter fun e => e.1.same p).map Prod.snd

theorem changesOf_append (p : Path) (changes others : List (Path × Change)) :
    changesOf p (changes ++ others) = changesOf p changes ++ changesOf p others := by
  rw [changesOf, List.filter_append, List.map_append]
  rfl

namespace Batcher

variable {b : Batcher} {now : Nat} {p q : Path} {change : Change}

theorem find?_putChange (pending : List (Path × Change)) :
    ((putChange p change pending).find? fun e => e.1.same q).map Prod.snd =
      if p.same q then some change else (pending.find? fun e => e.1.same q).map Prod.snd := by
  induction pending with
  | nil => by_cases hpq : p.same q <;> simp [putChange, hpq]
  | cons e rest ih =>
    obtain ⟨r, old⟩ := e
    rw [putChange]
    by_cases hrp : r.same p
    · have hrq : r.same q = p.same q := by
        rw [Bool.eq_iff_iff, Path.same_iff, Path.same_iff, Path.same_iff.1 hrp]
      rw [if_pos hrp]
      by_cases hpq : p.same q <;> simp [hrq, hpq]
    · rw [if_neg hrp]
      by_cases hrq : r.same q
      · have hpq : ¬ p.same q := by
          rw [Path.same_iff] at hrp hrq ⊢
          exact fun hpq => hrp (hrq.trans hpq.symm)
        simp [hrq, hpq]
      · simpa [hrq] using ih

theorem find?_dropChange (pending : List (Path × Change)) :
    (dropChange p pending).find? (fun e => e.1.same q) =
      if p.same q then none else pending.find? fun e => e.1.same q := by
  rw [dropChange, List.find?_filter]
  split
  · next hpq =>
    rw [List.find?_eq_none]
    rintro ⟨r, old⟩ -
    rw [Path.same_iff] at hpq
    simp [Path.same, hpq]
  · next hpq =>
    congr 1
    funext e
    by_cases heq : e.1.same q
    · have hep : ¬ e.1.same p := by
        rw [Path.same_iff] at hpq heq ⊢
        exact fun hep => hpq (hep.symm.trans heq)
      simp [heq, hep]
    · simp [heq]

theorem pending?_congr (h : p.same q) : b.pending? p = b.pending? q := by
  rw [Path.same_iff] at h
  simp only [pending?, Path.same, h]

/-- A change is merged into what waits for its path, and other paths are left as they are. -/
theorem pending?_record : (b.record now p change).pending? q =
    if p.same q then change.joined (b.pending? q) else b.pending? q := by
  by_cases hpq : p.same q
  · have hpending : b.pending? p = b.pending? q := pending?_congr hpq
    rw [if_pos hpq, record, Change.joined, hpending]
    cases change.merge (b.pending? q) with
    | keep => rfl
    | put next => simp [pending?, find?_putChange, hpq, Merge.apply]
    | drop => simp [pending?, find?_dropChange, hpq, Merge.apply]
  · rw [if_neg hpq, record]
    cases change.merge (b.pending? p) with
    | keep => rfl
    | put next => simp [pending?, find?_putChange, hpq]
    | drop => simp [pending?, find?_dropChange, hpq]

def recordEach (b : Batcher) (now : Nat) (changes : List (Path × Change)) : Batcher :=
  changes.foldl (fun b e => b.record now e.1 e.2) b

theorem pending?_recordEach (changes : List (Path × Change)) :
    (b.recordEach now changes).pending? q =
      (changesOf q changes).foldl Change.joined (b.pending? q) := by
  induction changes generalizing b with
  | nil => rfl
  | cons e rest ih =>
    rw [recordEach, List.foldl_cons, ← recordEach, ih, pending?_record, changesOf, changesOf]
    by_cases hpq : e.1.same q
    · rw [if_pos hpq, List.filter_cons_of_pos (by simpa using hpq)]
      rfl
    · rw [if_neg hpq, List.filter_cons_of_neg (by simpa using hpq)]

theorem recordAll_fst (paths : List Path) :
    (b.recordAll now change paths).1 = b.recordEach now (paths.map (·, change)) := by
  induction paths generalizing b with
  | nil => rfl
  | cons p rest ih =>
    rw [recordAll]
    exact ih

def tell (b : Batcher) (now : Nat) : Report → Batcher
  | .notice ws seen => (b.add ws now seen).1
  | .path p change => b.record now p change

theorem tell_eq_recordEach (report : Report) :
    b.tell now report = b.recordEach now report.changes := by
  cases report with
  | notice ws seen =>
    rw [tell, add, Report.changes]
    cases seen.kind.change? with
    | none => rfl
    | some change => exact recordAll_fst _
  | path p change => rfl

/-- Takes reports in one after another, each at its time. -/
def tellAll (b : Batcher) (reports : List (Nat × Report)) : Batcher :=
  reports.foldl (fun b report => b.tell report.1 report.2) b

/-- What waits for a path is made of the changes of this path in their order. -/
theorem pending?_tellAll (reports : List (Nat × Report)) :
    (b.tellAll reports).pending? q =
      (changesOf q (history reports)).foldl Change.joined (b.pending? q) := by
  induction reports generalizing b with
  | nil => rfl
  | cons report rest ih =>
    rw [tellAll, List.foldl_cons, ← tellAll, ih, tell_eq_recordEach, pending?_recordEach,
      ← List.foldl_append, ← changesOf_append]
    rfl

end Batcher

end Watching

end RouteTree
