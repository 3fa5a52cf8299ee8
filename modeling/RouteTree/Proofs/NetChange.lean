import RouteTree.Proofs.Pending

/-! What a batch says about a path whose changes fit together, compared with what has become of the
path since the batch began. A change that is undone is left out of the batch. But a path that comes
back after it was removed counts as created, as if it had not been there before, so its second
removal is left out as well. -/
namespace RouteTree.Watching

/-- The changes can happen to a path one after another: what is created is not there before, and
what is modified or removed is. The first and the last argument say whether the path is there before
and after them. -/
inductive Fits : Bool → List Change → Bool → Prop
  | nothing {present : Bool} : Fits present [] present
  | created {rest : List Change} {after : Bool} (h : Fits true rest after) :
      Fits false (.created :: rest) after
  | modified {rest : List Change} {after : Bool} (h : Fits true rest after) :
      Fits true (.modified :: rest) after
  | removed {rest : List Change} {after : Bool} (h : Fits false rest after) :
      Fits true (.removed :: rest) after

variable {before after : Bool} {changes : List Change}

theorem foldl_joined_of_created (h : Fits before changes after) :
    changes.foldl Change.joined (if before then some .created else none) =
      if after then some .created else none := by
  induction h with
  | nothing => rfl
  | created h ih => exact ih
  | modified h ih => exact ih
  | removed h ih => exact ih

theorem foldl_joined_of_present (h : Fits before changes after) :
    changes.foldl Change.joined (some (if before then .modified else .removed)) =
      if .created ∈ changes then (if after then some .created else none)
      else some (if after then .modified else .removed) := by
  induction h with
  | nothing => simp
  | created h ih =>
    rw [if_pos List.mem_cons_self]
    exact foldl_joined_of_created h
  | modified h ih => simpa [Change.joined, Change.merge, Merge.apply] using ih
  | removed h ih => simpa [Change.joined, Change.merge, Merge.apply] using ih

/-- What waits for a path after changes of it that fit together. -/
theorem foldl_joined_none (h : Fits before changes after) :
    changes.foldl Change.joined none =
      if changes = [] then none
      else if .created ∈ changes then (if after then some .created else none)
      else some (if after then .modified else .removed) := by
  cases h with
  | nothing => rfl
  | created h =>
    rw [if_neg (List.cons_ne_nil _ _), if_pos List.mem_cons_self]
    exact foldl_joined_of_created h
  | modified h =>
    simpa [Change.joined, Change.merge, Merge.apply] using foldl_joined_of_present h
  | removed h =>
    simpa [Change.joined, Change.merge, Merge.apply] using foldl_joined_of_present h

theorem foldl_joined_eq_none_iff (h : Fits before changes after) :
    changes.foldl Change.joined none = none ↔
      changes = [] ∨ (after = false ∧ .created ∈ changes) := by
  rw [foldl_joined_none h]
  by_cases hnothing : changes = []
  · simp [hnothing]
  · by_cases hcreated : .created ∈ changes
    · simp [hnothing, hcreated]
    · simp [hnothing, hcreated]

/-- A path that has changed is missing from the batch just when it is not there at the end and was
created since the batch began. So a net change is lost just when the path was there before, was
created again in between, and is not there at the end. -/
theorem net_change_kept_iff {b : Batcher} {p : Path} {reports : List (Nat × Report)}
    {before after : Bool} (hstart : b.pending? p = none)
    (hfits : Fits before (changesOf p (history reports)) after) :
    let changes := changesOf p (history reports)
    let waiting := (b.tellAll reports).pending? p
    (waiting = none ↔ changes = [] ∨ (after = false ∧ .created ∈ changes)) ∧
    ((waiting = none → changes = [] ∨ (before = false ∧ after = false)) ↔
      ¬ (before = true ∧ after = false ∧ .created ∈ changes)) := by
  intro changes waiting
  have hwaiting : waiting = none ↔ changes = [] ∨ (after = false ∧ .created ∈ changes) := by
    rw [← foldl_joined_eq_none_iff hfits, ← hstart]
    rw [← Batcher.pending?_tellAll reports]
  refine ⟨hwaiting, ?_⟩
  rw [hwaiting]
  constructor
  · rintro hkept ⟨hbefore, hafter, hcreated⟩
    rcases hkept (.inr ⟨hafter, hcreated⟩) with hnothing | ⟨habsent, -⟩
    · rw [hnothing] at hcreated
      exact List.not_mem_nil hcreated
    · rw [hbefore] at habsent
      cases habsent
  · rintro hnot (hnothing | ⟨hafter, hcreated⟩)
    · exact .inl hnothing
    · refine .inr ⟨?_, hafter⟩
      rw [← Bool.not_eq_true]
      exact fun hbefore => hnot ⟨hbefore, hafter, hcreated⟩

def pageNotices (kinds : List NoticeKind) : List (Nat × Report) :=
  kinds.zipIdx.map fun (kind, i) =>
    (10 * i * millisecond, .notice { files := .empty, cwd := [] } ⟨kind, [⟨"/pages/+Page.tsx"⟩]⟩)

/-- A page that is saved and then taken away is in the batch. -/
theorem net_change_kept_iff_saved :
    let reports := pageNotices [.modify, .metadata, .remove]
    let changes := changesOf ⟨"/pages/+Page.tsx"⟩ (history reports)
    let waiting := (({} : Batcher).tellAll reports).pending? ⟨"/pages/+Page.tsx"⟩
    ({} : Batcher).pending? ⟨"/pages/+Page.tsx"⟩ = none ∧ Fits true changes false ∧
    changes = [.modified, .removed] ∧ waiting ≠ none ∧
    (waiting = none → changes = [] ∨ (true = false ∧ false = false)) := by
  intro reports changes waiting
  have hchanges : changes = [.modified, .removed] := by decide +kernel
  have hfits : Fits true changes false := by
    rw [hchanges]
    exact .modified (.removed .nothing)
  have hcreated : .created ∉ changes := by
    rw [hchanges]
    decide
  have hstart : ({} : Batcher).pending? ⟨"/pages/+Page.tsx"⟩ = none := rfl
  obtain ⟨hmissing, hkept⟩ := net_change_kept_iff hstart hfits
  refine ⟨hstart, hfits, hchanges, ?_, hkept.2 fun hlost => hcreated hlost.2.2⟩
  intro hnone
  rcases hmissing.1 hnone with hnothing | ⟨-, hthere⟩
  · cases hchanges.symm.trans hnothing
  · exact hcreated hthere

/-- A page that is taken away, comes back and is taken away again is missing, although it was there
when the batch began. -/
theorem net_change_lost_removed_twice :
    let reports := pageNotices [.remove, .create, .remove]
    let changes := changesOf ⟨"/pages/+Page.tsx"⟩ (history reports)
    let waiting := (({} : Batcher).tellAll reports).pending? ⟨"/pages/+Page.tsx"⟩
    Fits true changes false ∧
      ¬ (waiting = none → changes = [] ∨ (true = false ∧ false = false)) := by
  intro reports changes waiting
  have hchanges : changes = [.removed, .created, .removed] := by decide +kernel
  have hwaiting : waiting = none := by decide +kernel
  refine ⟨?_, fun hkept => ?_⟩
  · rw [hchanges]
    exact .removed (.created (.removed .nothing))
  · rcases hkept hwaiting with hnothing | ⟨hbefore, -⟩
    · rw [hchanges] at hnothing
      cases hnothing
    · cases hbefore

end RouteTree.Watching
