import RouteTree.Proofs.LastEvent

/-! How long to sleep. While something waits, the sleep ends at the first moment at which a batch
can be taken: when it has been quiet and the batch before is long enough ago. So batches keep their
distance over a whole run. -/
namespace RouteTree.Watching.Batcher

variable {b : Batcher} {now t : Nat} {calls : List (Nat × Call)}

def batchTimes : List (Nat × Call) → List Nat
  | [] => []
  | (_, .tell _) :: earlier => batchTimes earlier
  | (now, .take) :: earlier =>
    match ((after earlier).take now).2 with
    | none => batchTimes earlier
    | some _ => now :: batchTimes earlier

theorem remaining_cooldown_eq (hpass : ∀ t, b.lastPass = some t → t ≤ now) :
    remaining now cooldown b.lastPass = b.freeFrom - now := by
  rw [freeFrom]
  cases hlast : b.lastPass with
  | none => simp [remaining]
  | some t =>
    have hle : t ≤ now := hpass t hlast
    rw [remaining]
    dsimp only
    omega

/-- The sleep goes up to the moment at which the batch is due. One that is due already is looked
after in a moment. -/
theorem sleep_eq (hevent : b.lastEvent = some t) (ht : t ≤ now)
    (hpass : ∀ t, b.lastPass = some t → t ≤ now) :
    b.sleep now = max (b.dueFrom t - now) millisecond := by
  have hquiet : remaining now quietTime (some t) = t + quietTime - now := by
    rw [remaining]
    omega
  rw [sleep, hevent]
  dsimp only
  rw [hquiet, remaining_cooldown_eq hpass, dueFrom, Nat.sub_max_sub_right]

theorem mem_of_mem_timed {e : Path × Change} (h : (t, e) ∈ timed (reportsSince calls)) :
    ∃ report, (t, .tell report) ∈ calls := by
  induction calls with
  | nil => cases h
  | cons first earlier ih =>
    obtain ⟨now, call⟩ := first
    have hearlier (h : (t, e) ∈ timed (reportsSince earlier)) :
        ∃ report, (t, .tell report) ∈ (now, call) :: earlier := by
      obtain ⟨report, hreport⟩ := ih h
      exact ⟨report, List.mem_cons_of_mem _ hreport⟩
    cases call with
    | tell report =>
      rw [reportsSince, timed, List.flatMap_append, List.mem_append] at h
      rcases h with hbefore | hreport
      · exact hearlier hbefore
      · rw [List.flatMap_singleton, List.mem_map] at hreport
        obtain ⟨e', -, heq⟩ := hreport
        cases heq
        exact ⟨report, List.mem_cons_self⟩
    | take =>
      rw [reportsSince] at h
      split at h
      · exact hearlier h
      · cases h

theorem mem_of_batchTime? (h : batchTime? calls = some t) : (t, .take) ∈ calls := by
  induction calls with
  | nil => cases h
  | cons first earlier ih =>
    obtain ⟨now, call⟩ := first
    cases call with
    | tell report => exact List.mem_cons_of_mem _ (ih h)
    | take =>
      rw [batchTime?] at h
      split at h
      · exact List.mem_cons_of_mem _ (ih h)
      · cases h
        exact List.mem_cons_self

section Clock

variable (hclock : ∀ call ∈ calls, call.1 ≤ now)

include hclock

theorem lastEvent_le (h : (after calls).lastEvent = some t) : t ≤ now := by
  rw [lastEvent_after] at h
  obtain ⟨e, he⟩ := mem_of_lastDifference h
  obtain ⟨report, hreport⟩ := mem_of_mem_timed he
  exact hclock _ hreport

theorem lastPass_le (h : (after calls).lastPass = some t) : t ≤ now := by
  rw [lastPass_after] at h
  exact hclock _ (mem_of_batchTime? h)

/-- Something that waits after some calls is due at one moment, which the sleep tells. -/
theorem exists_dueFrom (hpending : (after calls).pending ≠ []) :
    ∃ due, (after calls).sleep now = max (due - now) millisecond ∧
      ∀ later, (after calls).isReady later ↔ due ≤ later := by
  obtain ⟨t, ht⟩ := exists_lastEvent_of_pending hpending
  exact ⟨(after calls).dueFrom t,
    sleep_eq ht (lastEvent_le hclock ht) fun pass hpass => lastPass_le hclock hpass,
    fun later => isReady_iff_dueFrom ht hpending⟩

end Clock

theorem head?_batchTimes (calls : List (Nat × Call)) :
    (batchTimes calls).head? = batchTime? calls := by
  induction calls with
  | nil => rfl
  | cons first earlier ih =>
    obtain ⟨now, call⟩ := first
    cases call with
    | tell report => exact ih
    | take =>
      rw [batchTimes, batchTime?]
      cases ((after earlier).take now).2 with
      | none => exact ih
      | some batch => rfl

theorem batchTime?_add_cooldown_le {batch : List Path} (hpass : batchTime? calls = some t)
    (h : ((after calls).take now).2 = some batch) : t + cooldown ≤ now := by
  obtain ⟨-, -, -, hfree, -⟩ := isReady_iff.1 (take_eq_some h).1
  rw [freeFrom, lastPass_after, hpass] at hfree
  exact hfree

theorem isChain_batchTimes (calls : List (Nat × Call)) :
    (batchTimes calls).IsChain fun later earlier => earlier + cooldown ≤ later := by
  induction calls with
  | nil => exact .nil
  | cons first earlier ih =>
    obtain ⟨now, call⟩ := first
    cases call with
    | tell report => exact ih
    | take =>
      rw [batchTimes]
      split
      · exact ih
      · next batch htake =>
        have hlast := head?_batchTimes earlier
        cases htimes : batchTimes earlier with
        | nil => exact .singleton now
        | cons t rest =>
          rw [htimes] at hlast ih
          exact .cons_cons (batchTime?_add_cooldown_le hlast.symm htake) ih

/-- While something waits, a batch can be taken as soon as the sleep is over, and not before unless
the sleep is the shortest one. Any batch of a run comes 800 ms or more after the one before. -/
theorem batch_taken_iff_slept (calls : List (Nat × Call)) :
    let b := after calls
    (∀ now wait, (∀ call ∈ calls, call.1 ≤ now) → b.pending ≠ [] →
      (b.sleep now ≤ wait → ∃ batch, (b.take (now + wait)).2 = some batch) ∧
      (millisecond < b.sleep now → wait < b.sleep now → (b.take (now + wait)).2 = none)) ∧
    (batchTimes calls).IsChain fun later earlier => earlier + 800 * millisecond ≤ later := by
  intro b
  refine ⟨fun now wait hclock hpending => ?_, isChain_batchTimes calls⟩
  obtain ⟨due, hsleep, hready⟩ := exists_dueFrom hclock hpending
  change b.sleep now = _ at hsleep
  constructor
  · intro hslept
    have hdue : b.isReady (now + wait) := (hready _).2 (by omega)
    exact ⟨_, by rw [take, if_pos hdue]⟩
  · intro hlong hearly
    have hnot : ¬ b.isReady (now + wait) := by
      rw [hready]
      omega
    rw [take, if_neg hnot]

/-- A page is saved in the cooldown after a batch. The sleep goes on to the end of the cooldown. -/
theorem batch_taken_iff_slept_cooling :
    let page : Path := ⟨"/pages/+Page.tsx"⟩
    let calls := [(500 * millisecond, tellPages .modify [page]), (400 * millisecond, .take),
      (0, tellPages .create [page])]
    let b := after calls
    let now := 600 * millisecond
    let due := 1200 * millisecond
    (∀ call ∈ calls, call.1 ≤ now) ∧ b.pending ≠ [] ∧ b.sleep now = 600 * millisecond ∧
    (∃ batch, (b.take due).2 = some batch) ∧ (b.take (due - 1)).2 = none ∧
    batchTimes ((due, .take) :: calls) = [due, 400 * millisecond] ∧
    (batchTimes ((due, .take) :: calls)).IsChain
      fun later earlier => earlier + 800 * millisecond ≤ later := by
  intro page calls b now due
  have hclock : ∀ call ∈ calls, call.1 ≤ now := by
    simp [calls, tellPages, now, millisecond]
  have hpending : b.pending ≠ [] := by decide +kernel
  have hsleep : b.sleep now = 600 * millisecond := by decide +kernel
  have hat := ((batch_taken_iff_slept calls).1 now (600 * millisecond) hclock hpending).1
    (Nat.le_of_eq hsleep)
  have hdue : now + 600 * millisecond = due := by decide
  rw [hdue] at hat
  -- one nanosecond earlier
  have hbefore := ((batch_taken_iff_slept calls).1 now (600 * millisecond - 1) hclock hpending).2
    (by rw [hsleep]; decide) (by rw [hsleep]; decide)
  have hearly : now + (600 * millisecond - 1) = due - 1 := by decide
  rw [hearly] at hbefore
  exact ⟨hclock, hpending, hsleep, hat, hbefore, by decide +kernel,
    (batch_taken_iff_slept ((due, .take) :: calls)).2⟩

end RouteTree.Watching.Batcher
