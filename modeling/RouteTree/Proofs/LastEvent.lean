import RouteTree.Proofs.Batches

/-! The time a batcher remembers of what it was told. It is the time of the last change that made a
difference to what waits, and it is forgotten with the next batch only. So it stays when all that
waits is undone, and it is older than the last change that was told when that one was known
already. -/
namespace RouteTree.Watching

def timed (reports : List (Nat × Report)) : List (Nat × (Path × Change)) :=
  reports.flatMap fun report => report.2.changes.map (report.1, ·)

theorem map_snd_timed (reports : List (Nat × Report)) :
    (timed reports).map Prod.snd = history reports := by
  rw [timed, history, List.map_flatMap]
  simp [Function.comp_def]

/-- Something else waits for its path after the change than before it. -/
def Differs (earlier : List (Path × Change)) (e : Path × Change) : Prop :=
  let waiting := (changesOf e.1 earlier).foldl Change.rule none
  Change.rule waiting e.2 ≠ waiting

instance (earlier : List (Path × Change)) (e : Path × Change) : Decidable (Differs earlier e) :=
  inferInstanceAs (Decidable (_ ≠ _))

/-- When a change last made a difference, where some changes came before. -/
def lastDifference (earlier : List (Path × Change)) : List (Nat × (Path × Change)) → Option Nat
  | [] => none
  | (now, e) :: rest =>
    (lastDifference (earlier ++ [e]) rest).or (if Differs earlier e then some now else none)

theorem lastDifference_nil_eq_none_iff (entries : List (Nat × (Path × Change))) :
    lastDifference [] entries = none ↔ entries = [] := by
  cases entries with
  | nil => simp [lastDifference]
  | cons entry rest =>
    have hfirst : Differs [] entry.2 := Option.some_ne_none _
    rw [lastDifference, Option.or_eq_none_iff, if_pos hfirst]
    simp

theorem mem_of_lastDifference {earlier : List (Path × Change)}
    {entries : List (Nat × (Path × Change))} {t : Nat}
    (h : lastDifference earlier entries = some t) : ∃ e, (t, e) ∈ entries := by
  induction entries generalizing earlier with
  | nil => cases h
  | cons entry rest ih =>
    obtain ⟨now, e⟩ := entry
    rw [lastDifference, Option.or_eq_some_iff] at h
    rcases h with hlater | ⟨-, hfirst⟩
    · obtain ⟨e', he'⟩ := ih hlater
      exact ⟨e', List.mem_cons_of_mem _ he'⟩
    · rw [Option.ite_none_right_eq_some, Option.some.injEq] at hfirst
      exact ⟨e, hfirst.2 ▸ List.mem_cons_self⟩

namespace Batcher

variable {b : Batcher} {now t : Nat} {p : Path} {change : Change} {calls : List (Nat × Call)}

theorem lastEvent_record : (b.record now p change).lastEvent =
    if Change.rule (b.pending? p) change = b.pending? p then b.lastEvent else some now := by
  rw [record, ← Change.joined_eq_rule, Change.joined]
  cases hpending : b.pending? p with
  | none => rfl
  | some old => cases old <;> cases change <;> rfl

def recordTimed (b : Batcher) (entries : List (Nat × (Path × Change))) : Batcher :=
  entries.foldl (fun b entry => b.record entry.1 entry.2.1 entry.2.2) b

theorem tellAll_eq_recordTimed (reports : List (Nat × Report)) :
    b.tellAll reports = b.recordTimed (timed reports) := by
  rw [recordTimed, timed, List.foldl_flatMap, tellAll]
  congr 1
  funext b report
  rw [tell_eq_recordEach, recordEach, List.foldl_map]

/-- A batcher in which what waits comes from some earlier changes. -/
def Holds (b : Batcher) (earlier : List (Path × Change)) : Prop :=
  ∀ p, b.pending? p = (changesOf p earlier).foldl Change.rule none

theorem Holds.record {earlier : List (Path × Change)} (h : b.Holds earlier) (now : Nat)
    (e : Path × Change) : (b.record now e.1 e.2).Holds (earlier ++ [e]) := by
  intro p
  rw [pending?_record, changesOf_append, List.foldl_append, ← h p, Change.joined_eq_rule]
  by_cases hep : e.1.same p
  · simp [changesOf, hep]
  · simp [changesOf, hep]

theorem lastEvent_recordTimed {earlier : List (Path × Change)} (h : b.Holds earlier)
    (entries : List (Nat × (Path × Change))) :
    (b.recordTimed entries).lastEvent = (lastDifference earlier entries).or b.lastEvent := by
  induction entries generalizing b earlier with
  | nil => rfl
  | cons entry rest ih =>
    obtain ⟨now, e⟩ := entry
    rw [recordTimed, List.foldl_cons, ← recordTimed, ih (h.record now e), lastDifference,
      Option.or_assoc, lastEvent_record, h e.1]
    by_cases hdiffers : Differs earlier e
    · rw [if_pos hdiffers, if_neg hdiffers, Option.some_or]
    · rw [if_neg hdiffers, if_pos (Decidable.not_not.1 hdiffers), Option.none_or]

/-- When a change last made a difference since the last batch. -/
def lastChange? (calls : List (Nat × Call)) : Option Nat :=
  lastDifference [] (timed (reportsSince calls))

theorem lastEvent_after (calls : List (Nat × Call)) :
    (after calls).lastEvent = lastChange? calls := by
  have hholds : ({ lastPass := batchTime? calls } : Batcher).Holds [] := fun p => rfl
  rw [after_eq_tellAll, tellAll_eq_recordTimed, lastEvent_recordTimed hholds]
  exact Option.or_none

theorem lastPass_after (calls : List (Nat × Call)) :
    (after calls).lastPass = batchTime? calls := by
  rw [after_eq_tellAll]
  refine tellAll_induction (P := fun b => b.lastPass = batchTime? calls) _ ?_ rfl
  intro b now p change h
  rw [← h, record]
  cases change.merge (b.pending? p) <;> rfl

theorem lastEvent_after_eq_none_iff :
    (after calls).lastEvent = none ↔ history (reportsSince calls) = [] := by
  rw [lastEvent_after, lastChange?, lastDifference_nil_eq_none_iff, ← map_snd_timed,
    List.map_eq_nil_iff]

theorem exists_lastEvent_of_pending (h : (after calls).pending ≠ []) :
    ∃ t, (after calls).lastEvent = some t := by
  rw [← Option.isSome_iff_exists, ← Option.ne_none_iff_isSome, Ne, lastEvent_after_eq_none_iff]
  intro hnothing
  obtain ⟨e, he⟩ := List.exists_mem_of_ne_nil _ h
  have hwaiting : (after calls).pending? e.1 ≠ none :=
    pending?_ne_none_iff.2 ⟨e, he, Path.same_iff.2 rfl⟩
  rw [pending?_after, hnothing] at hwaiting
  exact hwaiting rfl

theorem hasPassed_some_iff {duration : Nat} (h : 0 < duration) :
    hasPassed now duration (some t) ↔ t + duration ≤ now := by
  rw [hasPassed, decide_eq_true_eq]
  omega

/-- From when on the batch before keeps no other one back. -/
def freeFrom (b : Batcher) : Nat :=
  match b.lastPass with
  | none => 0
  | some t => t + cooldown

theorem hasPassed_cooldown_iff : hasPassed now cooldown b.lastPass ↔ b.freeFrom ≤ now := by
  rw [freeFrom]
  cases b.lastPass with
  | none => simp [hasPassed]
  | some t => exact hasPassed_some_iff (by decide)

theorem remaining_cooldown (h : b.freeFrom ≤ now) : remaining now cooldown b.lastPass = 0 := by
  cases hpass : b.lastPass with
  | none => rfl
  | some t =>
    have hle : t + cooldown ≤ now := by simpa only [freeFrom, hpass] using h
    rw [remaining]
    omega

theorem le_freeFrom_iff {time : Nat} (h : 0 < time) :
    time ≤ b.freeFrom ↔ ∃ t, b.lastPass = some t ∧ time ≤ t + cooldown := by
  rw [freeFrom]
  cases b.lastPass with
  | none => simp [Nat.ne_of_gt h]
  | some t => simp

/-- Something waits, it was quiet since it came, and the batch before is long enough ago. -/
theorem isReady_iff : b.isReady now ↔
    ∃ t, b.lastEvent = some t ∧ t + quietTime ≤ now ∧ b.freeFrom ≤ now ∧ b.pending ≠ [] := by
  rw [← hasPassed_cooldown_iff, isReady]
  cases hevent : b.lastEvent with
  | none => simp
  | some t => simp [hasPassed_some_iff (show 0 < quietTime by decide), and_assoc]

/-- From when on what waits can be taken, where the last event was at the given time. -/
def dueFrom (b : Batcher) (t : Nat) : Nat := max (t + quietTime) b.freeFrom

theorem isReady_iff_dueFrom (hevent : b.lastEvent = some t) (hpending : b.pending ≠ []) :
    b.isReady now ↔ b.dueFrom t ≤ now := by
  rw [isReady_iff, dueFrom, Nat.max_le]
  simp [hevent, hpending]

theorem exists_sleep_eq_millisecond (h : b.lastEvent = some t) :
    ∃ late, ∀ now, late ≤ now → b.sleep now = millisecond := by
  refine ⟨b.dueFrom t, fun now hnow => ?_⟩
  obtain ⟨hpassed, hfree⟩ := Nat.max_le.1 hnow
  have hquiet : remaining now quietTime (some t) = 0 := by
    rw [remaining]
    omega
  rw [sleep, h]
  dsimp only
  rw [hquiet, remaining_cooldown hfree]
  rfl

theorem take_of_nothing (h : b.pending = []) (now : Nat) : b.take now = (b, none) := by
  rcases take_cases b now with ⟨-, htake⟩ | ⟨hready, -⟩
  · exact htake
  · obtain ⟨-, -, -, -, hpending⟩ := isReady_iff.1 hready
    exact absurd h hpending

/-- When nothing waits, the last event is forgotten and the sleep is the long one just if no change
was told since the last batch. Otherwise the changes that were told have undone one another, and
from some time on the sleep is the shortest one, again and again, although there is nothing to
take. -/
theorem idle_when_nothing_waits_iff (calls : List (Nat × Call))
    (h : (after calls).pending = []) :
    let b := after calls
    ((b.lastEvent = none ∧ ∀ now, b.sleep now = idleSleep) ↔
      history (reportsSince calls) = []) ∧
    (history (reportsSince calls) ≠ [] →
      ∃ late, ∀ now, late ≤ now → b.sleep now = millisecond ∧ b.take now = (b, none)) := by
  intro b
  refine ⟨⟨fun hidle => lastEvent_after_eq_none_iff.1 hidle.1, fun hnothing => ?_⟩, fun hsome => ?_⟩
  · have hevent : b.lastEvent = none := lastEvent_after_eq_none_iff.2 hnothing
    refine ⟨hevent, fun now => ?_⟩
    rw [sleep, hevent]
  · obtain ⟨t, ht⟩ := Option.ne_none_iff_exists'.1 (mt lastEvent_after_eq_none_iff.1 hsome)
    obtain ⟨late, hlate⟩ := exists_sleep_eq_millisecond ht
    exact ⟨late, fun now hnow => ⟨hlate now hnow, take_of_nothing h now⟩⟩

/-- A batch was taken, and nothing has happened since; then a page is created and taken away. -/
theorem idle_when_nothing_waits_iff_taken :
    let page : Path := ⟨"/pages/+Page.tsx"⟩
    let taken := [(400 * millisecond, .take), (0, tellPages .modify [page])]
    let undone := (600 * millisecond, tellPages .remove [page]) ::
      (500 * millisecond, tellPages .create [page]) :: taken
    let idle := after taken
    let busy := after undone
    (idle.pending = [] ∧ history (reportsSince taken) = [] ∧
      idle.lastEvent = none ∧ ∀ now, idle.sleep now = idleSleep) ∧
    busy.pending = [] ∧ history (reportsSince undone) ≠ [] ∧
      (∃ late, ∀ now, late ≤ now → busy.sleep now = millisecond ∧ busy.take now = (busy, none)) ∧
      ¬ (busy.lastEvent = none ∧ ∀ now, busy.sleep now = idleSleep) := by
  intro page taken undone idle busy
  have hidle : idle.pending = [] := by decide +kernel
  have hnothing : history (reportsSince taken) = [] := by decide +kernel
  have hbusy : busy.pending = [] := by decide +kernel
  have hsome : history (reportsSince undone) ≠ [] := by decide +kernel
  obtain ⟨hiff, hshort⟩ := idle_when_nothing_waits_iff undone hbusy
  exact ⟨⟨hidle, hnothing, (idle_when_nothing_waits_iff taken hidle).1.2 hnothing⟩,
    hbusy, hsome, hshort hsome, mt hiff.1 hsome⟩

/-- A page that is created and taken away leaves nothing to wait for, and no long sleep either. -/
theorem not_idle_created_removed :
    let page : Path := ⟨"/pages/+Page.tsx"⟩
    let now := 10 * millisecond
    let b := after [(now, tellPages .remove [page]), (0, tellPages .create [page])]
    b.pending = [] ∧ ¬ (b.lastEvent = none ∧ b.sleep now = idleSleep) := by
  decide +kernel

/-- When the last report came that told of a change. -/
def lastReport? : List (Nat × Call) → Option Nat
  | [] => none
  | (now, .tell report) :: earlier =>
    if report.changes = [] then lastReport? earlier else some now
  | (_, .take) :: earlier => lastReport? earlier

theorem mem_of_lastReport? (h : lastReport? calls = some t) : ∃ call, (t, call) ∈ calls := by
  induction calls with
  | nil => cases h
  | cons first earlier ih =>
    obtain ⟨now, call⟩ := first
    have hearlier (h : lastReport? earlier = some t) :
        ∃ call', (t, call') ∈ (now, call) :: earlier := by
      obtain ⟨call', hcall'⟩ := ih h
      exact ⟨call', List.mem_cons_of_mem _ hcall'⟩
    cases call with
    | tell report =>
      rw [lastReport?] at h
      split at h
      · exact hearlier h
      · cases h
        exact ⟨_, List.mem_cons_self⟩
    | take => exact hearlier h

/-- Later calls have later times, or the same. -/
def InTime (calls : List (Nat × Call)) : Prop :=
  calls.Pairwise fun later earlier => earlier.1 ≤ later.1

theorem le_lastReport? (hclock : InTime calls) {e : Path × Change}
    (h : (t, e) ∈ timed (reportsSince calls)) : ∃ told, lastReport? calls = some told ∧ t ≤ told := by
  induction calls with
  | nil => cases h
  | cons first earlier ih =>
    obtain ⟨now, call⟩ := first
    obtain ⟨hnow, hearlier⟩ := List.pairwise_cons.1 hclock
    cases call with
    | tell report =>
      rw [reportsSince, timed, List.flatMap_append, List.mem_append] at h
      rw [lastReport?]
      by_cases hnothing : report.changes = []
      · rw [if_pos hnothing]
        rcases h with hbefore | hreport
        · exact ih hearlier hbefore
        · simp [hnothing] at hreport
      · rw [if_neg hnothing]
        refine ⟨now, rfl, ?_⟩
        rcases h with hbefore | hreport
        · obtain ⟨told, htold, hle⟩ := ih hearlier hbefore
          obtain ⟨call, hcall⟩ := mem_of_lastReport? htold
          exact Nat.le_trans hle (hnow _ hcall)
        · rw [List.flatMap_singleton, List.mem_map] at hreport
          obtain ⟨e', -, heq⟩ := hreport
          exact Nat.le_of_eq (congrArg Prod.fst heq).symm
    | take =>
      rw [reportsSince] at h
      split at h
      · exact ih hearlier h
      · cases h

theorem lastChange?_le (hclock : InTime calls) {told : Nat} (htold : lastReport? calls = some told)
    (h : lastChange? calls = some t) : t ≤ told := by
  obtain ⟨e, he⟩ := mem_of_lastDifference h
  obtain ⟨told', htold', hle⟩ := le_lastReport? hclock he
  rw [htold, Option.some.injEq] at htold'
  omega

/-- Before a batch it was quiet since the last change that made a difference. It was quiet since the
last report of a change, whenever a batch may be taken, just if nothing waits, or the last report
made a difference itself, or the batch before was so late that the distance to it covers the quiet
time. -/
theorem quiet_before_batch_iff {calls : List (Nat × Call)} {told : Nat} (hclock : InTime calls)
    (htold : lastReport? calls = some told) :
    let b := after calls
    (∀ now batch, (b.take now).2 = some batch →
      ∃ t, lastChange? calls = some t ∧ t + quietTime ≤ now) ∧
    ((∀ now batch, told ≤ now → (b.take now).2 = some batch → told + quietTime ≤ now) ↔
      b.pending = [] ∨ lastChange? calls = lastReport? calls ∨
        ∃ t, batchTime? calls = some t ∧ told + quietTime ≤ t + cooldown) := by
  intro b
  have hpositive : 0 < quietTime := by decide
  refine ⟨fun now batch htake => ?_, fun hquiet => ?_, ?_⟩
  · obtain ⟨t, ht, hpassed, -⟩ := isReady_iff.1 (take_eq_some htake).1
    exact ⟨t, lastEvent_after calls ▸ ht, hpassed⟩
  · by_contra hnone
    obtain ⟨hpending, hrest⟩ := not_or.1 hnone
    obtain ⟨hearlier, hnear⟩ := not_or.1 hrest
    obtain ⟨t, ht⟩ := exists_lastEvent_of_pending hpending
    have hlast : lastChange? calls = some t := lastEvent_after calls ▸ ht
    have hlt : t < told := by
      refine Nat.lt_of_le_of_ne (lastChange?_le hclock htold hlast) fun heq => ?_
      exact hearlier (hlast.trans (heq ▸ htold.symm))
    have hsoon : b.freeFrom < told + quietTime := by
      rw [← Nat.not_le, le_freeFrom_iff (by omega), lastPass_after]
      exact hnear
    -- the first moment at which the batch can be taken is too early
    have hdue : b.dueFrom t < told + quietTime := Nat.max_lt.2 ⟨by omega, hsoon⟩
    have hready : b.isReady (max told (b.dueFrom t)) :=
      (isReady_iff_dueFrom ht hpending).2 (Nat.le_max_right _ _)
    have hlate := hquiet _ _ (Nat.le_max_left _ _) (by rw [take, if_pos hready])
    omega
  · rintro hcases now batch - htake
    obtain ⟨t, ht, hpassed, hfree, hpending⟩ := isReady_iff.1 (take_eq_some htake).1
    rcases hcases with hnothing | hlast | ⟨pass, hpass, hle⟩
    · exact absurd hnothing hpending
    · rw [lastEvent_after, hlast, htold, Option.some.injEq] at ht
      omega
    · have hcool : told + quietTime ≤ b.freeFrom :=
        (le_freeFrom_iff (by omega)).2 ⟨pass, (lastPass_after calls).trans hpass, hle⟩
      omega

/-- A page is saved and taken away a little later, which makes a difference. So it is quiet before
the batch, which comes as soon as it can. -/
theorem quiet_before_batch_iff_saved :
    let page : Path := ⟨"/pages/+Page.tsx"⟩
    let told := 250 * millisecond
    let calls := [(told, tellPages .remove [page]), (0, tellPages .modify [page])]
    let b := after calls
    InTime calls ∧ lastReport? calls = some told ∧ lastChange? calls = some told ∧
    (∀ now batch, told ≤ now → (b.take now).2 = some batch → told + quietTime ≤ now) ∧
    ∃ batch, (b.take (told + quietTime)).2 = some batch := by
  intro page told calls b
  have hclock : InTime calls := by simp [calls, InTime]
  have htold : lastReport? calls = some told := by decide +kernel
  have hchange : lastChange? calls = some told := by decide +kernel
  have hquiet := (quiet_before_batch_iff hclock htold).2.2
    (.inr (.inl (hchange.trans htold.symm)))
  have hready : b.isReady (told + quietTime) := by decide +kernel
  exact ⟨hclock, htold, hchange, hquiet, _, by rw [take, if_pos hready]⟩

/-- A page that is being saved again and again is taken while it is. -/
theorem not_quiet_saved_again :
    let page : Path := ⟨"/pages/+Page.tsx"⟩
    let told := 400 * millisecond
    let calls := [(told, tellPages .modify [page]), (0, tellPages .modify [page])]
    InTime calls ∧ lastReport? calls = some told ∧
    ¬ ∀ now batch, told ≤ now → ((after calls).take now).2 = some batch →
      told + quietTime ≤ now := by
  intro page told calls
  have hclock : InTime calls := by simp [calls, InTime]
  have hready : (after calls).isReady told := by decide +kernel
  refine ⟨hclock, by decide +kernel, fun hquiet => ?_⟩
  have hlate := hquiet told _ (Nat.le_refl _) (by rw [take, if_pos hready])
  exact absurd hlate (by decide)

end Batcher

end RouteTree.Watching
