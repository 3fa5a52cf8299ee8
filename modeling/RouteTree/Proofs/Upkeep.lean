import RouteTree.Proofs.Pending
import RouteTree.Watching.Roots

/-! The watched directories over whole runs. Between two looks at the files a directory can go away
and come back any number of times; a watch ends with its directory, but at the next look only what
is there then can be seen. -/
namespace RouteTree.Watching

/-- A step of a run: the files change, or the roots are attended to. -/
inductive RootStep
  /-- The files become others. Directories are made or go away one step after another. -/
  | files (after : Workspace)
  | attach
  | maintain

/-- The roots in the middle of a run, and what is true of their watches. -/
structure Upkeep where
  workspace : Workspace
  roots : WatchRoots
  /-- Whether a path has come into being since the last look at the files. -/
  created : Path → Bool := fun _ => false
  /-- Whether a path was there at the last maintenance, or when roots were attached after it. -/
  noted : Path → Bool := fun _ => false
  /-- Whether a watch on what is there under a path is alive. -/
  live : Path → Bool := fun _ => false

namespace Upkeep

def returned (v : Upkeep) : List Path := (v.roots.maintain v.workspace).2

def step (v : Upkeep) : RootStep → Upkeep
  | .files after => { v with
      workspace := after
      created := fun p => v.created p || !v.workspace.pathExists p && after.pathExists p
      live := fun p => v.live p && after.pathExists p }
  | .attach => { v with
      roots := v.roots.attachExisting v.workspace
      created := fun _ => false
      noted := fun p => v.noted p || v.workspace.pathExists p
      live := fun p => v.live p || v.roots.desired.contains p && v.workspace.pathExists p }
  | .maintain => { v with
      roots := (v.roots.maintain v.workspace).1
      created := fun _ => false
      noted := v.workspace.pathExists
      live := fun p => v.live p || v.returned.contains p }

def start (desired : List Path) (ws : Workspace) : Upkeep :=
  { workspace := ws, roots := { desired } }

def run (v : Upkeep) (steps : List RootStep) : Upkeep := steps.foldl step v

/-- A maintenance attends to a root: if it is there and has come into being since the last look, it
is returned, once, and if it is there, a watch on it is alive afterwards. -/
structure Attends (v : Upkeep) (p : Path) : Prop where
  returned : v.workspace.pathExists p → v.created p → v.returned.count p = 1
  live : v.workspace.pathExists p → (v.step .maintain).live p

/-- A root is there and was there at the last look, but it is not the same: it has gone away and
come back in between. -/
def Replaced (v : Upkeep) (p : Path) : Prop :=
  v.workspace.pathExists p ∧ v.noted p ∧ v.created p

end Upkeep

namespace WatchRoots

variable {ws : Workspace} {attached paths : List Path} {p q : Path}

theorem mem_of_mem_appearing (h : q ∈ appearing ws attached paths) : q ∈ paths := by
  fun_induction appearing ws attached paths with
  | case1 => cases h
  | case2 attached first rest hskip ih => exact List.mem_cons_of_mem first (ih h)
  | case3 attached first rest htake ih =>
    rcases List.mem_cons.1 h with rfl | h
    · exact List.mem_cons_self
    · exact List.mem_cons_of_mem first (ih h)

theorem isAttached_cons (hspelled : p.same q → q = p) :
    isAttached (q :: attached) p = (decide (q = p) || isAttached attached p) := by
  have hsame : p.same q = decide (q = p) := by
    rw [Bool.eq_iff_iff, decide_eq_true_eq]
    refine ⟨hspelled, ?_⟩
    rintro rfl
    exact Path.same_iff.2 rfl
  rw [isAttached, List.any_cons, hsame]
  rfl

theorem count_appearing (hspelled : ∀ q ∈ paths, p.same q → q = p) :
    (appearing ws attached paths).count p =
      if p ∈ paths ∧ ws.pathExists p ∧ isAttached attached p = false then 1 else 0 := by
  fun_induction appearing ws attached paths with
  | case1 => simp
  | case2 attached first rest hskip ih =>
    obtain ⟨-, hrest⟩ := List.forall_mem_cons.1 hspelled
    rw [ih hrest]
    by_cases hfirst : first = p
    · subst hfirst
      have hnot : ¬ (ws.pathExists first ∧ isAttached attached first = false) := by
        rintro ⟨hthere, hnew⟩
        simp [hthere, hnew] at hskip
      rw [if_neg fun h => hnot h.2, if_neg fun h => hnot h.2]
    · simp [Ne.symm hfirst]
  | case3 attached first rest htake ih =>
    obtain ⟨hfirst, hrest⟩ := List.forall_mem_cons.1 hspelled
    rw [List.count_cons, ih hrest, isAttached_cons hfirst]
    by_cases heq : first = p
    · subst heq
      simpa [and_comm] using htake
    · simp [heq, Ne.symm heq]

theorem isAttached_appearing (hspelled : ∀ q ∈ paths, p.same q → q = p) (hp : p ∈ paths) :
    isAttached (appearing ws attached paths) p =
      (ws.pathExists p && !isAttached attached p) := by
  have hmem : isAttached (appearing ws attached paths) p ↔ p ∈ appearing ws attached paths := by
    rw [isAttached, List.any_eq_true]
    constructor
    · rintro ⟨q, hq, hsame⟩
      rwa [← hspelled q (mem_of_mem_appearing hq) hsame]
    · exact fun h => ⟨p, h, Path.same_iff.2 rfl⟩
  rw [Bool.eq_iff_iff, hmem, ← List.count_pos_iff, count_appearing hspelled]
  split <;> simp_all

theorem isAttached_filter (hspelled : ∀ q ∈ attached, p.same q → q = p) :
    isAttached (attached.filter ws.pathExists) p =
      (isAttached attached p && ws.pathExists p) := by
  induction attached with
  | nil => rfl
  | cons q rest ih =>
    obtain ⟨hq, hrest⟩ := List.forall_mem_cons.1 hspelled
    rw [isAttached_cons hq, List.filter_cons]
    by_cases heq : q = p
    · subst heq
      cases hthere : ws.pathExists q with
      | true => simp [isAttached_cons hq]
      | false => simp [ih hrest, hthere]
    · split
      · rw [isAttached_cons hq, ih hrest]
        simp [heq]
      · rw [ih hrest]
        simp [heq]

theorem isAttached_append (a b : List Path) (p : Path) :
    isAttached (a ++ b) p = (isAttached a p || isAttached b p) := List.any_append

end WatchRoots

namespace Upkeep

variable {desired : List Path} {ws : Workspace} {v : Upkeep} {p : Path}

/-- A root is counted as attached just when it was noted. -/
structure Tracks (v : Upkeep) (desired : List Path) (p : Path) : Prop where
  desires : v.roots.desired = desired
  attached : ∀ q ∈ v.roots.attached, q ∈ desired
  noted : WatchRoots.isAttached v.roots.attached p = v.noted p

section Root

variable (hp : p ∈ desired) (hspelled : ∀ q ∈ desired, p.same q → q = p)

include hp hspelled

theorem Tracks.step (h : v.Tracks desired p) (s : RootStep) : (v.step s).Tracks desired p := by
  obtain ⟨rfl, hattached, hnoted⟩ := h
  cases s with
  | files after => exact ⟨rfl, hattached, hnoted⟩
  | attach =>
    refine ⟨rfl, fun q hq => ?_, ?_⟩
    · rcases List.mem_append.1 hq with hq | hq
      · exact hattached q hq
      · exact WatchRoots.mem_of_mem_appearing hq
    · simp only [Upkeep.step, WatchRoots.attachExisting, WatchRoots.isAttached_append,
        WatchRoots.isAttached_appearing hspelled hp, hnoted]
      cases v.noted p <;> simp
  | maintain =>
    have hleft : WatchRoots.isAttached (v.roots.attached.filter v.workspace.pathExists) p =
        (WatchRoots.isAttached v.roots.attached p && v.workspace.pathExists p) :=
      WatchRoots.isAttached_filter fun q hq => hspelled q (hattached q hq)
    refine ⟨rfl, fun q hq => ?_, ?_⟩
    · rcases List.mem_append.1 hq with hq | hq
      · exact hattached q (List.mem_filter.1 hq).1
      · exact WatchRoots.mem_of_mem_appearing hq
    · simp only [Upkeep.step, WatchRoots.maintain, WatchRoots.isAttached_append,
        WatchRoots.isAttached_appearing hspelled hp, hleft]
      cases v.workspace.pathExists p <;> simp

theorem tracks_run (h : v.Tracks desired p) (steps : List RootStep) :
    (v.run steps).Tracks desired p := by
  induction steps generalizing v with
  | nil => exact h
  | cons s rest ih => exact ih (h.step hp hspelled s)

theorem Tracks.count_returned (h : v.Tracks desired p) :
    v.returned.count p = if v.workspace.pathExists p ∧ v.noted p = false then 1 else 0 := by
  obtain ⟨rfl, hattached, hnoted⟩ := h
  have hleft : WatchRoots.isAttached (v.roots.attached.filter v.workspace.pathExists) p =
      (WatchRoots.isAttached v.roots.attached p && v.workspace.pathExists p) :=
    WatchRoots.isAttached_filter fun q hq => hspelled q (hattached q hq)
  rw [returned, WatchRoots.maintain, WatchRoots.count_appearing hspelled, hleft, hnoted]
  cases v.workspace.pathExists p <;> simp [hp]

/-- A root that has stayed where it was noted has a watch that is alive. -/
def Steady (v : Upkeep) (p : Path) : Prop :=
  v.workspace.pathExists p → v.noted p → v.created p = false → v.live p

theorem live_step_maintain (h : v.Tracks desired p) (hsteady : v.Steady p)
    (hreplaced : ¬ v.Replaced p) (hthere : v.workspace.pathExists p) :
    (v.step .maintain).live p := by
  rw [step, Bool.or_eq_true]
  cases hnoted : v.noted p with
  | true =>
    refine .inl (hsteady hthere hnoted ?_)
    rw [Bool.eq_false_iff]
    exact fun hcreated => hreplaced ⟨hthere, hnoted, hcreated⟩
  | false =>
    have hcount := h.count_returned hp hspelled
    rw [if_pos ⟨hthere, hnoted⟩] at hcount
    exact .inr (List.contains_iff_mem.2 (List.count_pos_iff.1 (by omega)))

theorem Steady.step (hsteady : v.Steady p) (h : v.Tracks desired p) {s : RootStep}
    (hreplaced : s = .maintain → ¬ v.Replaced p) : (v.step s).Steady p := by
  cases s with
  | files after =>
    intro hthere hnoted hcreated
    simp only [Upkeep.step, Bool.or_eq_false_iff, Bool.and_eq_false_iff, Bool.not_eq_false'] at *
    obtain ⟨hcreated, hbefore | habsent⟩ := hcreated
    · rw [hsteady hbefore hnoted hcreated, hthere]
      rfl
    · rw [hthere] at habsent
      cases habsent
  | attach =>
    intro hthere _ _
    have hmem : p ∈ v.roots.desired := h.desires ▸ hp
    have hthere : v.workspace.pathExists p := hthere
    simp [Upkeep.step, hmem, hthere]
  | maintain =>
    intro hthere _ _
    exact live_step_maintain hp hspelled h hsteady (hreplaced rfl) hthere

/-- As long as no maintenance has come upon a root that was replaced, the root is steady. -/
theorem steady_run (h : v.Tracks desired p) (hsteady : v.Steady p) {steps : List RootStep}
    (hreplaced : ∀ before rest, steps = before ++ .maintain :: rest →
      ¬ (v.run before).Replaced p) : (v.run steps).Steady p := by
  induction steps generalizing v with
  | nil => exact hsteady
  | cons s rest ih =>
    have hfirst := hsteady.step hp hspelled h (s := s) fun hs =>
      hreplaced [] rest (by rw [hs, List.nil_append])
    refine ih (h.step hp hspelled s) hfirst fun before others hrest => ?_
    exact hreplaced (s :: before) others (by rw [hrest, List.cons_append])

end Root

theorem tracks_start (desired : List Path) (ws : Workspace) (p : Path) :
    (start desired ws).Tracks desired p := ⟨rfl, by simp [start], rfl⟩

/-- A maintenance returns a root, once, just when it is there and was not there at the last look. So
all goes well for a root just as long as no maintenance comes upon one that has gone away and come
back since the last look. -/
theorem attends_iff_not_replaced {p : Path} (hp : p ∈ desired)
    (hspelled : ∀ q ∈ desired, p.same q → q = p) (ws : Workspace) (steps : List RootStep) :
    let v := start desired ws
    (v.run steps).returned.count p =
      (if (v.run steps).workspace.pathExists p ∧ (v.run steps).noted p = false then 1 else 0) ∧
    ((∀ before rest, steps = before ++ .maintain :: rest → (v.run before).Attends p) ↔
      ∀ before rest, steps = before ++ .maintain :: rest → ¬ (v.run before).Replaced p) := by
  intro v
  have htracks (steps : List RootStep) : (v.run steps).Tracks desired p :=
    tracks_run hp hspelled (tracks_start desired ws p) steps
  refine ⟨(htracks steps).count_returned hp hspelled, ?_, ?_⟩
  · intro hattends before rest hsteps hreplaced
    obtain ⟨hthere, hnoted, hcreated⟩ := hreplaced
    have hcount := (htracks before).count_returned hp hspelled
    rw [(hattends before rest hsteps).returned hthere hcreated, hnoted] at hcount
    simp at hcount
  · intro hreplaced before rest hsteps
    have hhere := hreplaced before rest hsteps
    refine ⟨fun hthere hcreated => ?_, fun hthere => ?_⟩
    · have hnoted : (v.run before).noted p = false :=
        Bool.eq_false_iff.2 fun hnoted => hhere ⟨hthere, hnoted, hcreated⟩
      rw [(htracks before).count_returned hp hspelled, if_pos ⟨hthere, hnoted⟩]
    · have hsteady : (v.run before).Steady p :=
        steady_run hp hspelled (tracks_start desired ws p) (fun _ hnoted => by cases hnoted)
          fun earlier others hbefore => hreplaced earlier (others ++ .maintain :: rest)
            (by rw [hsteps, hbefore, List.append_assoc, List.cons_append])
      exact live_step_maintain hp hspelled (htracks before) hsteady hhere hthere

def pagesThere : Workspace where
  files := FileTree.empty.insert ["pages"] .directory
  cwd := []

def pagesGone : Workspace where
  files := .empty
  cwd := []

/-- A directory that goes away and comes back between two looks is not taken up again. -/
theorem not_attends_replaced :
    let v := (start [⟨"/pages"⟩] pagesThere).run [.attach, .files pagesGone, .files pagesThere]
    v.workspace.pathExists ⟨"/pages"⟩ ∧ v.created ⟨"/pages"⟩ ∧ v.returned = [] ∧
      (v.step .maintain).workspace.pathExists ⟨"/pages"⟩ ∧
      (v.step .maintain).live ⟨"/pages"⟩ = false := by decide +kernel

/-- One that is gone at a look in between is. -/
theorem attends_iff_not_replaced_returning :
    let v := start [⟨"/pages"⟩] pagesThere
    let steps : List RootStep :=
      [.attach, .files pagesGone, .maintain, .files pagesThere, .maintain]
    (v.run (steps.take 4)).created ⟨"/pages"⟩ ∧
      (v.run (steps.take 4)).returned.count ⟨"/pages"⟩ = 1 ∧
      ∀ before rest, steps = before ++ .maintain :: rest → (v.run before).Attends ⟨"/pages"⟩ := by
  intro v steps
  have hspelled : ∀ q ∈ [(⟨"/pages"⟩ : Path)], (⟨"/pages"⟩ : Path).same q → q = ⟨"/pages"⟩ :=
    fun q hq _ => List.mem_singleton.1 hq
  have hnever : ∀ n < 5, ¬ ((v.run (steps.take n)).workspace.pathExists ⟨"/pages"⟩ ∧
      (v.run (steps.take n)).noted ⟨"/pages"⟩ ∧ (v.run (steps.take n)).created ⟨"/pages"⟩) := by
    decide +kernel
  obtain ⟨hcount, -⟩ := attends_iff_not_replaced List.mem_cons_self hspelled pagesThere
    (steps.take 4)
  obtain ⟨-, hiff⟩ := attends_iff_not_replaced List.mem_cons_self hspelled pagesThere steps
  refine ⟨by decide +kernel, ?_, hiff.2 fun before rest hsteps hreplaced => ?_⟩
  · rw [hcount, if_pos (by decide +kernel)]
  · have hbefore : steps.take before.length = before := by rw [hsteps, List.take_left]
    have hlength : before.length < 5 := by
      have htotal : before.length + (rest.length + 1) = 5 := by
        rw [← List.length_cons, ← List.length_append, ← hsteps]
        rfl
      omega
    exact hnever before.length hlength (hbefore.symm ▸ hreplaced)

end Upkeep

end RouteTree.Watching
