import Mathlib.Data.List.Nodup
import RouteTree.Files.Path

/-! The order of paths. Components are ordered by their kind and then by name, and paths like lists
of components, so two paths are neither before nor after one another just when they have the same
components. A list in strictly increasing order is then decided by which paths are in it. -/
namespace RouteTree

open Std

namespace Component

/-- The place of the kind among the others, and the name if there is one. -/
def rank : Component → Nat × String
  | .root => (0, "")
  | .current => (1, "")
  | .parent => (2, "")
  | .name s => (3, s)

theorem rank_injective : Function.Injective rank := by
  intro a b h
  cases a <;> cases b <;> simp_all [rank]

theorem compare_eq_rank (a b : Component) :
    a.compare b = compareLex (compareOn Prod.fst) (compareOn Prod.snd) a.rank b.rank := by
  cases a <;> cases b <;>
    simp [compare, rank, compareLex, compareOn, Nat.compare_eq_ite_lt, ReflCmp.compare_self]

instance : TransCmp compare where
  eq_swap {a b} := by
    rw [compare_eq_rank, compare_eq_rank b a]
    exact OrientedCmp.eq_swap
  isLE_trans {a b c} := by
    rw [compare_eq_rank, compare_eq_rank b c, compare_eq_rank a c]
    exact TransCmp.isLE_trans

instance : LawfulEqCmp compare where
  compare_self {a} := by
    rw [compare_eq_rank]
    exact ReflCmp.compare_self
  eq_of_compare {a b} h := by
    rw [compare_eq_rank, compareLex_eq_eq] at h
    exact rank_injective (Prod.ext (LawfulEqOrd.eq_of_compare h.1) (LawfulEqOrd.eq_of_compare h.2))

end Component

namespace Path

theorem compareComponents_eq : compareComponents = List.compareLex Component.compare := by
  funext a b
  induction a generalizing b with
  | nil => cases b <;> rfl
  | cons c rest ih =>
    cases b with
    | nil => rfl
    | cons d others => rw [compareComponents, List.compareLex_cons_cons, ih]

instance : TransCmp compareComponents := by
  rw [compareComponents_eq]
  infer_instance

instance : LawfulEqCmp compareComponents := by
  rw [compareComponents_eq]
  infer_instance

instance : TransCmp compare where
  eq_swap {a b} := by
    rw [compare, compare]
    exact OrientedCmp.eq_swap
  isLE_trans {a b c} := by
    rw [compare, compare, compare]
    exact TransCmp.isLE_trans

theorem compare_eq_eq_iff {a b : Path} : a.compare b = .eq ↔ a.components = b.components := by
  rw [compare]
  exact LawfulEqCmp.compare_eq_iff_eq

/-- Each path is before all that follow it. -/
def Increasing (paths : List Path) : Prop := paths.Pairwise fun a b => a.compare b = .lt

theorem increasing_mergeSort {α : Type} {path : α → Path} {entries : List α}
    (h : (entries.map fun e => (path e).components).Nodup) :
    Increasing ((entries.mergeSort fun e f => ((path e).compare (path f)).isLE).map path) := by
  have hsorted : (entries.mergeSort fun e f => ((path e).compare (path f)).isLE).Pairwise
      fun e f => ((path e).compare (path f)).isLE := by
    refine List.pairwise_mergeSort ?_ ?_ entries
    · intro e f g hef hfg
      exact TransCmp.isLE_trans hef hfg
    · intro e f
      have hswap : (path f).compare (path e) = ((path e).compare (path f)).swap :=
        OrientedCmp.eq_swap
      rw [hswap]
      cases (path e).compare (path f) <;> rfl
  have hperm := List.mergeSort_perm entries fun e f => ((path e).compare (path f)).isLE
  have hdistinct := (hperm.map fun e => (path e).components).nodup_iff.2 h
  rw [Increasing, List.pairwise_map]
  refine (hsorted.and (List.pairwise_map.1 hdistinct)).imp ?_
  rintro e f ⟨hle, hne⟩
  cases hcompare : (path e).compare (path f) with
  | lt => rfl
  | eq => exact absurd (compare_eq_eq_iff.1 hcompare) hne
  | gt =>
    rw [hcompare] at hle
    cases hle

/-- Two increasing lists of the same paths differ in spelling at most. -/
theorem Increasing.map_components_eq {a b : List Path} (ha : Increasing a) (hb : Increasing b)
    (h : ∀ p : Path,
      (∃ q ∈ a, q.components = p.components) ↔ ∃ q ∈ b, q.components = p.components) :
    a.map components = b.map components := by
  have hincreasing {paths : List Path} (hpaths : Increasing paths) :
      (paths.map components).Pairwise fun c d => compareComponents c d = .lt :=
    List.pairwise_map.2 hpaths
  have hnodup {paths : List Path} (hpaths : Increasing paths) : (paths.map components).Nodup := by
    refine (hincreasing hpaths).imp ?_
    rintro c _ hlt rfl
    have hself : compareComponents c c = .eq := ReflCmp.compare_self
    rw [hself] at hlt
    cases hlt
  have hmem (c : List Component) : c ∈ a.map components ↔ c ∈ b.map components := by
    rw [List.mem_map, List.mem_map]
    constructor
    · rintro ⟨q, hq, rfl⟩
      exact (h q).1 ⟨q, hq, rfl⟩
    · rintro ⟨q, hq, rfl⟩
      exact (h q).2 ⟨q, hq, rfl⟩
  have hperm := (List.perm_ext_iff_of_nodup (hnodup ha) (hnodup hb)).2 hmem
  refine hperm.eq_of_pairwise ?_ (hincreasing ha) (hincreasing hb)
  intro c d _ _ hcd hdc
  rw [OrientedCmp.gt_of_lt hcd] at hdc
  cases hdc

end Path

end RouteTree
