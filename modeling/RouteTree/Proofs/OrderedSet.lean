import Mathlib.Data.List.Nodup
import RouteTree.Text.Ordered

/-! An ordered list is a set: what it holds decides what it is. -/
namespace RouteTree.Text.Ordered

variable {α : Type} {key : α → String}

theorem eq_of_mem_iff {a b : Ordered key} (h : ∀ x, x ∈ a.toList ↔ x ∈ b.toList) : a = b := by
  have hnodup (c : Ordered key) : c.toList.Nodup := by
    rw [List.Nodup]
    refine c.increasing.imp ?_
    rintro x _ hlt rfl
    exact String.lt_irrefl _ hlt
  have hperm := (List.perm_ext_iff_of_nodup (hnodup a) (hnodup b)).2 h
  refine ext (hperm.eq_of_pairwise ?_ a.increasing b.increasing)
  intro x y _ _ hxy hyx
  exact absurd (String.lt_trans hxy hyx) (String.lt_irrefl _)

theorem mem_insertInto_iff {a x : α} {entries : List α}
    (h : entries.Pairwise fun a b => key a < key b) :
    x ∈ insertInto key a entries ↔ x = a ∨ (x ∈ entries ∧ key x ≠ key a) := by
  induction entries with
  | nil => simp [insertInto]
  | cons b rest ih =>
    obtain ⟨hb, hrest⟩ := List.pairwise_cons.1 h
    -- a key below that of `a` or among those that follow `b` is not the key of `a`
    have hlater (hab : ¬ key b < key a) (hx : x ∈ rest) : key x ≠ key a := by
      intro heq
      exact hab (heq ▸ hb x hx)
    rw [insertInto]
    split
    · next hab =>
      have hne : key b ≠ key a := fun heq => String.lt_irrefl _ (heq ▸ hab)
      have hba : ¬ key b < key a := fun hba => String.lt_irrefl _ (String.lt_trans hab hba)
      grind
    · next hab =>
      split
      · next heq =>
        have hba : ¬ key b < key a := heq ▸ String.lt_irrefl _
        grind
      · next hne =>
        rw [List.mem_cons, ih hrest]
        grind

theorem mem_insert_iff {a x : α} {entries : Ordered key} :
    x ∈ (entries.insert a).toList ↔ x = a ∨ (x ∈ entries.toList ∧ key x ≠ key a) :=
  mem_insertInto_iff entries.increasing

theorem mem_of_mem_ofList {x : α} {entries : List α}
    (h : x ∈ (ofList entries : Ordered key).toList) : x ∈ entries := by
  suffices hfold : ∀ start : Ordered key,
      x ∈ (entries.foldl (fun sorted a => sorted.insert a) start).toList →
        x ∈ entries ∨ x ∈ start.toList by
    simpa [empty] using hfold empty h
  clear h
  induction entries with
  | nil => intro start h; exact .inr h
  | cons a rest ih =>
    intro start h
    rcases ih _ h with hrest | hstart
    · exact .inl (List.mem_cons_of_mem a hrest)
    · rcases mem_insert_iff.1 hstart with rfl | ⟨hstart, -⟩
      · exact .inl List.mem_cons_self
      · exact .inr hstart

theorem mem_ofList {x : α} {entries : List α} (hx : x ∈ entries)
    (h : ∀ a ∈ entries, key a = key x → a = x) : x ∈ (ofList entries : Ordered key).toList := by
  suffices hfold : ∀ start : Ordered key, x ∈ entries ∨ x ∈ start.toList →
      x ∈ (entries.foldl (fun sorted a => sorted.insert a) start).toList from
    hfold empty (.inl hx)
  clear hx
  induction entries with
  | nil => intro start hx; exact hx.resolve_left List.not_mem_nil
  | cons a rest ih =>
    intro start hx
    obtain ⟨ha, hrest⟩ := List.forall_mem_cons.1 h
    apply ih hrest
    rw [mem_insert_iff, List.mem_cons] at *
    by_cases hkey : key x = key a
    · exact .inr (.inl (ha hkey.symm).symm)
    · have hne : x ≠ a := fun heq => hkey (heq ▸ rfl)
      simpa [hkey, hne] using hx

theorem mem_ofList_iff_of_nodup {x : α} {entries : List α} (h : (entries.map key).Nodup) :
    x ∈ (ofList entries : Ordered key).toList ↔ x ∈ entries := by
  refine ⟨mem_of_mem_ofList, fun hx => mem_ofList hx fun a ha heq => ?_⟩
  exact List.inj_on_of_nodup_map h ha hx heq

theorem mem_ofList_iff_of_injective {x : α} {entries : List α} (h : Function.Injective key) :
    x ∈ (ofList entries : Ordered key).toList ↔ x ∈ entries :=
  ⟨mem_of_mem_ofList, fun hx => mem_ofList hx fun _ _ heq => h heq⟩

/-- An entry parts an ordered list: the keys before it are smaller, those after it larger. -/
theorem mem_iff_of_drop_eq {middle : α} {entries later : List α} {n : Nat}
    (h : entries.Pairwise fun a b => key a < key b) (hmiddle : entries.drop n = middle :: later)
    (x : α) : x ∈ entries ↔ (x ∈ entries.take n ∧ key x < key middle) ∨ x = middle ∨
      (x ∈ later ∧ key middle < key x) := by
  have hparts := List.take_append_drop n entries
  rw [hmiddle] at hparts
  obtain ⟨-, hback, hcross⟩ := List.pairwise_append.1 (hparts ▸ h)
  have hlater := (List.pairwise_cons.1 hback).1
  conv_lhs => rw [← hparts]
  rw [List.mem_append, List.mem_cons]
  constructor
  · rintro (hx | hx | hx)
    · exact .inl ⟨hx, hcross x hx middle List.mem_cons_self⟩
    · exact .inr (.inl hx)
    · exact .inr (.inr ⟨hx, hlater x hx⟩)
  · rintro (⟨hx, -⟩ | hx | ⟨hx, -⟩)
    · exact .inl hx
    · exact .inr (.inl hx)
    · exact .inr (.inr hx)

/-- No entry of the half that is left out has the key. -/
theorem bisectIn_eq_some_iff {k : String} {x : α} {entries : List α}
    (h : entries.Pairwise fun a b => key a < key b) :
    bisectIn key k entries = some x ↔ x ∈ entries ∧ key x = k := by
  fun_induction bisectIn key k entries with
  | case1 entries hnil =>
    have hempty : entries = [] := by
      have hlength := congrArg List.length hnil
      simp only [List.length_drop, List.length_nil] at hlength
      exact List.eq_nil_of_length_eq_zero (by omega)
    simp [hempty]
  | case2 entries middle later hmiddle hk =>
    rw [mem_iff_of_drop_eq h hmiddle, Option.some.injEq]
    constructor
    · rintro rfl
      exact ⟨.inr (.inl rfl), hk⟩
    · rintro ⟨⟨-, hlt⟩ | rfl | ⟨-, hlt⟩, hx⟩
      · exact absurd (hk ▸ hx ▸ hlt) (String.lt_irrefl _)
      · rfl
      · exact absurd (hk ▸ hx ▸ hlt) (String.lt_irrefl _)
  | case3 entries middle later hmiddle hk hlt ih =>
    have hlater := (List.pairwise_cons.1 (hmiddle ▸ h.sublist (List.drop_sublist _ _))).2
    rw [ih hlater, mem_iff_of_drop_eq h hmiddle]
    constructor
    · rintro ⟨hx, rfl⟩
      exact ⟨.inr (.inr ⟨hx, hlt⟩), rfl⟩
    · rintro ⟨⟨-, hbefore⟩ | rfl | ⟨hx, -⟩, rfl⟩
      · exact absurd (String.lt_trans hbefore hlt) (String.lt_irrefl _)
      · exact absurd rfl hk
      · exact ⟨hx, rfl⟩
  | case4 entries middle later hmiddle hk hlt ih =>
    rw [ih (h.sublist (List.take_sublist _ _)), mem_iff_of_drop_eq h hmiddle]
    constructor
    · rintro ⟨hx, rfl⟩
      exact ⟨.inl ⟨hx, lt_of_not_lt_of_ne hlt hk⟩, rfl⟩
    · rintro ⟨⟨hx, -⟩ | rfl | ⟨-, hafter⟩, rfl⟩
      · exact ⟨hx, rfl⟩
      · exact absurd rfl hk
      · exact absurd hafter hlt

/-- The search stops only where the key can no longer follow. -/
theorem findIn_eq_some_iff {k : String} {x : α} {entries : List α}
    (h : entries.Pairwise fun a b => key a < key b) :
    findIn key k entries = some x ↔ x ∈ entries ∧ key x = k := by
  induction entries with
  | nil => simp [findIn]
  | cons a rest ih =>
    obtain ⟨ha, hrest⟩ := List.pairwise_cons.1 h
    rw [findIn, List.mem_cons]
    split
    · next heq =>
      rw [Option.some.injEq]
      constructor
      · rintro rfl
        exact ⟨.inl rfl, heq⟩
      · rintro ⟨rfl | hx, hk⟩
        · rfl
        · exact absurd (heq ▸ hk ▸ ha x hx) (String.lt_irrefl _)
    · next hne =>
      split
      · rw [ih hrest]
        constructor
        · exact fun ⟨hx, hk⟩ => ⟨.inr hx, hk⟩
        · rintro ⟨rfl | hx, hk⟩
          · exact absurd hk hne
          · exact ⟨hx, hk⟩
      · next hlt =>
        constructor
        · nofun
        · rintro ⟨rfl | hx, hk⟩
          · exact absurd hk hne
          · exact absurd (hk ▸ ha x hx) hlt

theorem find?_eq_some_iff {k : String} {x : α} {entries : Ordered key} :
    entries.find? k = some x ↔ x ∈ entries.toList ∧ key x = k :=
  findIn_eq_some_iff entries.increasing

end RouteTree.Text.Ordered

namespace RouteTree.Text.Dictionary

variable {β : Type}

theorem contains_iff {k : String} {d : Dictionary β} :
    d.contains k ↔ ∃ value, d.get? k = some value := by
  rw [contains, get?]
  cases d.find? k <;> simp

theorem get?_eq_some_iff {d : Dictionary β} {k : String} {value : β} :
    d.get? k = some value ↔ (k, value) ∈ d.toList := by
  simp only [get?, Option.map_eq_some_iff, Ordered.find?_eq_some_iff]
  constructor
  · rintro ⟨⟨_, _⟩, ⟨hmem, rfl⟩, rfl⟩
    exact hmem
  · intro hmem
    exact ⟨_, ⟨hmem, rfl⟩, rfl⟩

theorem get?_ofList_map {names : List String} {k : String} {value found : β} :
    get? k (.ofList (names.map (·, value))) = some found ↔ k ∈ names ∧ found = value := by
  have hinj : ∀ a ∈ names.map (·, value), a.1 = k → a = (k, value) := by
    intro a ha hk
    obtain ⟨name, -, rfl⟩ := List.mem_map.1 ha
    rw [← hk]
  rw [get?_eq_some_iff]
  constructor
  · intro h
    obtain ⟨name, hname, heq⟩ := List.mem_map.1 (Ordered.mem_of_mem_ofList h)
    cases heq
    exact ⟨hname, rfl⟩
  · rintro ⟨hk, rfl⟩
    exact Ordered.mem_ofList (List.mem_map.2 ⟨k, hk, rfl⟩) hinj

end RouteTree.Text.Dictionary
