import Mathlib.Data.List.Nodup
import RouteTree.Toml.Reader

/-! A TOML document that can be read gives no table the same key twice, whether the key comes from a
line, a header, a dotted key or a table between braces. -/
namespace RouteTree.Toml

/-- No table in the value has a key twice. -/
inductive Value.IsProper : Value → Prop
  | string (s : String) : IsProper (.string s)
  | integer (n : Int) : IsProper (.integer n)
  | float (x : Float64) : IsProper (.float x)
  | boolean (b : Bool) : IsProper (.boolean b)
  | datetime (text : String) : IsProper (.datetime text)
  | array {items : List Value} (hitems : ∀ v ∈ items, IsProper v) : IsProper (.array items)
  | table {origin : Origin} {entries : Entries} (hkeys : (entries.map Prod.fst).Nodup)
      (hvalues : ∀ e ∈ entries, IsProper e.2) : IsProper (.table origin entries)
  | tables {elements : List Entries} (hkeys : ∀ entries ∈ elements, (entries.map Prod.fst).Nodup)
      (hvalues : ∀ entries ∈ elements, ∀ e ∈ entries, IsProper e.2) : IsProper (.tables elements)

namespace Entries

/-- No key stands twice, here or in a table inside. -/
structure IsProper (entries : Entries) : Prop where
  keys : (entries.map Prod.fst).Nodup
  values : ∀ e ∈ entries, e.2.IsProper

variable {entries added inner : Entries} {key : String} {v w : Value} {path : List String}

theorem isProper_nil : IsProper [] := ⟨List.nodup_nil, fun _ he => absurd he List.not_mem_nil⟩

theorem isProper_table_iff {origin : Origin} :
    (Value.table origin entries).IsProper ↔ entries.IsProper :=
  ⟨fun | .table hkeys hvalues => ⟨hkeys, hvalues⟩, fun h => .table h.keys h.values⟩

theorem isProper_tables_iff {elements : List Entries} :
    (Value.tables elements).IsProper ↔ ∀ entries ∈ elements, entries.IsProper :=
  ⟨fun | .tables hkeys hvalues => fun entries h => ⟨hkeys entries h, hvalues entries h⟩,
    fun h => .tables (fun entries hmem => (h entries hmem).keys)
      fun entries hmem => (h entries hmem).values⟩

theorem mem_of_get? (h : entries.get? key = some v) : (key, v) ∈ entries := by
  obtain ⟨before, after, rfl, -⟩ := List.lookup_eq_some_iff.1 h
  simp

theorem not_mem_keys_of_get? (h : entries.get? key = none) : key ∉ entries.map Prod.fst := by
  intro hmem
  obtain ⟨e, he, rfl⟩ := List.mem_map.1 hmem
  have hne := List.lookup_eq_none_iff.1 h e he
  simp at hne

theorem IsProper.get? (h : entries.IsProper) (hget : entries.get? key = some v) : v.IsProper :=
  h.values _ (mem_of_get? hget)

theorem IsProper.append (h : entries.IsProper) (hkey : key ∉ entries.map Prod.fst)
    (hv : v.IsProper) : IsProper (entries ++ [(key, v)]) where
  keys := by
    rw [List.map_append, List.map_singleton, ← List.concat_eq_append]
    exact h.keys.concat hkey
  values := List.forall_mem_append.2 ⟨h.values, by simpa using hv⟩

theorem mem_set {e : String × Value} (he : e ∈ set key v entries) : e = (key, v) ∨ e ∈ entries := by
  induction entries with
  | nil => exact .inl (List.mem_singleton.1 he)
  | cons first rest ih =>
    rw [set] at he
    split at he
    · next hfirst => exact hfirst ▸ (List.mem_cons.1 he).imp_right (List.mem_cons_of_mem _)
    · rcases List.mem_cons.1 he with rfl | he
      · exact .inr List.mem_cons_self
      · exact (ih he).imp_right (List.mem_cons_of_mem _)

theorem map_fst_set (h : key ∈ entries.map Prod.fst) :
    (set key v entries).map Prod.fst = entries.map Prod.fst := by
  induction entries with
  | nil => cases h
  | cons first rest ih =>
    rw [set]
    split
    · next hfirst => rw [List.map_cons, List.map_cons, hfirst]
    · next hfirst =>
      have hrest : key ∈ rest.map Prod.fst := (List.mem_cons.1 h).resolve_left (Ne.symm hfirst)
      rw [List.map_cons, List.map_cons, ih hrest]

/-- The value under a key that is there may be replaced. -/
theorem IsProper.set (h : entries.IsProper) (hget : entries.get? key = some w) (hv : v.IsProper) :
    (entries.set key v).IsProper where
  keys := by
    rw [map_fst_set (List.mem_map_of_mem (mem_of_get? hget))]
    exact h.keys
  values e he := by
    rcases mem_set he with rfl | he
    · exact hv
    · exact h.values e he

theorem IsProper.erase (h : entries.IsProper) (key : String) : (entries.erase key).IsProper where
  keys := (List.filter_sublist.map Prod.fst).nodup h.keys
  values e he := h.values e (List.mem_of_mem_filter he)

theorem not_mem_keys_erase (key : String) (entries : Entries) :
    key ∉ (entries.erase key).map Prod.fst := by
  simp [erase]

/-! ### Keys and headers -/

theorem IsProper.add? (h : entries.IsProper) (hv : v.IsProper)
    (hadd : entries.add? key v = some added) : added.IsProper := by
  unfold Entries.add? at hadd
  split at hadd
  · cases hadd
  · next hget =>
    cases hadd
    exact h.append (not_mem_keys_of_get? hget) hv

section Inside

variable {latest : Entries} {earlier : List Entries} {origin : Origin}

theorem IsProper.append_table (h : entries.IsProper) (hget : entries.get? key = none)
    (hinner : inner.IsProper) (origin : Origin) :
    IsProper (entries ++ [(key, .table origin inner)]) :=
  h.append (not_mem_keys_of_get? hget) (isProper_table_iff.2 hinner)

theorem IsProper.of_table (h : entries.IsProper)
    (hget : entries.get? key = some (.table origin inner)) : inner.IsProper :=
  isProper_table_iff.1 (h.get? hget)

theorem IsProper.set_table (h : entries.IsProper) (hget : entries.get? key = some w)
    (hinner : inner.IsProper) : (entries.set key (.table origin inner)).IsProper :=
  h.set hget (isProper_table_iff.2 hinner)

theorem IsProper.of_latest (h : entries.IsProper)
    (hget : entries.get? key = some (.tables (latest :: earlier))) : latest.IsProper :=
  isProper_tables_iff.1 (h.get? hget) latest List.mem_cons_self

theorem IsProper.set_latest (h : entries.IsProper)
    (hget : entries.get? key = some (.tables (latest :: earlier))) (hinner : inner.IsProper) :
    (entries.set key (.tables (inner :: earlier))).IsProper := by
  have hall := isProper_tables_iff.1 (h.get? hget)
  refine h.set hget (isProper_tables_iff.2 (List.forall_mem_cons.2 ⟨hinner, ?_⟩))
  exact (List.forall_mem_cons.1 hall).2

end Inside

theorem IsProper.addDotted? (h : entries.IsProper) (hv : v.IsProper)
    (hadd : entries.addDotted? v path = some added) : added.IsProper := by
  induction path generalizing entries added with
  | nil => cases hadd
  | cons key rest ih =>
    cases rest with
    | nil => exact h.add? hv hadd
    | cons next rest =>
      rw [Entries.addDotted?] at hadd
      · split at hadd
        · next hget =>
          obtain ⟨inner, hinner, rfl⟩ := Option.map_eq_some_iff.1 hadd
          exact h.append_table hget (ih isProper_nil hinner) .dotted
        · next inner hget =>
          obtain ⟨inner', hinner, rfl⟩ := Option.map_eq_some_iff.1 hadd
          exact h.set_table hget (ih (h.of_table hget) hinner)
        · next inner hget =>
          split at hadd
          · cases hadd
          · obtain ⟨inner', hinner, rfl⟩ := Option.map_eq_some_iff.1 hadd
            exact h.set_table hget (ih (h.of_table hget) hinner)
        · next latest earlier hget =>
          split at hadd
          · cases hadd
          · obtain ⟨latest', hlatest, rfl⟩ := Option.map_eq_some_iff.1 hadd
            exact h.set_latest hget (ih (h.of_latest hget) hlatest)
        · cases hadd
      · simp

theorem IsProper.updateAt? {f : Entries → Option Entries}
    (hf : ∀ entries added, entries.IsProper → f entries = some added → added.IsProper)
    (h : entries.IsProper) (hupdate : entries.updateAt? f path = some added) : added.IsProper := by
  induction path generalizing entries added with
  | nil => exact hf _ _ h hupdate
  | cons key rest ih =>
    rw [Entries.updateAt?] at hupdate
    split at hupdate
    · next hget =>
      obtain ⟨inner, hinner, rfl⟩ := Option.map_eq_some_iff.1 hupdate
      exact h.append_table hget (ih isProper_nil hinner) .implied
    · cases hupdate
    · next origin inner _ hget =>
      obtain ⟨inner', hinner, rfl⟩ := Option.map_eq_some_iff.1 hupdate
      exact h.set_table hget (ih (h.of_table hget) hinner)
    · next latest earlier hget =>
      obtain ⟨latest', hlatest, rfl⟩ := Option.map_eq_some_iff.1 hupdate
      exact h.set_latest hget (ih (h.of_latest hget) hlatest)
    · cases hupdate

theorem IsProper.openTable? (h : entries.IsProper) (hopen : entries.openTable? key = some added) :
    added.IsProper := by
  unfold Entries.openTable? at hopen
  split at hopen
  · next hget =>
    cases hopen
    exact h.append_table hget isProper_nil .header
  · next inner hget =>
    cases hopen
    exact (h.erase key).append (not_mem_keys_erase key entries)
      (isProper_table_iff.2 (h.of_table hget))
  · cases hopen

theorem IsProper.openElement? (h : entries.IsProper)
    (hopen : entries.openElement? key = some added) : added.IsProper := by
  unfold Entries.openElement? at hopen
  split at hopen
  · next hget =>
    cases hopen
    exact h.append (not_mem_keys_of_get? hget) (isProper_tables_iff.2 (by simpa using isProper_nil))
  · next elements hget =>
    cases hopen
    refine h.set hget (isProper_tables_iff.2 (List.forall_mem_cons.2 ⟨isProper_nil, ?_⟩))
    exact isProper_tables_iff.1 (h.get? hget)
  · cases hopen

end Entries

namespace Draft

variable {draft next : Draft} {path : List String} {v : Value}

theorem isProper_addKey? (h : draft.entries.IsProper) (hv : v.IsProper)
    (hadd : draft.addKey? path v = some next) : next.entries.IsProper := by
  obtain ⟨entries, hentries, rfl⟩ := Option.map_eq_some_iff.1 hadd
  exact h.updateAt? (fun _ _ hhere hthere => hhere.addDotted? hv hthere) hentries

theorem isProper_openHeader? {double : Bool} (h : draft.entries.IsProper)
    (hopen : draft.openHeader? double path = some next) : next.entries.IsProper := by
  unfold openHeader? at hopen
  split at hopen
  · cases hopen
  · next key hkey =>
    obtain ⟨entries, hentries, rfl⟩ := Option.map_eq_some_iff.1 hopen
    refine h.updateAt? (fun before after hbefore hafter => ?_) hentries
    cases double with
    | true => exact hbefore.openElement? hafter
    | false => exact hbefore.openTable? hafter

end Draft

/-! ### Values -/

variable {v : Value} {cs rest word : List Char} {entries added : Entries}

theorem isProper_of_scalar? (h : scalar? word = some v) : v.IsProper := by
  unfold scalar? at h
  split at h
  · cases h
    exact .boolean true
  · split at h
    · cases h
      exact .boolean false
    · split at h
      · cases h
        exact .datetime _
      · split at h
        · cases h
          exact .integer _
        · obtain ⟨x, -, rfl⟩ := Option.map_eq_some_iff.1 h
          exact .float x

theorem isProper_of_word? (h : word? cs = some (v, rest)) : v.IsProper := by
  unfold word? at h
  extract_lets word after longer at h
  split at h
  all_goals
    obtain ⟨w, hw, heq⟩ := Option.map_eq_some_iff.1 h
    obtain ⟨rfl, -⟩ := Prod.mk.inj heq
    exact isProper_of_scalar? hw

/-- What the readers of values, of items and of members give within a text of some length. -/
structure ReadsProper (n : Nat) : Prop where
  value {depth : Nat} {cs rest : List Char} {v : Value}
    (h : valueFrom? n depth cs = some (v, rest)) : v.IsProper
  items {depth : Nat} {cs rest : List Char} {items : List Value}
    (h : itemsFrom? n depth cs = some (items, rest)) : ∀ v ∈ items, v.IsProper
  members {depth : Nat} {cs rest : List Char} {entries added : Entries}
    (hentries : entries.IsProper) (h : membersFrom? n depth entries cs = some (added, rest)) :
    added.IsProper

section Step

variable {n depth : Nat} (hreads : ReadsProper n)

include hreads

theorem isProper_of_valueFrom?_succ (h : valueFrom? (n + 1) depth cs = some (v, rest)) :
    v.IsProper := by
  unfold valueFrom? at h
  dsimp only at h
  split at h
  · obtain ⟨_, -, heq⟩ := Option.map_eq_some_iff.1 h
    cases heq
    exact .string _
  · obtain ⟨_, -, heq⟩ := Option.map_eq_some_iff.1 h
    cases heq
    exact .string _
  · split at h
    · obtain ⟨_, hitems, heq⟩ := Option.map_eq_some_iff.1 h
      cases heq
      exact .array (hreads.items hitems)
    · cases h
  · split at h
    · split at h
      · cases h
        exact Entries.isProper_table_iff.2 Entries.isProper_nil
      · obtain ⟨_, hmembers, heq⟩ := Option.map_eq_some_iff.1 h
        cases heq
        exact Entries.isProper_table_iff.2 (hreads.members Entries.isProper_nil hmembers)
    · cases h
  · exact isProper_of_word? h

theorem isProper_of_itemsFrom?_succ {items : List Value}
    (h : itemsFrom? (n + 1) depth cs = some (items, rest)) : ∀ v ∈ items, v.IsProper := by
  unfold itemsFrom? at h
  dsimp only at h
  split at h
  · cases h
  · cases h
    exact fun _ hv => absurd hv List.not_mem_nil
  · split at h
    · cases h
    · next first after hfirst =>
      have hproper := hreads.value hfirst
      split at h
      · cases h
        simpa using hproper
      · obtain ⟨_, hmore, heq⟩ := Option.map_eq_some_iff.1 h
        cases heq
        exact List.forall_mem_cons.2 ⟨hproper, hreads.items hmore⟩
      · cases h

theorem isProper_of_membersFrom?_succ (hentries : entries.IsProper)
    (h : membersFrom? (n + 1) depth entries cs = some (added, rest)) : added.IsProper := by
  unfold membersFrom? at h
  split at h
  · split at h
    · cases h
    · next value after hvalue =>
      split at h
      · cases h
      · next more hmore =>
        have hproper := hentries.addDotted? (hreads.value hvalue) hmore
        split at h
        · cases h
          exact hproper
        · exact hreads.members hproper h
        · cases h
  · cases h

end Step

theorem readsProper (n : Nat) : ReadsProper n := by
  induction n with
  | zero =>
    refine ⟨?_, ?_, ?_⟩
    all_goals intros; simp_all [valueFrom?, itemsFrom?, membersFrom?]
  | succ n ih =>
    exact ⟨isProper_of_valueFrom?_succ ih, isProper_of_itemsFrom?_succ ih,
      isProper_of_membersFrom?_succ ih⟩

/-! ### Lines -/

variable {draft next : Draft}

theorem isProper_keyLine? (h : draft.entries.IsProper)
    (hline : keyLine? draft cs = some (next, rest)) : next.entries.IsProper := by
  unfold keyLine? at hline
  split at hline
  · simp only [Option.bind_eq_bind, Option.bind_eq_some_iff] at hline
    obtain ⟨⟨v, after⟩, hvalue, ending, -, added, hadd, heq⟩ := hline
    cases heq
    exact Draft.isProper_addKey? h ((readsProper _).value hvalue) hadd
  · cases hline

theorem isProper_headerLine? (h : draft.entries.IsProper)
    (hline : headerLine? draft cs = some (next, rest)) : next.entries.IsProper := by
  unfold headerLine? at hline
  split at hline
  all_goals
    split at hline
    · simp only [Option.bind_eq_bind, Option.bind_eq_some_iff] at hline
      obtain ⟨ending, -, opened, hopen, heq⟩ := hline
      cases heq
      exact Draft.isProper_openHeader? h hopen
    · cases hline

theorem isProper_linesFrom? {n : Nat} (h : draft.entries.IsProper)
    (hlines : linesFrom? n draft cs = some next) : next.entries.IsProper := by
  induction n generalizing draft cs with
  | zero => cases hlines
  | succ n ih =>
    rw [linesFrom?] at hlines
    split at hlines
    · cases hlines
      exact h
    · exact ih h hlines
    · exact ih h hlines
    · obtain ⟨_, -, hmore⟩ := Option.bind_eq_some_iff.1 hlines
      exact ih h hmore
    · obtain ⟨⟨opened, after⟩, hheader, hmore⟩ := Option.bind_eq_some_iff.1 hlines
      exact ih (isProper_headerLine? h hheader) hmore
    · obtain ⟨⟨added, after⟩, hkey, hmore⟩ := Option.bind_eq_some_iff.1 hlines
      exact ih (isProper_keyLine? h hkey) hmore

/-- A document that can be read gives no table a key twice. -/
theorem isProper_of_parse? {text : String} {document : Entries} (h : parse? text = some document) :
    document.IsProper := by
  obtain ⟨draft, hdraft, rfl⟩ := Option.map_eq_some_iff.1 h
  exact isProper_linesFrom? Entries.isProper_nil hdraft

end RouteTree.Toml
