import Mathlib
import RouteTree.Config.Loading
import RouteTree.Proofs.DistinctKeys

/-! Keys of a settings file that mean nothing. Each of them is reported once, at the outermost place
that the schema does not know, and nothing else is; without them the file means the same settings
and there is nothing to report. -/
namespace RouteTree.Config

open Toml (Value Entries)

/-- The sections of a settings file and the fields of each. -/
def schema : List (String × List String) :=
  [("pages", ["dir", "strategy", "registry"]),
    ("output", ["path", "framework", "import_source", "detect_from_plugins"])]

/-- A key right outside the schema: beside the sections, or in a section beside its fields. -/
inductive IsForeign : List String → Prop
  | outside {key : String} (hkey : key ∉ schema.map Prod.fst) : IsForeign [key]
  | inside {name key : String} {fields : List String} (hfields : (name, fields) ∈ schema)
      (hkey : key ∉ fields) : IsForeign [name, key]

/-- A key stands in a document, or in a table of it. -/
def HasKey : List String → Entries → Prop
  | [], _ => False
  | [key], entries => ∃ v, (key, v) ∈ entries
  | key :: rest, entries => ∃ origin inner, (key, .table origin inner) ∈ entries ∧ HasKey rest inner

/-- The document without a key. -/
def delete : List String → Entries → Entries
  | [], entries => entries
  | [key], entries => entries.erase key
  | key :: rest, entries => entries.map fun e =>
      match e with
      | (name, .table origin inner) =>
        (name, .table origin (if name = key then delete rest inner else inner))
      | e => e

def SectionsAreTables (document : Entries) : Prop :=
  ∀ e ∈ document, e.1 ∈ schema.map Prod.fst → ∃ origin entries, e.2 = .table origin entries

variable {document entries : Entries} {path other : List String} {name key : String}
  {fields : List String} {v : Value}

/-! ### The keys that are reported -/

/-- The unknown keys under the key of an entry, or that key. -/
def unknownPathsAt (e : String × Value) : List (List String) :=
  match schema.lookup e.1 with
  | some fields => ((entries? e.2).getD []).filterMap fun inner =>
      if inner.1 ∈ fields then none else some [e.1, inner.1]
  | none => [[e.1]]

def unknownPaths (document : Entries) : List (List String) := document.flatMap unknownPathsAt

theorem isSome_lookup_iff {α : Type} {entries : List (String × α)} :
    (entries.lookup key).isSome ↔ key ∈ entries.map Prod.fst := by
  rw [List.lookup_isSome_iff, List.mem_map]
  exact exists_congr fun e => and_congr_right fun _ => by rw [beq_iff_eq, eq_comm]

theorem lookup_schema_iff : schema.lookup name = some fields ↔ (name, fields) ∈ schema := by
  constructor
  · intro h
    obtain ⟨before, after, hschema, -⟩ := List.lookup_eq_some_iff.1 h
    rw [hschema]
    simp
  · intro h
    simp only [schema, List.mem_cons, Prod.mk.injEq, List.not_mem_nil, or_false] at h
    rcases h with ⟨rfl, rfl⟩ | ⟨rfl, rfl⟩ <;> rfl

theorem lookup_schema_eq_none_iff : schema.lookup name = none ↔ name ∉ schema.map Prod.fst := by
  rw [← isSome_lookup_iff, Option.not_isSome_iff_eq_none]

theorem unknownIn_eq {φ : Type} (named : List (String × φ)) (name : String) (v : Value) :
    unknownIn name named v = (((entries? v).getD []).filterMap fun e =>
      if e.1 ∈ named.map Prod.fst then none else some [name, e.1]).map (Text.join ".") := by
  rw [unknownIn, List.map_filterMap]
  congr 1
  funext e
  by_cases he : e.1 ∈ named.map Prod.fst
  · rw [if_pos (isSome_lookup_iff.2 he), if_pos he]
    rfl
  · rw [if_neg (mt isSome_lookup_iff.1 he), if_neg he]
    rfl

theorem unknownKeys_eq (document : Entries) :
    unknownKeys document = (unknownPaths document).map (Text.join ".") := by
  rw [unknownKeys, unknownPaths, List.map_flatMap]
  congr 1
  funext ⟨key, v⟩
  split
  · next hkey =>
    rw [unknownIn_eq, unknownPathsAt, hkey]
    rfl
  · next hkey =>
    rw [unknownIn_eq, unknownPathsAt, hkey]
    rfl
  · next hpages houtput =>
    have hnone : schema.lookup key = none := by
      rw [lookup_schema_eq_none_iff]
      simpa [schema] using ⟨hpages, houtput⟩
    rw [unknownPathsAt, hnone]
    rfl

theorem hasKey_cons_cons {next : String} {rest : List String} :
    HasKey (key :: next :: rest) entries ↔
      ∃ origin inner, (key, .table origin inner) ∈ entries ∧ HasKey (next :: rest) inner := by
  rw [HasKey]
  simp

theorem mem_unknownPaths_iff (hsections : SectionsAreTables document) :
    path ∈ unknownPaths document ↔ HasKey path document ∧ IsForeign path := by
  rw [unknownPaths, List.mem_flatMap]
  constructor
  · rintro ⟨⟨name, v⟩, he, hpath⟩
    unfold unknownPathsAt at hpath
    split at hpath
    · next fields hfields =>
      have hschema := lookup_schema_iff.1 hfields
      obtain ⟨origin, entries, rfl⟩ := hsections _ he (List.mem_map_of_mem hschema)
      obtain ⟨⟨key, w⟩, hinner, hkey⟩ := List.mem_filterMap.1 hpath
      split at hkey
      · cases hkey
      · next hforeign =>
        cases hkey
        exact ⟨hasKey_cons_cons.2 ⟨origin, entries, he, w, hinner⟩, .inside hschema hforeign⟩
    · next hnone =>
      cases List.mem_singleton.1 hpath
      exact ⟨⟨v, he⟩, .outside (lookup_schema_eq_none_iff.1 hnone)⟩
  · rintro ⟨hhas, hforeign⟩
    cases hforeign with
    | outside hkey =>
      obtain ⟨v, hv⟩ := hhas
      refine ⟨_, hv, ?_⟩
      rw [unknownPathsAt, lookup_schema_eq_none_iff.2 hkey]
      exact List.mem_singleton_self _
    | inside hfields hkey =>
      obtain ⟨origin, inner, hsection, w, hw⟩ := hasKey_cons_cons.1 hhas
      refine ⟨_, hsection, ?_⟩
      rw [unknownPathsAt, lookup_schema_iff.2 hfields]
      exact List.mem_filterMap.2 ⟨_, hw, if_neg hkey⟩

theorem head?_of_mem_unknownPathsAt {e : String × Value} (h : path ∈ unknownPathsAt e) :
    path.head? = some e.1 := by
  unfold unknownPathsAt at h
  split at h
  · obtain ⟨inner, -, hinner⟩ := List.mem_filterMap.1 h
    split at hinner
    · cases hinner
    · cases hinner
      rfl
  · cases List.mem_singleton.1 h
    rfl

theorem nodup_keys_entries? (h : v.IsProper) : (((entries? v).getD []).map Prod.fst).Nodup := by
  cases h with
  | table hkeys _ => exact hkeys
  | datetime _ => exact List.nodup_singleton _
  | _ => exact List.nodup_nil

theorem nodup_unknownPathsAt {e : String × Value} (h : e.2.IsProper) :
    (unknownPathsAt e).Nodup := by
  unfold unknownPathsAt
  split
  · next fields hfields =>
    have hkeys : (((entries? e.2).getD []).filterMap fun inner =>
          if inner.1 ∈ fields then none else some [e.1, inner.1]) =
        (((entries? e.2).getD []).map Prod.fst).filterMap fun key =>
          if key ∈ fields then none else some [e.1, key] := by
      rw [List.filterMap_map]
      rfl
    rw [hkeys]
    refine List.Nodup.filterMap (fun key key' path hpath hpath' => ?_) (nodup_keys_entries? h)
    simp only [Option.mem_def, Option.ite_none_left_eq_some, Option.some.injEq] at hpath hpath'
    obtain ⟨-, rfl⟩ := hpath
    simpa [eq_comm] using hpath'.2
  · exact List.nodup_singleton _

theorem nodup_unknownPaths (h : document.IsProper) : (unknownPaths document).Nodup := by
  rw [unknownPaths, List.nodup_flatMap]
  refine ⟨fun e he => nodup_unknownPathsAt (h.values e he), ?_⟩
  refine (List.pairwise_map.1 h.keys).imp fun hne path hpath hpath' => hne ?_
  have hhead := (head?_of_mem_unknownPathsAt hpath).symm.trans (head?_of_mem_unknownPathsAt hpath')
  exact Option.some.inj hhead

/-! ### Deleting keys -/

theorem mem_erase_iff {e : String × Value} : e ∈ entries.erase key ↔ e ∈ entries ∧ e.1 ≠ key := by
  rw [Entries.erase, List.mem_filter, decide_eq_true_eq]

theorem mem_delete_cons_cons {next : String} {rest : List String}
    (h : (name, v) ∈ delete (key :: next :: rest) entries) :
    ((name, v) ∈ entries ∧ ∀ origin inner, v ≠ .table origin inner) ∨
    ∃ origin inner, (name, .table origin inner) ∈ entries ∧
      v = .table origin (if name = key then delete (next :: rest) inner else inner) := by
  rw [delete] at h
  · obtain ⟨⟨name', w⟩, he, heq⟩ := List.mem_map.1 h
    cases w with
    | table origin inner =>
      obtain ⟨rfl, rfl⟩ := Prod.mk.inj heq
      exact .inr ⟨origin, inner, he, rfl⟩
    | _ =>
      cases heq
      exact .inl ⟨he, by simp⟩
  · simp

theorem HasKey.exists_mem (h : HasKey (name :: path) entries) : ∃ v, (name, v) ∈ entries := by
  cases path with
  | nil => exact h
  | cons next rest =>
    obtain ⟨origin, inner, hmem, -⟩ := hasKey_cons_cons.1 h
    exact ⟨_, hmem⟩

theorem HasKey.mono {more : Entries} (h : HasKey path entries) (hmore : ∀ e ∈ entries, e ∈ more) :
    HasKey path more := by
  cases path with
  | nil => exact h
  | cons first rest =>
    cases rest with
    | nil => exact h.imp fun v hv => hmore _ hv
    | cons next rest =>
      obtain ⟨origin, inner, hmem, hinner⟩ := hasKey_cons_cons.1 h
      exact hasKey_cons_cons.2 ⟨origin, inner, hmore _ hmem, hinner⟩

theorem hasKey_delete (h : HasKey other (delete path entries)) :
    HasKey other entries ∧ other ≠ path := by
  induction path generalizing other entries with
  | nil =>
    refine ⟨h, ?_⟩
    rintro rfl
    exact h
  | cons key rest ih =>
    cases other with
    | nil => exact h.elim
    | cons first more =>
      cases rest with
      | nil =>
        obtain ⟨v, hv⟩ := h.exists_mem
        refine ⟨h.mono fun e he => (mem_erase_iff.1 he).1, ?_⟩
        rintro ⟨⟩
        exact (mem_erase_iff.1 hv).2 rfl
      | cons next rest =>
        cases more with
        | nil =>
          obtain ⟨v, hv⟩ := h
          refine ⟨?_, by simp⟩
          rcases mem_delete_cons_cons hv with ⟨hv, -⟩ | ⟨origin, inner, hmem, -⟩
          · exact ⟨v, hv⟩
          · exact ⟨_, hmem⟩
        | cons second more =>
          obtain ⟨origin, inner, hmem, hinner⟩ := hasKey_cons_cons.1 h
          rcases mem_delete_cons_cons hmem with ⟨-, hplain⟩ | ⟨_, before, hbefore, heq⟩
          · exact absurd rfl (hplain origin inner)
          · cases heq
            split at hinner
            · obtain ⟨hinner, hne⟩ := ih hinner
              exact ⟨hasKey_cons_cons.2 ⟨_, before, hbefore, hinner⟩, by simp [hne]⟩
            · next hother =>
              exact ⟨hasKey_cons_cons.2 ⟨_, before, hbefore, hinner⟩, by simp [hother]⟩

theorem SectionsAreTables.delete (h : SectionsAreTables document) (path : List String) :
    SectionsAreTables (delete path document) := by
  match path with
  | [] => exact h
  | [key] => exact fun e he => h e (mem_erase_iff.1 he).1
  | key :: next :: rest =>
    rintro ⟨name, v⟩ he hname
    rcases mem_delete_cons_cons he with ⟨he, -⟩ | ⟨origin, inner, -, rfl⟩
    · exact h _ he hname
    · exact ⟨origin, _, rfl⟩

theorem foldlM_filter {α σ ε : Type} {step : σ → α → Except ε σ} {keep : α → Bool}
    (h : ∀ s a, keep a = false → step s a = .ok s) (s : σ) (l : List α) :
    (l.filter keep).foldlM step s = l.foldlM step s := by
  induction l generalizing s with
  | nil => rfl
  | cons a l ih =>
    cases ha : keep a with
    | true =>
      rw [List.filter_cons_of_pos ha, List.foldlM_cons, List.foldlM_cons]
      exact bind_congr fun s' => ih s'
    | false =>
      rw [List.filter_cons_of_neg (by simp [ha]), List.foldlM_cons, h s a ha]
      exact ih s

theorem readFields_erase {α φ : Type} {named : List (String × φ)} {typeName : String}
    {set : α → φ → Value → Except Mismatch α} {default : α} (origin : Toml.Origin)
    (hkey : key ∉ named.map Prod.fst) :
    readFields named typeName set default (.table origin (entries.erase key)) =
      readFields named typeName set default (.table origin entries) := by
  refine foldlM_filter (fun a e he => ?_) default entries
  have hnone : named.lookup e.1 = none := by
    have heq : e.1 = key := by simpa using he
    rwa [← Option.not_isSome_iff_eq_none, isSome_lookup_iff, heq]
  rw [hnone]

/-- A key outside the schema has no effect on the settings. -/
theorem decode_delete (h : IsForeign path) : decode (delete path document) = decode document := by
  cases h with
  | @outside key hkey =>
    unfold decode
    refine foldlM_filter (fun settings e he => ?_) _ document
    have heq : e.1 = key := by simpa using he
    rw [heq]
    split
    · exact absurd (by simp [schema]) hkey
    · exact absurd (by simp [schema]) hkey
    · rfl
  | @inside name key fields hfields hkey =>
    have hpages (origin : Toml.Origin) (inner : Entries) (hname : name = "pages") :
        pagesSection (.table origin (delete [key] inner)) = pagesSection (.table origin inner) := by
      cases lookup_schema_iff.2 (hname ▸ hfields)
      exact readFields_erase origin hkey
    have houtput (origin : Toml.Origin) (inner : Entries) (hname : name = "output") :
        outputSection (.table origin (delete [key] inner)) =
          outputSection (.table origin inner) := by
      cases lookup_schema_iff.2 (hname ▸ hfields)
      exact readFields_erase origin hkey
    rw [delete, decode, List.foldlM_map, decode]
    · congr 1
      funext settings ⟨k, v⟩
      cases v with
      | table origin inner =>
        by_cases hk : k = name
        · dsimp only
          rw [if_pos hk]
          split
          · rw [hpages origin inner hk.symm]
          · rw [houtput origin inner hk.symm]
          · rfl
        · dsimp only
          rw [if_neg hk]
      | _ => rfl
    · simp

/-- The keys are deleted one after another, from the last to the first. -/
theorem deleteAll_keeps {paths : List (List String)} (hforeign : ∀ path ∈ paths, IsForeign path)
    (hsections : SectionsAreTables document) :
    decode (paths.foldr delete document) = decode document ∧
      SectionsAreTables (paths.foldr delete document) ∧
      ∀ path, HasKey path (paths.foldr delete document) → HasKey path document ∧ path ∉ paths := by
  induction paths with
  | nil => exact ⟨rfl, hsections, fun path h => ⟨h, List.not_mem_nil⟩⟩
  | cons first rest ih =>
    obtain ⟨hfirst, hrest⟩ := List.forall_mem_cons.1 hforeign
    obtain ⟨hdecode, htables, hkeys⟩ := ih hrest
    refine ⟨(decode_delete hfirst).trans hdecode, htables.delete first, fun path h => ?_⟩
    obtain ⟨hhas, hne⟩ := hasKey_delete h
    obtain ⟨hdocument, hpath⟩ := hkeys path hhas
    exact ⟨hdocument, by simp [hne, hpath]⟩

theorem parse_eq_ok_iff {content : String} {settings : Settings} {unknown : List String} :
    parse content = .ok (settings, unknown) ↔ ∃ document, Toml.parse? content = some document ∧
      decode document = .ok settings ∧ unknownKeys document = unknown := by
  unfold parse
  cases Toml.parse? content with
  | none => simp
  | some document =>
    simp only [Option.some.injEq, exists_eq_left']
    cases decode document with
    | error m => simp
    | ok found => simp

/-- What is reported of a settings file that can be read are the dotted paths of the outermost keys
outside the schema, each of them once. The document without these keys means the same settings, and
there is nothing to report of it. -/
theorem unknown_keys_reported {content : String} {settings : Settings} {unknown : List String}
    (hdocument : Toml.parse? content = some document) (hsections : SectionsAreTables document)
    (hparse : parse content = .ok (settings, unknown)) :
    ∃ paths : List (List String), paths.Nodup ∧
      (∀ path, path ∈ paths ↔ HasKey path document ∧ IsForeign path) ∧
      unknown = paths.map (Text.join ".") ∧
      decode (paths.foldr delete document) = .ok settings ∧
      unknownKeys (paths.foldr delete document) = [] ∧
      ∀ text, Toml.parse? text = some (paths.foldr delete document) →
        parse text = .ok (settings, []) := by
  obtain ⟨_, hread, hdecode, hunknown⟩ := parse_eq_ok_iff.1 hparse
  cases hdocument.symm.trans hread
  have hmem : ∀ path, path ∈ unknownPaths document ↔ HasKey path document ∧ IsForeign path :=
    fun path => mem_unknownPaths_iff hsections
  obtain ⟨hsame, htables, hkeys⟩ :=
    deleteAll_keeps (fun path hpath => ((hmem path).1 hpath).2) hsections
  have hsettings : decode ((unknownPaths document).foldr delete document) = .ok settings :=
    hsame.trans hdecode
  have hnone : unknownKeys ((unknownPaths document).foldr delete document) = [] := by
    rw [unknownKeys_eq, List.map_eq_nil_iff, List.eq_nil_iff_forall_not_mem]
    intro path hpath
    obtain ⟨hhas, hforeign⟩ := (mem_unknownPaths_iff htables).1 hpath
    obtain ⟨hhere, hdeleted⟩ := hkeys path hhas
    exact hdeleted ((hmem path).2 ⟨hhere, hforeign⟩)
  exact ⟨unknownPaths document, nodup_unknownPaths (Toml.isProper_of_parse? hdocument), hmem,
    by rw [← hunknown, unknownKeys_eq], hsettings, hnone,
    fun text htext => parse_eq_ok_iff.2 ⟨_, htext, hsettings, hnone⟩⟩

/-- Unknown keys that look like known ones, among keys that are known. -/
def crowded : String :=
  "'pages.dir'=1\n[pages]\ndir='app'\nroot.path=2\n[output]\n'pages'=true\npath='a.ts'\n[[dir]]\n"

def crowdedDocument : Entries :=
  [("pages.dir", .integer 1),
    ("pages", .table .header
      [("dir", .string "app"), ("root", .table .dotted [("path", .integer 2)])]),
    ("output", .table .header [("pages", .boolean true), ("path", .string "a.ts")]),
    ("dir", .tables [[]])]

theorem unknown_keys_reported_crowded :
    let settings : Settings := { pages := { dir := ⟨"app"⟩ }, output := { path := some ⟨"a.ts"⟩ } }
    Toml.parse? crowded = some crowdedDocument ∧ SectionsAreTables crowdedDocument ∧
    parse crowded = .ok (settings, ["pages.dir", "pages.root", "output.pages", "dir"]) ∧
    ∃ paths : List (List String),
      (∀ path, path ∈ paths ↔ HasKey path crowdedDocument ∧ IsForeign path) ∧
      ["pages.dir", "pages.root", "output.pages", "dir"] = paths.map (Text.join ".") ∧
      decode (paths.foldr delete crowdedDocument) = .ok settings := by
  intro settings
  have hdocument : Toml.parse? crowded = some crowdedDocument := by cbv
  have hsections : SectionsAreTables crowdedDocument := by
    simp [SectionsAreTables, crowdedDocument, schema]
  have hparse : parse crowded =
      .ok (settings, ["pages.dir", "pages.root", "output.pages", "dir"]) :=
    parse_eq_ok_iff.2 ⟨_, hdocument, rfl, by decide +kernel⟩
  obtain ⟨paths, -, hmem, hunknown, hdecode, -⟩ :=
    unknown_keys_reported hdocument hsections hparse
  exact ⟨hdocument, hsections, hparse, paths, hmem, hunknown, hdecode⟩

end RouteTree.Config
