import RouteTree.Proofs.Filling

/-! Placeholders are found from left to right, each as long as it can be and behind the one before.
All else is kept. No placeholder reaches over a character that none can have, so a template that is
cut at one is filled piece by piece. -/
namespace RouteTree.Artifact

/-- Capitals and underscores, with a capital at either end. -/
def IsName (name : List Char) : Prop :=
  ∃ first inner last, name = first :: (inner ++ [last]) ∧ first.isUpper ∧ last.isUpper ∧
    ∀ c ∈ inner, isNameChar c

/-- What comes out of a text that is read once from left to right: the value of the longest
placeholder wherever one starts, or that placeholder itself, and every other character. -/
inductive Scan (value? : String → Option String) : List Char → List Char → Prop
  | done : Scan value? [] []
  | keep {c : Char} {rest out : List Char}
      (hnone : ∀ name, IsName name → ¬mark name <+: c :: rest)
      (hrest : Scan value? rest out) : Scan value? (c :: rest) (c :: out)
  | put {name rest out : List Char} (hname : IsName name)
      (hlongest : ∀ other, IsName other → mark other <+: mark name ++ rest →
        other.length ≤ name.length)
      (hrest : Scan value? rest out) :
      Scan value? (mark name ++ rest)
        (((value? (String.ofList name)).map String.toList).getD (mark name) ++ out)

/-! ### The placeholder at the front -/

def IsNameRest (name : List Char) : Prop :=
  ∃ inner last, name = inner ++ [last] ∧ last.isUpper ∧ ∀ c ∈ inner, isNameChar c

theorem isName_cons_iff {c : Char} {rest : List Char} :
    IsName (c :: rest) ↔ c.isUpper ∧ IsNameRest rest := by
  constructor
  · rintro ⟨first, inner, last, heq, hfirst, hlast, hinner⟩
    obtain ⟨rfl, rfl⟩ := List.cons.inj heq
    exact ⟨hfirst, inner, last, rfl, hlast, hinner⟩
  · rintro ⟨hc, inner, last, rfl, hlast, hinner⟩
    exact ⟨c, inner, last, rfl, hc, hlast, hinner⟩

theorem IsNameRest.cons {c : Char} {rest : List Char} (h : IsNameRest rest) (hc : isNameChar c) :
    IsNameRest (c :: rest) := by
  obtain ⟨inner, last, rfl, hlast, hinner⟩ := h
  exact ⟨c :: inner, last, rfl, hlast, List.forall_mem_cons.2 ⟨hc, hinner⟩⟩

theorem isNameRest_of_nameRest? {cs name : List Char} (h : nameRest? cs = some name) :
    IsNameRest name := by
  induction cs generalizing name with
  | nil => cases h
  | cons c cs ih =>
    rw [nameRest?] at h
    split at h
    · next hc =>
      split at h
      · next longer hlonger =>
        cases h
        exact (ih hlonger).cons hc
      · split at h
        · next hlast =>
          cases h
          exact ⟨[], c, rfl, (Bool.and_eq_true_iff.1 hlast).1, by simp⟩
        · cases h
    · cases h

theorem exists_nameRest?_of_prefix {cs name : List Char} (hname : IsNameRest name)
    (h : name ++ ['_', '_'] <+: cs) :
    ∃ longest, nameRest? cs = some longest ∧ name.length ≤ longest.length := by
  obtain ⟨inner, last, rfl, hlast, hinner⟩ := hname
  induction inner generalizing cs with
  | nil =>
    obtain ⟨after, rfl⟩ := h
    have hchar : isNameChar last := by simp [isNameChar, hlast]
    rw [List.nil_append, List.singleton_append, List.cons_append, nameRest?, if_pos hchar]
    cases nameRest? (['_', '_'] ++ after) with
    | some longer => exact ⟨_, rfl, by simp⟩
    | none => exact ⟨_, if_pos (by simp [hlast, isClosed]), by simp⟩
  | cons c inner ih =>
    obtain ⟨hc, hinner⟩ := List.forall_mem_cons.1 hinner
    obtain ⟨after, rfl⟩ := h
    obtain ⟨longest, hlongest, hle⟩ := ih (List.prefix_append _ after) hinner
    refine ⟨c :: longest, ?_, by simpa using hle⟩
    rw [List.cons_append, List.cons_append, List.cons_append, nameRest?, if_pos hc, hlongest]

theorem isName_of_placeholder? {cs name : List Char} (h : placeholder? cs = some name) :
    IsName name := by
  unfold placeholder? at h
  split at h
  · split at h
    · next hc =>
      obtain ⟨rest, hrest, rfl⟩ := Option.map_eq_some_iff.1 h
      exact isName_cons_iff.2 ⟨hc, isNameRest_of_nameRest? hrest⟩
    · cases h
  · cases h

theorem exists_placeholder?_of_prefix {cs name : List Char} (hname : IsName name)
    (h : mark name <+: cs) :
    ∃ longest, placeholder? cs = some longest ∧ name.length ≤ longest.length := by
  obtain ⟨after, rfl⟩ := h
  cases name with
  | nil => simp [IsName] at hname
  | cons first rest =>
    obtain ⟨hfirst, hrest⟩ := isName_cons_iff.1 hname
    obtain ⟨longest, hlongest, hle⟩ :=
      exists_nameRest?_of_prefix hrest (List.prefix_append _ after)
    refine ⟨first :: longest, ?_, by simpa using hle⟩
    simp only [mark, List.cons_append, placeholder?, hfirst, if_true, hlongest, Option.map_some]

theorem placeholder?_eq_none_iff {cs : List Char} :
    placeholder? cs = none ↔ ∀ name, IsName name → ¬mark name <+: cs := by
  constructor
  · intro hnone name hname hmark
    obtain ⟨longest, hsome, -⟩ := exists_placeholder?_of_prefix hname hmark
    rw [hnone] at hsome
    cases hsome
  · intro hnone
    refine Option.eq_none_iff_forall_ne_some.2 fun name hsome => ?_
    obtain ⟨rest, hrest⟩ := placeholder?_eq_some hsome
    exact hnone name (isName_of_placeholder? hsome) ⟨rest, hrest.symm⟩

/-- What is found is the longest placeholder there. -/
theorem length_le_of_placeholder? {cs name other : List Char} (h : placeholder? cs = some name)
    (hother : IsName other) (hmark : mark other <+: cs) : other.length ≤ name.length := by
  obtain ⟨longest, hlongest, hle⟩ := exists_placeholder?_of_prefix hother hmark
  rw [h, Option.some.injEq] at hlongest
  rwa [hlongest]

theorem placeholder?_of_longest {name rest : List Char} (hname : IsName name)
    (hlongest : ∀ other, IsName other → mark other <+: mark name ++ rest →
      other.length ≤ name.length) :
    placeholder? (mark name ++ rest) = some name := by
  obtain ⟨found, hfound, hle⟩ := exists_placeholder?_of_prefix hname (List.prefix_append _ rest)
  obtain ⟨after, hafter⟩ := placeholder?_eq_some hfound
  have hge := hlongest found (isName_of_placeholder? hfound) ⟨after, hafter.symm⟩
  have hlength : (mark name).length = (mark found).length := by
    simp only [mark, List.length_append, List.length_cons]
    omega
  have hsame : mark name = mark found := (List.append_inj hafter hlength).1
  have hfound' : name = found := by simpa [mark] using hsame
  rw [hfound, hfound']

/-! ### Filling is scanning -/

theorem templateAfter_eq_drop (skip : Nat) (cs : List Char) :
    templateAfter skip cs = template (cs.drop skip) := by
  induction cs generalizing skip with
  | nil => simp [template, templateAfter]
  | cons c cs ih =>
    cases skip with
    | zero => rfl
    | succ skip => rw [templateAfter, ih, List.drop_succ_cons]

theorem template_cons {c : Char} {cs : List Char} (h : placeholder? (c :: cs) = none) :
    template (c :: cs) = .char c :: template cs := by
  rw [template, templateAfter, h]
  rfl

theorem template_mark_append {name rest : List Char}
    (h : placeholder? (mark name ++ rest) = some name) :
    template (mark name ++ rest) = .hole name :: template rest := by
  have htext : mark name ++ rest = '_' :: ('_' :: name ++ ['_', '_'] ++ rest) := rfl
  have hdrop : ('_' :: name ++ ['_', '_'] ++ rest).drop (name.length + 3) = rest :=
    List.drop_left' (by simp)
  rw [htext] at h ⊢
  rw [template, templateAfter, h]
  simp only [templateAfter_eq_drop, hdrop]

theorem fill_hole (value? : String → Option String) (name : List Char) :
    Piece.fill value? (.hole name) =
      ((value? (String.ofList name)).map String.toList).getD (mark name) := by
  rw [Piece.fill]
  cases value? (String.ofList name) <;> rfl

variable {value? : String → Option String}

theorem Scan.eq_flatMap {cs out : List Char} (h : Scan value? cs out) :
    out = (template cs).flatMap (Piece.fill value?) := by
  induction h with
  | done => rfl
  | keep hnone hrest ih =>
    rw [template_cons (placeholder?_eq_none_iff.2 hnone), List.flatMap_cons, ← ih]
    rfl
  | put hname hlongest hrest ih =>
    rw [template_mark_append (placeholder?_of_longest hname hlongest), List.flatMap_cons, ← ih,
      fill_hole]

theorem scan_flatMap (cs : List Char) :
    Scan value? cs ((template cs).flatMap (Piece.fill value?)) := by
  -- a placeholder takes several characters at once
  induction hlength : cs.length using Nat.strongRecOn generalizing cs with
  | ind n ih =>
    cases cs with
    | nil => exact .done
    | cons c cs =>
      cases hfound : placeholder? (c :: cs) with
      | none =>
        rw [template_cons hfound]
        exact .keep (placeholder?_eq_none_iff.1 hfound) (ih cs.length (by simp [← hlength]) cs rfl)
      | some name =>
        obtain ⟨rest, hrest⟩ := placeholder?_eq_some hfound
        have hshorter : rest.length < n := by
          rw [← hlength, hrest, mark]
          simp
          omega
        rw [hrest] at hfound ⊢
        rw [template_mark_append hfound, List.flatMap_cons, fill_hole]
        exact .put (isName_of_placeholder? hfound)
          (fun other hother => length_le_of_placeholder? hfound hother) (ih _ hshorter rest rfl)

theorem scan_iff {cs out : List Char} :
    Scan value? cs out ↔ out = (template cs).flatMap (Piece.fill value?) :=
  ⟨Scan.eq_flatMap, fun h => h ▸ scan_flatMap cs⟩

/-! ### Texts put together -/

/-- No name reaches from the first text into the second: the last character of the one or the first
of the other is in no name. -/
def Apart (a b : List Char) : Prop :=
  (∀ c ∈ a.getLast?, isNameChar c = false) ∨ ∀ c ∈ b.head?, isNameChar c = false

instance (a b : List Char) : Decidable (Apart a b) :=
  decidable_of_iff (a.getLast?.all (!isNameChar ·) ∨ b.head?.all (!isNameChar ·))
    (by simp [Apart, Option.all_eq_true])

theorem Apart.of_append {a b c : List Char} (h : Apart (a ++ b) c) : Apart b c := by
  refine h.imp_left fun hlast last hb => hlast last ?_
  rw [Option.mem_def, List.getLast?_append, Option.mem_def.1 hb, Option.some_or]

theorem isNameChar_of_mem_mark {name : List Char} (h : IsName name) {c : Char}
    (hc : c ∈ mark name) : isNameChar c := by
  obtain ⟨first, inner, last, rfl, hfirst, hlast, hinner⟩ := h
  simp only [mark, List.cons_append, List.mem_cons, List.mem_append, List.not_mem_nil,
    or_false] at hc
  rcases hc with rfl | rfl | rfl | (hc | rfl) | rfl | rfl
  · rfl
  · rfl
  · simp [isNameChar, hfirst]
  · exact hinner c hc
  · simp [isNameChar, hlast]
  · rfl
  · rfl

theorem Apart.prefix_left {a b name : List Char} (h : Apart a b) (hne : a ≠ [])
    (hname : IsName name) (hmark : mark name <+: a ++ b) : mark name <+: a := by
  rcases List.prefix_or_prefix_of_prefix hmark (List.prefix_append a b) with hwithin | ⟨rest, hrest⟩
  · exact hwithin
  · cases rest with
    | nil =>
      have hwhole : mark name = a := by rw [← hrest, List.append_nil]
      exact hwhole ▸ List.prefix_rfl
    | cons c rest =>
      -- the placeholder holds the last character of the first text and the first of the second
      have hmem : ∀ d ∈ a ++ c :: rest, isNameChar d := fun d hd =>
        isNameChar_of_mem_mark hname (hrest ▸ hd)
      rcases h with hlast | hfirst
      · have hchar := hmem _ (List.mem_append_left _ (List.getLast_mem hne))
        rw [hlast _ (List.getLast?_eq_some_getLast hne)] at hchar
        cases hchar
      · rw [← hrest, List.prefix_append_right_inj] at hmark
        obtain ⟨after, rfl⟩ := hmark
        have hchar := hmem c (by simp)
        rw [hfirst c rfl] at hchar
        cases hchar

theorem Scan.append {a b out out' : List Char} (ha : Scan value? a out) (hb : Scan value? b out')
    (h : Apart a b) : Scan value? (a ++ b) (out ++ out') := by
  induction ha with
  | done => exact hb
  | @keep c rest out hnone hrest ih =>
    refine .keep (fun name hname hmark => ?_) (ih (h.of_append (a := [c])))
    exact hnone name hname (h.prefix_left (List.cons_ne_nil c rest) hname hmark)
  | @put name rest out hname hlongest hrest ih =>
    have hne : mark name ++ rest ≠ [] := List.cons_ne_nil _ _
    rw [List.append_assoc, List.append_assoc]
    refine .put hname (fun other hother hmark => ?_) (ih h.of_append)
    rw [← List.append_assoc] at hmark
    exact hlongest other hother (h.prefix_left hne hother hmark)

/-- A template is filled by reading it once from left to right; without values it stays as it is;
and two templates that are apart may be filled one after the other. -/
theorem fill_scans_once (value? : String → Option String) :
    (∀ content out : String, Scan value? content.toList out.toList ↔ out = fill value? content) ∧
    ((∀ name, value? name = none) → ∀ content, fill value? content = content) ∧
    ∀ a b : String, Apart a.toList b.toList →
      fill value? (a ++ b) = fill value? a ++ fill value? b := by
  refine ⟨fun content out => ?_, fun hnone content => ?_, fun a b hapart => ?_⟩
  · rw [scan_iff, fill, ← String.toList_inj, String.toList_ofList]
  · obtain rfl : value? = fun _ => none := funext hnone
    rw [fill, template, flatMap_fill_templateAfter, List.drop_zero, String.ofList_toList]
  · have happend : Scan value? (a.toList ++ b.toList) _ :=
      (scan_flatMap a.toList).append (scan_flatMap b.toList) hapart
    rw [fill, fill, fill, ← String.ofList_append, happend.eq_flatMap, String.toList_append]

/-- Marks with spare underscores, of a single letter, with a longer name than any that has a value,
and a value that is a mark itself. -/
theorem fill_scans_once_overlapping :
    let value? := fun name => [("AB", "__CD__"), ("CD", "x")].lookup name
    let a := "____AB__ __A__ __AB__CD__;"
    let b := "__CD_____CD__ __CD__"
    Apart a.toList b.toList ∧ fill value? (a ++ b) = fill value? a ++ fill value? b ∧
    Scan value? a.toList "____CD__ __A__ __AB__CD__;".toList ∧ fill value? b = "__CD_____CD__ x" ∧
    (∀ name, (fun _ => none : String → Option String) name = none) ∧
    fill (fun _ => none) (a ++ b) = a ++ b := by
  intro value? a b
  have hapart : Apart a.toList b.toList := by decide +kernel
  obtain ⟨hscan, -, happend⟩ := fill_scans_once value?
  obtain ⟨-, hkeep, -⟩ := fill_scans_once fun _ => none
  exact ⟨hapart, happend a b hapart, (hscan _ _).2 (by decide +kernel), by decide +kernel,
    fun _ => rfl, hkeep (fun _ => rfl) (a ++ b)⟩

end RouteTree.Artifact
