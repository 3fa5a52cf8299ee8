import RouteTree.Text.Pieces

/-! How pieces behave under putting texts together. A slash always ends a piece, so the pieces of
two texts with a slash between them are those of the first and then those of the second. -/
namespace RouteTree.Text

@[simp] theorem splitOn_nil (sep : Char) : splitOn sep [] = [[]] := rfl

@[simp] theorem splitOn_sep_cons (sep : Char) (cs : List Char) :
    splitOn sep (sep :: cs) = [] :: splitOn sep cs := by
  rw [splitOn, if_pos rfl]

theorem splitOn_of_not_mem {sep : Char} {cs : List Char} (h : sep ∉ cs) :
    splitOn sep cs = [cs] := by
  induction cs with
  | nil => rfl
  | cons c cs ih =>
    obtain ⟨hc, hcs⟩ := not_or.1 (mt List.mem_cons.2 h)
    rw [splitOn, if_neg (Ne.symm hc), ih hcs]

theorem splitOn_append_sep (sep : Char) (a b : List Char) :
    splitOn sep (a ++ sep :: b) = splitOn sep a ++ splitOn sep b := by
  induction a with
  | nil => simp
  | cons c a ih =>
    rw [List.cons_append, splitOn, splitOn, ih]
    split
    · rfl
    · cases ha : splitOn sep a with
      | nil => exact absurd ha (splitOn_ne_nil sep a)
      | cons part parts => rfl

theorem length_splitOn (sep : Char) (cs : List Char) :
    (splitOn sep cs).length = cs.count sep + 1 := by
  induction cs with
  | nil => rfl
  | cons c cs ih =>
    rw [splitOn, List.count_cons]
    split
    · next hc => simp [ih, hc]
    · next hc =>
      cases hsplit : splitOn sep cs with
      | nil => exact absurd hsplit (splitOn_ne_nil sep cs)
      | cons part parts => simpa [hc, hsplit] using ih

/-- The cut is the one of the library. -/
theorem splitOn_eq (sep : Char) (cs : List Char) : splitOn sep cs = cs.splitOn sep := by
  induction cs with
  | nil => rfl
  | cons c cs ih =>
    rw [splitOn, List.splitOn_cons_eq_if_modifyHead, ih]
    by_cases hc : c = sep
    · simp [hc]
    · rw [if_neg hc, if_neg (by simpa using hc)]
      obtain ⟨part, parts, hsplit⟩ :=
        List.exists_cons_of_ne_nil (List.splitOn_ne_nil sep cs)
      rw [hsplit, List.modifyHead_cons]

theorem pieces_eq (s : String) :
    pieces s = ((s.toList.splitOn '/').filter (· ≠ [])).map String.ofList := by
  rw [pieces, splitOn_eq]

@[simp] theorem pieces_empty : pieces "" = [] := by
  simp [pieces]

theorem pieces_of_piece {s : String} (hne : s.toList ≠ []) (hslash : '/' ∉ s.toList) :
    pieces s = [s] := by
  rw [pieces, splitOn_of_not_mem hslash, List.filter_cons_of_pos (by simpa using hne)]
  simp

theorem pieces_append_slash (a b : String) : pieces (a ++ "/" ++ b) = pieces a ++ pieces b := by
  have htext : (a ++ "/" ++ b).toList = a.toList ++ '/' :: b.toList := by simp
  rw [pieces, htext, splitOn_append_sep, List.filter_append, List.map_append]
  rfl

theorem pieces_slash_append (b : String) : pieces ("/" ++ b) = pieces b := by
  simpa using pieces_append_slash "" b

theorem join_cons_cons (sep part next : String) (rest : List String) :
    join sep (part :: next :: rest) = part ++ sep ++ join sep (next :: rest) := rfl

theorem not_mem_join {c : Char} {sep : String} (hsep : c ∉ sep.toList) {parts : List String}
    (h : ∀ part ∈ parts, c ∉ part.toList) : c ∉ (join sep parts).toList := by
  induction parts with
  | nil => simp [join]
  | cons part rest ih =>
    obtain ⟨hpart, hrest⟩ := List.forall_mem_cons.1 h
    cases rest with
    | nil => exact hpart
    | cons next rest =>
      rw [join_cons_cons]
      simp only [String.toList_append, List.mem_append, not_or]
      exact ⟨⟨hpart, hsep⟩, ih hrest⟩

theorem splitOn_join {c : Char} {sep : String} (hsep : sep.toList = [c]) {parts : List String}
    (hne : parts ≠ []) (h : ∀ part ∈ parts, c ∉ part.toList) :
    splitOn c (join sep parts).toList = parts.map String.toList := by
  induction parts with
  | nil => exact absurd rfl hne
  | cons part rest ih =>
    obtain ⟨hpart, hrest⟩ := List.forall_mem_cons.1 h
    cases rest with
    | nil => exact splitOn_of_not_mem hpart
    | cons next rest =>
      rw [join_cons_cons, String.toList_append, String.toList_append, hsep, List.append_assoc,
        List.singleton_append, splitOn_append_sep, splitOn_of_not_mem hpart,
        ih (List.cons_ne_nil _ _) hrest]
      rfl

theorem pieces_join_eq_flatMap (parts : List String) :
    pieces (join "/" parts) = parts.flatMap pieces := by
  induction parts with
  | nil => exact pieces_empty
  | cons part rest ih =>
    cases rest with
    | nil => simp [join]
    | cons next rest => rw [join_cons_cons, pieces_append_slash, ih, ← List.flatMap_cons]

theorem flatMap_pieces_eq_self {parts : List String}
    (h : ∀ part ∈ parts, part.toList ≠ [] ∧ '/' ∉ part.toList) : parts.flatMap pieces = parts := by
  induction parts with
  | nil => rfl
  | cons part rest ih =>
    obtain ⟨⟨hne, hslash⟩, hrest⟩ := List.forall_mem_cons.1 h
    rw [List.flatMap_cons, pieces_of_piece hne hslash, ih hrest]
    rfl

/-- Pieces that are put together with slashes are found again. -/
theorem pieces_join {parts : List String}
    (h : ∀ part ∈ parts, part.toList ≠ [] ∧ '/' ∉ part.toList) :
    pieces (join "/" parts) = parts := by
  rw [pieces_join_eq_flatMap, flatMap_pieces_eq_self h]

theorem getLast?_join_ne {parts : List String}
    (h : ∀ part ∈ parts, part.toList ≠ [] ∧ '/' ∉ part.toList) :
    (join "/" parts).toList.getLast? ≠ some '/' := by
  induction parts with
  | nil => simp [join]
  | cons part rest ih =>
    cases rest with
    | nil => exact fun hlast => (h part (by simp)).2 (List.mem_of_getLast? hlast)
    | cons next rest =>
      have hothers (other : String) (hother : other ∈ next :: rest) := h other (by simp [hother])
      obtain ⟨c, cs, hjoin⟩ : ∃ c cs, (join "/" (next :: rest)).toList = c :: cs := by
        refine List.exists_cons_of_ne_nil fun hnil => ?_
        have hpieces := pieces_join hothers
        rw [String.toList_eq_nil_iff.1 hnil, pieces_empty] at hpieces
        cases hpieces
      have hlast := ih hothers
      obtain ⟨last, hlast'⟩ : ∃ last, (c :: cs).getLast? = some last :=
        ⟨_, List.getLast?_eq_some_getLast (List.cons_ne_nil c cs)⟩
      rw [hjoin, hlast'] at hlast
      rw [join_cons_cons, String.toList_append, List.getLast?_append, hjoin, hlast', Option.some_or]
      exact hlast

theorem join_append_singleton (sep part s : String) (rest : List String) :
    join sep (part :: rest ++ [s]) = join sep (part :: rest) ++ sep ++ s := by
  induction rest generalizing part with
  | nil => rfl
  | cons next rest ih =>
    rw [List.cons_append, List.cons_append, join_cons_cons, ← List.cons_append, ih, join_cons_cons]
    simp only [String.append_assoc]

theorem join_cons_ne_empty (sep : String) {part : String} (rest : List String) (h : part ≠ "") :
    join sep (part :: rest) ≠ "" := by
  cases rest with
  | nil => exact h
  | cons next rest =>
    rw [join_cons_cons, String.append_assoc]
    exact fun hempty => h (String.append_eq_empty_iff.1 hempty).1

theorem dropStart?_eq_some_iff {α : Type} [DecidableEq α] {start l rest : List α} :
    dropStart? start l = some rest ↔ l = start ++ rest := by
  induction start generalizing l with
  | nil => simp [dropStart?, eq_comm]
  | cons a start ih =>
    cases l with
    | nil => simp [dropStart?]
    | cons b l =>
      rw [dropStart?]
      split
      · next h => simp [h, ih]
      · next h => simp [Ne.symm h]

theorem dropStart?_isSome_iff {α : Type} [DecidableEq α] {start l : List α} :
    (dropStart? start l).isSome ↔ start <+: l := by
  simp only [Option.isSome_iff_exists, dropStart?_eq_some_iff]
  exact exists_congr fun rest => eq_comm

theorem contains_iff {needle s : String} : contains needle s ↔ needle.toList <:+: s.toList := by
  rw [contains]
  induction s.toList with
  | nil => simp [occursIn]
  | cons c cs ih =>
    rw [occursIn, Bool.or_eq_true, dropStart?_isSome_iff, ih, List.infix_cons_iff]

theorem stripEnd?_eq_some_iff {ending s rest : String} :
    stripEnd? ending s = some rest ↔ s = rest ++ ending := by
  rw [stripEnd?, Option.map_eq_some_iff]
  constructor
  · rintro ⟨reversed, hdrop, rfl⟩
    have hs := congrArg List.reverse (dropStart?_eq_some_iff.1 hdrop)
    rw [List.reverse_append, List.reverse_reverse, List.reverse_reverse] at hs
    rw [← String.toList_inj, String.toList_append, String.toList_ofList, hs]
  · rintro rfl
    exact ⟨rest.toList.reverse, dropStart?_eq_some_iff.2 (by simp), by simp⟩

end RouteTree.Text
