import RouteTree.Proofs.Quoting

/-! Reading string literals back from a text. A literal is read from its opening quote to its
closing one, so the literals of a text are found whatever characters stand in them. -/
namespace RouteTree.Json

theorem length_lt_of_unescape {cs rest : List Char} {c : Char}
    (h : unescape cs = some (c, rest)) : rest.length < cs.length := by
  unfold unescape at h
  split at h
  · simp only [Option.bind_eq_bind, Option.bind_eq_some_iff, Option.some.injEq, Prod.mk.injEq] at h
    obtain ⟨_, _, _, _, _, rfl⟩ := h
    simp only [List.length_cons]
    omega
  · obtain ⟨_, -, heq⟩ := Option.map_eq_some_iff.1 h
    cases heq
    simp only [List.length_cons]
    omega
  · cases h
    exact Nat.lt_succ_self _
  · cases h

/-- The characters of a literal after its opening quote, and what follows the closing one. -/
def readLiteral : List Char → Option (List Char × List Char)
  | [] => none
  | '"' :: after => some ([], after)
  | cs =>
    match h : unescape cs with
    | none => none
    | some (c, rest) =>
      have : rest.length < cs.length := length_lt_of_unescape h
      (readLiteral rest).map fun (text, after) => (c :: text, after)
  termination_by cs => cs.length

theorem readLiteral_escapeChar (c : Char) (rest : List Char) :
    readLiteral (escapeChar c ++ rest) =
      (readLiteral rest).map fun (text, after) => (c :: text, after) := by
  have hcs := unescape_escapeChar c rest
  have hquote := escapeChar_append_ne_quote c rest
  generalize escapeChar c ++ rest = cs at *
  rw [readLiteral.eq_def cs]
  split
  · cases hcs
  · next after => exact absurd rfl (hquote after)
  · split
    · next h =>
      rw [hcs] at h
      cases h
    · next h =>
      rw [hcs] at h
      cases h
      rfl

theorem readLiteral_escaped (s rest : List Char) :
    readLiteral (s.flatMap escapeChar ++ '"' :: rest) = some (s, rest) := by
  induction s with
  | nil =>
    rw [List.flatMap_nil, List.nil_append, readLiteral]
  | cons c s ih =>
    rw [List.flatMap_cons, List.append_assoc, readLiteral_escapeChar, ih]
    rfl

theorem length_le_of_readLiteral {cs text after : List Char}
    (h : readLiteral cs = some (text, after)) : after.length ≤ cs.length := by
  fun_induction readLiteral cs generalizing text with
  | case1 => cases h
  | case2 rest =>
    cases h
    exact Nat.le_succ _
  | case3 => cases h
  | case4 cs _ _ c rest hrest hlength ih =>
    obtain ⟨⟨text', after'⟩, htail, heq⟩ := Option.map_eq_some_iff.1 h
    cases heq
    exact Nat.le_trans (ih htail) (Nat.le_of_lt hlength)

/-- The string literals of a text from left to right, up to one that is not closed. -/
def literals : List Char → List String
  | [] => []
  | c :: rest =>
    if c = '"' then
      match h : readLiteral rest with
      | none => []
      | some (text, after) =>
        have : after.length ≤ rest.length := length_le_of_readLiteral h
        String.ofList text :: literals after
    else literals rest
  termination_by cs => cs.length

theorem literals_append {front : List Char} (h : '"' ∉ front) (rest : List Char) :
    literals (front ++ rest) = literals rest := by
  induction front with
  | nil => rfl
  | cons c front ih =>
    obtain ⟨hc, hfront⟩ := not_or.1 (mt List.mem_cons.2 h)
    rw [List.cons_append, literals, if_neg (Ne.symm hc), ih hfront]

theorem literals_quote (s : String) (rest : List Char) :
    literals ((quote s).toList ++ rest) = s :: literals rest := by
  have hs : (quote s).toList ++ rest = '"' :: (s.toList.flatMap escapeChar ++ '"' :: rest) := by
    simp [quote]
  rw [hs, literals, if_pos rfl]
  split
  · next h =>
    rw [readLiteral_escaped] at h
    cases h
  · next h =>
    rw [readLiteral_escaped] at h
    cases h
    rw [String.ofList_toList]

/-- Quoted texts with separators between them are the literals of what they make. -/
theorem literals_join {sep : String} (hsep : '"' ∉ sep.toList) (ts : List String)
    (rest : List Char) :
    literals ((Text.join sep (ts.map quote)).toList ++ rest) = ts ++ literals rest := by
  induction ts with
  | nil => rfl
  | cons t ts ih =>
    cases ts with
    | nil => exact literals_quote t rest
    | cons u us =>
      rw [List.map_cons, List.map_cons, Text.join_cons_cons, ← List.map_cons, String.toList_append,
        String.toList_append, List.append_assoc, List.append_assoc, literals_quote,
        literals_append hsep, ih]
      rfl

end RouteTree.Json
