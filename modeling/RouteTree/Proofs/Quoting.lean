import Mathlib.Tactic.SplitIfs
import RouteTree.Json.Printer
import RouteTree.Json.Reader
import RouteTree.Proofs.NormalForm
import RouteTree.Route.Table

/-! JSON texts of lists of texts tell the lists apart. An escaped character can be taken off the
front of what follows, so a quoted text ends where it ends, and the items of an array can be told
one after another. -/
namespace RouteTree.Json

def unescape : List Char → Option (Char × List Char)
  | '\\' :: 'u' :: _ :: _ :: high :: low :: rest => do
    some (Char.ofNat (16 * (← hexValue? high) + (← hexValue? low)), rest)
  | '\\' :: c :: rest => (simpleEscape? c).map (·, rest)
  | c :: rest => some (c, rest)
  | [] => none

theorem hexValue?_hexDigit : ∀ n < 16, hexValue? (hexDigit n) = some n := by
  decide

theorem unescape_escapeChar (c : Char) (rest : List Char) :
    unescape (escapeChar c ++ rest) = some (c, rest) := by
  unfold escapeChar
  split
  · next h => subst h; rfl
  split
  · next h => subst h; rfl
  split
  · next h => subst h; rfl
  split
  · next h => subst h; rfl
  split
  · next h => subst h; rfl
  split
  · next h => subst h; rfl
  split
  · next h => subst h; rfl
  split
  · next h =>
    have hhigh := hexValue?_hexDigit (c.toNat / 16) (by omega)
    have hlow := hexValue?_hexDigit (c.toNat % 16) (by omega)
    have hc : Char.ofNat (16 * (c.toNat / 16) + c.toNat % 16) = c := by
      rw [Nat.div_add_mod, Char.ofNat_toNat]
    simp [unescape, hhigh, hlow, hc]
  · next hslash _ _ _ _ _ _ =>
    cases rest <;> simp [unescape, hslash]

theorem escapeChar_append_inj {c d : Char} {rest rest' : List Char}
    (h : escapeChar c ++ rest = escapeChar d ++ rest') : c = d ∧ rest = rest' := by
  have hunescape := congrArg unescape h
  rw [unescape_escapeChar, unescape_escapeChar] at hunescape
  simpa using hunescape

theorem escapeChar_append_ne_quote (c : Char) (rest rest' : List Char) :
    escapeChar c ++ rest ≠ '"' :: rest' := by
  unfold escapeChar
  split
  · simp
  · next hquote => split_ifs <;> simp [hquote]

private theorem toList_quote (s : String) :
    (quote s).toList = '"' :: s.toList.flatMap escapeChar ++ ['"'] := by
  simp [quote]

private theorem escaped_append_inj {s t rest rest' : List Char}
    (h : s.flatMap escapeChar ++ '"' :: rest = t.flatMap escapeChar ++ '"' :: rest') :
    s = t ∧ rest = rest' := by
  induction s generalizing t with
  | nil =>
    cases t with
    | nil => simpa using h
    | cons d t =>
      rw [List.flatMap_cons, List.append_assoc] at h
      exact absurd h.symm (escapeChar_append_ne_quote d _ _)
  | cons c s ih =>
    cases t with
    | nil =>
      rw [List.flatMap_cons, List.append_assoc] at h
      exact absurd h (escapeChar_append_ne_quote c _ _)
    | cons d t =>
      rw [List.flatMap_cons, List.flatMap_cons, List.append_assoc, List.append_assoc] at h
      obtain ⟨rfl, htail⟩ := escapeChar_append_inj h
      obtain ⟨rfl, hrest⟩ := ih htail
      exact ⟨rfl, hrest⟩

/-- Where a quoted text ends does not depend on what follows it. -/
theorem quote_append_inj {s t : String} {rest rest' : List Char}
    (h : (quote s).toList ++ rest = (quote t).toList ++ rest') : s = t ∧ rest = rest' := by
  simp only [toList_quote, List.cons_append, List.append_assoc, List.nil_append,
    List.cons.injEq, true_and] at h
  obtain ⟨hst, hrest⟩ := escaped_append_inj h
  exact ⟨String.toList_inj.1 hst, hrest⟩

private theorem toList_join_cons (sep s : String) (rest : List String) :
    (Text.join sep (s :: rest)).toList =
      s.toList ++ (rest.flatMap fun t => sep.toList ++ t.toList) := by
  induction rest generalizing s with
  | nil => simp [Text.join]
  | cons t rest ih => simp [Text.join, ih]

private theorem joined_append_inj {sep closing closing' : List Char} {c d : Char}
    {more after after' : List Char} (hsep : sep = c :: more) (hclosing : closing = d :: after)
    (hclosing' : closing' = d :: after') (hcd : c ≠ d) {ts us : List String}
    (h : (ts.flatMap fun t => sep ++ (quote t).toList) ++ closing =
      (us.flatMap fun u => sep ++ (quote u).toList) ++ closing') : ts = us ∧ closing = closing' := by
  induction ts generalizing us with
  | nil =>
    cases us with
    | nil => exact ⟨rfl, h⟩
    | cons u us =>
      simp only [hsep, hclosing, List.flatMap_nil, List.flatMap_cons, List.nil_append,
        List.cons_append, List.cons.injEq] at h
      exact absurd h.1.symm hcd
  | cons t ts ih =>
    cases us with
    | nil =>
      simp only [hsep, hclosing', List.flatMap_nil, List.flatMap_cons, List.nil_append,
        List.cons_append, List.cons.injEq] at h
      exact absurd h.1 hcd
    | cons u us =>
      rw [List.flatMap_cons, List.flatMap_cons, List.append_assoc, List.append_assoc,
        List.append_assoc, List.append_assoc, List.append_right_inj] at h
      obtain ⟨rfl, htail⟩ := quote_append_inj h
      obtain ⟨rfl, hrest⟩ := ih htail
      exact ⟨rfl, hrest⟩

/-- Quoted texts with separators between them can be told apart before closing texts that begin
neither like a separator nor like a quoted text. -/
theorem join_quote_append_inj {sep : String} {closing closing' : List Char} {c d : Char}
    {more after after' : List Char} (hsep : sep.toList = c :: more) (hclosing : closing = d :: after)
    (hclosing' : closing' = d :: after') (hcd : c ≠ d) (hquote : d ≠ '"') {ts us : List String}
    (h : (Text.join sep (ts.map quote)).toList ++ closing =
      (Text.join sep (us.map quote)).toList ++ closing') : ts = us ∧ closing = closing' := by
  cases ts with
  | nil =>
    cases us with
    | nil => exact ⟨rfl, h⟩
    | cons u us =>
      rw [List.map_cons, toList_join_cons, toList_quote, hclosing] at h
      exact absurd (List.cons.inj h).1 hquote
  | cons t ts =>
    cases us with
    | nil =>
      rw [List.map_cons, toList_join_cons, toList_quote, hclosing'] at h
      exact absurd (List.cons.inj h).1.symm hquote
    | cons u us =>
      rw [List.map_cons, List.map_cons, toList_join_cons, toList_join_cons, List.append_assoc,
        List.append_assoc] at h
      obtain ⟨rfl, htail⟩ := quote_append_inj h
      rw [List.flatMap_map, List.flatMap_map] at htail
      obtain ⟨rfl, hrest⟩ := joined_append_inj hsep hclosing hclosing' hcd htail
      exact ⟨rfl, hrest⟩

private theorem compactItems_string (ts : List String) :
    compactItems (ts.map .string) = ts.map quote := by
  induction ts with
  | nil => rfl
  | cons t ts ih => simp [compactItems, Value.compact, ih]

/-- Compact arrays of different texts are different. -/
theorem compact_strings_inj {ts us : List String}
    (h : (Value.array (ts.map .string)).compact = (Value.array (us.map .string)).compact) :
    ts = us := by
  rw [Value.compact, Value.compact, compactItems_string, compactItems_string,
    ← String.toList_inj] at h
  simp only [compactGroup, String.toList_append, List.append_assoc, List.append_right_inj] at h
  exact (join_quote_append_inj rfl rfl rfl (by decide) (by decide) h).1

private theorem spreadItems_string (depth : Nat) (ts : List String) :
    spreadItems depth (ts.map .string) = ts.map quote := by
  induction ts with
  | nil => rfl
  | cons t ts ih => simp [spreadItems, Value.spread, ih]

theorem pretty_strings (ts : List String) :
    (Value.array (ts.map .string)).pretty = spreadGroup "[" "]" 0 (ts.map quote) := by
  rw [Value.pretty, Value.spread, spreadItems_string]

theorem toList_spreadGroup_cons (part : String) (parts : List String) :
    (spreadGroup "[" "]" 0 (part :: parts)).toList =
      '[' :: '\n' :: (indent 1).toList ++ (Text.join (",\n" ++ indent 1) (part :: parts)).toList
        ++ ['\n', ']'] := by
  simp [spreadGroup, indent]

theorem pretty_strings_append_inj {ts us : List String} {rest rest' : List Char}
    (h : (Value.array (ts.map .string)).pretty.toList ++ rest =
      (Value.array (us.map .string)).pretty.toList ++ rest') : ts = us ∧ rest = rest' := by
  rw [pretty_strings, pretty_strings] at h
  cases ts with
  | nil =>
    cases us with
    | nil => exact ⟨rfl, List.append_cancel_left h⟩
    | cons u us =>
      rw [List.map_cons, toList_spreadGroup_cons] at h
      simp [spreadGroup] at h
  | cons t ts =>
    cases us with
    | nil =>
      rw [List.map_cons, toList_spreadGroup_cons] at h
      simp [spreadGroup] at h
    | cons u us =>
      rw [List.map_cons, List.map_cons, toList_spreadGroup_cons, toList_spreadGroup_cons,
        List.append_assoc, List.append_assoc, List.append_assoc, List.append_assoc,
        List.append_right_inj, ← List.map_cons, ← List.map_cons] at h
      have hsep : (",\n" ++ indent 1).toList = ',' :: '\n' :: (indent 1).toList := by simp
      have hclosing (rest : List Char) : ['\n', ']'] ++ rest = '\n' :: ']' :: rest := rfl
      obtain ⟨heq, hrest⟩ := join_quote_append_inj hsep (hclosing rest) (hclosing rest') (by decide)
        (by decide) h
      exact ⟨heq, List.append_cancel_left hrest⟩

end RouteTree.Json

namespace RouteTree.RouteTable

theorem texts_injective : Function.Injective texts := by
  intro a b h
  exact Text.Ordered.ext ((List.map_inj_right fun _ _ heq => Route.text_injective heq).1 h)

/-- Two tables have the same compact JSON text just when they are the same table. -/
theorem toJson_injective : Function.Injective toJson :=
  fun _ _ h => texts_injective (Json.compact_strings_inj h)

theorem toPrettyJson_injective : Function.Injective toPrettyJson := by
  intro a b h
  have htexts : a.toPrettyJson.toList ++ [] = b.toPrettyJson.toList ++ [] := by rw [h]
  exact texts_injective (Json.pretty_strings_append_inj htexts).1

end RouteTree.RouteTable
