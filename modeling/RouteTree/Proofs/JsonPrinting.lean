import RouteTree.Json.Printer
import RouteTree.Proofs.JsonText

/-! What the printer writes on one line is JSON text of the value. -/
namespace RouteTree.Json

/-- A text with the parts of a number. -/
def IsNumeral (spelling : String) : Prop := ∃ n : Numeral, n.text = spelling.toList

theorem spellsDigit_hexDigit {n : Nat} (h : n < 16) : SpellsDigit n (hexDigit n) := by
  have hdigits : ∀ n < 16, "0123456789abcdef".toList[n]? = some (hexDigit n) := by decide
  exact .inl (hdigits n h)

theorem spellsUnit_of_lt {n : Nat} (h : n < 32) :
    SpellsUnit n ['0', '0', hexDigit (n / 16), hexDigit (n % 16)] := by
  have hzero (m : Nat) (hm : m = 0) : SpellsDigit m '0' := by
    rw [hm]
    exact .inl rfl
  refine .digits (hzero _ (by omega)) (hzero _ (by omega)) ?_ ?_
  · rw [Nat.mod_eq_of_lt (by omega)]
    exact spellsDigit_hexDigit (by omega)
  · exact spellsDigit_hexDigit (by omega)

theorem spellsChar_escapeChar (c : Char) : SpellsChar c (escapeChar c) := by
  unfold escapeChar
  split
  · next h => subst h; exact .escape (by decide)
  split
  · next h => subst h; exact .escape (by decide)
  split
  · next h => subst h; exact .escape (by decide)
  split
  · next h => subst h; exact .escape (by decide)
  split
  · next h => subst h; exact .escape (by decide)
  split
  · next h => subst h; exact .escape (by decide)
  split
  · next h => subst h; exact .escape (by decide)
  split
  · next h => exact .unicode (spellsUnit_of_lt h)
  · next hquote hslash _ _ _ _ _ hcontrol => exact .plain (by omega) hquote hslash

theorem spellsString_quote (s : String) : SpellsString s (quote s).toList := by
  have hchars (cs : List Char) : SpellsChars cs (cs.flatMap escapeChar) := by
    induction cs with
    | nil => exact .nil
    | cons c cs ih => exact .cons (spellsChar_escapeChar c) ih
  rw [quote, String.toList_ofList]
  exact .quoted (hchars s.toList)

theorem Spells.padded {v : Value} {t : List Char} (h : Spells v t) : SpellsPadded v t := by
  have hnone : Blanks [] := fun _ hc => absurd hc List.not_mem_nil
  simpa using SpellsPadded.padded hnone h hnone

theorem toList_join_comma (s s' : String) (rest : List String) :
    (Text.join "," (s :: s' :: rest)).toList =
      s.toList ++ ',' :: (Text.join "," (s' :: rest)).toList := by
  simp [Text.join]

theorem spellsMember {name : String} {v : Value} (h : Spells v v.compact.toList) :
    SpellsMember (name, v) (quote name ++ ":" ++ v.compact).toList := by
  have hnone : Blanks [] := fun _ hc => absurd hc List.not_mem_nil
  simpa using SpellsMember.member hnone (spellsString_quote name) hnone h.padded

theorem compactMembers_cons (m : String × Value) (members : List (String × Value)) :
    compactMembers (m :: members) =
      (quote m.1 ++ ":" ++ m.2.compact) :: compactMembers members := rfl

mutual

theorem spells_compact : ∀ v : Value, (∀ spelling ∈ v.numbers, IsNumeral spelling) →
    Spells v v.compact.toList
  | .null, _ => .null
  | .bool true, _ => .boolTrue
  | .bool false, _ => .boolFalse
  | .number spelling, h => by
    obtain ⟨n, hn⟩ := h spelling (by simp [Value.numbers])
    have hspells := Spells.number n
    rwa [hn, String.ofList_toList] at hspells
  | .string s, _ => .string (spellsString_quote s)
  | .array [], _ => .emptyArray fun _ hc => absurd hc List.not_mem_nil
  | .array (v :: items), h => by
    have hitems := spells_compactItems (v :: items) (List.cons_ne_nil v items) h
    simpa [Value.compact, compactGroup] using Spells.array hitems
  | .object [], _ => .emptyObject fun _ hc => absurd hc List.not_mem_nil
  | .object (m :: members), h => by
    have hmembers := spells_compactMembers (m :: members) (List.cons_ne_nil m members) h
    simpa [Value.compact, compactGroup] using Spells.object hmembers

theorem spells_compactItems : ∀ items : List Value, items ≠ [] →
    (∀ spelling ∈ itemsNumbers items, IsNumeral spelling) →
    SpellsItems items (Text.join "," (compactItems items)).toList
  | [], hne, _ => absurd rfl hne
  | [v], _, h => .last (spells_compact v fun s hs => h s (List.mem_append_left _ hs)).padded
  | v :: w :: items, _, h => by
    rw [compactItems, compactItems, toList_join_comma]
    refine .more (spells_compact v fun s hs => h s (List.mem_append_left _ hs)).padded ?_
    exact spells_compactItems (w :: items) (List.cons_ne_nil w items)
      fun s hs => h s (List.mem_append_right _ hs)

theorem spells_compactMembers : ∀ members : List (String × Value), members ≠ [] →
    (∀ spelling ∈ membersNumbers members, IsNumeral spelling) →
    SpellsMembers members (Text.join "," (compactMembers members)).toList
  | [], hne, _ => absurd rfl hne
  | [(_, v)], _, h =>
    .last (spellsMember (spells_compact v fun s hs => h s (List.mem_append_left _ hs)))
  | (_, v) :: m :: members, _, h => by
    rw [compactMembers_cons, compactMembers_cons, toList_join_comma]
    refine .more (spellsMember (spells_compact v fun s hs => h s (List.mem_append_left _ hs))) ?_
    exact spells_compactMembers (m :: members) (List.cons_ne_nil m members)
      fun s hs => h s (List.mem_append_right _ hs)

end

end RouteTree.Json
