import Mathlib.Data.List.Basic
import RouteTree.Terminal.Style
import RouteTree.Terminal.Screen
import RouteTree.Proofs.Pieces

/-! How a terminal reads what is written on it. Styled text is seen without its styles, wherever it
stands, and a text that ends its last line takes one row for each of its lines and leaves the cursor
on a fresh row. -/
namespace RouteTree.Terminal
open RouteTree.Text (splitOn splitOn_sep_cons splitOn_ne_nil)

/-! ### Plain texts -/

/-- A control character: those below the blank, and from delete to the end of the second block. -/
def IsControl (c : Char) : Prop := c.toNat < 0x20 ∨ 0x7f ≤ c.toNat ∧ c.toNat ≤ 0x9f

instance (c : Char) : Decidable (IsControl c) := inferInstanceAs (Decidable (_ ∨ _))

def IsPlain (s : String) : Prop := ∀ c ∈ s.toList, IsControl c → c = '\n'

instance (s : String) : Decidable (IsPlain s) :=
  List.decidableBAll (fun c => IsControl c → c = '\n') s.toList

theorem IsPlain.append {s t : String} (hs : IsPlain s) (ht : IsPlain t) : IsPlain (s ++ t) := by
  intro c hc
  rcases List.mem_append.1 (String.toList_append ▸ hc) with h | h
  · exact hs c h
  · exact ht c h

/-! ### Reading styled text -/

namespace Display

/-- A text that is seen as another one, wherever it is written. -/
def Shows (s plain : String) : Prop :=
  ∀ screen : Screen, read { screen } s.toList = { screen := screen.typeText plain.toList }

theorem shows_append {s t p q : String} (hs : Shows s p) (ht : Shows t q) :
    Shows (s ++ t) (p ++ q) := by
  intro screen
  rw [String.toList_append, read_append, hs, ht, String.toList_append, Screen.typeText_append]

theorem shows_plain {s : String} (h : IsPlain s) : Shows s s := by
  have hread : ∀ (cs : List Char) (screen : Screen), '\x1b' ∉ cs →
      read { screen } cs = { screen := screen.typeText cs } := by
    intro cs
    induction cs with
    | nil => intros; rfl
    | cons c cs ih =>
      intro screen hcs
      obtain ⟨hc, hcs⟩ := not_or.1 (mt List.mem_cons.2 hcs)
      rw [read, List.foldl_cons, step_text screen (Ne.symm hc)]
      exact ih _ hcs
  intro screen
  refine hread _ screen fun hescape => ?_
  exact absurd (h _ hescape (by decide)) (by decide)

theorem read_digits (screen : Screen) {digits : List Char} (h : ∀ c ∈ digits, c.isDigit)
    (number : Nat) :
    read { screen, reading := .control number } digits =
      { screen, reading := .control (Nat.ofDigitChars 10 digits number) } := by
  induction digits generalizing number with
  | nil => simp [read]
  | cons c digits ih =>
    rw [read, List.foldl_cons, step_digit screen number (h c List.mem_cons_self),
      Nat.ofDigitChars_cons]
    exact ih (fun d hd => h d (List.mem_cons_of_mem _ hd)) _

/-- A control sequence as the console writes it. -/
theorem read_control (screen : Screen) (number : Nat) {c : Char} (h : c.isDigit = false) :
    read { screen } (escape ++ toString number ++ String.singleton c).toList =
      { screen := screen.control number c } := by
  have htoList : (toString number).toList = Nat.toDigits 10 number := by
    rw [Nat.toString_eq_ofList_toDigits, String.toList_ofList]
  have hdigits : ∀ d ∈ (toString number).toList, d.isDigit := by
    intro d hd
    exact Nat.isDigit_of_mem_toDigits (by decide) (by decide) (htoList ▸ hd)
  have hescape : read { screen } escape.toList = { screen, reading := .control 0 } := rfl
  rw [String.toList_append, String.toList_append, read_append, read_append, hescape,
    read_digits screen hdigits, htoList, Nat.ofDigitChars_ten_toDigits, String.toList_singleton]
  exact step_last screen number h

/-- What switches a style on or off is not seen. -/
theorem shows_style (code : Nat) : Shows (escape ++ toString code ++ "m") "" := by
  intro screen
  have hm : "m" = String.singleton 'm' := by decide
  rw [hm, read_control screen code (by decide)]
  rfl

theorem shows_styled {s p : String} (on off : Nat) (h : Shows s p) :
    Shows (escape ++ toString on ++ "m" ++ s ++ (escape ++ toString off ++ "m")) p := by
  have happend := shows_append (shows_append (shows_style on) h) (shows_style off)
  rwa [String.empty_append, String.append_empty] at happend

theorem shows_paint {s p : String} (color : Color) (h : Shows s p) :
    Shows (color.paint s) p := by
  have hoff : "39m" = toString 39 ++ "m" := by decide
  simpa only [Color.paint, hoff, String.append_assoc] using shows_styled color.code 39 h

theorem shows_bold {s p : String} (h : Shows s p) : Shows (bold s) p := by
  have hon : "1m" = toString 1 ++ "m" := by decide
  have hoff : "0m" = toString 0 ++ "m" := by decide
  simpa only [bold, hon, hoff, String.append_assoc] using shows_styled 1 0 h

theorem shows_faint {s p : String} (h : Shows s p) : Shows (faint s) p := by
  have hon : "2m" = toString 2 ++ "m" := by decide
  have hoff : "0m" = toString 0 ++ "m" := by decide
  simpa only [faint, hon, hoff, String.append_assoc] using shows_styled 2 0 h

end Display

/-! ### Blocks on the screen -/

/-- The screen with the cursor behind all that was written. -/
def Screen.page (above : List (List Char)) (row : List Char) : Screen where
  above
  row
  column := row.length

namespace Screen

theorem type_page (above : List (List Char)) (row : List Char) {c : Char} (h : c ≠ '\n') :
    (page above row).type c = page above (row ++ [c]) := by
  simp [type, h, put, page, List.rightpad]

theorem newline_page (above : List (List Char)) (row : List Char) :
    (page above row).type '\n' = page (row :: above) [] := rfl

/-- A text with a line end after it stands below what was written before, one row for each of its
lines. -/
theorem typeText_line (above : List (List Char)) (row cs : List Char) :
    (page above row).typeText (cs ++ ['\n']) =
      page (((splitOn '\n' cs).modifyHead (row ++ ·)).reverse ++ above) [] := by
  induction cs generalizing above row with
  | nil => simp [typeText, newline_page]
  | cons c cs ih =>
    rw [List.cons_append, typeText, List.foldl_cons]
    by_cases hc : c = '\n'
    · subst hc
      rw [newline_page, splitOn_sep_cons]
      refine (ih (row :: above) []).trans ?_
      cases splitOn '\n' cs <;> simp
    · rw [type_page above row hc, splitOn, if_neg hc]
      refine (ih above (row ++ [c])).trans ?_
      cases hsplit : splitOn '\n' cs with
      | nil => exact absurd hsplit (splitOn_ne_nil '\n' cs)
      | cons part parts => simp

/-- Climbing over the rows of a block and erasing takes the block away. -/
theorem eraseBelow_up (rows above : List (List Char)) (row : List Char)
    (below : List (List Char)) :
    (up rows.length ⟨rows ++ above, row, 0, below⟩).eraseBelow = page above [] := by
  induction rows generalizing row below with
  | nil => rfl
  | cons r rows ih => exact ih r (row :: below)

end Screen

end RouteTree.Terminal
