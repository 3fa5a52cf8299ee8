import RouteTree.Artifact.Template
import RouteTree.Text.Pieces

/-! A template is plain text with placeholders in between, and filling it leaves the plain text as
it is. The values come in once, one for each placeholder from left to right; without any values the
text of the template itself comes out. -/
namespace RouteTree.Artifact

/-- How a placeholder stands in the text of a template. -/
def mark (name : List Char) : List Char := '_' :: '_' :: name ++ ['_', '_']

theorem isClosed_iff {cs : List Char} : isClosed cs ↔ ∃ rest, cs = '_' :: '_' :: rest := by
  unfold isClosed
  split
  · next rest => exact ⟨fun _ => ⟨rest, rfl⟩, fun _ => rfl⟩
  · next hother =>
    constructor
    · intro h
      cases h
    · rintro ⟨rest, rfl⟩
      exact absurd rfl (hother rest)

theorem nameRest?_eq_some {cs name : List Char} (h : nameRest? cs = some name) :
    ∃ rest, cs = name ++ '_' :: '_' :: rest := by
  induction cs generalizing name with
  | nil => cases h
  | cons c cs ih =>
    rw [nameRest?] at h
    split at h
    · split at h
      · next longer hlonger =>
        cases h
        obtain ⟨rest, rfl⟩ := ih hlonger
        exact ⟨rest, rfl⟩
      · split at h
        · next hlast =>
          cases h
          obtain ⟨rest, rfl⟩ := isClosed_iff.1 (Bool.and_eq_true_iff.1 hlast).2
          exact ⟨rest, rfl⟩
        · cases h
    · cases h

theorem placeholder?_eq_some {cs name : List Char} (h : placeholder? cs = some name) :
    ∃ rest, cs = mark name ++ rest := by
  unfold placeholder? at h
  split at h
  · split at h
    · obtain ⟨inner, hinner, rfl⟩ := Option.map_eq_some_iff.1 h
      obtain ⟨rest, rfl⟩ := nameRest?_eq_some hinner
      exact ⟨rest, by simp [mark]⟩
    · cases h
  · cases h

theorem flatMap_fill_templateAfter (skip : Nat) (cs : List Char) :
    (templateAfter skip cs).flatMap (Piece.fill fun _ => none) = cs.drop skip := by
  induction cs generalizing skip with
  | nil => simp [templateAfter]
  | cons c cs ih =>
    cases skip with
    | succ skip => rw [templateAfter, ih, List.drop_succ_cons]
    | zero =>
      rw [templateAfter]
      split
      · next name hname =>
        obtain ⟨rest, hrest⟩ := placeholder?_eq_some hname
        have hcs : cs = '_' :: name ++ ['_', '_'] ++ rest := (List.cons.inj hrest).2
        have hdrop : cs.drop (name.length + 3) = rest := by
          rw [hcs, List.drop_left']
          simp
        rw [List.flatMap_cons, ih, hdrop, List.drop_zero, hrest]
        rfl
      · rw [List.flatMap_cons, ih]
        rfl

/-- Plain text, then placeholders, each with the plain text up to the next one. -/
structure Layout where
  opening : List Char
  parts : List (List Char × List Char)

namespace Layout

def ofPieces : List Piece → Layout
  | [] => ⟨[], []⟩
  | .char c :: pieces => ⟨c :: (ofPieces pieces).opening, (ofPieces pieces).parts⟩
  | .hole name :: pieces => ⟨[], (name, (ofPieces pieces).opening) :: (ofPieces pieces).parts⟩

/-- The text with something in place of each placeholder. -/
def text (put : List Char → List Char) (layout : Layout) : List Char :=
  layout.opening ++ layout.parts.flatMap fun part => put part.1 ++ part.2

def literals (layout : Layout) : List (List Char) := layout.opening :: layout.parts.map Prod.snd

theorem flatMap_fill (value? : String → Option String) (pieces : List Piece) :
    pieces.flatMap (Piece.fill value?) =
      (ofPieces pieces).text fun name => Piece.fill value? (.hole name) := by
  induction pieces with
  | nil => rfl
  | cons piece pieces ih =>
    rw [List.flatMap_cons, ih]
    cases piece with
    | char c => rfl
    | hole name => simp [ofPieces, text]

end Layout

def layout (content : String) : Layout := .ofPieces (template content.toList)

/-- Filling a template puts the value of each placeholder between its plain texts. -/
theorem fill_eq_text (value? : String → Option String) (content : String) :
    fill value? content =
      String.ofList ((layout content).text fun name => Piece.fill value? (.hole name)) := by
  rw [fill, Layout.flatMap_fill]
  rfl

theorem eq_text_mark (content : String) : content = String.ofList ((layout content).text mark) := by
  have hfill := Layout.flatMap_fill (fun _ => none) (template content.toList)
  rw [template, flatMap_fill_templateAfter, List.drop_zero] at hfill
  rw [← String.toList_inj, String.toList_ofList]
  exact hfill

end RouteTree.Artifact
