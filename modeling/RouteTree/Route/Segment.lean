import RouteTree.Text.Pieces

/-! Segments of a route pattern. `@name` captures one piece of a URL under its name, and `@` alone
captures all that is left; any other text stands for itself. -/
namespace RouteTree

inductive Segment
  | literal (text : String)
  | named (name : String)
  | catchall
  deriving DecidableEq, Repr

namespace Segment

/-- The segment that a piece of a pattern spells. -/
def ofPiece (piece : String) : Segment :=
  match piece.toList with
  | ['@'] => .catchall
  | '@' :: name => .named (String.ofList name)
  | _ => .literal piece

def text : Segment → String
  | .literal text => text
  | .named name => "@" ++ name
  | .catchall => "@"

/-- Its text is a piece of a pattern and spells this segment. -/
structure Readable (s : Segment) : Prop where
  ne_nil : s.text.toList ≠ []
  no_slash : '/' ∉ s.text.toList
  ofPiece_text : ofPiece s.text = s

theorem text_ofPiece (piece : String) : (ofPiece piece).text = piece := by
  unfold ofPiece
  split
  · next h => rw [text, ← String.toList_inj, h]; rfl
  · next h => simp [text, ← String.toList_inj, h]
  · rfl

theorem readable_ofPiece {s piece : String} (h : piece ∈ Text.pieces s) :
    (ofPiece piece).Readable := by
  obtain ⟨hne, hslash⟩ := Text.piece_of_mem_pieces h
  constructor <;> rw [text_ofPiece] <;> assumption

end Segment

end RouteTree
