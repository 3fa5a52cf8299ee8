import RouteTree.Proofs.Markers

/-! The part of a URL that a capture of all that is left stands for. It is put together from any
texts and cut into pieces again, so what comes back is the pieces of the texts. -/
namespace RouteTree

namespace Text

theorem piece_of_mem_flatMap_pieces {parts : List String} :
    ∀ piece ∈ parts.flatMap pieces, piece.toList ≠ [] ∧ '/' ∉ piece.toList := by
  intro piece hpiece
  obtain ⟨part, -, hmem⟩ := List.mem_flatMap.1 hpiece
  exact piece_of_mem_pieces hmem

theorem flatMap_pieces_eq_self_iff {parts : List String} :
    parts.flatMap pieces = parts ↔ ∀ part ∈ parts, part ≠ "" ∧ '/' ∉ part.toList := by
  simp only [ne_eq, ← String.toList_eq_nil_iff]
  refine ⟨fun h => ?_, flatMap_pieces_eq_self⟩
  rw [← h]
  exact piece_of_mem_flatMap_pieces

end Text

namespace Route

variable {r : Route}

theorem build_catchall (h : r.isCatchall) (parts : List String) :
    r.build (.catchall parts) = .ok (r.base ++ ("/" ++ Text.join "/" parts)) := by
  unfold build
  rw [kind_eq_catchall_iff.2 h]
  exact congrArg Except.ok (String.append_assoc ..)

theorem extract_rest (h : r.isCatchall) (rest : String) :
    r.extract (.ofList [(restKey, rest)]) = .ok (.catchall (Text.pieces rest)) := by
  have hrest : Text.Dictionary.get? restKey (.ofList [(restKey, rest)]) = some rest := rfl
  unfold extract
  rw [hrest, kind_eq_catchall_iff.2 h]

/-- What is built from texts gives their pieces back. -/
theorem extract_tail (h : r.isCatchall) (parts : List String) :
    r.extract (.ofList [(restKey, "/" ++ Text.join "/" parts)]) =
      .ok (.catchall (parts.flatMap Text.pieces)) := by
  rw [extract_rest h, Text.pieces_slash_append, Text.pieces_join_eq_flatMap]

/-- A route that takes all that is left has a URL for any texts, and it begins with the pattern
before the mark. What follows there, captured by a host router, is extracted as the pieces of the
texts. They are the texts themselves just when none is empty and none holds a slash, and built again
they are extracted as they are. -/
theorem rest_round_trip (h : r.isCatchall) (parts : List String) :
    let kept := parts.flatMap Text.pieces
    ∃ front tail, r.text = front ++ "/@" ∧ r.build (.catchall parts) = .ok (front ++ tail) ∧
      r.extract (.ofList [("*", tail)]) = .ok (.catchall kept) ∧
      (kept = parts ↔ ∀ part ∈ parts, part ≠ "" ∧ '/' ∉ part.toList) ∧
      ∃ again, r.build (.catchall kept) = .ok (front ++ again) ∧
        r.extract (.ofList [("*", again)]) = .ok (.catchall kept) := by
  intro kept
  have hkept : kept.flatMap Text.pieces = kept :=
    Text.flatMap_pieces_eq_self Text.piece_of_mem_flatMap_pieces
  refine ⟨r.base, "/" ++ Text.join "/" parts, text_of_isCatchall h, build_catchall h parts,
    extract_tail h parts, Text.flatMap_pieces_eq_self_iff, "/" ++ Text.join "/" kept,
    build_catchall h kept, ?_⟩
  have hagain := extract_tail h kept
  rwa [hkept] at hagain

/-- Texts with slashes, an empty one and one that is a mark, behind a name that stays as it is. -/
theorem rest_round_trip_handbook :
    let handbook := (parse "/docs/@lang/@").toOption.getD .root
    handbook.isCatchall ∧
    ∃ front tail, handbook.text = front ++ "/@" ∧
      handbook.build (.catchall ["a//b", "", "@"]) = .ok (front ++ tail) ∧
      handbook.extract (.ofList [("*", tail)]) = .ok (.catchall ["a", "b", "@"]) ∧
      ∃ again, handbook.build (.catchall ["a", "b", "@"]) = .ok (front ++ again) ∧
        handbook.extract (.ofList [("*", again)]) = .ok (.catchall ["a", "b", "@"]) := by
  intro handbook
  have hcatchall : handbook.isCatchall := by decide +kernel
  have hkept : ["a//b", "", "@"].flatMap Text.pieces = ["a", "b", "@"] := by decide +kernel
  obtain ⟨front, tail, htext, hbuild, hextract, -, hagain⟩ :=
    rest_round_trip hcatchall ["a//b", "", "@"]
  rw [hkept] at hextract hagain
  exact ⟨hcatchall, front, tail, htext, hbuild, hextract, hagain⟩

end Route

end RouteTree
