import RouteTree.Proofs.NormalForm
import RouteTree.Route.Params

/-! The marks in the text of a route show what it captures. A slash before an at sign begins a
segment that captures something, and it ends the text just when the route takes all that is left. -/
namespace RouteTree

namespace Text

theorem endsWith_iff {ending s : String} : endsWith ending s ↔ ∃ rest, s = rest ++ ending := by
  rw [endsWith, Option.isSome_iff_exists]
  simp only [stripEnd?_eq_some_iff]

theorem startsWith_iff {start s : String} : startsWith start s ↔ start.toList <+: s.toList := by
  rw [startsWith, stripStart?, Option.isSome_map, dropStart?_isSome_iff]

theorem startsWith_at_iff {s : String} : startsWith "@" s ↔ s.toList.head? = some '@' := by
  rw [startsWith_iff]
  cases s.toList with
  | nil => simp
  | cons c cs => simp [List.cons_prefix_cons, eq_comm]

theorem contains_iff_exists {needle s : String} :
    contains needle s ↔ ∃ before after, s = before ++ needle ++ after := by
  rw [contains_iff]
  constructor
  · rintro ⟨before, after, h⟩
    refine ⟨String.ofList before, String.ofList after, ?_⟩
    rw [← String.toList_inj, ← h]
    simp
  · rintro ⟨before, after, rfl⟩
    exact ⟨before.toList, after.toList, by simp⟩

theorem slashSplit_append_slash (a b : String) :
    slashSplit (a ++ "/" ++ b) = slashSplit a ++ slashSplit b := by
  have htext : (a ++ "/" ++ b).toList = a.toList ++ '/' :: b.toList := by simp
  rw [slashSplit, htext, splitOn_append_sep, List.map_append]
  rfl

theorem slashSplit_of_no_slash {s : String} (h : '/' ∉ s.toList) : slashSplit s = [s] := by
  rw [slashSplit, splitOn_of_not_mem h]
  simp

theorem slashSplit_append_join (a : String) {parts : List String}
    (h : ∀ part ∈ parts, '/' ∉ part.toList) :
    slashSplit (a ++ String.join (parts.map ("/" ++ ·))) = slashSplit a ++ parts := by
  induction parts generalizing a with
  | nil => simp
  | cons part rest ih =>
    obtain ⟨hpart, hrest⟩ := List.forall_mem_cons.1 h
    rw [List.map_cons, String.join_cons, ← String.append_assoc, ← String.append_assoc, ih _ hrest,
      slashSplit_append_slash, slashSplit_of_no_slash hpart]
    simp

theorem exists_piece_startsWith {c : Char} (hc : c ≠ '/') (after : String) :
    ∃ piece ∈ pieces (String.ofList [c] ++ after), piece.toList.head? = some c := by
  have htext : (String.ofList [c] ++ after).toList = c :: after.toList := by simp
  rw [pieces, htext, splitOn, if_neg hc]
  cases splitOn '/' after.toList with
  | nil => exact ⟨String.ofList [c], by simp, by simp⟩
  | cons part parts => exact ⟨String.ofList (c :: part), by simp, by simp⟩

end Text

namespace Segment

def IsCapture : Segment → Prop
  | .literal _ => False
  | .named _ | .catchall => True

/-- The text of a segment begins with an at sign just when the segment captures something. -/
theorem Readable.head?_text_iff {s : Segment} (h : s.Readable) :
    s.text.toList.head? = some '@' ↔ s.IsCapture := by
  cases s with
  | literal text =>
    have hliteral : ofPiece text = .literal text := h.ofPiece_text
    constructor
    · intro hhead
      obtain ⟨rest, hrest⟩ := List.head?_eq_some_iff.1 hhead
      rw [Segment.text] at hrest
      rw [ofPiece, hrest] at hliteral
      cases rest <;> cases hliteral
    · exact False.elim
  | named name => simp [Segment.text, IsCapture]
  | catchall => simp [Segment.text, IsCapture]

end Segment

namespace Route

variable {r : Route}

theorem slashed_append (a b : List Segment) : slashed (a ++ b) = slashed a ++ slashed b := by
  simp [slashed]

theorem isCatchall_iff : r.isCatchall ↔ ∃ before, r.segments = before ++ [.catchall] := by
  rw [isCatchall, decide_eq_true_eq, List.getLast?_eq_some_iff]

theorem catchall_not_mem (h : ¬ r.isCatchall) : Segment.catchall ∉ r.segments := by
  intro hmem
  rcases List.eq_nil_or_concat r.segments with hnil | ⟨before, last, hsegments⟩
  · rw [hnil] at hmem
    cases hmem
  · rw [List.concat_eq_append] at hsegments
    rw [hsegments, List.mem_append, List.mem_singleton] at hmem
    rcases hmem with hbefore | hlast
    · have hfree := r.catchall_last
      rw [hsegments, List.dropLast_concat] at hfree
      exact hfree hbefore
    · exact h (isCatchall_iff.2 ⟨before, hlast ▸ hsegments⟩)

theorem text_of_ne_nil (h : r.segments ≠ []) : r.text = slashed r.segments := by
  rw [text, if_neg h]

theorem text_of_isCatchall (h : r.isCatchall) : r.text = r.base ++ "/@" := by
  obtain ⟨before, hsegments⟩ := isCatchall_iff.1 h
  rw [text_of_ne_nil (by simp [hsegments]), base, hsegments, slashed_append, List.dropLast_concat]
  rfl

theorem kind_eq_catchall_iff : r.kind = .catchall ↔ r.isCatchall := by
  rw [kind, ParamKind.ofRoute]
  split
  · next h => simp [h]
  · next h => split <;> simp [h]

theorem mem_names_iff {name : String} : name ∈ r.names ↔ .named name ∈ r.segments := by
  rw [names, List.mem_filterMap]
  constructor
  · rintro ⟨s, hs, hname⟩
    cases s <;> cases hname
    exact hs
  · intro h
    exact ⟨_, h, rfl⟩

theorem kind_eq_none_iff : r.kind = .none ↔ ∀ s ∈ r.segments, ¬ s.IsCapture := by
  constructor
  · intro hkind s hs hcapture
    have hcatchall : ¬ r.isCatchall := by
      rw [← kind_eq_catchall_iff, hkind]
      simp
    rw [kind, ParamKind.ofRoute, if_neg hcatchall] at hkind
    split at hkind
    · next hnames =>
      cases s with
      | literal text => exact hcapture
      | named name => exact List.not_mem_nil (hnames ▸ mem_names_iff.2 hs)
      | catchall => exact catchall_not_mem hcatchall hs
    · cases hkind
  · intro hnone
    have hcatchall : ¬ r.isCatchall := by
      rw [isCatchall_iff]
      rintro ⟨before, hsegments⟩
      exact hnone .catchall (by simp [hsegments]) trivial
    have hnames : r.names = [] := by
      rw [List.eq_nil_iff_forall_not_mem]
      intro name hname
      exact hnone _ (mem_names_iff.1 hname) trivial
    rw [kind, ParamKind.ofRoute, if_neg hcatchall, if_pos hnames]

/-- A capture of all that is left has its mark at the end of the text. -/
theorem endsWith_text_iff : Text.endsWith "/@" r.text ↔ r.kind = .catchall := by
  rw [kind_eq_catchall_iff, Text.endsWith_iff]
  constructor
  · rintro ⟨rest, htext⟩
    have hpieces : r.segments.map Segment.text = Text.pieces rest ++ ["@"] := by
      have hsplit : r.text = rest ++ "/" ++ "@" := by rw [htext, String.append_assoc]; rfl
      rw [← pieces_text, hsplit, Text.pieces_append_slash]
      rfl
    obtain ⟨before, last, hsegments, -, hlast⟩ := List.map_eq_append_iff.1 hpieces
    obtain ⟨s, rfl, hs⟩ : ∃ s, last = [s] ∧ s.text = "@" := by
      obtain ⟨s, hs⟩ := List.map_eq_singleton_iff.1 hlast
      exact ⟨s, hs⟩
    have hreadable := r.readable s (by simp [hsegments])
    have hcatchall : s = .catchall := by
      rw [← hreadable.ofPiece_text, hs]
      rfl
    exact isCatchall_iff.2 ⟨before, hcatchall ▸ hsegments⟩
  · intro h
    exact ⟨r.base, text_of_isCatchall h⟩

/-- A route captures something just when a mark stands in its text. -/
theorem contains_text_iff : Text.contains "/@" r.text ↔ r.kind ≠ .none := by
  rw [Ne, kind_eq_none_iff, Text.contains_iff_exists]
  constructor
  · rintro ⟨before, after, htext⟩ hnone
    obtain ⟨piece, hpiece, hhead⟩ :=
      Text.exists_piece_startsWith (c := '@') (by decide) after
    have hmem : piece ∈ r.segments.map Segment.text := by
      have hsplit : r.text = before ++ "/" ++ (String.ofList ['@'] ++ after) := by
        rw [htext, ← String.toList_inj]
        simp
      rw [← pieces_text, hsplit, Text.pieces_append_slash]
      exact List.mem_append_right _ hpiece
    obtain ⟨s, hs, rfl⟩ := List.mem_map.1 hmem
    exact hnone s hs ((r.readable s hs).head?_text_iff.1 hhead)
  · intro hsome
    obtain ⟨s, hs, hcapture⟩ : ∃ s ∈ r.segments, s.IsCapture := by
      simpa using hsome
    obtain ⟨front, back, hsegments⟩ := List.append_of_mem hs
    obtain ⟨rest, hrest⟩ := List.head?_eq_some_iff.1 ((r.readable s hs).head?_text_iff.2 hcapture)
    have htext : s.text = "@" ++ String.ofList rest := by
      rw [← String.toList_inj, hrest]
      simp
    refine ⟨slashed front, String.ofList rest ++ slashed back, ?_⟩
    rw [text_of_ne_nil (by simp [hsegments]), hsegments, slashed_append, slashed_cons, htext,
      ← String.toList_inj]
    simp

end Route

end RouteTree
