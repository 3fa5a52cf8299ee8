import RouteTree.Proofs.Pieces
import RouteTree.Route.Basic

/-! The text of a route is a normal form of every pattern that spells the route. Reading it gives
the route back, and two patterns mean the same route when they have the same pieces. -/
namespace RouteTree

namespace Segment

theorem ofPiece_eq_catchall_iff {piece : String} : ofPiece piece = .catchall ↔ piece = "@" := by
  constructor
  · intro h
    have ht := text_ofPiece piece
    rw [h] at ht
    exact ht.symm
  · rintro rfl
    rfl

end Segment

namespace Route

/-- The spelling of a pattern without a slash too many or too few. -/
structure Canonical (s : String) : Prop where
  rooted : s.toList.head? = some '/'
  single : ¬ ['/', '/'] <:+: s.toList
  closed : s.toList.getLast? = some '/' → s = "/"

theorem catchall_mem_dropLast_iff {pieces : List String} :
    Segment.catchall ∈ (pieces.map Segment.ofPiece).dropLast ↔ "@" ∈ pieces.dropLast := by
  rw [← List.map_dropLast, List.mem_map]
  constructor
  · rintro ⟨piece, hmem, hpiece⟩
    rwa [← Segment.ofPiece_eq_catchall_iff.1 hpiece]
  · intro h
    exact ⟨"@", h, rfl⟩

theorem parse_eq_ok_iff {pattern : String} {r : Route} :
    parse pattern = .ok r ↔ (Text.pieces pattern).map Segment.ofPiece = r.segments := by
  constructor
  · intro h
    simp only [parse] at h
    split at h
    · cases h
      rfl
    · cases h
  · intro h
    have hlast := r.catchall_last
    rw [← h] at hlast
    simp only [parse]
    rw [dif_pos hlast]
    exact congrArg Except.ok (ext h)

theorem parse_eq_error_iff {pattern : String} {e : RouteError} :
    parse pattern = .error e ↔
      "@" ∈ (Text.pieces pattern).dropLast ∧ e = .catchallNotLast pattern := by
  rw [← catchall_mem_dropLast_iff]
  simp only [parse]
  split
  · next h => simp [h]
  · next h =>
    rw [Decidable.not_not] at h
    simp [h, eq_comm]

theorem pieces_of_parse {pattern : String} {r : Route} (h : parse pattern = .ok r) :
    Text.pieces pattern = r.segments.map Segment.text := by
  rw [← parse_eq_ok_iff.1 h, List.map_map]
  simp [Function.comp_def, Segment.text_ofPiece]

theorem slashed_cons (s : Segment) (rest : List Segment) :
    slashed (s :: rest) = "/" ++ s.text ++ slashed rest := by
  simp [slashed, String.join_cons]

theorem pieces_append_slashed (a : String) {segments : List Segment}
    (h : ∀ s ∈ segments, s.Readable) :
    Text.pieces (a ++ slashed segments) = Text.pieces a ++ segments.map Segment.text := by
  induction segments generalizing a with
  | nil => simp [slashed, String.join]
  | cons s rest ih =>
    obtain ⟨hs, hrest⟩ := List.forall_mem_cons.1 h
    rw [slashed_cons, ← String.append_assoc, ← String.append_assoc, ih _ hrest,
      Text.pieces_append_slash, Text.pieces_of_piece hs.ne_nil hs.no_slash]
    simp

theorem pieces_text (r : Route) : Text.pieces r.text = r.segments.map Segment.text := by
  unfold text
  split
  · next h => rw [h]; rfl
  · simpa using pieces_append_slashed "" r.readable

/-- A route is read back from its text. -/
theorem parse_text (r : Route) : parse r.text = .ok r := by
  have hsegments : ∀ s ∈ r.segments, (Segment.ofPiece ∘ Segment.text) s = s :=
    fun s hs => (r.readable s hs).ofPiece_text
  rw [parse_eq_ok_iff, pieces_text, List.map_map, List.map_congr_left hsegments, List.map_id']

theorem text_injective : Function.Injective text := by
  intro a b h
  have hab := parse_text a
  rw [h, parse_text] at hab
  exact (Except.ok.inj hab).symm

private theorem toList_slashed (segments : List Segment) :
    (slashed segments).toList = segments.flatMap fun s => '/' :: s.text.toList := by
  simp [slashed, List.flatMap_map]

private theorem double_slash_of_append {stretch rest : List Char} (h : '/' ∉ stretch)
    (hmeet : ['/', '/'] <:+: stretch ++ rest) : ['/', '/'] <:+: rest := by
  induction stretch with
  | nil => exact hmeet
  | cons c stretch ih =>
    obtain ⟨hc, hstretch⟩ := not_or.1 (mt List.mem_cons.2 h)
    rcases List.infix_cons_iff.1 hmeet with hfront | hmeet
    · exact absurd (List.cons_prefix_cons.1 hfront).1 hc
    · exact ih hstretch hmeet

private theorem no_double_slash {segments : List Segment} (h : ∀ s ∈ segments, s.Readable) :
    ¬ ['/', '/'] <:+: segments.flatMap fun s => '/' :: s.text.toList := by
  induction segments with
  | nil => simp
  | cons s rest ih =>
    obtain ⟨hs, hrest⟩ := List.forall_mem_cons.1 h
    intro hmeet
    rw [List.flatMap_cons, List.cons_append] at hmeet
    rcases List.infix_cons_iff.1 hmeet with hfront | hmeet
    · -- the second slash would be the first character of the segment
      obtain ⟨c, cs, hcs⟩ := List.exists_cons_of_ne_nil hs.ne_nil
      rw [hcs] at hfront
      have hc := (List.cons_prefix_cons.1 (List.cons_prefix_cons.1 hfront).2).1
      exact hs.no_slash (hcs ▸ hc ▸ List.mem_cons_self)
    · exact ih hrest (double_slash_of_append hs.no_slash hmeet)

private theorem getLast?_slashed_ne {segments : List Segment} (h : ∀ s ∈ segments, s.Readable) :
    (segments.flatMap fun s => '/' :: s.text.toList).getLast? ≠ some '/' := by
  rcases List.eq_nil_or_concat segments with rfl | ⟨before, s, rfl⟩
  · simp
  · have hs := h s (by simp)
    intro hlast
    rw [List.concat_eq_append, List.flatMap_append, List.flatMap_singleton, List.getLast?_append,
      List.getLast?_cons_of_ne_nil hs.ne_nil] at hlast
    rw [List.getLast?_eq_some_getLast hs.ne_nil, Option.some_or, Option.some.injEq] at hlast
    exact hs.no_slash (hlast ▸ List.getLast_mem hs.ne_nil)

theorem canonical_text (r : Route) : Canonical r.text := by
  by_cases h : r.segments = []
  · rw [text, if_pos h]
    exact ⟨rfl, by decide, fun _ => rfl⟩
  · rw [text, if_neg h]
    refine ⟨?_, ?_, ?_⟩
    · obtain ⟨s, rest, hsegments⟩ := List.exists_cons_of_ne_nil h
      simp [toList_slashed, hsegments]
    · rw [toList_slashed]
      exact no_double_slash r.readable
    · rw [toList_slashed]
      exact fun hlast => absurd hlast (getLast?_slashed_ne r.readable)

/-- The pieces of a pattern are what the library's cut at slashes leaves when empty parts are taken
out. A pattern is refused just when a piece before its last is a single `@`, and the refusal carries
the pattern. Any other pattern is read as a route with one segment for each piece, whose text is
spelled in the one canonical way and is read as this route again. The texts of two routes are equal,
and so are their segments, just when the patterns they were read from have the same pieces. -/
theorem parse_normal_form :
    let pieces (s : String) := ((s.toList.splitOn '/').filter (· ≠ [])).map String.ofList
    (∀ pattern e, parse pattern = .error e ↔
      "@" ∈ (pieces pattern).dropLast ∧ e = .catchallNotLast pattern) ∧
    (∀ pattern, "@" ∉ (pieces pattern).dropLast →
      ∃ r, parse pattern = .ok r ∧ r.segments.map Segment.text = pieces pattern ∧
        Canonical r.text ∧
        ∃ again, parse r.text = .ok again ∧ again.segments = r.segments ∧ again.text = r.text) ∧
    (∀ pattern pattern' a b, parse pattern = .ok a → parse pattern' = .ok b →
      (a.text = b.text ↔ a.segments = b.segments) ∧
        (a.segments = b.segments ↔ pieces pattern = pieces pattern')) := by
  intro pieces
  have hpieces (s : String) : pieces s = Text.pieces s := (Text.pieces_eq s).symm
  simp only [hpieces]
  refine ⟨fun pattern e => parse_eq_error_iff, ?_, ?_⟩
  · intro pattern h
    cases hparse : parse pattern with
    | error e => exact absurd (parse_eq_error_iff.1 hparse).1 h
    | ok r =>
      exact ⟨r, rfl, (pieces_of_parse hparse).symm, canonical_text r, r, parse_text r, rfl, rfl⟩
  · intro pattern pattern' a b ha hb
    refine ⟨⟨fun h => ?_, fun h => ?_⟩, ⟨fun h => ?_, fun h => ?_⟩⟩
    · rw [text_injective h]
    · rw [ext h]
    · rw [pieces_of_parse ha, h, pieces_of_parse hb]
    · rw [← parse_eq_ok_iff.1 ha, h, parse_eq_ok_iff.1 hb]

/-- A marker in the middle is refused. With slashes to spare and without, a literal, a name that
itself begins with the sigil and a marker at the end are one route. -/
theorem parse_normal_form_named :
    parse "a/@/b" = .error (.catchallNotLast "a/@/b") ∧
    ∃ a b, parse "docs//@@id/@" = .ok a ∧ parse "/docs/@@id/@/" = .ok b ∧
      a.segments = [.literal "docs", .named "@id", .catchall] ∧ b.segments = a.segments ∧
      a.text = "/docs/@@id/@" ∧ b.text = a.text ∧ Canonical a.text := by
  obtain ⟨hrefused, hread, hequal⟩ := parse_normal_form
  obtain ⟨a, ha, -, hcanonical, -⟩ := hread "docs//@@id/@" (by decide)
  obtain ⟨b, hb, -⟩ := hread "/docs/@@id/@/" (by decide)
  have hsegments : a.segments = [.literal "docs", .named "@id", .catchall] := by
    rw [← parse_eq_ok_iff.1 ha]
    decide
  have htext : a.text = "/docs/@@id/@" := by
    rw [text, hsegments]
    decide
  obtain ⟨htexts, hpieces⟩ := hequal _ _ a b ha hb
  have hsame : a.segments = b.segments := hpieces.2 (by decide)
  exact ⟨(hrefused _ _).2 ⟨by decide, rfl⟩, a, b, ha, hb, hsegments, hsame.symm, htext,
    (htexts.2 hsame).symm, hcanonical⟩

end Route

end RouteTree
