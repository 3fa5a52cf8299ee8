import Mathlib.Data.List.DropRight
import RouteTree.Proofs.Markers
import RouteTree.Proofs.Table
import RouteTree.Registry.HostRoute

/-! Slashes in the notation of a host router. They do not matter where a pattern is read, but the
star is looked for in the text as it stands, after the last slash and with nothing behind it. So two
spellings of one host route mean the same when the star is found in both or in neither. -/
namespace RouteTree

theorem Text.pieces_trimEndSlashes (s : String) : pieces (trimEndSlashes s) = pieces s := by
  obtain ⟨cs, rfl⟩ : ∃ cs, s = String.ofList cs := ⟨s.toList, (String.ofList_toList).symm⟩
  have htrim (cs : List Char) : trimEndSlashes (String.ofList cs) =
      String.ofList (cs.rdropWhile (· = '/')) := by
    rw [trimEndSlashes, String.toList_ofList, List.rdropWhile]
  induction cs using List.reverseRecOn with
  | nil => rfl
  | append_singleton cs c ih =>
    rw [htrim]
    by_cases hc : c = '/'
    · have hlast : String.ofList (cs ++ [c]) = String.ofList cs ++ "/" ++ "" := by
        rw [hc, ← String.toList_inj]
        simp
      rw [List.rdropWhile_concat_pos _ _ _ (by simpa using hc), ← htrim, ih, hlast,
        pieces_append_slash, pieces_empty, List.append_nil]
    · rw [List.rdropWhile_concat_neg _ _ _ (by simpa using hc)]

namespace RawRoute

theorem ofHost_star {base : String} (h : base ≠ "") : ofHost (base ++ "/*") = ⟨base, true⟩ := by
  have hstrip : Text.stripEnd? "/*" (base ++ "/*") = some base :=
    Text.stripEnd?_eq_some_iff.2 rfl
  unfold ofHost
  split
  · next heq =>
    rw [hstrip, Option.some.injEq] at heq
    exact absurd heq h
  · next heq =>
    rw [hstrip, Option.some.injEq] at heq
    rw [heq]
  · next heq =>
    rw [hstrip] at heq
    cases heq

theorem ofHost_of_not_star {s : String} (h : ¬ Text.endsWith "/*" s) : ofHost s = ⟨s, false⟩ := by
  rw [Text.endsWith, Bool.not_eq_true, Option.isSome_eq_false_iff, Option.isNone_iff_eq_none] at h
  unfold ofHost
  rw [h]

/-- The pieces of the pattern that is made from a host route. -/
def hostPieces (s : String) : List String :=
  if Text.endsWith "/*" s then (Text.pieces s).dropLast ++ ["@"] else Text.pieces s

theorem pieces_of_star (base : String) : Text.pieces (base ++ "/*") = Text.pieces base ++ ["*"] := by
  have hsplit : base ++ "/*" = base ++ "/" ++ "*" := by rw [String.append_assoc]; rfl
  rw [hsplit, Text.pieces_append_slash]
  rfl

theorem pieces_pattern_ofHost (s : String) : Text.pieces (ofHost s).pattern = hostPieces s := by
  rw [hostPieces]
  split
  · next h =>
    obtain ⟨base, rfl⟩ := Text.endsWith_iff.1 h
    rw [pieces_of_star, List.dropLast_concat]
    by_cases hbase : base = ""
    · subst hbase
      rfl
    · have hmark (s : String) : s ++ "/@" = s ++ "/" ++ "@" := by rw [String.append_assoc]; rfl
      rw [ofHost_star hbase, pattern, if_pos rfl, hmark, Text.pieces_append_slash,
        Text.pieces_trimEndSlashes]
      rfl
  · next h => rw [ofHost_of_not_star h, pattern, if_neg Bool.false_ne_true]

theorem dropLast_hostPieces (s : String) : (hostPieces s).dropLast = (Text.pieces s).dropLast := by
  rw [hostPieces]
  split
  · exact List.dropLast_concat
  · rfl

end RawRoute

namespace RouteTable

open RawRoute

variable {a b : String} {r : Route}

theorem mem_ofRaw_ofHost_iff :
    r ∈ (ofRaw [ofHost a]).toList ↔ (hostPieces a).map Segment.ofPiece = r.segments := by
  rw [ofRaw, mem_ofPatterns_iff, ← pieces_pattern_ofHost, ← Route.parse_eq_ok_iff]
  simp

theorem exists_mem_ofRaw_ofHost_iff :
    (∃ r, r ∈ (ofRaw [ofHost a]).toList) ↔ "@" ∉ (Text.pieces a).dropLast := by
  rw [← dropLast_hostPieces, ← Route.catchall_mem_dropLast_iff]
  simp only [mem_ofRaw_ofHost_iff]
  constructor
  · rintro ⟨r, hr⟩
    rw [hr]
    exact r.catchall_last
  · intro h
    have hreadable : ∀ s ∈ (hostPieces a).map Segment.ofPiece, s.Readable := by
      rw [← pieces_pattern_ofHost]
      intro s hs
      obtain ⟨piece, hpiece, rfl⟩ := List.mem_map.1 hs
      exact Segment.readable_ofPiece hpiece
    exact ⟨⟨_, hreadable, h⟩, rfl⟩

theorem segments_of_mem_ofRaw_ofHost {before : List String} (hbefore : Text.pieces a = before ++ ["*"])
    (hr : r ∈ (ofRaw [ofHost a]).toList) : r.segments = before.map Segment.ofPiece ++
      [if Text.endsWith "/*" a then .catchall else .literal "*"] := by
  rw [← mem_ofRaw_ofHost_iff.1 hr, hostPieces, hbefore, List.dropLast_concat]
  split <;> simp [Segment.ofPiece]

theorem ofRaw_ofHost_ne (h : Text.pieces a = Text.pieces b) (ha : Text.endsWith "/*" a)
    (hb : ¬ Text.endsWith "/*" b) (hfree : "@" ∉ (Text.pieces a).dropLast) :
    ofRaw [ofHost a] ≠ ofRaw [ofHost b] := by
  intro heq
  obtain ⟨r, hr⟩ := exists_mem_ofRaw_ofHost_iff.2 hfree
  obtain ⟨base, hbase⟩ := Text.endsWith_iff.1 ha
  have hbefore : Text.pieces a = Text.pieces base ++ ["*"] := hbase ▸ pieces_of_star base
  have hfound := segments_of_mem_ofRaw_ofHost hbefore hr
  have hkept := segments_of_mem_ofRaw_ofHost (h ▸ hbefore) (heq ▸ hr)
  rw [hfound, if_pos ha, if_neg hb, List.append_right_inj] at hkept
  cases hkept

/-- Two spellings of a host route with the same pieces have the same table just when the star is
found in both or in neither, or when neither is a route because a piece before the last is a single
`@`. A route whose last piece is a star takes all that is left just when the star is found, that is,
when it ends the text and has a slash before it. -/
theorem host_slashes_ignored_iff (h : Text.pieces a = Text.pieces b) :
    (ofRaw [ofHost a] = ofRaw [ofHost b] ↔
      ((Text.endsWith "/*" a ↔ Text.endsWith "/*" b) ∨ "@" ∈ (Text.pieces a).dropLast)) ∧
    ((Text.pieces a).getLast? = some "*" → "@" ∉ (Text.pieces a).dropLast →
      ((∃ r ∈ (ofRaw [ofHost a]).toList, r.isCatchall) ↔ Text.endsWith "/*" a)) := by
  refine ⟨⟨fun heq => ?_, ?_⟩, fun hstar hfree => ?_⟩
  · by_contra hnot
    obtain ⟨hdiffer, hfree⟩ := not_or.1 hnot
    by_cases ha : Text.endsWith "/*" a
    · have hb : ¬ Text.endsWith "/*" b := fun hb => hdiffer ⟨fun _ => hb, fun _ => ha⟩
      exact ofRaw_ofHost_ne h ha hb hfree heq
    · have hb : Text.endsWith "/*" b := by
        by_contra hb
        exact hdiffer ⟨fun h => absurd h ha, fun h => absurd h hb⟩
      exact ofRaw_ofHost_ne h.symm hb ha (h ▸ hfree) heq.symm
  · rintro (hfound | hmark)
    · apply Text.Ordered.eq_of_mem_iff
      intro r
      have hpieces : hostPieces a = hostPieces b := by simp only [hostPieces, hfound, h]
      rw [mem_ofRaw_ofHost_iff, mem_ofRaw_ofHost_iff, hpieces]
    · have hnone (s : String) (hs : "@" ∈ (Text.pieces s).dropLast) (r : Route) :
          r ∉ (ofRaw [ofHost s]).toList :=
        fun hr => exists_mem_ofRaw_ofHost_iff.1 ⟨r, hr⟩ hs
      apply Text.Ordered.eq_of_mem_iff
      intro r
      exact iff_of_false (hnone a hmark r) (hnone b (h ▸ hmark) r)
  · obtain ⟨before, hbefore⟩ := List.getLast?_eq_some_iff.1 hstar
    constructor
    · rintro ⟨r, hr, hcatchall⟩
      by_contra hnot
      have hsegments := segments_of_mem_ofRaw_ofHost hbefore hr
      rw [if_neg hnot] at hsegments
      simp [Route.isCatchall, hsegments] at hcatchall
    · intro hfound
      obtain ⟨r, hr⟩ := exists_mem_ofRaw_ofHost_iff.2 hfree
      refine ⟨r, hr, Route.isCatchall_iff.2 ⟨before.map Segment.ofPiece, ?_⟩⟩
      rw [segments_of_mem_ofRaw_ofHost hbefore hr, if_pos hfound]

/-- A star found behind slashes to spare, and behind one slash: one table, with a route that takes
all that is left. -/
theorem host_slashes_ignored_iff_docs :
    Text.pieces "docs//*" = Text.pieces "/docs/*" ∧
    Text.endsWith "/*" "docs//*" ∧ Text.endsWith "/*" "/docs/*" ∧
    ofRaw [ofHost "docs//*"] = ofRaw [ofHost "/docs/*"] ∧
    (Text.pieces "docs//*").getLast? = some "*" ∧ "@" ∉ (Text.pieces "docs//*").dropLast ∧
    ∃ r ∈ (ofRaw [ofHost "docs//*"]).toList, r.isCatchall := by
  have hpieces : Text.pieces "docs//*" = Text.pieces "/docs/*" := by decide +kernel
  have hspare : Text.endsWith "/*" "docs//*" := by decide +kernel
  have hsingle : Text.endsWith "/*" "/docs/*" := by decide +kernel
  have hstar : (Text.pieces "docs//*").getLast? = some "*" := by decide +kernel
  have hfree : "@" ∉ (Text.pieces "docs//*").dropLast := by decide +kernel
  obtain ⟨htables, hcatchall⟩ := host_slashes_ignored_iff hpieces
  exact ⟨hpieces, hspare, hsingle, htables.2 (.inl (iff_of_true hspare hsingle)), hstar, hfree,
    (hcatchall hstar hfree).2 hspare⟩

/-- A slash behind the star hides it: the route has a segment of that name instead. -/
theorem host_slash_not_ignored_behind :
    Text.pieces "/docs/*" = Text.pieces "/docs/*/" ∧
    (ofRaw [ofHost "/docs/*"]).texts = ["/docs/@"] ∧
    (ofRaw [ofHost "/docs/*/"]).texts = ["/docs/*"] ∧
    ofRaw [ofHost "/docs/*"] ≠ ofRaw [ofHost "/docs/*/"] := by
  decide +kernel

end RouteTable

end RouteTree
