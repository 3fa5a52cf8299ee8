import RouteTree.Proofs.Parents

/-! Paths cut at a component. The text up to the end of a component has the components up to there,
and the text from its start on has those from there on. So the parents of an absolute path are the
paths of its first components, down to the root alone. -/
namespace RouteTree.Path

variable {p : Path} {offset : Nat} {cs before part after : List Char} {earlier later : List Span}
  {span : Span}

/-- A text is cut around the stretch that spells a component. -/
structure IsCut (offset : Nat) (before part after : List Char) (earlier : List Span) (span : Span)
    (later : List Span) : Prop where
  start : span.start = offset + before.length
  stop : span.stop = offset + before.length + part.length
  upTo : spansFrom offset [] (before ++ part) = earlier ++ [span]
  onward : spansFrom span.start [] (part ++ after) = span :: later

theorem span_of_not_mem (hslash : '/' ∉ part)
    (h : spansFrom offset [] part = earlier ++ span :: later) :
    earlier = [] ∧ later = [] ∧ span.start = offset ∧ span.stop = offset + part.length := by
  rw [spansFrom_of_not_mem offset hslash] at h
  cases hcomponent : Component.ofPart? part with
  | none => simp [hcomponent] at h
  | some component =>
    simp only [List.reverse_nil, List.nil_append, hcomponent, Option.toList_some,
      List.map_singleton, List.length_nil, Nat.sub_zero, List.singleton_eq_append_iff,
      reduceCtorEq] at h
    grind

theorem IsCut.of_not_mem (hslash : '/' ∉ part)
    (h : spansFrom offset [] part = earlier ++ span :: later) :
    IsCut offset [] part [] earlier span later := by
  obtain ⟨rfl, rfl, hstart, hstop⟩ := span_of_not_mem hslash h
  refine ⟨hstart, hstop, h, ?_⟩
  rw [List.append_nil, hstart]
  exact h

theorem IsCut.behind (h : IsCut (offset + cs.length + 1) before part after earlier span later) :
    IsCut offset (cs ++ '/' :: before) part after (spansFrom offset [] cs ++ earlier) span
      later where
  start := by
    rw [h.start, List.length_append, List.length_cons]
    omega
  stop := by
    rw [h.stop, List.length_append, List.length_cons]
    omega
  upTo := by
    rw [List.append_assoc, List.cons_append, spansFrom_append_slash, h.upTo, List.append_assoc]
  onward := h.onward

theorem IsCut.ahead (h : IsCut offset before part [] earlier span []) (more : List Char) :
    IsCut offset before part ('/' :: more) earlier span
      (spansFrom (offset + before.length + part.length + 1) [] more) where
  start := h.start
  stop := h.stop
  upTo := h.upTo
  onward := by
    have honward := h.onward
    rw [List.append_nil] at honward
    rw [spansFrom_append_slash, honward, h.start]
    rfl

/-- Where a component stands in a text, the text can be cut. -/
theorem exists_cut (h : spansFrom offset [] cs = earlier ++ span :: later) :
    ∃ before part after, cs = before ++ part ++ after ∧
      IsCut offset before part after earlier span later := by
  -- the text is read part by part, as its slashes divide it
  induction hlength : cs.length using Nat.strongRecOn generalizing cs offset earlier with
  | ind n ih =>
    by_cases hslash : '/' ∈ cs
    · obtain ⟨part, more, rfl, hpart⟩ := List.eq_append_cons_of_mem hslash
      have hbehind (skipped : List Span) (hearlier : earlier = spansFrom offset [] part ++ skipped)
          (hmore : spansFrom (offset + part.length + 1) [] more = skipped ++ span :: later) :
          ∃ before stretch after, part ++ '/' :: more = before ++ stretch ++ after ∧
            IsCut offset before stretch after earlier span later := by
        obtain ⟨before, stretch, after, rfl, hcut⟩ :=
          ih more.length (by simp [← hlength]; omega) hmore rfl
        exact ⟨_, stretch, after, by simp, hearlier ▸ hcut.behind⟩
      rw [spansFrom_append_slash] at h
      rcases List.append_eq_append_iff.1 h with ⟨skipped, hearlier, hmore⟩ | ⟨found, hfound, hrest⟩
      · exact hbehind skipped hearlier hmore
      · cases found with
        | nil => exact hbehind [] (by simpa using hfound.symm) (by simpa using hrest.symm)
        | cons first rest =>
          obtain ⟨rfl, rfl⟩ := List.cons.inj hrest
          obtain ⟨rfl, rfl, -, -⟩ := span_of_not_mem hpart hfound
          have hcut := (IsCut.of_not_mem hpart hfound).ahead more
          exact ⟨[], part, '/' :: more, rfl, hcut⟩
    · exact ⟨[], cs, [], by simp, .of_not_mem hslash h⟩

/-- The text up to the end of a component spells the components up to there. -/
theorem spans_slice (h : p.isAbsolute) (hspans : p.spans = earlier ++ span :: later) :
    (p.slice 0 span.stop).isAbsolute ∧ (p.slice 0 span.stop).spans = earlier ++ [span] := by
  obtain ⟨rest, htext⟩ := exists_toList h
  rw [spans_of_toList htext] at hspans
  cases earlier with
  | nil =>
    obtain ⟨rfl, -⟩ := List.cons.inj hspans
    have hslice : p.slice 0 1 = ⟨"/"⟩ := by
      rw [slice, htext]
      rfl
    rw [hslice]
    exact ⟨rfl, rfl⟩
  | cons root earlier =>
    obtain ⟨rfl, hrest⟩ := List.cons.inj hspans
    obtain ⟨before, part, after, rfl, hcut⟩ := exists_cut hrest
    have hslice : (p.slice 0 span.stop).text.toList = '/' :: (before ++ part) := by
      have hstop : span.stop = (before ++ part).length + 1 := by
        rw [hcut.stop, List.length_append]
        omega
      rw [slice, htext, hstop, List.take_succ_cons, List.take_left, List.drop_zero,
        String.toList_ofList]
    refine ⟨?_, ?_⟩
    · rw [isAbsolute, hslice]
      rfl
    · rw [spans_of_toList hslice, hcut.upTo]
      rfl

theorem stop_le_length (h : p.isAbsolute) (hspan : span ∈ p.spans) :
    span.stop ≤ p.text.toList.length := by
  obtain ⟨rest, htext⟩ := exists_toList h
  rw [spans_of_toList htext] at hspan
  rcases List.mem_cons.1 hspan with rfl | hspan
  · simp [htext]
  · obtain ⟨earlier, later, hspans⟩ := List.append_of_mem hspan
    obtain ⟨before, part, after, rfl, hcut⟩ := exists_cut hspans
    rw [htext, hcut.stop]
    simp
    omega

theorem slice_slice {m n : Nat} (h : m ≤ n) : (p.slice 0 n).slice 0 m = p.slice 0 m := by
  simp only [slice, String.toList_ofList, List.drop_zero, List.take_take, Nat.min_eq_left h]

/-! ### Parents -/

theorem ofPart?_ne_root (part : List Char) : Component.ofPart? part ≠ some .root := by
  unfold Component.ofPart?
  split <;> simp

theorem component_ne_root (hspan : span ∈ spansFrom offset [] cs) : span.component ≠ .root := by
  have hmem := List.mem_map_of_mem (f := Span.component) hspan
  rw [map_component_spansFrom offset cs List.not_mem_nil, List.mem_filterMap] at hmem
  obtain ⟨part, -, hpart⟩ := hmem
  exact fun hroot => ofPart?_ne_root part (hroot ▸ hpart)

theorem parent?_of_root (hspans : p.spans = [⟨.root, 0, 1⟩]) :
    p.parent? = none ∧ p.ancestors = [p] := by
  simp [parent?, ancestors, hspans]

theorem ancestors_of_isAbsolute (h : p.isAbsolute) :
    p.ancestors = p :: p.spans.dropLast.reverse.map fun span => p.slice 0 span.stop := by
  obtain ⟨rest, htext⟩ := exists_toList h
  rw [ancestors, spans_of_toList htext, List.append_nil]

theorem parent?_of_spans (h : p.isAbsolute) {last : Span}
    (hspans : p.spans = earlier ++ [span, last]) :
    ∃ dir, p.parent? = some dir ∧ dir.isAbsolute ∧ dir.spans = earlier ++ [span] ∧
      p.ancestors = p :: dir.ancestors := by
  obtain ⟨rest, htext⟩ := exists_toList h
  obtain ⟨habs, hdir⟩ := spans_slice h hspans
  have hlast : last.component ≠ .root := by
    have htail := congrArg List.tail ((spans_of_toList htext).symm.trans hspans)
    rw [List.tail_cons] at htail
    have hmem : last ∈ spansFrom 1 [] rest := by
      rw [htail]
      cases earlier <;> simp
    exact component_ne_root hmem
  refine ⟨p.slice 0 span.stop, ?_, habs, hdir, ?_⟩
  · rw [parent?, hspans]
    simp [hlast]
  · have hslices : ∀ other ∈ earlier,
        p.slice 0 other.stop = (p.slice 0 span.stop).slice 0 other.stop := by
      intro other hother
      have hwithin := stop_le_length habs (hdir ▸ List.mem_append_left _ hother)
      have hlength : (p.slice 0 span.stop).text.toList.length ≤ span.stop := by
        rw [slice, String.toList_ofList, List.drop_zero]
        exact List.length_take_le _ _
      exact (slice_slice (Nat.le_trans hwithin hlength)).symm
    rw [ancestors_of_isAbsolute h, ancestors_of_isAbsolute habs, hspans, hdir]
    simpa using hslices

/-- An absolute path has no parent if it is the root, else the path without its last component. -/
theorem parent?_cases (h : p.isAbsolute) :
    (p.parent? = none ∧ p.ancestors = [p] ∧ p.components = [.root]) ∨
    ∃ dir, p.parent? = some dir ∧ p.ancestors = p :: dir.ancestors ∧ dir.isAbsolute ∧
      ∃ last, p.components = dir.components ++ [last] := by
  obtain ⟨rest, htext⟩ := exists_toList h
  have hroot := spans_of_toList htext
  rcases List.eq_nil_or_concat (spansFrom 1 [] rest) with hnil | ⟨between, last, hlast⟩
  · rw [hnil] at hroot
    obtain ⟨hparent, hancestors⟩ := parent?_of_root hroot
    exact .inl ⟨hparent, hancestors, by rw [components, hroot]; rfl⟩
  · obtain ⟨earlier, span, hbefore⟩ : ∃ earlier span,
        (⟨.root, 0, 1⟩ : Span) :: between = earlier ++ [span] :=
      ⟨_, _, (List.dropLast_append_getLast (List.cons_ne_nil _ _)).symm⟩
    have hspans : p.spans = earlier ++ [span, last] := by
      rw [hroot, hlast, List.concat_eq_append, ← List.cons_append, hbefore, List.append_assoc]
      rfl
    obtain ⟨dir, hparent, habs, hdir, hancestors⟩ := parent?_of_spans h hspans
    refine .inr ⟨dir, hparent, hancestors, habs, last.component, ?_⟩
    rw [components, components, hspans, hdir]
    simp

end RouteTree.Path
