import RouteTree.Proofs.Acceptance

/-! The URLs of a route with names. Each segment gives one piece of the URL, a literal itself and a
name its value, so the values can be read off the URL as long as no slash stands in them. -/
namespace RouteTree

namespace Segment

variable {v w : Text.Dictionary String} {segments : List Segment} {pieces : List String}

theorem exists_get?_of_gives (hv : List.Forall₂ (Gives v) segments pieces)
    (hw : List.Forall₂ (Gives w) segments pieces) {name : String}
    (hname : .named name ∈ segments) :
    ∃ piece, v.get? name = some piece ∧ w.get? name = some piece := by
  induction hv with
  | nil => cases hname
  | @cons s piece rest others hpiece _ ih =>
    obtain ⟨hpiece', hw⟩ := List.forall₂_cons.1 hw
    rcases List.mem_cons.1 hname with rfl | hname
    · exact ⟨piece, hpiece, hpiece'⟩
    · exact ih hw hname

end Segment

namespace Route

variable {r : Route} {values v w : Text.Dictionary String} {segments : List Segment}

theorem exists_kind_eq_named (hkind : r.kind.shape = .named) : ∃ names, r.kind = .named names := by
  cases hr : r.kind with
  | named names => exact ⟨names, rfl⟩
  | none | catchall =>
    rw [hr] at hkind
    cases hkind

theorem build_of_shape_named (hkind : r.kind.shape = .named) :
    r.build (.named values) = r.fill values r.segments := by
  obtain ⟨names, hnames⟩ := exists_kind_eq_named hkind
  unfold build
  rw [hnames]

theorem catchall_not_mem_of_shape_named (hkind : r.kind.shape = .named) :
    Segment.catchall ∉ r.segments := by
  refine catchall_not_mem fun hcatchall => ?_
  rw [kind_eq_catchall_iff.2 hcatchall] at hkind
  cases hkind

/-- What is built depends on the value of the name. -/
def Reads (r : Route) (name : String) : Prop :=
  ∃ v w : Text.Dictionary String, (∀ other, other ≠ name → v.get? other = w.get? other) ∧
    r.build (.named v) ≠ r.build (.named w)

/-- A route depends on its own names only, and without any one of them nothing is built. -/
theorem reads_iff (hkind : r.kind.shape = .named) {name : String} :
    r.Reads name ↔ .named name ∈ r.segments := by
  constructor
  · rintro ⟨v, w, hsame, hne⟩
    refine Decidable.byContradiction fun hname => hne ?_
    rw [build_of_shape_named hkind, build_of_shape_named hkind]
    refine fill_congr fun other hother => hsame other ?_
    rintro rfl
    exact hname hother
  · intro hname
    have hget (names : List String) (k found : String) :
        Text.Dictionary.get? k (.ofList (names.map (·, ""))) = some found ↔
          k ∈ names ∧ found = "" :=
      Text.Dictionary.get?_ofList_map
    refine ⟨.ofList (r.names.map (·, "")), .ofList ((r.names.filter (· ≠ name)).map (·, "")),
      fun other hother => ?_, fun hsame => ?_⟩
    · refine Option.ext fun found => ?_
      simp [hget, hother]
    · rw [build_of_shape_named hkind, build_of_shape_named hkind] at hsame
      obtain ⟨url, hurl⟩ : ∃ url, r.fill (.ofList (r.names.map (·, ""))) r.segments = .ok url := by
        refine exists_fill_eq_ok_iff.2 fun other hother => ?_
        exact Text.Dictionary.contains_iff.2
          ⟨"", (hget ..).2 ⟨mem_names_iff.2 hother, rfl⟩⟩
      have hwithout := exists_fill_eq_ok_iff.1 ⟨url, hsame.symm.trans hurl⟩ name hname
      obtain ⟨found, hfound⟩ := Text.Dictionary.contains_iff.1 hwithout
      have hmem := ((hget ..).1 hfound).1
      simp at hmem

def SlashFree (r : Route) (values : Text.Dictionary String) : Prop :=
  ∀ name, .named name ∈ r.segments → ∀ value, values.get? name = some value → '/' ∉ value.toList

theorem no_slash_of_gives (hreadable : ∀ s ∈ segments, s.Readable)
    (hvalues : ∀ name, .named name ∈ segments →
      ∀ value, values.get? name = some value → '/' ∉ value.toList)
    {pieces : List String} (h : List.Forall₂ (Segment.Gives values) segments pieces) :
    ∀ piece ∈ pieces, '/' ∉ piece.toList := by
  induction h with
  | nil => simp
  | @cons s piece rest others hpiece _ ih =>
    obtain ⟨hs, hrest⟩ := List.forall_mem_cons.1 hreadable
    refine List.forall_mem_cons.2 ⟨?_, ih hrest fun name hname =>
      hvalues name (List.mem_cons_of_mem _ hname)⟩
    cases s with
    | literal text =>
      have htext : piece = text := hpiece
      exact htext ▸ hs.no_slash
    | named name => exact hvalues name List.mem_cons_self piece hpiece
    | catchall => exact hpiece.elim

theorem slashSplit_of_build (hkind : r.kind.shape = .named) {url : String}
    (hbuild : r.build (.named values) = .ok url) (hvalues : r.SlashFree values) :
    ∃ pieces, Text.slashSplit url = "" :: pieces ∧
      List.Forall₂ (Segment.Gives values) r.segments pieces := by
  rw [build_of_shape_named hkind, fill_eq_ok_iff (catchall_not_mem_of_shape_named hkind)] at hbuild
  obtain ⟨pieces, hpieces, rfl⟩ := hbuild
  have hsplit := Text.slashSplit_append_join "" (no_slash_of_gives r.readable hvalues hpieces)
  rw [String.empty_append] at hsplit
  exact ⟨pieces, hsplit, hpieces⟩

/-- A URL is built just when every name of the route has a value, and else the leftmost name without
one is reported. Cut at its slashes, a URL from values without slashes has one part for each segment
behind an empty one, a literal itself and the value of a name. So such values give one URL only if
they agree on every name of the route. -/
theorem named_parts_read_back (hkind : r.kind.shape = .named) :
    (∀ values, (∃ url, r.build (.named values) = .ok url) ↔
      ∀ name, .named name ∈ r.segments → values.contains name) ∧
    (∀ values e, r.build (.named values) = .error e ↔
      ∃ before name after, r.segments = before ++ .named name :: after ∧
        (∀ earlier, .named earlier ∈ before → values.contains earlier) ∧
        ¬ values.contains name ∧ e = .missingParam r.text name) ∧
    (∀ values url, r.build (.named values) = .ok url → r.SlashFree values →
      ∃ pieces, Text.slashSplit url = "" :: pieces ∧
        List.Forall₂ (Segment.Gives values) r.segments pieces) ∧
    (∀ v w url url', r.build (.named v) = .ok url → r.build (.named w) = .ok url' →
      r.SlashFree v → r.SlashFree w →
      (url = url' ↔ ∀ name, .named name ∈ r.segments → v.get? name = w.get? name)) := by
  refine ⟨fun values => ?_, fun values e => ?_, fun values url => slashSplit_of_build hkind,
    fun v w url url' hv hw hvfree hwfree => ⟨?_, fun h => ?_⟩⟩
  · rw [build_of_shape_named hkind]
    exact exists_fill_eq_ok_iff
  · rw [build_of_shape_named hkind]
    exact fill_eq_error_iff
  · rintro rfl name hname
    obtain ⟨pieces, hsplit, hpieces⟩ := slashSplit_of_build hkind hv hvfree
    obtain ⟨pieces', hsplit', hpieces'⟩ := slashSplit_of_build hkind hw hwfree
    obtain rfl : pieces = pieces' := (List.cons.inj (hsplit.symm.trans hsplit')).2
    obtain ⟨piece, hpiece, hpiece'⟩ := Segment.exists_get?_of_gives hpieces hpieces' hname
    rw [hpiece, hpiece']
  · rw [build_of_shape_named hkind, fill_congr h, ← build_of_shape_named hkind, hw] at hv
    exact (Except.ok.inj hv).symm

/-- Names that begin with one another, one of them in two places, a value that looks like a mark and
one that is empty. -/
theorem named_parts_read_back_versions :
    let versions := (parse "/a@b/@id/@idx/@id").toOption.getD .root
    let v : Text.Dictionary String := .ofList [("id", "@idx"), ("idx", "")]
    let w : Text.Dictionary String := .ofList [("id", "@idx"), ("idx", ""), ("tab", "x/y")]
    versions.kind.shape = .named ∧
    versions.build (.named v) = .ok "/a@b/@idx//@idx" ∧
    versions.build (.named w) = .ok "/a@b/@idx//@idx" ∧
    versions.SlashFree v ∧ versions.SlashFree w ∧
    (∃ pieces, Text.slashSplit "/a@b/@idx//@idx" = "" :: pieces ∧
      List.Forall₂ (Segment.Gives v) versions.segments pieces) ∧
    (∀ name, .named name ∈ versions.segments → v.get? name = w.get? name) ∧
    versions.build (.named (.ofList [("idx", "1")])) = .error (.missingParam versions.text "id") := by
  intro versions v w
  have hkind : versions.kind.shape = .named := by decide +kernel
  have hsegments : versions.segments = [.literal "a@b", .named "id", .named "idx", .named "id"] := by
    decide +kernel
  have hv : versions.build (.named v) = .ok "/a@b/@idx//@idx" :=
    eq_ok_of_toOption (by decide +kernel)
  have hw : versions.build (.named w) = .ok "/a@b/@idx//@idx" :=
    eq_ok_of_toOption (by decide +kernel)
  have hfree (values : Text.Dictionary String) (hid : values.get? "id" = some "@idx")
      (hidx : values.get? "idx" = some "") : versions.SlashFree values := by
    intro name hname value hvalue
    simp only [hsegments, List.mem_cons, reduceCtorEq, Segment.named.injEq, List.not_mem_nil,
      or_false, false_or] at hname
    rcases hname with rfl | rfl | rfl
    · obtain rfl := Option.some.inj (hid.symm.trans hvalue)
      decide
    · obtain rfl := Option.some.inj (hidx.symm.trans hvalue)
      decide
    · obtain rfl := Option.some.inj (hid.symm.trans hvalue)
      decide
  have hvfree : versions.SlashFree v := hfree v (by decide +kernel) (by decide +kernel)
  have hwfree : versions.SlashFree w := hfree w (by decide +kernel) (by decide +kernel)
  obtain ⟨-, herror, hparts, hsame⟩ := named_parts_read_back hkind
  refine ⟨hkind, hv, hw, hvfree, hwfree, hparts v _ hv hvfree,
    (hsame v w _ _ hv hw hvfree hwfree).1 rfl, (herror _ _).2 ?_⟩
  have hmissing : ¬ Text.Dictionary.contains "id" (.ofList [("idx", "1")]) := by
    decide +kernel
  refine ⟨[.literal "a@b"], "id", [.named "idx", .named "id"], hsegments, fun earlier hmem => ?_,
    hmissing, rfl⟩
  simp at hmem

end Route

end RouteTree
