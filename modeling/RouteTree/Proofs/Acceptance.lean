import RouteTree.Proofs.Building
import RouteTree.Proofs.Markers

/-! The values that a URL can be built with. What is extracted from the captures of a host router
can be given back, except to a route that captures nothing: the extraction hands over any captures
that come with it, and the builder takes none. -/
namespace RouteTree

namespace Route

variable {r : Route} {params : Params} {values : Text.Dictionary String}

/-- The values are of the kind of the route, with one for each of its names. -/
def Accepts (r : Route) : Params → Prop
  | .none => r.kind = .none
  | .named values =>
    (r.kind = .none ∧ values = .empty) ∨
      (r.kind = .named r.names ∧ ∀ name ∈ r.names, values.contains name)
  | .catchall _ => r.kind = .catchall

theorem eq_names_of_kind {names : List String} (h : r.kind = .named names) : names = r.names := by
  rw [kind, ParamKind.ofRoute] at h
  split at h
  · cases h
  · split at h
    · cases h
    · cases h
      rfl

theorem exists_fill_eq_ok_iff {segments : List Segment} :
    (∃ url, r.fill values segments = .ok url) ↔
      ∀ name, .named name ∈ segments → values.contains name := by
  induction segments with
  | nil => simp [fill]
  | cons s rest ih =>
    have hmap (front : String) :
        (∃ url, (r.fill values rest).map (front ++ ·) = .ok url) ↔
          ∃ url, r.fill values rest = .ok url := by
      simp only [map_eq_ok_iff]
      constructor
      · rintro ⟨_, tail, htail, -⟩
        exact ⟨tail, htail⟩
      · rintro ⟨tail, htail⟩
        exact ⟨_, tail, htail, rfl⟩
    cases s with
    | literal text =>
      rw [fill_literal, hmap, ih]
      simp
    | catchall =>
      rw [fill_catchall, hmap, ih]
      simp
    | named first =>
      rw [fill]
      cases hvalue : values.get? first with
      | none =>
        have hmissing : ¬ values.contains first := by
          simp [Text.Dictionary.contains_iff, hvalue]
        constructor
        · rintro ⟨_, hurl⟩
          cases hurl
        · intro h
          exact absurd (h first List.mem_cons_self) hmissing
      | some value =>
        have hfirst : values.contains first := Text.Dictionary.contains_iff.2 ⟨value, hvalue⟩
        rw [hmap, ih]
        constructor
        · intro h name hname
          rcases List.mem_cons.1 hname with heq | hrest
          · cases heq
            exact hfirst
          · exact h name hrest
        · intro h name hname
          exact h name (List.mem_cons_of_mem _ hname)

theorem exists_build_eq_ok_iff : (∃ url, r.build params = .ok url) ↔ r.Accepts params := by
  constructor
  · rintro ⟨url, h⟩
    rcases build_cases h with
      ⟨pieces, hkind, rfl, -⟩ | ⟨names, values, hkind, rfl, hfill⟩ | ⟨hkind, rfl | rfl, -⟩
    · exact hkind
    · obtain rfl := eq_names_of_kind hkind
      refine .inr ⟨hkind, fun name hname => ?_⟩
      exact exists_fill_eq_ok_iff.1 ⟨url, hfill⟩ name (mem_names_iff.1 hname)
    · exact hkind
    · exact .inl ⟨hkind, rfl⟩
  · intro h
    cases params with
    | none =>
      have hkind : r.kind = .none := h
      unfold build
      rw [hkind]
      exact ⟨r.text, rfl⟩
    | named values =>
      unfold build
      rcases h with ⟨hkind, rfl⟩ | ⟨hkind, hnames⟩
      · rw [hkind]
        exact ⟨r.text, rfl⟩
      · rw [hkind]
        exact exists_fill_eq_ok_iff.2 fun name hname => hnames name (mem_names_iff.2 hname)
    | catchall pieces =>
      have hkind : r.kind = .catchall := h
      unfold build
      rw [hkind]
      exact ⟨_, rfl⟩

/-- Extracted values can be built with just when the route captures something or there were no
captures. Captures that come with a route that captures nothing are handed over as they are, and
the builder refuses them. -/
theorem extracted_accepted_iff {raw : Text.Dictionary String} (h : r.extract raw = .ok params) :
    ((∃ url, r.build params = .ok url) ↔ (r.kind ≠ .none ∨ raw = .empty)) ∧
    (r.kind = .none → raw ≠ .empty →
      params = .named raw ∧ r.build params = .error (.paramsMismatch r.text .none .named)) := by
  rcases extract_cases h with
    ⟨rest, -, hkind, rfl⟩ | ⟨-, names, hkind, hnames, rfl⟩ | ⟨-, hkind, rfl⟩
  · refine ⟨?_, fun hnone => ?_⟩
    · have haccepts : r.Accepts (.catchall (Text.pieces rest)) := hkind
      simp [exists_build_eq_ok_iff, haccepts, hkind]
    · rw [hkind] at hnone
      cases hnone
  · obtain rfl := eq_names_of_kind hkind
    refine ⟨?_, fun hnone => ?_⟩
    · have haccepts : r.Accepts (.named raw) := .inr ⟨hkind, hnames⟩
      simp [exists_build_eq_ok_iff, haccepts, hkind]
    · rw [hkind] at hnone
      cases hnone
  · by_cases hempty : raw = .empty
    · subst hempty
      have haccepts : r.Accepts .none := hkind
      refine ⟨?_, fun _ hne => absurd rfl hne⟩
      have hnothing : (Text.Ordered.empty : Text.Dictionary String).isEmpty := rfl
      rw [if_pos hnothing, exists_build_eq_ok_iff]
      simp [haccepts]
    · have hfilled : ¬ raw.isEmpty := fun h => hempty (Text.Ordered.ext (List.isEmpty_iff.1 h))
      have hrefused : r.build (.named raw) = .error (.paramsMismatch r.text .none .named) := by
        unfold build
        rw [hkind]
        exact if_neg hfilled
      rw [if_neg hfilled, hrefused]
      simp [hkind, hempty]

/-- A route with a name in two places, met with a capture more than it asks for, and a route without
names met with the same captures. -/
theorem extracted_accepted_iff_profile :
    let profile := (parse "/profiles/@id/edit/@id").toOption.getD .root
    let plain := (parse "/profiles").toOption.getD .root
    let raw : Text.Dictionary String := .ofList [("id", ""), ("tab", "x")]
    (profile.extract raw = .ok (.named raw) ∧ profile.kind = .named ["id", "id"] ∧
      ∃ url, profile.build (.named raw) = .ok url) ∧
    plain.extract raw = .ok (.named raw) ∧ plain.kind = .none ∧ raw ≠ .empty ∧
      (¬ ∃ url, plain.build (.named raw) = .ok url) ∧
      plain.build (.named raw) = .error (.paramsMismatch plain.text .none .named) := by
  intro profile plain raw
  have hprofile : profile.extract raw = .ok (.named raw) := eq_ok_of_toOption (by decide +kernel)
  have hplain : plain.extract raw = .ok (.named raw) := eq_ok_of_toOption (by decide +kernel)
  have hnames : profile.kind = .named ["id", "id"] := by decide +kernel
  have hnone : plain.kind = .none := by decide +kernel
  have hraw : raw ≠ .empty := by decide +kernel
  obtain ⟨hiff, hrefused⟩ := extracted_accepted_iff hplain
  refine ⟨⟨hprofile, hnames, (extracted_accepted_iff hprofile).1.2 (.inl (by simp [hnames]))⟩,
    hplain, hnone, hraw, fun hbuilt => ?_, (hrefused hnone hraw).2⟩
  exact (hiff.1 hbuilt).elim (absurd hnone) hraw

/-- A capture that comes with a route without names. -/
theorem extracted_refused_dashboard :
    let dashboard := (parse "/dashboard").toOption.getD .root
    let raw : Text.Dictionary String := .ofList [("id", "x")]
    dashboard.text = "/dashboard" ∧ dashboard.extract raw = .ok (.named raw) ∧
      ¬ ∃ url, dashboard.build (.named raw) = .ok url := by
  intro dashboard raw
  have hkind : dashboard.kind = .none := by decide +kernel
  have hraw : raw ≠ .empty := by decide +kernel
  refine ⟨by decide +kernel, eq_ok_of_toOption (by decide +kernel), ?_⟩
  rw [exists_build_eq_ok_iff]
  rintro (⟨-, hempty⟩ | ⟨hnamed, -⟩)
  · exact hraw hempty
  · rw [hkind] at hnamed
    cases hnamed

end Route

end RouteTree
