import Mathlib.Data.List.Forall2
import RouteTree.Proofs.OrderedSet
import RouteTree.Route.Params

/-! All ways in which a URL is built and values are extracted. The route and the values have to be
of one kind, and what comes out is decided by this kind. -/
namespace RouteTree

theorem map_eq_ok_iff {ε α β : Type} {e : Except ε α} {f : α → β} {b : β} :
    e.map f = .ok b ↔ ∃ a, e = .ok a ∧ f a = b := by
  cases e <;> simp [Except.map]

theorem map_eq_error_iff {ε α β : Type} {x : Except ε α} {f : α → β} {e : ε} :
    x.map f = .error e ↔ x = .error e := by
  cases x <;> simp [Except.map]

theorem eq_ok_of_toOption {ε α : Type} {e : Except ε α} {a : α} (h : e.toOption = some a) :
    e = .ok a := by
  cases e with
  | error e => cases h
  | ok b => rw [Option.some.inj h]

/-- The piece of a URL that a segment stands for under the values. -/
def Segment.Gives (values : Text.Dictionary String) : Segment → String → Prop
  | .literal text, piece => piece = text
  | .named name, piece => values.get? name = some piece
  | .catchall, _ => False

namespace Route

variable {r : Route} {params : Params} {values v w : Text.Dictionary String}
  {segments rest : List Segment}

theorem fill_literal {text : String} :
    r.fill values (.literal text :: rest) = (r.fill values rest).map ("/" ++ text ++ ·) :=
  rfl

theorem fill_catchall :
    r.fill values (.catchall :: rest) = (r.fill values rest).map ("/" ++ Segment.catchall.text ++ ·) :=
  rfl

/-- The URL is put together from the pieces that the segments give. -/
theorem fill_eq_ok_iff (hcatchall : Segment.catchall ∉ segments) {url : String} :
    r.fill values segments = .ok url ↔
      ∃ pieces, List.Forall₂ (Segment.Gives values) segments pieces ∧
        url = String.join (pieces.map ("/" ++ ·)) := by
  induction segments generalizing url with
  | nil => simp [fill, eq_comm]
  | cons s rest ih =>
    obtain ⟨hs, hrest⟩ := not_or.1 (mt List.mem_cons.2 hcatchall)
    have hcons (piece : String) : (r.fill values rest).map ("/" ++ piece ++ ·) = .ok url ↔
        ∃ pieces, List.Forall₂ (Segment.Gives values) rest pieces ∧
          url = String.join ((piece :: pieces).map ("/" ++ ·)) := by
      simp only [map_eq_ok_iff, ih hrest, List.map_cons, String.join_cons]
      constructor
      · rintro ⟨_, ⟨pieces, hpieces, rfl⟩, rfl⟩
        exact ⟨pieces, hpieces, rfl⟩
      · rintro ⟨pieces, hpieces, rfl⟩
        exact ⟨_, ⟨pieces, hpieces, rfl⟩, rfl⟩
    cases s with
    | literal text =>
      rw [fill_literal, hcons]
      simp [List.forall₂_cons_left_iff, Segment.Gives]
    | catchall => exact absurd rfl hs
    | named name =>
      rw [fill]
      cases hvalue : values.get? name with
      | none => simp [List.forall₂_cons_left_iff, Segment.Gives, hvalue]
      | some value =>
        simp only [hcons]
        simp [List.forall₂_cons_left_iff, Segment.Gives, hvalue]

/-- What fails is the leftmost name without a value. -/
theorem fill_eq_error_iff {e : RouteError} :
    r.fill values segments = .error e ↔
      ∃ before name after, segments = before ++ .named name :: after ∧
        (∀ earlier, .named earlier ∈ before → values.contains earlier) ∧
        ¬ values.contains name ∧ e = .missingParam r.text name := by
  induction segments with
  | nil => simp [fill]
  | cons s rest ih =>
    -- a segment that does not fail itself only stands before the one that does
    have hlater (hs : ∀ name, s = .named name → values.contains name) :
        r.fill values rest = .error e ↔
          ∃ before name after, s :: rest = before ++ .named name :: after ∧
            (∀ earlier, .named earlier ∈ before → values.contains earlier) ∧
            ¬ values.contains name ∧ e = .missingParam r.text name := by
      rw [ih]
      constructor
      · rintro ⟨before, name, after, rfl, hbefore, hname⟩
        refine ⟨s :: before, name, after, rfl, fun earlier hmem => ?_, hname⟩
        rcases List.mem_cons.1 hmem with heq | hmem
        · exact hs earlier heq.symm
        · exact hbefore earlier hmem
      · rintro ⟨before, name, after, hsegments, hbefore, hname⟩
        cases before with
        | nil => exact absurd (hs name (List.cons.inj hsegments).1) hname.1
        | cons first before =>
          obtain ⟨-, hrest⟩ := List.cons.inj hsegments
          exact ⟨before, name, after, hrest,
            fun earlier hmem => hbefore earlier (List.mem_cons_of_mem _ hmem), hname⟩
    cases s with
    | literal text =>
      rw [fill_literal, map_eq_error_iff]
      exact hlater nofun
    | catchall =>
      rw [fill_catchall, map_eq_error_iff]
      exact hlater nofun
    | named first =>
      rw [fill]
      cases hvalue : values.get? first with
      | some value =>
        simp only [map_eq_error_iff]
        refine hlater fun name heq => ?_
        cases heq
        exact Text.Dictionary.contains_iff.2 ⟨value, hvalue⟩
      | none =>
        have hfirst : ¬ values.contains first := by
          simp [Text.Dictionary.contains_iff, hvalue]
        constructor
        · rintro ⟨⟩
          exact ⟨[], first, rest, rfl, nofun, hfirst, rfl⟩
        · rintro ⟨before, name, after, hsegments, hbefore, -, rfl⟩
          cases before with
          | nil =>
            obtain ⟨heq, -⟩ := List.cons.inj hsegments
            cases heq
            rfl
          | cons s before =>
            obtain ⟨rfl, -⟩ := List.cons.inj hsegments
            exact absurd (hbefore first List.mem_cons_self) hfirst

theorem fill_congr (h : ∀ name, .named name ∈ segments → v.get? name = w.get? name) :
    r.fill v segments = r.fill w segments := by
  induction segments with
  | nil => rfl
  | cons s rest ih =>
    have hrest := ih fun name hname => h name (List.mem_cons_of_mem _ hname)
    cases s with
    | literal text => rw [fill_literal, fill_literal, hrest]
    | catchall => rw [fill_catchall, fill_catchall, hrest]
    | named name => rw [fill, fill, hrest, h name List.mem_cons_self]

theorem build_cases {url : String} (h : r.build params = .ok url) :
    (∃ pieces, r.kind = .catchall ∧ params = .catchall pieces ∧
      url = r.base ++ "/" ++ Text.join "/" pieces) ∨
    (∃ names values, r.kind = .named names ∧ params = .named values ∧
      r.fill values r.segments = .ok url) ∨
    (r.kind = .none ∧ (params = .none ∨ params = .named .empty) ∧ url = r.text) := by
  unfold build at h
  split at h
  · next pieces hkind => exact .inl ⟨pieces, hkind, rfl, (Except.ok.inj h).symm⟩
  · next names values hkind => exact .inr (.inl ⟨names, values, hkind, rfl, h⟩)
  · next hkind => exact .inr (.inr ⟨hkind, .inl rfl, (Except.ok.inj h).symm⟩)
  · next values hkind =>
    split at h
    · next hempty =>
      have hvalues : values = .empty := Text.Ordered.ext (List.isEmpty_iff.1 hempty)
      exact .inr (.inr ⟨hkind, .inr (hvalues ▸ rfl), (Except.ok.inj h).symm⟩)
    · cases h
  · cases h

theorem extract_cases {raw : Text.Dictionary String} (h : r.extract raw = .ok params) :
    (∃ rest, raw.get? restKey = some rest ∧ r.kind = .catchall ∧
      params = .catchall (Text.pieces rest)) ∨
    (raw.get? restKey = none ∧ ∃ names, r.kind = .named names ∧
      (∀ name ∈ names, raw.contains name) ∧ params = .named raw) ∨
    (raw.get? restKey = none ∧ r.kind = .none ∧
      params = if raw.isEmpty then .none else .named raw) := by
  unfold extract at h
  split at h
  · next rest hrest hkind => exact .inl ⟨rest, hrest, hkind, (Except.ok.inj h).symm⟩
  · cases h
  · cases h
  · next names hrest hkind =>
    split at h
    · cases h
    · next hfound =>
      have hnames : ∀ name ∈ names, raw.contains name := by simpa using List.find?_eq_none.1 hfound
      exact .inr (.inl ⟨hrest, names, hkind, hnames, (Except.ok.inj h).symm⟩)
  · next hrest hkind => exact .inr (.inr ⟨hrest, hkind, (Except.ok.inj h).symm⟩)

end Route

end RouteTree
