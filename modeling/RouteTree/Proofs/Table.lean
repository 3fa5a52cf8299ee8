import Mathlib.Data.List.Lattice
import RouteTree.Proofs.ByteOrder
import RouteTree.Proofs.NormalForm
import RouteTree.Proofs.OrderedSet
import RouteTree.Route.Table

/-! The table of a list of patterns is the set of the routes that the patterns spell, in byte order.
So it does not depend on the order of the patterns or on repeated ones, patterns that cannot be read
leave no trace in it, and the search by halves finds what is there. -/
namespace RouteTree

namespace RouteTable

theorem mem_ofPatterns_iff {r : Route} {patterns : List String} :
    r ∈ (ofPatterns patterns).toList ↔ ∃ pattern ∈ patterns, Route.parse pattern = .ok r := by
  have htoOption (e : Except RouteError Route) : e.toOption = some r ↔ e = .ok r := by
    cases e <;> simp [Except.toOption]
  rw [ofPatterns, Text.Ordered.mem_ofList_iff_of_injective Route.text_injective]
  simp only [List.mem_filterMap, htoOption]

theorem ofPatterns_congr {a b : List String} (h : ∀ pattern, pattern ∈ a ↔ pattern ∈ b) :
    ofPatterns a = ofPatterns b := by
  apply Text.Ordered.eq_of_mem_iff
  intro r
  simp only [mem_ofPatterns_iff, h]

theorem ofRaw_congr {a b : List RawRoute} (h : ∀ raw, raw ∈ a ↔ raw ∈ b) : ofRaw a = ofRaw b := by
  apply ofPatterns_congr
  intro pattern
  simp only [List.mem_map, h]

theorem mem_texts_iff {text : String} {patterns : List String} :
    text ∈ (ofPatterns patterns).texts ↔
      ∃ pattern ∈ patterns, ∃ r, Route.parse pattern = .ok r ∧ r.text = text := by
  rw [texts, List.mem_map]
  constructor
  · rintro ⟨r, hr, rfl⟩
    obtain ⟨pattern, hpattern, hparse⟩ := mem_ofPatterns_iff.1 hr
    exact ⟨pattern, hpattern, r, hparse, rfl⟩
  · rintro ⟨pattern, hpattern, r, hparse, rfl⟩
    exact ⟨r, mem_ofPatterns_iff.2 ⟨pattern, hpattern, hparse⟩, rfl⟩

theorem texts_increasing (table : RouteTable) :
    table.texts.Pairwise fun a b => Form.utf8Bytes a < Form.utf8Bytes b := by
  rw [texts, List.pairwise_map]
  exact table.increasing.imp Form.utf8Bytes_lt_iff.2

theorem warnings_eq (patterns : List String) :
    warnings patterns = (patterns.filter fun pattern => !(Route.parse pattern).isOk).map
      fun pattern => Terminal.warning ("skipping route `" ++ pattern ++ "`: "
        ++ (RouteError.catchallNotLast pattern).message) := by
  induction patterns with
  | nil => rfl
  | cons pattern rest ih =>
    rw [warnings] at ih ⊢
    cases hparse : Route.parse pattern with
    | ok r =>
      rw [List.filterMap_cons_none (by rw [hparse]), ih,
        List.filter_cons_of_neg (by simp [hparse, Except.isOk, Except.toBool])]
    | error e =>
      obtain ⟨-, rfl⟩ := Route.parse_eq_error_iff.1 hparse
      rw [List.filterMap_cons_some (by rw [hparse]), ih,
        List.filter_cons_of_pos (by simp [hparse, Except.isOk, Except.toBool])]
      rfl

/-- Patterns that cannot be read leave no trace in the table. -/
theorem ofPatterns_filter_isOk (patterns : List String) :
    ofPatterns (patterns.filter fun pattern => (Route.parse pattern).isOk) = ofPatterns patterns := by
  apply Text.Ordered.eq_of_mem_iff
  intro r
  simp only [mem_ofPatterns_iff, List.mem_filter]
  constructor
  · rintro ⟨pattern, ⟨hpattern, -⟩, hparse⟩
    exact ⟨pattern, hpattern, hparse⟩
  · rintro ⟨pattern, hpattern, hparse⟩
    exact ⟨pattern, ⟨hpattern, by rw [hparse]; rfl⟩, hparse⟩

theorem mem_ofPatterns_append {r : Route} {patterns others : List String} :
    r ∈ (ofPatterns (patterns ++ others)).toList ↔
      r ∈ (ofPatterns patterns).toList ∨ r ∈ (ofPatterns others).toList := by
  simp only [mem_ofPatterns_iff, List.mem_append, or_and_right, exists_or]

theorem ofPatterns_texts (table : RouteTable) : ofPatterns table.texts = table := by
  apply Text.Ordered.eq_of_mem_iff
  intro r
  rw [mem_ofPatterns_iff]
  constructor
  · rintro ⟨text, htext, hparse⟩
    obtain ⟨found, hfound, rfl⟩ := List.mem_map.1 htext
    rw [Route.parse_text] at hparse
    cases hparse
    exact hfound
  · intro hr
    exact ⟨r.text, List.mem_map.2 ⟨r, hr, rfl⟩, r.parse_text⟩

theorem warnings_texts (table : RouteTable) : warnings table.texts = [] := by
  rw [warnings_eq, List.map_eq_nil_iff, List.filter_eq_nil_iff]
  intro text htext
  obtain ⟨r, -, rfl⟩ := List.mem_map.1 htext
  rw [Route.parse_text]
  exact Bool.false_ne_true

theorem get?_eq_some_iff {table : RouteTable} {text : String} {r : Route} :
    table.get? text = some r ↔ r ∈ table.toList ∧ r.text = text :=
  Text.Ordered.bisectIn_eq_some_iff table.increasing

/-- The table of a list of patterns has the texts of the patterns that can be read, in strictly
increasing byte order. The others are warned of, once each and in their order, and make no
difference. So the table depends on which patterns there are and on nothing else, it puts two lists
together as sets, and it is made again from its own texts without a warning. A look-up finds the
route with the given text, if the table has it. -/
theorem ofPatterns_sorted_set :
    (∀ patterns,
      (ofPatterns patterns).texts.Pairwise (fun a b => Form.utf8Bytes a < Form.utf8Bytes b) ∧
      (∀ text, text ∈ (ofPatterns patterns).texts ↔
        ∃ pattern ∈ patterns, ∃ r, Route.parse pattern = .ok r ∧ r.text = text) ∧
      warnings patterns = (patterns.filter fun pattern => !(Route.parse pattern).isOk).map
        (fun pattern => Terminal.warning ("skipping route `" ++ pattern ++ "`: "
          ++ (RouteError.catchallNotLast pattern).message)) ∧
      ofPatterns (patterns.filter fun pattern => (Route.parse pattern).isOk) =
        ofPatterns patterns) ∧
    (∀ patterns others, (∀ pattern, pattern ∈ patterns ↔ pattern ∈ others) →
      ofPatterns patterns = ofPatterns others) ∧
    (∀ patterns others, ofPatterns (patterns ++ others) = ofPatterns (patterns ∪ others) ∧
      ∀ r, r ∈ (ofPatterns (patterns ++ others)).toList ↔
        r ∈ (ofPatterns patterns).toList ∨ r ∈ (ofPatterns others).toList) ∧
    (∀ patterns, ofPatterns (ofPatterns patterns).texts = ofPatterns patterns ∧
      warnings (ofPatterns patterns).texts = []) ∧
    (∀ patterns text r, (ofPatterns patterns).get? text = some r ↔
      r ∈ (ofPatterns patterns).toList ∧ r.text = text) := by
  refine ⟨fun patterns => ?_, fun patterns others => ofPatterns_congr, ?_, ?_, ?_⟩
  · exact ⟨texts_increasing _, fun text => mem_texts_iff, warnings_eq patterns,
      ofPatterns_filter_isOk patterns⟩
  · intro patterns others
    refine ⟨ofPatterns_congr fun pattern => ?_, fun r => mem_ofPatterns_append⟩
    rw [List.mem_append, List.mem_union_iff]
  · exact fun patterns => ⟨ofPatterns_texts _, warnings_texts _⟩
  · exact fun patterns text r => get?_eq_some_iff

/-- Two lists of the same patterns, in another order and with repetitions: other spellings of one
route, a pattern that cannot be read, and names beyond the first plane. -/
theorem ofPatterns_sorted_set_spellings :
    let patterns := ["docs//@", "/\uFFFF", "a/@/b", "/😀", "docs/@"]
    let others := ["/😀", "docs/@", "/\uFFFF", "docs//@", "docs/@", "a/@/b"]
    (∀ pattern, pattern ∈ patterns ↔ pattern ∈ others) ∧ ofPatterns patterns = ofPatterns others ∧
      (ofPatterns patterns).texts.Pairwise (fun a b => Form.utf8Bytes a < Form.utf8Bytes b) ∧
      ∃ r, Route.parse "docs/@" = .ok r ∧ (ofPatterns patterns).get? r.text = some r := by
  intro patterns others
  have hmem (pattern : String) : pattern ∈ patterns ↔ pattern ∈ others := by
    simp only [patterns, others, List.mem_cons, List.not_mem_nil, or_false]
    grind
  obtain ⟨r, hparse⟩ : ∃ r, Route.parse "docs/@" = .ok r := by
    cases hparse : Route.parse "docs/@" with
    | ok r => exact ⟨r, rfl⟩
    | error e => exact absurd (Route.parse_eq_error_iff.1 hparse).1 (by decide)
  refine ⟨hmem, ofPatterns_sorted_set.2.1 _ _ hmem, (ofPatterns_sorted_set.1 patterns).1, r, hparse,
    (ofPatterns_sorted_set.2.2.2.2 patterns _ _).2 ⟨?_, rfl⟩⟩
  exact mem_ofPatterns_iff.2 ⟨"docs/@", by decide, hparse⟩

end RouteTable

end RouteTree
