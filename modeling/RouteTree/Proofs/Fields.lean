import RouteTree.Proofs.Declarations
import RouteTree.Proofs.Substitution

/-! The fields of the emitted parameter types. A type has a field for each segment with a name, so
its fields are the names that the URL builder asks for, and a name that stands in two segments is
declared twice. -/
namespace RouteTree

namespace Route

variable {r : Route}

theorem names_ne_nil (hkind : r.kind.shape = .named) : r.names ≠ [] := by
  intro hnil
  have hcatchall := catchall_not_mem_of_shape_named hkind
  have hnone : r.kind = .none := kind_eq_none_iff.2 fun s hs hcapture => by
    cases s with
    | literal text => exact hcapture
    | named name => exact List.not_mem_nil (hnil ▸ mem_names_iff.2 hs)
    | catchall => exact hcatchall hs
  rw [hnone] at hkind
  cases hkind

theorem count_names (r : Route) (name : String) :
    r.names.count name = r.segments.count (.named name) := by
  rw [names, List.count, List.countP_filterMap, List.count]
  refine List.countP_congr fun s _ => ?_
  cases s <;> simp

end Route

namespace Artifact

/-! ### Reading an object type -/

/-- The name of the field at the front and what follows the field. -/
def readField (cs : List Char) : Option (String × List Char) := do
  let (name, rest) ← Json.readLiteral (← Text.dropStart? ['"'] cs)
  return (String.ofList name, ← Text.dropStart? ": string".toList rest)

theorem length_lt_of_readField {cs rest : List Char} {name : String}
    (h : readField cs = some (name, rest)) : rest.length < cs.length := by
  simp only [readField, Option.bind_eq_bind, Option.bind_eq_some_iff, Option.pure_def,
    Option.some.injEq, Prod.mk.injEq, Text.dropStart?_eq_some_iff] at h
  obtain ⟨after, rfl, ⟨text, more⟩, hliteral, type, rfl, -, rfl⟩ := h
  have hlength := Json.length_le_of_readLiteral hliteral
  simp only [List.length_append, List.length_cons] at *
  omega

def readFields (cs : List Char) : Option (List String) :=
  match h : readField cs with
  | none => none
  | some (name, rest) =>
    if rest = [' ', '\x7d'] then some [name]
    else match hmore : Text.dropStart? [';', ' '] rest with
      | none => none
      | some more =>
        have : more.length < cs.length := by
          have hrest := length_lt_of_readField h
          have hlength := congrArg List.length (Text.dropStart?_eq_some_iff.1 hmore)
          simp only [List.length_append] at hlength
          omega
        (readFields more).map (name :: ·)
  termination_by cs.length

/-- The names of the fields of an object type, as often as they are declared. -/
def fields? (type : String) : Option (List String) := do
  readFields (← Text.dropStart? ['\x7b', ' '] type.toList)

def field (name : String) : String := Json.quote name ++ ": string"

theorem readField_field (name : String) (rest : List Char) :
    readField ((field name).toList ++ rest) = some (name, rest) := by
  have hquote : (field name).toList ++ rest =
      ['"'] ++ (name.toList.flatMap Json.escapeChar ++ '"' :: (": string".toList ++ rest)) := by
    simp [field, Json.quote]
  simp only [readField, Text.dropStart?_eq_some_iff.2 hquote, Json.readLiteral_escaped,
    Text.dropStart?_eq_some_iff.2 rfl, String.ofList_toList, Option.bind_eq_bind, Option.bind_some,
    Option.pure_def]

theorem readFields_of_readField {cs rest : List Char} {name : String}
    (h : readField cs = some (name, rest)) :
    readFields cs = if rest = [' ', '\x7d'] then some [name]
      else (Text.dropStart? [';', ' '] rest).bind fun more => (readFields more).map (name :: ·) := by
  rw [readFields.eq_def]
  split
  · next hnone =>
    rw [h] at hnone
    cases hnone
  · next hsome =>
    rw [h] at hsome
    cases hsome
    split
    · rfl
    · split
      · next hmore => simp only [hmore, Option.bind_none]
      · next hmore => simp only [hmore, Option.bind_some]

theorem readFields_join {names : List String} (hne : names ≠ []) :
    readFields ((Text.join "; " (names.map field)).toList ++ [' ', '\x7d']) = some names := by
  induction names with
  | nil => exact absurd rfl hne
  | cons name rest ih =>
    cases rest with
    | nil => exact (readFields_of_readField (readField_field name _)).trans (if_pos rfl)
    | cons next rest =>
      -- a separator after a field tells that another one follows
      have hjoin : (Text.join "; " ((name :: next :: rest).map field)).toList ++ [' ', '\x7d'] =
          (field name).toList ++ ([';', ' '] ++
            ((Text.join "; " ((next :: rest).map field)).toList ++ [' ', '\x7d'])) := by
        simp [Text.join_cons_cons]
      rw [hjoin, readFields_of_readField (readField_field name _), if_neg (by simp),
        Text.dropStart?_eq_some_iff.2 rfl, Option.bind_some, ih (List.cons_ne_nil _ _)]
      rfl

variable {r : Route}

theorem fields?_paramsType (hkind : r.kind.shape = .named) :
    fields? (paramsType r) = some r.names := by
  obtain ⟨names, hnames⟩ := Route.exists_kind_eq_named hkind
  have hne : r.names ≠ [] := Route.names_ne_nil hkind
  obtain rfl := Route.eq_names_of_kind hnames
  have htype : (paramsType r).toList = ['\x7b', ' '] ++
      ((Text.join "; " (r.names.map field)).toList ++ [' ', '\x7d']) := by
    rw [paramsType, hnames]
    simp only [String.toList_append, List.append_assoc]
    rfl
  rw [fields?, Text.dropStart?_eq_some_iff.2 htype]
  exact readFields_join hne

theorem mem_types_iff {table : RouteTable} (hr : r ∈ table.toList) {type : String} :
    (r.text, type) ∈ (Declared.ofTable table).types ↔ type = paramsType r := by
  constructor
  · intro h
    obtain ⟨other, -, heq⟩ := List.mem_map.1 h
    obtain ⟨htext, rfl⟩ := Prod.mk.inj heq
    rw [Route.text_injective htext]
  · rintro rfl
    exact List.mem_map.2 ⟨r, hr, rfl⟩

/-- The map of parameter types has one type for a route with names. It is an object type whose fields
are the names that the URL builder asks for, each declared as often as it stands in the route. So
every name is declared once just when no name stands in two segments. -/
theorem fields_declared_once_iff {table : RouteTable} (hr : r ∈ table.toList)
    (hkind : r.kind.shape = .named) (importSource : Option String) :
    ∃ declared type fields, readDeclared (values table importSource) = some declared ∧
      (∀ other, (r.text, other) ∈ declared.types ↔ other = type) ∧
      fields? type = some fields ∧
      (∀ name, name ∈ fields ↔ r.Reads name) ∧
      (∀ name, fields.count name = r.segments.count (.named name)) ∧
      ((∀ name, r.Reads name → fields.count name = 1) ↔
        ∀ name, r.segments.count (.named name) ≤ 1) := by
  have hreads (name : String) : name ∈ r.names ↔ r.Reads name :=
    Route.mem_names_iff.trans (Route.reads_iff hkind).symm
  refine ⟨.ofTable table, paramsType r, r.names, readDeclared_values table importSource,
    fun _ => mem_types_iff hr, fields?_paramsType hkind, hreads, Route.count_names r, ?_⟩
  constructor
  · intro honce name
    rw [← Route.count_names]
    by_cases hname : name ∈ r.names
    · exact Nat.le_of_eq (honce name ((hreads name).1 hname))
    · simp [List.count_eq_zero_of_not_mem hname]
  · intro honce name hname
    have hpos := List.count_pos_iff.2 ((hreads name).2 hname)
    have hle := honce name
    rw [← Route.count_names] at hle
    omega

/-- A name that holds a quote and one that looks like a type, beside a literal of the same text. -/
theorem fields_declared_once_iff_shop :
    let table := RouteTable.ofPatterns ["/shop/@a\"b/@id: string; \"/a\"b"]
    let shop := (Route.parse "/shop/@a\"b/@id: string; \"/a\"b").toOption.getD .root
    shop ∈ table.toList ∧ shop.kind.shape = .named ∧
    ∃ declared type fields, readDeclared (values table none) = some declared ∧
      (∀ other, (shop.text, other) ∈ declared.types ↔ other = type) ∧
      fields? type = some fields ∧ ∀ name, shop.Reads name → fields.count name = 1 := by
  intro table shop
  have hmem : shop ∈ table.toList := by decide +kernel
  have hkind : shop.kind.shape = .named := by decide +kernel
  have hsegments : shop.segments = [.literal "shop", .named "a\"b", .named "id: string; \"",
      .literal "a\"b"] := by
    decide +kernel
  obtain ⟨declared, type, fields, hread, htype, hfields, -, -, honce⟩ :=
    fields_declared_once_iff hmem hkind none
  have hdistinct : shop.segments.Nodup := by
    rw [hsegments]
    decide
  exact ⟨hmem, hkind, declared, type, fields, hread, htype, hfields,
    honce.2 fun name => List.nodup_iff_count_le_one.1 hdistinct (.named name)⟩

/-- Two segments with one name are two fields. -/
theorem field_declared_twice :
    let table := RouteTable.ofPatterns ["/@id/@id"]
    ∃ r ∈ table.toList, r.kind.shape = .named ∧ r.Reads "id" ∧
      ∃ declared type, readDeclared (values table none) = some declared ∧
        (r.text, type) ∈ declared.types ∧ fields? type = some ["id", "id"] := by
  intro table
  let r := (Route.parse "/@id/@id").toOption.getD .root
  have hmem : r ∈ table.toList := by decide +kernel
  have hkind : r.kind.shape = .named := by decide +kernel
  have hnames : r.names = ["id", "id"] := by decide +kernel
  have hreads : r.Reads "id" := (Route.reads_iff hkind).2 (Route.mem_names_iff.1 (by simp [hnames]))
  refine ⟨r, hmem, hkind, hreads, .ofTable table, paramsType r, readDeclared_values table none,
    (mem_types_iff hmem).2 rfl, ?_⟩
  rw [← hnames]
  exact fields?_paramsType hkind

end Artifact

end RouteTree
