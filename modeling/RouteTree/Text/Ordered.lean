/-! Lists in strictly increasing byte order of a text key. Such a list is a set of its keys with
one entry each, so route tables and dictionaries are both of this kind. -/
namespace RouteTree.Text

theorem lt_of_not_lt_of_ne {a b : String} (h : ¬a < b) (hne : a ≠ b) : b < a := by
  apply Decidable.byContradiction
  intro hba
  exact hne (String.le_antisymm (String.not_lt.1 hba) (String.not_lt.1 h))

/-- Entries whose keys strictly increase. -/
structure Ordered {α : Type} (key : α → String) where
  toList : List α
  increasing : toList.Pairwise fun a b => key a < key b

namespace Ordered

variable {α : Type} {key : α → String}

def empty : Ordered key := ⟨[], .nil⟩

instance : Inhabited (Ordered key) := ⟨empty⟩

theorem ext {a b : Ordered key} (h : a.toList = b.toList) : a = b := by
  cases a; cases b; cases h; rfl

instance [DecidableEq α] : DecidableEq (Ordered key) := fun a b =>
  if h : a.toList = b.toList then isTrue (ext h) else isFalse fun hab => h (hab ▸ rfl)

/-- Puts an entry at its place; an entry with the same key gives way. -/
def insertInto (key : α → String) (a : α) : List α → List α
  | [] => [a]
  | b :: rest =>
    if key a < key b then a :: b :: rest
    else if key a = key b then a :: rest
    else b :: insertInto key a rest

theorem mem_insertInto {a x : α} {entries : List α} (h : x ∈ insertInto key a entries) :
    x = a ∨ x ∈ entries := by
  induction entries with
  | nil => simpa [insertInto] using h
  | cons b rest ih =>
    rw [insertInto] at h
    split at h
    · simpa using h
    · split at h
      · rcases List.mem_cons.1 h with h | h
        · exact .inl h
        · exact .inr (List.mem_cons_of_mem b h)
      · rcases List.mem_cons.1 h with h | h
        · exact .inr (by simp [h])
        · rcases ih h with h | h
          · exact .inl h
          · exact .inr (List.mem_cons_of_mem b h)

theorem increasing_insertInto (a : α) {entries : List α}
    (h : entries.Pairwise fun a b => key a < key b) :
    (insertInto key a entries).Pairwise fun a b => key a < key b := by
  induction entries with
  | nil => simp [insertInto]
  | cons b rest ih =>
    obtain ⟨hb, hrest⟩ := List.pairwise_cons.1 h
    rw [insertInto]
    split
    · next hab =>
      refine List.pairwise_cons.2 ⟨fun x hx => ?_, h⟩
      rcases List.mem_cons.1 hx with rfl | hx
      · exact hab
      · exact String.lt_trans hab (hb x hx)
    · next hab =>
      split
      · next heq => exact List.pairwise_cons.2 ⟨fun x hx => heq ▸ hb x hx, hrest⟩
      · next hne =>
        refine List.pairwise_cons.2 ⟨fun x hx => ?_, ih hrest⟩
        rcases mem_insertInto hx with rfl | hx
        · exact lt_of_not_lt_of_ne hab hne
        · exact hb x hx

/-- Puts an entry at its place; an entry with the same key gives way. -/
def insert (a : α) (entries : Ordered key) : Ordered key :=
  ⟨insertInto key a entries.toList, increasing_insertInto a entries.increasing⟩

/-- Of entries with one key the last stays. -/
def ofList (entries : List α) : Ordered key :=
  entries.foldl (fun sorted a => sorted.insert a) empty

/-- The search ends as soon as the keys are past the one sought. -/
def findIn (key : α → String) (k : String) : List α → Option α
  | [] => none
  | a :: rest =>
    if key a = k then some a
    else if key a < k then findIn key k rest
    else none

/-- The entry with the given key. -/
def find? (k : String) (entries : Ordered key) : Option α :=
  findIn key k entries.toList

/-- The search looks at the entry in the middle and goes on in the half that the key belongs to. -/
def bisectIn (key : α → String) (k : String) (entries : List α) : Option α :=
  match hmiddle : entries.drop (entries.length / 2) with
  | [] => none
  | middle :: later =>
    if key middle = k then some middle
    else if key middle < k then bisectIn key k later
    else bisectIn key k (entries.take (entries.length / 2))
  termination_by entries.length
  decreasing_by
    all_goals
      have hlength := congrArg List.length hmiddle
      simp only [List.length_drop, List.length_cons, List.length_take] at hlength ⊢
      omega

/-- The entry with the given key, looked for by halves. -/
def bisect? (k : String) (entries : Ordered key) : Option α :=
  bisectIn key k entries.toList

def length (entries : Ordered key) : Nat := entries.toList.length

def isEmpty (entries : Ordered key) : Bool := entries.toList.isEmpty

end Ordered

/-- A dictionary: values under texts, in byte order of the texts. -/
abbrev Dictionary (β : Type) := Ordered (α := String × β) Prod.fst

namespace Dictionary

variable {β : Type}

def get? (k : String) (d : Dictionary β) : Option β := (d.find? k).map Prod.snd

def contains (k : String) (d : Dictionary β) : Bool := (d.find? k).isSome

end Dictionary

end RouteTree.Text
