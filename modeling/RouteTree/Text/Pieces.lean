/-! Texts cut at a separator and put together again. A route pattern, a host route and a captured
tail are all read as their non-empty pieces between slashes. -/
namespace RouteTree.Text

/-- The parts of a text between its separators; one more than there are separators. -/
def splitOn (sep : Char) : List Char → List (List Char)
  | [] => [[]]
  | c :: cs =>
    if c = sep then [] :: splitOn sep cs
    else match splitOn sep cs with
      | [] => [[c]]
      | part :: parts => (c :: part) :: parts

theorem splitOn_ne_nil (sep : Char) (cs : List Char) : splitOn sep cs ≠ [] := by
  cases cs with
  | nil => simp [splitOn]
  | cons c cs =>
    rw [splitOn]
    split
    · simp
    · split <;> simp

/-- No part holds the separator. -/
theorem not_mem_of_mem_splitOn {sep : Char} {cs part : List Char} (h : part ∈ splitOn sep cs) :
    sep ∉ part := by
  induction cs generalizing part with
  | nil =>
    simp only [splitOn, List.mem_singleton] at h
    simp [h]
  | cons c cs ih =>
    rw [splitOn] at h
    split at h
    · rcases List.mem_cons.1 h with rfl | h
      · simp
      · exact ih h
    · next hc =>
      split at h
      · simp only [List.mem_singleton] at h
        simp [h, Ne.symm hc]
      · next first rest heq =>
        rcases List.mem_cons.1 h with rfl | h
        · have hfirst : sep ∉ first := ih (by simp [heq])
          simp [hfirst, Ne.symm hc]
        · exact ih (by simp [heq, h])

/-- The parts of a text between its slashes, empty ones included. -/
def slashSplit (s : String) : List String :=
  (splitOn '/' s.toList).map String.ofList

/-- The non-empty parts of a text between its slashes. -/
def pieces (s : String) : List String :=
  ((splitOn '/' s.toList).filter (· ≠ [])).map String.ofList

/-- A piece is not empty and holds no slash. -/
theorem piece_of_mem_pieces {s piece : String} (h : piece ∈ pieces s) :
    piece.toList ≠ [] ∧ '/' ∉ piece.toList := by
  simp only [pieces, List.mem_map, List.mem_filter, decide_eq_true_eq] at h
  obtain ⟨cs, ⟨hmem, hne⟩, rfl⟩ := h
  rw [String.toList_ofList]
  exact ⟨hne, not_mem_of_mem_splitOn hmem⟩

/-- The texts one after another, a separator between neighbours. -/
def join (sep : String) : List String → String
  | [] => ""
  | [s] => s
  | s :: rest => s ++ sep ++ join sep rest

/-- The text without the slashes at its end. -/
def trimEndSlashes (s : String) : String :=
  String.ofList (s.toList.reverse.dropWhile (· = '/')).reverse

/-- The rest of a list that begins with the given one. -/
def dropStart? {α : Type} [DecidableEq α] : List α → List α → Option (List α)
  | [], rest => some rest
  | _ :: _, [] => none
  | a :: start, b :: rest => if a = b then dropStart? start rest else none

/-- The rest of a text that begins with `start`. -/
def stripStart? (start s : String) : Option String :=
  (dropStart? start.toList s.toList).map String.ofList

/-- The rest of a text that ends with `ending`. -/
def stripEnd? (ending s : String) : Option String :=
  (dropStart? ending.toList.reverse s.toList.reverse).map (String.ofList ·.reverse)

def startsWith (start s : String) : Bool := (stripStart? start s).isSome

def endsWith (ending s : String) : Bool := (stripEnd? ending s).isSome

/-- Whether the characters of `needle` stand somewhere in the list, one after another. -/
def occursIn (needle : List Char) : List Char → Bool
  | [] => needle.isEmpty
  | c :: cs => (dropStart? needle (c :: cs)).isSome || occursIn needle cs

def contains (needle s : String) : Bool := occursIn needle.toList s.toList

/-- The lines of a text, without an empty one after the last line end. -/
def lines (s : String) : List String :=
  match (splitOn '\n' s.toList).reverse with
  | [] :: earlier => earlier.reverse.map String.ofList
  | parts => parts.reverse.map String.ofList

/-- Every line with its end. -/
def unlines (ls : List String) : String := String.join (ls.map (· ++ "\n"))

end RouteTree.Text
