import RouteTree.Files.Path
import RouteTree.Text.Pieces

/-! A file tree as a value: directories, files and symbolic links, each at a location. A location
is the canonical name of a node, free of links and dots. -/
namespace RouteTree

/-- The names of a node and of the directories around it, innermost first; the root has none. -/
abbrev Location := List String

/-- The canonical path of a location. -/
def Location.path (loc : Location) : Path := ⟨"/" ++ Text.join "/" loc.reverse⟩

inductive Node
  | file (content : ByteArray)
  | directory
  | link (target : Path)

def Node.isDirectory : Node → Bool
  | .directory => true
  | _ => false

/-- Every node below the root, at a location of its own. -/
structure FileTree where
  entries : List (Location × Node)
  distinct : (entries.map Prod.fst).Nodup

namespace FileTree

def empty : FileTree := ⟨[], .nil⟩

instance : Inhabited FileTree := ⟨empty⟩

/-- The node at a location. The root is a directory in every tree. -/
def node? (tree : FileTree) : Location → Option Node
  | [] => some .directory
  | name :: dir => tree.entries.lookup (name :: dir)

theorem distinct_filter {entries : List (Location × Node)} (p : Location × Node → Bool)
    (h : (entries.map Prod.fst).Nodup) : ((entries.filter p).map Prod.fst).Nodup := by
  rw [List.Nodup, List.pairwise_map] at h ⊢
  exact h.filter p

/-- Puts a node at a location, in place of the one that is there. -/
def insert (tree : FileTree) (loc : Location) (node : Node) : FileTree where
  entries := (loc, node) :: tree.entries.filter fun e => e.1 ≠ loc
  distinct := by
    refine List.nodup_cons.2 ⟨?_, distinct_filter _ tree.distinct⟩
    simp

/-- Takes away a location and everything below it. -/
def remove (tree : FileTree) (loc : Location) : FileTree where
  entries := tree.entries.filter fun e => !loc.isSuffixOf e.1
  distinct := distinct_filter _ tree.distinct

/-- The names in a directory. -/
def children (tree : FileTree) (dir : Location) : List String :=
  tree.entries.filterMap fun
    | (name :: parent, _) => if parent = dir then some name else none
    | ([], _) => none

/-- The locations of all directories. -/
def directories (tree : FileTree) : List Location :=
  [] :: (tree.entries.filter fun e => e.2.isDirectory).map Prod.fst

theorem mem_directories {tree : FileTree} {loc : Location} (h : tree.node? loc = some .directory) :
    loc ∈ tree.directories := by
  cases loc with
  | nil => simp [directories]
  | cons name dir =>
    rw [node?, List.lookup_eq_some_iff] at h
    obtain ⟨before, after, heq, _⟩ := h
    simp [directories, heq, Node.isDirectory]

/-- How many directories are not among the given ones. -/
def directoriesLeft (tree : FileTree) (seen : List Location) : Nat :=
  (tree.directories.filter fun loc => loc ∉ seen).length

/-- One more directory among those seen is one less that is left. -/
theorem directoriesLeft_cons_lt {tree : FileTree} {loc : Location} {seen : List Location}
    (hdir : tree.node? loc = some .directory) (hseen : loc ∉ seen) :
    tree.directoriesLeft (loc :: seen) < tree.directoriesLeft seen := by
  have hmem := mem_directories hdir
  have hle : ∀ dirs : List Location,
      (dirs.filter fun d => d ∉ loc :: seen).length ≤ (dirs.filter fun d => d ∉ seen).length := by
    intro dirs
    rw [← List.countP_eq_length_filter, ← List.countP_eq_length_filter]
    exact List.countP_mono_left fun d _ hd => by
      simp only [List.mem_cons, not_or, decide_eq_true_eq] at hd ⊢
      exact hd.2
  unfold directoriesLeft
  generalize tree.directories = dirs at hmem
  induction dirs with
  | nil => simp at hmem
  | cons d dirs ih =>
    by_cases hd : d = loc
    · subst hd
      have := hle dirs
      rw [List.filter_cons_of_neg (by simp), List.filter_cons_of_pos (by simpa using hseen)]
      simp only [List.length_cons]
      omega
    · have hlt := ih ((List.mem_cons.1 hmem).resolve_left (Ne.symm hd))
      by_cases hs : d ∈ seen
      · rw [List.filter_cons_of_neg (by simp [hs]), List.filter_cons_of_neg (by simp [hs])]
        exact hlt
      · rw [List.filter_cons_of_pos (by simp [hs, hd]), List.filter_cons_of_pos (by simp [hs])]
        simp only [List.length_cons]
        omega

end FileTree

end RouteTree
