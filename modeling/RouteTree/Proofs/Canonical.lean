import RouteTree.Config.Project
import RouteTree.Files.Workspace
import RouteTree.Proofs.Pieces

/-! Canonical paths. Whatever a path leads to is reached through directories, and its canonical path
names these one after another. So a canonical path leads where it came from, and it is equal to any
other path just when that path passes no symbolic link and no double dot. -/
namespace RouteTree

namespace Path

private def component? (name : String) : Option Component := Component.ofPart? name.toList

private def component (name : String) : Component :=
  if name = ".." then .parent else .name name

private theorem component_injective : Function.Injective component := by
  intro a b h
  unfold component at h
  split at h
  · next ha =>
    split at h
    · next hb => rw [ha, hb]
    · cases h
  · split at h
    · cases h
    · exact Component.name.inj h

private theorem map_component_span (component : Option Component) (start stop : Nat) :
    (component.toList.map (⟨·, start, stop⟩ : Component → Span)).map Span.component =
      component.toList := by
  cases component <;> rfl

theorem map_component_spansFrom (offset : Nat) {stretch : List Char} (cs : List Char)
    (h : '/' ∉ stretch) : (spansFrom offset stretch cs).map Span.component =
      (Text.splitOn '/' (stretch.reverse ++ cs)).filterMap Component.ofPart? := by
  -- the stretch being read has no slash in it, so it is a part by itself
  have hpart : Text.splitOn '/' stretch.reverse = [stretch.reverse] :=
    Text.splitOn_of_not_mem (by simpa using h)
  induction cs generalizing offset stretch with
  | nil =>
    rw [spansFrom, List.append_nil, hpart, map_component_span]
    cases hcomponent : Component.ofPart? stretch.reverse <;> simp [hcomponent]
  | cons c cs ih =>
    rw [spansFrom]
    split
    · next hc =>
      rw [hc, Text.splitOn_append_sep, hpart, List.map_append, map_component_span,
        ih (offset + 1) List.not_mem_nil rfl]
      cases hcomponent : Component.ofPart? stretch.reverse <;> simp [hcomponent]
    · next hc =>
      have hmem : '/' ∉ c :: stretch := by
        rw [List.mem_cons, not_or]
        exact ⟨fun heq => hc heq.symm, h⟩
      rw [ih (offset + 1) hmem (Text.splitOn_of_not_mem (by simpa [and_comm] using hmem))]
      simp

theorem exists_toList {p : Path} (h : p.isAbsolute) : ∃ rest, p.text.toList = '/' :: rest := by
  rw [isAbsolute, decide_eq_true_eq, List.head?_eq_some_iff] at h
  exact h

theorem spans_of_toList {p : Path} {rest : List Char} (h : p.text.toList = '/' :: rest) :
    p.spans = ⟨.root, 0, 1⟩ :: spansFrom 1 [] rest := by
  rw [spans, h]
  rfl

/-- The components that a path adds behind another one. -/
def parts (p : Path) : List Component :=
  (Text.splitOn '/' p.text.toList).filterMap Component.ofPart?

theorem components_eq_cons_parts {p : Path} (h : p.isAbsolute) :
    p.components = .root :: p.parts := by
  obtain ⟨rest, htext⟩ := exists_toList h
  rw [components, spans_of_toList htext, List.map_cons,
    map_component_spansFrom 1 rest List.not_mem_nil, parts, htext, Text.splitOn_sep_cons]
  rfl

private theorem filterMap_component?_names (p : Path) : p.names.filterMap component? = p.parts := by
  rw [names, Text.pieces, parts, List.filterMap_map]
  induction Text.splitOn '/' p.text.toList with
  | nil => rfl
  | cons part parts ih =>
    cases part with
    | nil => exact ih
    | cons c cs =>
      rw [List.filter_cons_of_pos (by simp), List.filterMap_cons, List.filterMap_cons, ih]
      simp [component?]

private theorem components_of_isAbsolute {p : Path} (h : p.isAbsolute) :
    p.components = .root :: p.names.filterMap component? := by
  rw [components_eq_cons_parts h, filterMap_component?_names]

/-- The names that count when paths are compared. -/
def way (p : Path) : List String := p.names.filter (· ≠ ".")

theorem isAbsolute_join {a : Path} (h : a.isAbsolute) (b : Path) : (a.join b).isAbsolute := by
  have hprefix (s : String) : (⟨a.text ++ s⟩ : Path).isAbsolute := by
    obtain ⟨rest, htext⟩ := exists_toList h
    rw [isAbsolute, decide_eq_true_eq, List.head?_eq_some_iff]
    exact ⟨rest ++ s.toList, by rw [String.toList_append, htext, List.cons_append]⟩
  unfold join
  split
  · next hb => exact hb
  · split
    · exact hprefix b.text
    · rw [String.append_assoc]
      exact hprefix ("/" ++ b.text)

theorem filter_steps (p : Path) : p.steps.filter (· ≠ ".") = p.way := by
  unfold steps way
  split
  · rw [List.filter_append, List.filter_cons_of_neg (by simp), List.filter_nil, List.append_nil]
  · rfl

private theorem component?_of_ne_dot {name : String} (hne : name.toList ≠ []) (hdot : name ≠ ".") :
    component? name = some (component name) := by
  have hdots : name.toList ≠ ['.'] := fun h => hdot (String.toList_inj.1 h)
  unfold component? component Component.ofPart?
  split
  · next h => exact absurd h hne
  · next h => exact absurd h hdots
  · next h => rw [if_pos (String.toList_inj.1 h)]
  · next hup =>
    rw [if_neg fun h => hup (by rw [h]; rfl), String.ofList_toList]

private theorem components_eq_way {p : Path} (h : p.isAbsolute) :
    p.components = .root :: p.way.map component := by
  have hnames : ∀ name ∈ p.names, name.toList ≠ [] := fun _ hname =>
    (Text.piece_of_mem_pieces hname).1
  rw [components_of_isAbsolute h, way]
  generalize p.names = names at hnames
  induction names with
  | nil => rfl
  | cons name rest ih =>
    have hrest := List.tail_eq_of_cons_eq
      (ih fun other hother => hnames other (List.mem_cons_of_mem _ hother))
    by_cases hdot : name = "."
    · rw [List.filterMap_cons, List.filter_cons_of_neg (by simpa using hdot), hrest, hdot]
      rfl
    · rw [List.filterMap_cons, List.filter_cons_of_pos (by simpa using hdot), List.map_cons,
        component?_of_ne_dot (hnames name (by simp)) hdot, hrest]

theorem fileName?_of_getLast? {p : Path} {name : String} (h : p.isAbsolute)
    (hname : p.names.getLast? = some name) (hdot : name ≠ ".") (hup : name ≠ "..") :
    p.fileName? = some name := by
  obtain ⟨before, hnames⟩ := List.getLast?_eq_some_iff.1 hname
  have hcomponent : component name = .name name := if_neg hup
  have hlast : p.components.getLast? = some (.name name) := by
    rw [components_eq_way h, way, hnames, List.filter_append,
      List.filter_cons_of_pos (by simpa using hdot), List.filter_nil, List.map_append,
      ← List.cons_append, List.map_singleton, List.getLast?_concat, hcomponent]
  rw [fileName?, hlast]

/-- Absolute paths are the same when they have the same names on their way. -/
theorem same_iff_way_eq {p q : Path} (hp : p.isAbsolute) (hq : q.isAbsolute) :
    p.same q = true ↔ p.way = q.way := by
  rw [same, decide_eq_true_eq, components_eq_way hp, components_eq_way hq, List.cons.injEq,
    List.map_inj_right component_injective]
  simp

end Path

/-- The name of a node: not empty, without a slash, and no dots. -/
structure IsNodeName (name : String) : Prop where
  ne_nil : name.toList ≠ []
  slash : '/' ∉ name.toList
  ne_dot : name ≠ "."
  ne_up : name ≠ ".."

namespace Location

/-- Every name in the location is that of a node. -/
def IsClean (loc : Location) : Prop := ∀ name ∈ loc, IsNodeName name

theorem isAbsolute_path (loc : Location) : loc.path.isAbsolute := by
  simp [path, Path.isAbsolute]

section

variable {loc : Location} (h : loc.IsClean)

include h

private theorem piece_of_mem_reverse : ∀ name ∈ loc.reverse, name.toList ≠ [] ∧ '/' ∉ name.toList :=
  fun name hname => ⟨(h name (List.mem_reverse.1 hname)).ne_nil, (h name (List.mem_reverse.1 hname)).slash⟩

theorem names_path : loc.path.names = loc.reverse := by
  rw [path, Path.names, Text.pieces_slash_append, Text.pieces_join (piece_of_mem_reverse h)]

theorem way_path : loc.path.way = loc.reverse := by
  rw [Path.way, names_path h, List.filter_eq_self]
  intro name hname
  simpa using (h name (List.mem_reverse.1 hname)).ne_dot

theorem steps_path (hne : loc ≠ []) : loc.path.steps = loc.reverse := by
  have hslash : loc.path.endsInSlash = false := by
    have hlast := Text.getLast?_join_ne (piece_of_mem_reverse h)
    have hpieces := Text.pieces_join (piece_of_mem_reverse h)
    -- only the root ends in the slash in front
    rw [Path.endsInSlash, path, String.toList_append, List.getLast?_append]
    cases hjoin : (Text.join "/" loc.reverse).toList.getLast? with
    | none =>
      rw [List.getLast?_eq_none_iff, String.toList_eq_nil_iff] at hjoin
      rw [hjoin, Text.pieces_empty, eq_comm, List.reverse_eq_nil_iff] at hpieces
      exact absurd hpieces hne
    | some last =>
      rw [hjoin] at hlast
      simpa using hlast
  rw [Path.steps, hslash, names_path h]
  rfl

end

end Location

namespace FileTree

/-- There is a node at the location, which is no link, and the way to it is through directories. -/
inductive IsReal (tree : FileTree) : Location → Prop
  | root : IsReal tree []
  | enter {name : String} {dir : Location} {node : Node} (hdir : IsReal tree dir)
      (here : tree.node? dir = some .directory) (hname : IsNodeName name)
      (hnode : tree.node? (name :: dir) = some node) (hlink : ∀ target, node ≠ .link target) :
      IsReal tree (name :: dir)

variable {tree : FileTree}

theorem IsReal.tail {loc : Location} (h : tree.IsReal loc) : tree.IsReal loc.tail := by
  cases h with
  | root => exact .root
  | enter hdir => exact hdir

theorem IsReal.isClean {loc : Location} (h : tree.IsReal loc) : loc.IsClean := by
  induction h with
  | root => exact fun _ hname => absurd hname List.not_mem_nil
  | enter hdir here hname hnode hlink ih =>
    intro other hother
    rcases List.mem_cons.1 hother with rfl | hother
    · exact hname
    · exact ih other hother

theorem IsReal.of_suffix {loc inner : Location} (h : tree.IsReal loc) (hsuffix : inner <:+ loc) :
    tree.IsReal inner := by
  induction h with
  | root =>
    rw [List.suffix_nil.1 hsuffix]
    exact .root
  | enter hdir here hname hnode hlink ih =>
    rcases List.suffix_cons_iff.1 hsuffix with rfl | hsuffix
    · exact .enter hdir here hname hnode hlink
    · exact ih hsuffix

theorem isReal_of_turn {here there : Location} {name : String} (hhere : tree.IsReal here)
    (hname : name.toList ≠ [] ∧ '/' ∉ name.toList)
    (h : tree.turn here name = .ok (.enter there)) : tree.IsReal there := by
  unfold turn at h
  split at h
  · cases h
  · next hdir =>
    split at h
    · cases h
      exact hhere
    · next hdot =>
      split at h
      · cases h
        exact hhere.tail
      · next hup =>
        split at h
        · cases h
        · cases h
        · next node hlink hnode =>
          cases h
          exact .enter hhere hdir ⟨hname.1, hname.2, hdot, hup⟩ hnode hlink
  · cases h

def AreSteps (names : List String) : Prop := ∀ name ∈ names, name.toList ≠ [] ∧ '/' ∉ name.toList

theorem areSteps_steps (p : Path) : AreSteps p.steps := by
  intro name hname
  unfold Path.steps at hname
  split at hname
  · rcases List.mem_append.1 hname with hname | hdot
    · exact Text.piece_of_mem_pieces hname
    · rw [List.mem_singleton.1 hdot]
      decide
  · exact Text.piece_of_mem_pieces hname

theorem AreSteps.append {names others : List String} (h : AreSteps names) (h' : AreSteps others) :
    AreSteps (names ++ others) := fun name hname => (List.mem_append.1 hname).elim (h name) (h' name)

theorem isReal_of_follow {atLink : Location → List String → Except IoError Location}
    (hatLink : ∀ here names loc, tree.IsReal here → AreSteps names →
      atLink here names = .ok loc → tree.IsReal loc)
    {here loc : Location} {names : List String} (hhere : tree.IsReal here) (hnames : AreSteps names)
    (h : tree.follow atLink here names = .ok loc) : tree.IsReal loc := by
  induction names generalizing here with
  | nil =>
    cases h
    exact hhere
  | cons name rest ih =>
    have hrest : AreSteps rest := fun other hother => hnames other (List.mem_cons_of_mem _ hother)
    rw [follow] at h
    split at h
    · cases h
    · next hturn => exact ih (isReal_of_turn hhere (hnames name (by simp)) hturn) hrest h
    · next target hturn =>
      refine hatLink _ _ _ ?_ ((areSteps_steps target).append hrest) h
      unfold targetStart
      split
      · exact .root
      · exact hhere

theorem isReal_of_lookup {links : Nat} {here loc : Location} {names : List String}
    (hhere : tree.IsReal here) (hnames : AreSteps names)
    (h : tree.lookup links here names = .ok loc) : tree.IsReal loc := by
  induction links generalizing here loc names with
  | zero => exact isReal_of_follow (fun _ _ _ _ _ hlink => by cases hlink) hhere hnames h
  | succ links ih =>
    exact isReal_of_follow (fun _ _ _ hdir hsteps hlink => ih hdir hsteps hlink) hhere hnames h

/-- The names of a location lead to it from the root. -/
theorem follow_reverse {atLink : Location → List String → Except IoError Location}
    {loc : Location} (h : tree.IsReal loc) (rest : List String) :
    tree.follow atLink [] (loc.reverse ++ rest) = tree.follow atLink loc rest := by
  induction h generalizing rest with
  | root => rfl
  | @enter name dir node hdir here hname hnode hlink ih =>
    have hturn : tree.turn dir name = .ok (.enter (name :: dir)) := by
      rw [turn, here]
      simp only [hname.ne_dot, hname.ne_up, if_false, hnode]
    rw [List.reverse_cons, List.append_assoc, List.singleton_append, ih, follow, hturn]

theorem follow_steps_path {atLink : Location → List String → Except IoError Location}
    {loc : Location} (h : tree.IsReal loc) : tree.follow atLink [] loc.path.steps = .ok loc := by
  by_cases hne : loc = []
  · subst hne
    rfl
  · rw [loc.steps_path h.isClean hne, ← List.append_nil loc.reverse, follow_reverse h]
    rfl

def isLink (tree : FileTree) (loc : Location) : Bool :=
  match tree.node? loc with
  | some (.link _) => true
  | _ => false

/-- Whether names are gone through without a double dot or a symbolic link. -/
def isStraightFrom (tree : FileTree) (here : Location) : List String → Bool
  | [] => true
  | name :: rest =>
    name ≠ ".." && !tree.isLink (name :: here) && tree.isStraightFrom (name :: here) rest

theorem turn_dot {here : Location} {t : Turn} (h : tree.turn here "." = .ok t) :
    t = .enter here := by
  unfold turn at h
  split at h
  · cases h
  · exact (Except.ok.inj h).symm
  · cases h

private theorem turn_straight {here : Location} {name : String} {t : Turn} (hdot : name ≠ ".")
    (hup : name ≠ "..") (hlink : tree.isLink (name :: here) = false)
    (h : tree.turn here name = .ok t) : t = .enter (name :: here) := by
  unfold turn at h
  split at h
  · cases h
  · rw [if_neg hdot, if_neg hup] at h
    split at h
    · cases h
    · next target hnode =>
      rw [isLink, hnode] at hlink
      cases hlink
    · exact (Except.ok.inj h).symm
  · cases h

/-- Straight names lead to the location that they spell. -/
theorem eq_of_isStraightFrom {atLink : Location → List String → Except IoError Location}
    {here loc : Location} {names : List String}
    (hstraight : tree.isStraightFrom here (names.filter (· ≠ ".")))
    (h : tree.follow atLink here names = .ok loc) :
    loc = (names.filter (· ≠ ".")).reverse ++ here := by
  induction names generalizing here with
  | nil => exact (Except.ok.inj h).symm
  | cons name rest ih =>
    rw [follow] at h
    by_cases hdot : name = "."
    · subst hdot
      rw [List.filter_cons_of_neg (by simp)] at hstraight ⊢
      split at h
      · cases h
      · next hturn =>
        cases turn_dot hturn
        exact ih hstraight h
      · next hturn => cases turn_dot hturn
    · rw [List.filter_cons_of_pos (by simpa using hdot)] at hstraight ⊢
      rw [isStraightFrom, Bool.and_eq_true, Bool.and_eq_true, decide_eq_true_eq,
        Bool.not_eq_true'] at hstraight
      obtain ⟨⟨hup, hlink⟩, hrest⟩ := hstraight
      split at h
      · cases h
      · next hturn =>
        cases turn_straight hdot hup hlink hturn
        rw [ih hrest h, List.reverse_cons, List.append_assoc, List.singleton_append]
      · next hturn => cases turn_straight hdot hup hlink hturn

theorem isStraightFrom_of_isReal {here : Location} {names : List String}
    (h : tree.IsReal (names.reverse ++ here)) : tree.isStraightFrom here names := by
  induction names generalizing here with
  | nil => rfl
  | cons name rest ih =>
    rw [List.reverse_cons, List.append_assoc, List.singleton_append] at h
    have hname := h.of_suffix (List.suffix_append rest.reverse (name :: here))
    rw [isStraightFrom, ih h, Bool.and_true, Bool.and_eq_true]
    cases hname with
    | enter hdir here hname hnode hlink =>
      refine ⟨by simpa using hname.ne_up, ?_⟩
      unfold isLink
      rw [hnode]
      split
      · next heq => exact absurd (Option.some.inj heq) (hlink _)
      · rfl

end FileTree

namespace Workspace

variable {ws : Workspace} {p : Path} {loc : Location}

theorem lookup_of_locate (h : ws.locate p = .ok loc) :
    ws.files.lookup linkLimit (ws.start p) p.steps = .ok loc := by
  unfold locate at h
  cases haccept : p.accept with
  | error e =>
    rw [haccept] at h
    cases h
  | ok =>
    rw [haccept] at h
    exact h

theorem isReal_of_locate (hp : p.isAbsolute) (h : ws.locate p = .ok loc) :
    ws.files.IsReal loc := by
  have hlookup := lookup_of_locate h
  rw [start, if_pos hp] at hlookup
  exact FileTree.isReal_of_lookup .root (FileTree.areSteps_steps p) hlookup

theorem eq_of_locate_path {loc' : Location} (h : ws.files.IsReal loc)
    (hpath : ws.locate loc.path = .ok loc') : loc' = loc := by
  have hlookup := lookup_of_locate hpath
  rw [start, if_pos loc.isAbsolute_path, linkLimit, FileTree.lookup,
    FileTree.follow_steps_path h] at hlookup
  exact (Except.ok.inj hlookup).symm

theorem normalize_path (h : ws.files.IsReal loc) : ws.normalize loc.path = loc.path := by
  unfold normalize
  cases hpath : ws.locate loc.path with
  | ok loc' => rw [eq_of_locate_path h hpath]
  | error e => rw [Path.join, if_pos loc.isAbsolute_path]

/-- Whether a path passes no double dot and no symbolic link. -/
def isStraight (ws : Workspace) (p : Path) : Bool := ws.files.isStraightFrom (ws.start p) p.way

/-- The canonical path of what an absolute path leads to is the same path just when that is
straight. -/
theorem path_same_iff_isStraight (hp : p.isAbsolute) (h : ws.locate p = .ok loc) :
    loc.path.same p ↔ ws.isStraight p := by
  have hreal := isReal_of_locate hp h
  have hlookup := lookup_of_locate h
  rw [Path.same_iff_way_eq loc.isAbsolute_path hp, loc.way_path hreal.isClean, isStraight]
  rw [start, if_pos hp] at hlookup ⊢
  constructor
  · intro hway
    rw [← hway]
    exact FileTree.isStraightFrom_of_isReal (by rwa [List.reverse_reverse, List.append_nil])
  · intro hstraight
    rw [linkLimit, FileTree.lookup] at hlookup
    rw [← Path.filter_steps] at hstraight ⊢
    rw [FileTree.eq_of_isStraightFrom hstraight hlookup, List.append_nil, List.reverse_reverse]

theorem isAbsolute_normalize (ws : Workspace) (p : Path) : (ws.normalize p).isAbsolute := by
  unfold normalize
  split
  · exact Location.isAbsolute_path _
  · exact Path.isAbsolute_join ws.cwd.isAbsolute_path p

end Workspace

theorem Project.isAbsolute_outputPath (ws : Workspace) {root : Path} (h : root.isAbsolute)
    (settings : Settings) : (outputPath ws root settings).isAbsolute := by
  unfold outputPath
  split
  · exact Path.isAbsolute_join h _
  · dsimp only
    split
    · exact Path.isAbsolute_join (Path.isAbsolute_join h _) _
    · exact Path.isAbsolute_join h _

end RouteTree
