import RouteTree.Proofs.Additions
import RouteTree.Proofs.Lookup
import RouteTree.Proofs.Regeneration

/-! Trees without symbolic links. A look-up in such a tree goes from directory to directory, so it
can be cut anywhere, and a path with one more name leads from where the path leads to the node of
that name. -/
namespace RouteTree

namespace FileTree

variable {tree : FileTree} {here loc : Location} {name : String} {names more : List String}
  {atLink : Location → List String → Except IoError Location}

/-- No node is a link, and every node is in a directory, under a name that a node can have. -/
def IsPlain (tree : FileTree) : Prop := ∀ loc, (tree.node? loc).isSome → tree.IsReal loc

theorem IsReal.isSome (h : tree.IsReal loc) : (tree.node? loc).isSome := by
  cases h with
  | root => rfl
  | enter hdir here hname hnode hlink => rw [hnode]; rfl

theorem IsReal.isNodeName (h : tree.IsReal (name :: here)) : IsNodeName name := by
  cases h with
  | enter hdir here hname hnode hlink => exact hname

theorem IsReal.directory (h : tree.IsReal (name :: here)) : tree.node? here = some .directory := by
  cases h with
  | enter hdir here hname hnode hlink => exact here

theorem IsReal.ne_link (h : tree.IsReal loc) (target : Path) :
    tree.node? loc ≠ some (.link target) := by
  cases h with
  | root => simp [node?]
  | enter hdir here hname hnode hlink =>
    rw [hnode]
    simpa using hlink target

instance (name : String) : Decidable (IsNodeName name) :=
  decidable_of_iff (name.toList ≠ [] ∧ '/' ∉ name.toList ∧ name ≠ "." ∧ name ≠ "..")
    ⟨fun ⟨hne, hslash, hdot, hup⟩ => ⟨hne, hslash, hdot, hup⟩,
      fun h => ⟨h.ne_nil, h.slash, h.ne_dot, h.ne_up⟩⟩

def fits (tree : FileTree) : Location × Node → Bool
  | ([], _) | (_, .link _) => false
  | (name :: dir, _) => IsNodeName name && (tree.node? dir).any Node.isDirectory

/-- It is enough to look at each entry once. -/
theorem isPlain_of_fits (h : tree.entries.all tree.fits) : tree.IsPlain := by
  intro loc hsome
  induction loc with
  | nil => exact .root
  | cons name dir ih =>
    obtain ⟨node, hnode⟩ := Option.isSome_iff_exists.1 hsome
    have hfits := List.all_eq_true.1 h _ ((lookup_eq_some_iff_mem tree.distinct).1 hnode)
    cases node with
    | link target => cases hfits
    | _ =>
      obtain ⟨hname, hdir⟩ := Bool.and_eq_true_iff.1 hfits
      cases hparent : tree.node? dir with
      | none =>
        rw [hparent] at hdir
        cases hdir
      | some parent =>
        rw [hparent] at hdir
        cases parent with
        | directory =>
          exact .enter (ih (by rw [hparent]; rfl)) hparent (of_decide_eq_true hname) hnode (by simp)
        | _ => cases hdir

/-- Where names turn to in a tree without links. -/
theorem IsPlain.turn_cases (h : tree.IsPlain) {t : Turn} (hturn : tree.turn here name = .ok t) :
    tree.node? here = some .directory ∧
      (name = "." ∧ t = .enter here ∨ name = ".." ∧ t = .enter here.tail ∨
        name ≠ "." ∧ name ≠ ".." ∧ tree.IsReal (name :: here) ∧ t = .enter (name :: here)) := by
  unfold turn at hturn
  split at hturn
  · cases hturn
  · next hhere =>
    refine ⟨hhere, ?_⟩
    split at hturn
    · next hdot => exact .inl ⟨hdot, (Except.ok.inj hturn).symm⟩
    · next hdot =>
      split at hturn
      · next hup => exact .inr (.inl ⟨hup, (Except.ok.inj hturn).symm⟩)
      · next hup =>
        split at hturn
        · cases hturn
        · next target hnode => exact absurd hnode ((h _ (by simp [hnode])).ne_link target)
        · next node hlink hnode =>
          exact .inr (.inr ⟨hdot, hup, h _ (by simp [hnode]), (Except.ok.inj hturn).symm⟩)
  · cases hturn

theorem IsPlain.follow_cons_eq_ok (h : tree.IsPlain)
    (hfollow : tree.follow atLink here (name :: names) = .ok loc) :
    tree.node? here = some .directory ∧
      (name = "." ∧ tree.follow atLink here names = .ok loc ∨
        name = ".." ∧ tree.follow atLink here.tail names = .ok loc ∨
        name ≠ "." ∧ name ≠ ".." ∧ tree.IsReal (name :: here) ∧
          tree.follow atLink (name :: here) names = .ok loc) := by
  rw [follow] at hfollow
  cases hturn : tree.turn here name with
  | error e =>
    rw [hturn] at hfollow
    cases hfollow
  | ok t =>
    rw [hturn] at hfollow
    obtain ⟨hhere, ⟨hdot, rfl⟩ | ⟨hup, rfl⟩ | ⟨hdot, hup, hreal, rfl⟩⟩ := h.turn_cases hturn
    · exact ⟨hhere, .inl ⟨hdot, hfollow⟩⟩
    · exact ⟨hhere, .inr (.inl ⟨hup, hfollow⟩)⟩
    · exact ⟨hhere, .inr (.inr ⟨hdot, hup, hreal, hfollow⟩)⟩

theorem IsReal.turn (h : tree.IsReal (name :: here)) :
    tree.turn here name = .ok (.enter (name :: here)) := by
  cases h with
  | enter hdir here hname hnode hlink =>
    rw [FileTree.turn, here]
    simp only [hname.ne_dot, hname.ne_up, if_false, hnode]

theorem IsPlain.follow_append (h : tree.IsPlain) :
    tree.follow atLink here (names ++ more) =
      (tree.follow atLink here names).bind fun there => tree.follow atLink there more := by
  induction names generalizing here with
  | nil => rfl
  | cons name rest ih =>
    rw [List.cons_append, follow, follow]
    cases hturn : tree.turn here name with
    | error e => rfl
    | ok t =>
      obtain ⟨-, ⟨-, rfl⟩ | ⟨-, rfl⟩ | ⟨-, -, -, rfl⟩⟩ := h.turn_cases hturn
      · exact ih
      · exact ih
      · exact ih

theorem IsPlain.insert (h : tree.IsPlain) {node : Node} (hhere : tree.node? here = some .directory)
    (hname : IsNodeName name) (hlink : ∀ target, node ≠ .link target)
    (hgrows : tree.Grows (tree.insert (name :: here) node)) :
    (tree.insert (name :: here) node).IsPlain := by
  intro loc hsome
  by_cases hloc : loc = name :: here
  · subst hloc
    exact .enter ((h here (by simp [hhere])).of_grows hgrows) (hgrows.directory hhere) hname
      (node?_insert_self _ (List.cons_ne_nil _ _)) hlink
  · rw [node?_insert_of_ne _ hloc] at hsome
    exact (h loc hsome).of_grows hgrows

/-- In a directory a file can be written under a name of a bounded size that is free or that of a
file. -/
structure HasRoom (tree : FileTree) (here : Location) (name : String) : Prop where
  directory : tree.node? here = some .directory
  ne_dot : name ≠ "."
  ne_up : name ≠ ".."
  size : name.utf8ByteSize ≤ nameLimit
  isPlace : tree.IsPlace (name :: here)

theorem IsPlain.place_eq_ok_iff (h : tree.IsPlain) :
    tree.place atLink here name = .ok loc ↔ tree.HasRoom here name ∧ loc = name :: here := by
  constructor
  · intro hplace
    obtain ⟨hhere, hdot, hup, ⟨target, hlink, -⟩ | ⟨hfree, heq⟩⟩ := place_cases hplace
    · exact absurd hlink ((h _ (by simp [hlink])).ne_link target)
    · refine ⟨⟨hhere, hdot, hup, ?_, hfree⟩, heq⟩
      rw [place, hhere] at hplace
      by_contra hsize
      dsimp only at hplace
      rw [if_pos (Nat.lt_of_not_le hsize)] at hplace
      cases hplace
  · rintro ⟨⟨hhere, hdot, hup, hsize, hfree⟩, rfl⟩
    rw [place, hhere]
    dsimp only
    rw [if_neg (Nat.not_lt.2 hsize), if_neg (by simp [hdot, hup])]
    rcases hfree with hnone | ⟨content, hfile⟩
    · rw [hnone]
    · rw [hfile]

/-- In a tree without links it does not matter what is to be done at a link. -/
theorem IsPlain.follow_congr (h : tree.IsPlain)
    (atLink atLink' : Location → List String → Except IoError Location) (here : Location)
    (names : List String) : tree.follow atLink here names = tree.follow atLink' here names := by
  induction names generalizing here with
  | nil => rfl
  | cons name rest ih =>
    rw [follow, follow]
    cases hturn : tree.turn here name with
    | error e => rfl
    | ok t =>
      obtain ⟨-, ⟨-, rfl⟩ | ⟨-, rfl⟩ | ⟨-, -, -, rfl⟩⟩ := h.turn_cases hturn
      · exact ih _
      · exact ih _
      · exact ih _

theorem IsPlain.lookup_eq_follow (h : tree.IsPlain) (links : Nat) (here : Location)
    (names : List String) : tree.lookup links here names = tree.follow atLink here names := by
  cases links with
  | zero => exact h.follow_congr _ _ here names
  | succ links => exact h.follow_congr _ _ here names

theorem IsPlain.lookup_append (h : tree.IsPlain) (links : Nat) :
    tree.lookup links here (names ++ more) =
      (tree.lookup links here names).bind fun there => tree.lookup links there more := by
  cases links with
  | zero => exact h.follow_append
  | succ links => exact h.follow_append

theorem IsPlain.followToPlace_append (h : tree.IsPlain) :
    tree.followToPlace atLink here (names ++ [name]) =
      (tree.follow atLink here names).bind fun there => tree.place atLink there name := by
  induction names generalizing here with
  | nil => rfl
  | cons first rest ih =>
    obtain ⟨next, more, hmore⟩ := List.exists_cons_of_ne_nil
      (show rest ++ [name] ≠ [] by simp)
    rw [List.cons_append, hmore, followToPlace, ← hmore, follow]
    cases hturn : tree.turn here first with
    | error e => rfl
    | ok t =>
      obtain ⟨-, ⟨-, rfl⟩ | ⟨-, rfl⟩ | ⟨-, -, -, rfl⟩⟩ := h.turn_cases hturn
      · exact ih
      · exact ih
      · exact ih

theorem IsPlain.lookupPlace_append_eq_ok_iff (h : tree.IsPlain) (links : Nat) :
    tree.lookupPlace links here (names ++ [name]) = .ok loc ↔
      ∃ dir, tree.lookup links here names = .ok dir ∧ tree.HasRoom dir name ∧
        loc = name :: dir := by
  have happend {atLink : Location → List String → Except IoError Location} :
      tree.followToPlace atLink here (names ++ [name]) = .ok loc ↔
        ∃ dir, tree.lookup links here names = .ok dir ∧ tree.HasRoom dir name ∧
          loc = name :: dir := by
    rw [h.followToPlace_append, h.lookup_eq_follow links here names]
    cases tree.follow atLink here names with
    | error e => simp [Except.bind]
    | ok dir => simp [Except.bind, h.place_eq_ok_iff]
  cases links with
  | zero => exact happend
  | succ links => exact happend

theorem lookupPlace_nil (links : Nat) : tree.lookupPlace links here [] = .error .isDirectory := by
  cases links <;> rfl

end FileTree

namespace Path

variable {p : Path} {name : String}

theorem isAbsolute_of_isNodeName (h : IsNodeName name) : (⟨name⟩ : Path).isAbsolute = false := by
  rw [isAbsolute, decide_eq_false_iff_not]
  intro hhead
  exact h.slash (List.mem_of_mem_head? hhead)

theorem names_of_isNodeName (h : IsNodeName name) : (⟨name⟩ : Path).names = [name] :=
  Text.pieces_of_piece h.ne_nil h.slash

theorem names_join (h : IsNodeName name) (p : Path) :
    (p.join ⟨name⟩).names = p.names ++ [name] := by
  rw [join, isAbsolute_of_isNodeName h, ← names_of_isNodeName h]
  split
  · next habs => cases habs
  · split
    · next hend =>
      rcases Bool.or_eq_true_iff.1 hend with hempty | hslash
      · have htext : p.text = "" := by simpa [isEmpty] using hempty
        simp [names, htext]
      · obtain ⟨before, hbefore⟩ := List.getLast?_eq_some_iff.1 (of_decide_eq_true hslash)
        have htext : p.text = String.ofList before ++ "/" ++ "" := by
          rw [← String.toList_inj, hbefore]
          simp
        have hname : String.ofList before ++ "/" ++ "" ++ name =
            String.ofList before ++ "/" ++ name := by
          rw [String.append_empty]
        rw [names, names, names, htext, hname, Text.pieces_append_slash, Text.pieces_append_slash,
          Text.pieces_empty, List.append_nil]
    · exact Text.pieces_append_slash p.text name

theorem getLast?_join (h : IsNodeName name) (p : Path) :
    (p.join ⟨name⟩).text.toList.getLast? = name.toList.getLast? := by
  have hlast (s : String) : (s ++ name).toList.getLast? = name.toList.getLast? := by
    rw [String.toList_append, List.getLast?_append]
    cases hname : name.toList.getLast? with
    | none => exact absurd (List.getLast?_eq_none_iff.1 hname) h.ne_nil
    | some c => rfl
  rw [join, isAbsolute_of_isNodeName h]
  split
  · rfl
  · split
    · exact hlast _
    · exact hlast _

theorem steps_join (h : IsNodeName name) (p : Path) :
    (p.join ⟨name⟩).steps = p.names ++ [name] := by
  rw [steps, endsInSlash, getLast?_join h, ← names_join h]
  refine if_neg fun hslash => h.slash ?_
  exact List.mem_of_getLast? (of_decide_eq_true hslash)

theorem isAbsolute_join_name (h : IsNodeName name) (hp : p.text ≠ "") :
    (p.join ⟨name⟩).isAbsolute = p.isAbsolute := by
  obtain ⟨c, cs, htext⟩ := List.exists_cons_of_ne_nil (mt String.toList_eq_nil_iff.1 hp)
  rw [join, isAbsolute_of_isNodeName h]
  split
  · next habs => cases habs
  · split
    · simp [isAbsolute, htext]
    · simp [isAbsolute, htext]

theorem isAbsolute_of_names_eq_nil (h : p.names = []) (hp : p.text ≠ "") : p.isAbsolute := by
  obtain ⟨c, cs, htext⟩ := List.exists_cons_of_ne_nil (mt String.toList_eq_nil_iff.1 hp)
  rw [isAbsolute, htext, decide_eq_true_eq, List.head?_cons, Option.some.injEq]
  by_contra hc
  rw [names, Text.pieces, htext, Text.splitOn, if_neg hc] at h
  cases hsplit : Text.splitOn '/' cs <;> simp [hsplit] at h

theorem text_ne_empty_of_accept (h : p.accept = .ok ()) : p.text ≠ "" := by
  intro hempty
  unfold accept at h
  rw [isEmpty, hempty] at h
  simp at h

end Path

namespace Workspace

variable {ws : Workspace} {p dir : Path} {here loc : Location} {name : String}

/-- A path leads from its names alone; a slash at its end does not matter. -/
theorem lookup_names_of_locate (h : ws.locate p = .ok loc) :
    ws.files.lookup linkLimit (ws.start p) p.names = .ok loc := by
  have hlookup := lookup_of_locate h
  rw [Path.steps] at hlookup
  split at hlookup
  · exact FileTree.lookup_of_dot hlookup
  · exact hlookup

private theorem lookup_join (hplain : ws.files.IsPlain) (hdir : ws.locate dir = .ok here)
    (hname : IsNodeName name) :
    ws.files.lookup linkLimit (ws.start (dir.join ⟨name⟩)) (dir.join ⟨name⟩).steps =
      ws.files.lookup linkLimit here [name] := by
  have hne := Path.text_ne_empty_of_accept (accept_of_locate hdir)
  have hlookup := lookup_names_of_locate hdir
  rw [start] at hlookup
  rw [start, Path.isAbsolute_join_name hname hne, Path.steps_join hname, hplain.lookup_append,
    hlookup]
  rfl

theorem locate_join (hplain : ws.files.IsPlain) (hdir : ws.locate dir = .ok here)
    (hreal : ws.files.IsReal (name :: here)) (haccept : (dir.join ⟨name⟩).accept = .ok ()) :
    ws.locate (dir.join ⟨name⟩) = .ok (name :: here) := by
  rw [locate_of_accept haccept, lookup_join hplain hdir hreal.isNodeName, linkLimit,
    FileTree.lookup, FileTree.follow, hreal.turn]
  rfl

theorem eq_of_locate_join (hplain : ws.files.IsPlain) (hdir : ws.locate dir = .ok here)
    (hname : IsNodeName name) (h : ws.locate (dir.join ⟨name⟩) = .ok loc) :
    loc = name :: here ∧ ws.files.IsReal loc := by
  have hlookup := lookup_of_locate h
  rw [lookup_join hplain hdir hname, linkLimit, FileTree.lookup] at hlookup
  obtain ⟨-, ⟨hdot, -⟩ | ⟨hup, -⟩ | ⟨-, -, hreal, hlast⟩⟩ := hplain.follow_cons_eq_ok hlookup
  · exact absurd hdot hname.ne_dot
  · exact absurd hup hname.ne_up
  · cases hlast
    exact ⟨rfl, hreal⟩

/-- A path that spells a directory leads to it, with or without a slash at its end. -/
theorem locate_of_lookup_names (hplain : ws.files.IsPlain) (haccept : p.accept = .ok ())
    (h : ws.files.lookup linkLimit (ws.start p) p.names = .ok here)
    (hdir : ws.files.node? here = some .directory) : ws.locate p = .ok here := by
  rw [locate_of_accept haccept, Path.steps]
  split
  · rw [hplain.lookup_append, h]
    simp [Except.bind, linkLimit, FileTree.lookup, FileTree.follow, FileTree.turn, hdir]
  · exact h

end Workspace

end RouteTree
