import RouteTree.Proofs.PlainTrees

/-! Parents and sizes of canonical paths. The parent of a canonical path is the canonical path of
the directory, and in a tree without links an absolute path is at least as long as the canonical
path of what it leads to. So the canonical path is accepted where the path is. -/
namespace RouteTree

namespace Path

/-! ### Parents -/

theorem spansFrom_append_slash (offset : Nat) (stretch cs more : List Char) :
    spansFrom offset stretch (cs ++ '/' :: more) =
      spansFrom offset stretch cs ++ spansFrom (offset + cs.length + 1) [] more := by
  induction cs generalizing offset stretch with
  | nil => simp [spansFrom]
  | cons c cs ih =>
    rw [List.cons_append, spansFrom, spansFrom]
    split
    · rw [ih, List.append_assoc, List.length_cons]
      congr 3
      omega
    · rw [ih, List.length_cons]
      congr 2
      omega

theorem spansFrom_of_not_mem (offset : Nat) {stretch cs : List Char} (h : '/' ∉ cs) :
    spansFrom offset stretch cs = (Component.ofPart? (stretch.reverse ++ cs)).toList.map
      (⟨·, offset - stretch.length, offset + cs.length⟩) := by
  induction cs generalizing offset stretch with
  | nil => simp [spansFrom]
  | cons c cs ih =>
    obtain ⟨hc, hcs⟩ := not_or.1 (mt List.mem_cons.2 h)
    rw [spansFrom, if_neg (Ne.symm hc), ih (offset + 1) hcs, List.reverse_cons, List.append_assoc,
      List.singleton_append, List.length_cons, List.length_cons]
    have hstart : offset + 1 - (stretch.length + 1) = offset - stretch.length := by omega
    have hstop : offset + 1 + cs.length = offset + (cs.length + 1) := by omega
    rw [hstart, hstop]

end Path

theorem IsNodeName.ofPart? {name : String} (h : IsNodeName name) :
    Component.ofPart? name.toList = some (.name name) := by
  have hdot : name.toList ≠ ['.'] := fun heq => h.ne_dot (String.toList_inj.1 heq)
  have hup : name.toList ≠ ['.', '.'] := fun heq => h.ne_up (String.toList_inj.1 heq)
  unfold Component.ofPart?
  split
  · next heq => exact absurd heq h.ne_nil
  · next heq => exact absurd heq hdot
  · next heq => exact absurd heq hup
  · rw [String.ofList_toList]

namespace Location

variable {name : String} {dir loc : Location}

theorem path_cons_cons (name first : String) (dir : Location) :
    path (name :: first :: dir) = ⟨(path (first :: dir)).text ++ "/" ++ name⟩ := by
  obtain ⟨part, rest, hparts⟩ := List.exists_cons_of_ne_nil
    (show (first :: dir).reverse ≠ [] by simp)
  rw [path, path, List.reverse_cons, hparts, Text.join_append_singleton]
  simp only [String.append_assoc]

private theorem spans_name (offset : Nat) (h : IsNodeName name) :
    Path.spansFrom offset [] name.toList =
      [⟨.name name, offset, offset + name.toList.length⟩] := by
  rw [Path.spansFrom_of_not_mem offset h.slash, List.reverse_nil, List.nil_append, h.ofPart?]
  rfl

theorem spans_path (h : IsNodeName name) (dir : Location) : ∃ start,
    (path (name :: dir)).spans = (path dir).spans ++
      [⟨.name name, start, (path (name :: dir)).text.toList.length⟩] := by
  cases dir with
  | nil =>
    have htext : (path [name]).text.toList = '/' :: name.toList := by simp [path, Text.join]
    have hroot : (path []).spans = [⟨.root, 0, 1⟩] := rfl
    refine ⟨1, ?_⟩
    rw [Path.spans_of_toList htext, spans_name 1 h, hroot, htext, List.length_cons, Nat.add_comm]
    rfl
  | cons first dir =>
    obtain ⟨rest, hrest⟩ : ∃ rest, (path (first :: dir)).text.toList = '/' :: rest :=
      ⟨_, by rw [path, String.toList_append]; rfl⟩
    have htext : (path (name :: first :: dir)).text.toList =
        '/' :: (rest ++ '/' :: name.toList) := by
      rw [path_cons_cons, String.toList_append, String.toList_append, hrest]
      simp
    have hstop : ('/' :: (rest ++ '/' :: name.toList)).length =
        1 + rest.length + 1 + name.toList.length := by
      simp only [List.length_cons, List.length_append]
      omega
    refine ⟨1 + rest.length + 1, ?_⟩
    rw [Path.spans_of_toList hrest, Path.spans_of_toList htext, Path.spansFrom_append_slash,
      spans_name _ h, htext, hstop, List.cons_append]

/-- The parent of a canonical path is that of the directory. -/
theorem parent?_path (h : IsClean (name :: dir)) :
    (path (name :: dir)).parent? = some (path dir) := by
  obtain ⟨start, hspans⟩ := spans_path (h name List.mem_cons_self) dir
  rw [Path.parent?, hspans, List.reverse_append]
  simp only [List.reverse_cons, List.reverse_nil, List.nil_append, List.singleton_append,
    reduceCtorEq, if_false]
  cases dir with
  | nil =>
    have hname : (path [name]).text.toList = '/' :: name.toList := by simp [path, Text.join]
    have hroot : (path []).spans.reverse = [⟨.root, 0, 1⟩] := rfl
    rw [hroot]
    simp only [Path.slice, hname]
    rfl
  | cons first dir =>
    have hfirst := h first (List.mem_cons_of_mem _ List.mem_cons_self)
    obtain ⟨start', hspans'⟩ := spans_path hfirst dir
    have htext : (path (name :: first :: dir)).text.toList =
        (path (first :: dir)).text.toList ++ ('/' :: name.toList) := by
      rw [path_cons_cons, String.toList_append, String.toList_append, List.append_assoc]
      rfl
    rw [hspans', List.reverse_append]
    simp only [List.reverse_cons, List.reverse_nil, List.nil_append, List.singleton_append,
      Path.slice]
    rw [htext, List.take_left, List.drop_zero, String.ofList_toList]

theorem text_path_ne_empty (loc : Location) : loc.path.text ≠ "" := by
  intro hempty
  have hroot := loc.isAbsolute_path
  rw [Path.isAbsolute, hempty] at hroot
  cases hroot

theorem endsInSlash_path (h : IsClean loc) (hne : loc ≠ []) : loc.path.endsInSlash = false := by
  have hsteps := loc.steps_path h hne
  rw [Path.steps, names_path h] at hsteps
  split at hsteps
  · simp at hsteps
  · next hslash => simpa using hslash

theorem writeSteps_path (h : IsClean loc) (hne : loc ≠ []) : loc.path.writeSteps = loc.reverse := by
  rw [Path.writeSteps, endsInSlash_path h hne, names_path h]
  rfl

theorem join_path (h : IsClean dir) (hname : IsNodeName name) :
    (path dir).join ⟨name⟩ = path (name :: dir) := by
  rw [Path.join, if_neg (by simp [Path.isAbsolute_of_isNodeName hname])]
  cases dir with
  | nil => simp [path, Path.isEmpty, Text.join]
  | cons first dir =>
    have hslash := endsInSlash_path h (List.cons_ne_nil first dir)
    have hempty : (path (first :: dir)).isEmpty = false := by
      simpa [Path.isEmpty] using text_path_ne_empty (first :: dir)
    rw [Path.endsInSlash] at hslash
    rw [hempty, hslash, path_cons_cons]
    rfl

end Location

/-! ### Sizes -/

/-- The bytes of names with a slash before each. -/
def bulk : List String → Nat
  | [] => 0
  | name :: names => name.utf8ByteSize + 1 + bulk names

@[simp]
theorem bulk_cons (name : String) (names : List String) :
    bulk (name :: names) = name.utf8ByteSize + 1 + bulk names := rfl

theorem bulk_append (names more : List String) : bulk (names ++ more) = bulk names + bulk more := by
  induction names with
  | nil => simp [bulk]
  | cons name rest ih =>
    rw [List.cons_append, bulk_cons, bulk_cons, ih]
    omega

theorem bulk_reverse (names : List String) : bulk names.reverse = bulk names := by
  induction names with
  | nil => rfl
  | cons name rest ih =>
    rw [List.reverse_cons, bulk_append, ih, Nat.add_comm]
    rfl

theorem bulk_filter_le (names : List String) (p : String → Bool) :
    bulk (names.filter p) ≤ bulk names := by
  induction names with
  | nil => exact Nat.le_refl _
  | cons name rest ih =>
    rw [List.filter_cons, bulk_cons]
    split
    · rw [bulk_cons]
      omega
    · omega

theorem size_join {parts : List String} (h : parts ≠ []) :
    (Text.join "/" parts).utf8ByteSize + 1 = bulk parts := by
  induction parts with
  | nil => exact absurd rfl h
  | cons part rest ih =>
    cases rest with
    | nil => simp [Text.join, bulk]
    | cons next rest =>
      have hrest := ih (List.cons_ne_nil _ _)
      have hslash : ("/" : String).utf8ByteSize = 1 := rfl
      rw [Text.join_cons_cons, String.utf8ByteSize_append, String.utf8ByteSize_append, hslash,
        bulk_cons, ← hrest]
      omega

theorem bulk_splitOn (cs : List Char) : bulk ((Text.splitOn '/' cs).map String.ofList) =
    (String.ofList cs).utf8ByteSize + 1 := by
  induction cs with
  | nil => rfl
  | cons c cs ih =>
    have hsize : (String.ofList (c :: cs)).utf8ByteSize =
        c.utf8Size + (String.ofList cs).utf8ByteSize := by
      rw [String.ofList_cons, String.utf8ByteSize_append]
      simp
    rw [Text.splitOn]
    split
    · next hc =>
      have hslash : ('/' : Char).utf8Size = 1 := rfl
      rw [List.map_cons, bulk_cons, ih, hsize, hc, hslash]
      simp
      omega
    · cases hsplit : Text.splitOn '/' cs with
      | nil => exact absurd hsplit (Text.splitOn_ne_nil '/' cs)
      | cons part parts =>
        have hpart : (String.ofList (c :: part)).utf8ByteSize =
            c.utf8Size + (String.ofList part).utf8ByteSize := by
          rw [String.ofList_cons, String.utf8ByteSize_append]
          simp
        rw [hsplit, List.map_cons, bulk_cons] at ih
        simp only [List.map_cons, bulk_cons, hpart, hsize]
        omega

theorem bulk_names_le {p : Path} (h : p.isAbsolute) : bulk p.names ≤ p.text.utf8ByteSize := by
  obtain ⟨rest, htext⟩ := Path.exists_toList h
  have hsize : p.text.utf8ByteSize = 1 + (String.ofList rest).utf8ByteSize := by
    rw [← String.ofList_toList (s := p.text), htext, String.ofList_cons,
      String.utf8ByteSize_append]
    rfl
  have hnames : p.names = ((Text.splitOn '/' rest).map String.ofList).filter (· ≠ "") := by
    rw [Path.names, Text.pieces, htext, Text.splitOn_sep_cons, List.filter_map]
    simp [Function.comp_def]
  rw [hnames, hsize, Nat.add_comm, ← bulk_splitOn]
  exact bulk_filter_le _ _

namespace FileTree

variable {tree : FileTree} {here loc : Location} {names : List String}
  {atLink : Location → List String → Except IoError Location}

/-- Names lead to a location that is no longer than they are. -/
theorem IsPlain.bulk_le_of_follow (h : tree.IsPlain)
    (hfollow : tree.follow atLink here names = .ok loc) : bulk loc ≤ bulk here + bulk names := by
  induction names generalizing here with
  | nil =>
    cases hfollow
    simp [bulk]
  | cons name rest ih =>
    have htail : bulk here.tail ≤ bulk here := by
      cases here with
      | nil => exact Nat.le_refl _
      | cons first dir =>
        rw [List.tail_cons, bulk_cons]
        omega
    rw [bulk_cons]
    obtain ⟨-, ⟨-, hrest⟩ | ⟨-, hrest⟩ | ⟨-, -, -, hrest⟩⟩ := h.follow_cons_eq_ok hfollow
    · have hle := ih hrest
      omega
    · have hle := ih hrest
      omega
    · have hle := ih hrest
      rw [bulk_cons] at hle
      omega

/-- Names lead to a location that is made of them and of those on the way here. -/
theorem IsPlain.mem_of_follow (h : tree.IsPlain)
    (hfollow : tree.follow atLink here names = .ok loc) {name : String} (hname : name ∈ loc) :
    name ∈ here ∨ name ∈ names := by
  induction names generalizing here with
  | nil =>
    cases hfollow
    exact .inl hname
  | cons first rest ih =>
    obtain ⟨-, ⟨-, hmore⟩ | ⟨-, hmore⟩ | ⟨-, -, -, hmore⟩⟩ := h.follow_cons_eq_ok hfollow
    · exact (ih hmore).imp_right (List.mem_cons_of_mem _)
    · exact (ih hmore).imp List.mem_of_mem_tail (List.mem_cons_of_mem _)
    · rcases ih hmore with hhere | hrest
      · rcases List.mem_cons.1 hhere with rfl | hhere
        · exact .inr List.mem_cons_self
        · exact .inl hhere
      · exact .inr (List.mem_cons_of_mem _ hrest)

end FileTree

/-! ### Acceptance -/

theorem Text.mem_of_mem_splitOn {sep c : Char} {cs part : List Char} (hpart : part ∈ splitOn sep cs)
    (hc : c ∈ part) : c ∈ cs := by
  induction cs generalizing part with
  | nil =>
    rw [List.mem_singleton.1 hpart] at hc
    cases hc
  | cons first cs ih =>
    rw [splitOn] at hpart
    split at hpart
    · rcases List.mem_cons.1 hpart with rfl | hpart
      · cases hc
      · exact List.mem_cons_of_mem _ (ih hpart hc)
    · split at hpart
      · next hnil => exact absurd hnil (splitOn_ne_nil sep cs)
      · next head parts hsplit =>
        rcases List.mem_cons.1 hpart with rfl | hpart
        · rcases List.mem_cons.1 hc with rfl | hc
          · exact List.mem_cons_self
          · exact List.mem_cons_of_mem _ (ih (by simp [hsplit]) hc)
        · exact List.mem_cons_of_mem _ (ih (by simp [hsplit, hpart]) hc)

theorem Text.mem_join {sep : String} {c : Char} {parts : List String}
    (h : c ∈ (join sep parts).toList) : c ∈ sep.toList ∨ ∃ part ∈ parts, c ∈ part.toList := by
  induction parts with
  | nil => cases h
  | cons part rest ih =>
    cases rest with
    | nil => exact .inr ⟨part, List.mem_cons_self, h⟩
    | cons next rest =>
      rw [join_cons_cons, String.toList_append, String.toList_append, List.mem_append,
        List.mem_append] at h
      rcases h with (hpart | hsep) | hrest
      · exact .inr ⟨part, List.mem_cons_self, hpart⟩
      · exact .inl hsep
      · exact (ih hrest).imp_right fun ⟨other, hother, hc⟩ =>
          ⟨other, List.mem_cons_of_mem _ hother, hc⟩

namespace Path

theorem accept_eq_ok_iff {p : Path} : p.accept = .ok () ↔
    '\x00' ∉ p.text.toList ∧ p.text ≠ "" ∧ p.text.utf8ByteSize ≤ sizeLimit := by
  have hempty : p.isEmpty = true ↔ p.text = "" := by simp [isEmpty]
  unfold accept
  split
  · next hnul => simp_all
  · next hnul =>
    split
    · next hnone => simp_all
    · next hsome =>
      split
      · next hsize =>
        simp only [reduceCtorEq, false_iff, not_and]
        omega
      · next hsize =>
        refine iff_of_true rfl ⟨by simpa using hnul, mt hempty.2 hsome, by omega⟩

theorem accept_of_join {p q : Path} (hp : p.text ≠ "") (hq : q.isAbsolute = false)
    (h : (p.join q).accept = .ok ()) : p.accept = .ok () := by
  rw [join, if_neg (by simp [hq])] at h
  split at h
  · exact accept_of_append hp h
  · rw [String.append_assoc] at h
    exact accept_of_append hp h

theorem mem_text_of_mem_names {p : Path} {name : String} {c : Char} (hname : name ∈ p.names)
    (hc : c ∈ name.toList) : c ∈ p.text.toList := by
  simp only [names, Text.pieces, List.mem_map, List.mem_filter] at hname
  obtain ⟨part, ⟨hpart, -⟩, rfl⟩ := hname
  rw [String.toList_ofList] at hc
  exact Text.mem_of_mem_splitOn hpart hc

end Path

namespace Workspace

variable {ws : Workspace} {p : Path} {loc : Location}

theorem locate_path (h : ws.files.IsReal loc) (haccept : loc.path.accept = .ok ()) :
    ws.locate loc.path = .ok loc := by
  rw [locate_of_accept haccept, start, if_pos loc.isAbsolute_path]
  exact FileTree.follow_steps_path h

/-- The canonical path of what an absolute path leads to can be looked up as well. -/
theorem accept_path_of_locate (hplain : ws.files.IsPlain) (habs : p.isAbsolute)
    (h : ws.locate p = .ok loc) : loc.path.accept = .ok () := by
  obtain ⟨hnul, -, hsize⟩ := Path.accept_eq_ok_iff.1 (accept_of_locate h)
  have hlookup := lookup_names_of_locate h
  rw [start, if_pos habs, linkLimit, FileTree.lookup] at hlookup
  refine Path.accept_eq_ok_iff.2 ⟨fun hmem => ?_, loc.text_path_ne_empty, ?_⟩
  · rw [Location.path, String.toList_append, List.mem_append] at hmem
    rcases hmem with hroot | hjoin
    · exact absurd hroot (by decide)
    · rcases Text.mem_join hjoin with hslash | ⟨name, hname, hc⟩
      · exact absurd hslash (by decide)
      · rcases hplain.mem_of_follow hlookup (List.mem_reverse.1 hname) with hroot | hname
        · cases hroot
        · exact hnul (Path.mem_text_of_mem_names hname hc)
  · cases loc with
    | nil => exact Nat.le_of_ble_eq_true rfl
    | cons name dir =>
      have hpath : (Location.path (name :: dir)).text.utf8ByteSize = bulk (name :: dir) := by
        rw [Location.path, String.utf8ByteSize_append, ← bulk_reverse, ← size_join (by simp),
          Nat.add_comm]
        rfl
      have hbulk := hplain.bulk_le_of_follow hlookup
      have hnames := bulk_names_le habs
      have hnil : bulk [] = 0 := rfl
      omega

end Workspace

end RouteTree
