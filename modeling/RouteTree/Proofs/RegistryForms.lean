import RouteTree.Proofs.ByteOrder
import RouteTree.Proofs.JsonPrinting
import RouteTree.Proofs.JsonReading
import RouteTree.Proofs.OrderedSet
import RouteTree.Registry.PageMap

/-! The forms of a registry. The pages may make up the whole file or stand under a key, and what
else a file says does not matter, nor does the order in which it says it. -/
namespace RouteTree.Registry

open Json (Value)

/-- The members give the value under the key, or none, among others in any order. -/
def Gives (key : String) (found : Option Value) (members : List (String × Value)) : Prop :=
  ∃ others, members.Perm (found.toList.map (key, ·) ++ others) ∧ ∀ m ∈ others, m.1 ≠ key

/-- The members list the pages in any order. Each is an object that gives the route of the page. -/
def Lists (pages : List (String × Option Value)) (members : List (String × Value)) : Prop :=
  ∃ listed, listed.Perm pages ∧ List.Forall₂ (fun page m => m.1 = page.1 ∧
    ∃ entry, m.2 = .object entry ∧ Gives "route" page.2 entry) listed members

/-- A value of either form for the pages. -/
inductive IsRegistry (pages : List (String × Option Value)) : Value → Prop
  | bare {members : List (String × Value)} (h : Lists pages members) :
    IsRegistry pages (.object members)
  | wrapped {inner members : List (String × Value)} (h : Lists pages inner)
    (hmembers : Gives "pages" (some (.object inner)) members) : IsRegistry pages (.object members)

def entries (pages : List (String × Option Value)) : List (String × PageEntry) :=
  pages.map fun page => (page.1, ⟨page.2.bind nonNull?⟩)

def PageMap.ofPages (pages : List (String × Option Value)) : PageMap := .ofList (entries pages)

variable {pages : List (String × Option Value)} {members : List (String × Value)}
  {found : Option Value} {key : String} {v : Value}

theorem valuesUnder_eq_nil (h : ∀ m ∈ members, m.1 ≠ key) : valuesUnder key members = [] :=
  List.filterMap_eq_nil_iff.2 fun m hm => if_neg (h m hm)

theorem Gives.valuesUnder_eq (h : Gives key found members) :
    valuesUnder key members = found.toList := by
  obtain ⟨others, hperm, hothers⟩ := h
  have hgiven : valuesUnder key (found.toList.map (key, ·) ++ others) = found.toList := by
    have hnone := valuesUnder_eq_nil hothers
    rw [valuesUnder] at hnone ⊢
    rw [List.filterMap_append, hnone, List.append_nil]
    cases found <;> simp
  have hunder : (valuesUnder key members).Perm found.toList := by
    rw [← hgiven]
    exact hperm.filterMap _
  cases found with
  | none => exact List.perm_nil.1 hunder
  | some v => exact List.perm_singleton.1 hunder

theorem PageEntry.ofValue?_object (h : Gives "route" found members) :
    PageEntry.ofValue? (.object members) = some ⟨found.bind nonNull?⟩ := by
  rw [PageEntry.ofValue?, h.valuesUnder_eq]
  cases found <;> rfl

theorem Lists.mapM_eq (h : Lists pages members) : ∃ found,
    members.mapM (fun m => (PageEntry.ofValue? m.2).map (m.1, ·)) = some found ∧
      found.Perm (entries pages) := by
  obtain ⟨listed, hperm, hlisted⟩ := h
  refine ⟨_, ?_, hperm.map _⟩
  clear hperm
  induction hlisted with
  | nil => rfl
  | @cons page m listed members hpage _ ih =>
    obtain ⟨name, v⟩ := m
    obtain ⟨rfl, entry, rfl, hentry⟩ := hpage
    rw [List.mapM_cons, PageEntry.ofValue?_object hentry, ih]
    rfl

theorem Lists.mem_ids (h : Lists pages members) {m : String × Value} (hm : m ∈ members) :
    m.1 ∈ pages.map Prod.fst := by
  obtain ⟨listed, hperm, hlisted⟩ := h
  refine (hperm.map Prod.fst).mem_iff.1 ?_
  clear hperm
  induction hlisted with
  | nil => cases hm
  | cons hpage _ ih =>
    rcases List.mem_cons.1 hm with rfl | hm
    · exact hpage.1 ▸ List.mem_cons_self
    · exact List.mem_cons_of_mem _ (ih hm)

namespace PageMap

theorem map_fst_entries (pages : List (String × Option Value)) :
    (entries pages).map Prod.fst = pages.map Prod.fst := by
  rw [entries, List.map_map]
  rfl

theorem mem_ofPages_iff (hids : (pages.map Prod.fst).Nodup) {id : String} {entry : PageEntry} :
    (id, entry) ∈ (ofPages pages).toList ↔
      ∃ route, (id, route) ∈ pages ∧ entry = ⟨route.bind nonNull?⟩ := by
  rw [ofPages, Text.Ordered.mem_ofList_iff_of_nodup (map_fst_entries pages ▸ hids), entries,
    List.mem_map]
  constructor
  · rintro ⟨⟨_, route⟩, hpage, heq⟩
    obtain ⟨rfl, rfl⟩ := Prod.mk.inj heq
    exact ⟨route, hpage, rfl⟩
  · rintro ⟨route, hpage, rfl⟩
    exact ⟨(id, route), hpage, rfl⟩

/-- Neither the order of the pages nor that of their members makes a difference. -/
theorem ofValue?_of_lists (hids : (pages.map Prod.fst).Nodup) (h : Lists pages members) :
    PageMap.ofValue? (.object members) = some (ofPages pages) := by
  obtain ⟨found, hmap, hperm⟩ := h.mapM_eq
  have hnodup : ((entries pages).map Prod.fst).Nodup := map_fst_entries pages ▸ hids
  rw [PageMap.ofValue?, hmap, Option.map_some, ofPages, Option.some_inj]
  apply Text.Ordered.eq_of_mem_iff
  intro x
  rw [Text.Ordered.mem_ofList_iff_of_nodup ((hperm.map Prod.fst).nodup_iff.2 hnodup),
    Text.Ordered.mem_ofList_iff_of_nodup hnodup, hperm.mem_iff]

/-- The form with a key is recognised, and where there is no such key it is not mistaken. -/
theorem orElse_ofValue? (hids : (pages.map Prod.fst).Nodup) (hname : "pages" ∉ pages.map Prod.fst)
    (h : IsRegistry pages v) :
    (ofWrapped? v).orElse (fun _ => PageMap.ofValue? v) = some (ofPages pages) := by
  cases h with
  | @bare members h =>
    have hnone : ∀ m ∈ members, m.1 ≠ "pages" := by
      rintro m hm heq
      exact hname (heq ▸ h.mem_ids hm)
    rw [ofWrapped?, valuesUnder_eq_nil hnone]
    exact ofValue?_of_lists hids h
  | wrapped h hmembers =>
    rw [ofWrapped?, hmembers.valuesUnder_eq]
    dsimp only [Option.toList]
    rw [ofValue?_of_lists hids h]
    rfl

theorem parse_eq_ok (hids : (pages.map Prod.fst).Nodup) (hname : "pages" ∉ pages.map Prod.fst)
    (h : IsRegistry pages v) (hdepth : v.depth ≤ Json.depthLimit) (hfits : v.Fits)
    {content : String} (hcontent : Json.SpellsPadded v content.toList) :
    PageMap.parse content = .ok (ofPages pages) := by
  obtain ⟨rest, hread, hend⟩ := (Json.readFirst_cases hcontent hdepth).1 hfits
  rw [PageMap.parse, hread]
  simp only [Except.mapError, bind, Except.bind, orElse_ofValue? hids hname h, hend]

end PageMap

theorem PageMap.exists_parse_error (hdepth : v.depth ≤ Json.depthLimit) (hlarge : ¬ v.Fits)
    {content : String} (hcontent : Json.SpellsPadded v content.toList) :
    ∃ e, PageMap.parse content = .error (.syntaxError e) ∧ e.fault = .numberOutOfRange := by
  obtain ⟨e, hread, hfault⟩ := (Json.readFirst_cases hcontent hdepth).2 hlarge
  refine ⟨e, ?_, hfault⟩
  rw [PageMap.parse, hread]
  rfl

theorem routeText?_eq (route : Option Value) :
    (⟨route.bind nonNull?⟩ : PageEntry).routeText? = route.bind Value.string? := by
  cases route with
  | none => rfl
  | some v => cases v <;> rfl

namespace PageMap

/-- The ids of the pages with a route text, and the texts. -/
def routeTexts (map : PageMap) : List (String × String) :=
  map.toList.filterMap fun (id, entry) => entry.routeText?.map (id, ·)

theorem routes_eq_map (map : PageMap) :
    map.routes = map.routeTexts.map fun page => RawRoute.ofHost page.2 := by
  rw [routes, routeTexts, List.map_filterMap]
  congr 1
  funext page
  rw [Option.map_map]
  rfl

theorem increasing_routeTexts (map : PageMap) :
    map.routeTexts.Pairwise fun a b => Form.utf8Bytes a.1 < Form.utf8Bytes b.1 := by
  refine List.Pairwise.filterMap _ (fun a b hlt c hc d hd => ?_) map.increasing
  obtain ⟨_, -, rfl⟩ := Option.map_eq_some_iff.1 hc
  obtain ⟨_, -, rfl⟩ := Option.map_eq_some_iff.1 hd
  exact Form.utf8Bytes_lt_of_lt hlt

theorem mem_routeTexts_iff (hids : (pages.map Prod.fst).Nodup) {id text : String} :
    (id, text) ∈ (ofPages pages).routeTexts ↔ (id, some (.string text)) ∈ pages := by
  have hentry : (id, text) ∈ (ofPages pages).routeTexts ↔
      ∃ entry, (id, entry) ∈ (ofPages pages).toList ∧ entry.routeText? = some text := by
    simp only [routeTexts, List.mem_filterMap, Option.map_eq_some_iff, Prod.exists, Prod.mk.injEq]
    grind
  rw [hentry]
  simp only [mem_ofPages_iff hids]
  constructor
  · rintro ⟨_, ⟨route, hpage, rfl⟩, htext⟩
    rw [routeText?_eq, Option.bind_eq_some_iff] at htext
    obtain ⟨v, rfl, hv⟩ := htext
    cases v with
    | string s => exact Option.some.inj hv ▸ hpage
    | _ => cases hv
  · intro hpage
    exact ⟨_, ⟨_, hpage, rfl⟩, rfl⟩

end PageMap

/-- All texts of the pages give one page map, in either form and in any order, and only a number
that does not fit can prevent it. The map has the ids and the route texts of the pages, and one route
in byte order of the ids for each page with a route text. -/
theorem forms_agree (hids : (pages.map Prod.fst).Nodup) (hname : "pages" ∉ pages.map Prod.fst) :
    ∃ map : PageMap,
      (∀ v content, IsRegistry pages v → v.depth ≤ Json.depthLimit →
        Json.SpellsPadded v content.toList →
        (v.Fits → PageMap.parse content = .ok map) ∧
        (¬ v.Fits → ∃ e, PageMap.parse content = .error (.syntaxError e) ∧
          e.fault = .numberOutOfRange)) ∧
      (∀ id text?, (∃ entry, (id, entry) ∈ map.toList ∧ entry.routeText? = text?) ↔
        ∃ route, (id, route) ∈ pages ∧ route.bind Value.string? = text?) ∧
      ∃ named : List (String × String),
        (named.Pairwise fun a b => Form.utf8Bytes a.1 < Form.utf8Bytes b.1) ∧
        (∀ id text, (id, text) ∈ named ↔ (id, some (.string text)) ∈ pages) ∧
        map.routes = named.map fun page => RawRoute.ofHost page.2 := by
  refine ⟨.ofPages pages, ?_, ?_, PageMap.routeTexts (.ofPages pages),
    PageMap.increasing_routeTexts _, fun _ _ => PageMap.mem_routeTexts_iff hids,
    PageMap.routes_eq_map _⟩
  · intro v content h hdepth hcontent
    exact ⟨fun hfits => PageMap.parse_eq_ok hids hname h hdepth hfits hcontent,
      fun hlarge => PageMap.exists_parse_error hdepth hlarge hcontent⟩
  · intro id text?
    simp only [PageMap.mem_ofPages_iff hids]
    constructor
    · rintro ⟨_, ⟨route, hpage, rfl⟩, rfl⟩
      exact ⟨route, hpage, (routeText?_eq route).symm⟩
    · rintro ⟨route, hpage, rfl⟩
      exact ⟨_, ⟨route, hpage, rfl⟩, routeText?_eq route⟩

/-- Two pages in the form of a whole file, one of them without a route. -/
def guide : Value :=
  .object [("/b", .object [("route", .string "/docs/*")]),
    ("/a", .object [("size", .number "1.5e3")])]

/-- The same pages under the key, in another order and beside other members. -/
def guideUnderKey : Value :=
  .object [("version", .array [.null, .bool true]),
    ("pages", .object [("/a", .object []),
      ("/b", .object [("title", .null), ("route", .string "/docs/*")])])]

theorem isNumeral_size : Json.IsNumeral "1.5e3" :=
  ⟨⟨[], ['1'], ['5'],
    some ⟨'e', [], ['3'], by decide, by decide, by decide, List.all_eq_true.1 rfl⟩, by decide,
    by decide, List.all_eq_true.1 rfl, by decide, List.all_eq_true.1 rfl⟩, by decide⟩

theorem forms_agree_guide :
    let pages : List (String × Option Value) := [("/a", none), ("/b", some (.string "/docs/*"))]
    let content := " \x7b\"/b\":\x7b\"route\":\"/docs/*\"\x7d,\"/a\":\x7b\"size\":1.5e3\x7d\x7d\n"
    let contentUnderKey := "\x7b\"version\":[null,true]," ++
      "\"pages\":\x7b\"/a\":\x7b\x7d,\"/b\":\x7b\"title\":null,\"route\":\"/docs/*\"\x7d\x7d\x7d"
    (pages.map Prod.fst).Nodup ∧ "pages" ∉ pages.map Prod.fst ∧
    IsRegistry pages guide ∧ IsRegistry pages guideUnderKey ∧
    Json.SpellsPadded guide content.toList ∧
    Json.SpellsPadded guideUnderKey contentUnderKey.toList ∧
    ∃ map, PageMap.parse content = .ok map ∧ PageMap.parse contentUnderKey = .ok map ∧
      ∃ entry, ("/b", entry) ∈ map.toList ∧ entry.routeText? = some "/docs/*" := by
  intro pages content contentUnderKey
  have hids : (pages.map Prod.fst).Nodup := by decide
  have hname : "pages" ∉ pages.map Prod.fst := by decide
  have hguide : IsRegistry pages guide := by
    refine .bare ⟨[("/b", some (.string "/docs/*")), ("/a", none)], .swap _ _ _, ?_⟩
    refine .cons ⟨rfl, _, rfl, [], .refl _, by simp⟩ (.cons ⟨rfl, _, rfl, ?_⟩ .nil)
    exact ⟨[("size", .number "1.5e3")], .refl _, by simp⟩
  have hunder : IsRegistry pages guideUnderKey := by
    have hlists : Lists pages [("/a", .object []),
        ("/b", .object [("title", .null), ("route", .string "/docs/*")])] := by
      refine ⟨pages, .refl _, .cons ⟨rfl, _, rfl, [], .refl _, by simp⟩ (.cons ?_ .nil)⟩
      exact ⟨rfl, _, rfl, [("title", .null)], .swap _ _ _, by simp⟩
    exact .wrapped hlists ⟨[("version", .array [.null, .bool true])], .swap _ _ _, by simp⟩
  have hspells : Json.SpellsPadded guide content.toList := by
    have hcompact := Json.spells_compact guide (by simpa [guide, Json.Value.numbers,
      Json.membersNumbers] using isNumeral_size)
    have hcontent : content.toList = [' '] ++ guide.compact.toList ++ ['\n'] := by decide +kernel
    exact hcontent ▸ .padded (by simp [Json.Blanks]) hcompact (by simp [Json.Blanks])
  have hspells' : Json.SpellsPadded guideUnderKey contentUnderKey.toList := by
    have hcompact := Json.spells_compact guideUnderKey (by simp [guideUnderKey, Json.Value.numbers,
      Json.membersNumbers, Json.itemsNumbers])
    have hcontent : contentUnderKey.toList = guideUnderKey.compact.toList := by decide +kernel
    exact hcontent ▸ hcompact.padded
  refine ⟨hids, hname, hguide, hunder, hspells, hspells', ?_⟩
  obtain ⟨map, hparse, hentries, -⟩ := forms_agree hids hname
  refine ⟨map, (hparse _ _ hguide (by decide) hspells).1 (by decide +kernel),
    (hparse _ _ hunder (by decide) hspells').1 (by decide +kernel), ?_⟩
  exact (hentries "/b" _).2 ⟨_, List.mem_cons_of_mem _ List.mem_cons_self, rfl⟩

/-- A number between the two largest doubles. -/
def brink : Json.Numeral :=
  ⟨[], "17976931348623157081".toList, [],
    some ⟨'e', [], "289".toList, by decide, by decide, by decide, List.all_eq_true.1 rfl⟩, by decide,
    by decide, List.all_eq_true.1 rfl, by decide, List.all_eq_true.1 rfl⟩

def brinkEntry : Value :=
  .object [("/a", .object [("route", .string "/x"), ("size", .number "17976931348623157081e289")])]

def brinkContent : String :=
  "\x7b\"/a\":\x7b\"route\":\"/x\",\"size\":17976931348623157081e289\x7d\x7d"

/-- The number is in the range of doubles, but its digits and its power of ten are rounded up before
they are multiplied. -/
theorem not_parse_brink :
    let pages : List (String × Option Value) := [("/a", some (.string "/x"))]
    (pages.map Prod.fst).Nodup ∧ "pages" ∉ pages.map Prod.fst ∧ IsRegistry pages brinkEntry ∧
    brinkEntry.depth = 2 ∧ Json.SpellsPadded brinkEntry brinkContent.toList ∧
    brinkEntry.numbers = [String.ofList brink.text] ∧ brink.InRange ∧
    PageMap.parse brinkContent = .error (.syntaxError ⟨.numberOutOfRange, 1, 52⟩) := by
  refine ⟨by decide, by decide, ?_, by decide, ?_, by decide +kernel, by decide +kernel, ?_⟩
  · refine .bare ⟨_, .refl _, .cons ⟨rfl, _, rfl, ?_⟩ .nil⟩
    exact ⟨[("size", .number "17976931348623157081e289")], .refl _, by simp⟩
  · have hnumeral : Json.IsNumeral "17976931348623157081e289" := ⟨brink, by decide +kernel⟩
    have hcompact := Json.spells_compact brinkEntry (by simpa [brinkEntry, Json.Value.numbers,
      Json.membersNumbers] using hnumeral)
    have hcontent : brinkEntry.compact = brinkContent := by decide +kernel
    exact hcontent ▸ hcompact.padded
  · have hfault : (match Json.readFirst brinkContent.toList with
        | .error e => decide (e = ⟨.numberOutOfRange, 1, 52⟩)
        | .ok _ => false) = true := by decide +kernel
    rw [PageMap.parse]
    split at hfault
    · next e hread =>
      rw [hread, of_decide_eq_true hfault]
      rfl
    · cases hfault

end RouteTree.Registry
