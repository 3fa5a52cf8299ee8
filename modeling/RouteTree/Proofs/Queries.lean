import Mathlib.Data.List.TakeWhile
import RouteTree.Form.Query
import RouteTree.Proofs.Building
import RouteTree.Proofs.Pieces

/-! The query of a URL is read back. The path in front of it is not escaped and may hold question
marks itself, but a query holds none, so it begins behind the last one; and each byte of its names
and values is told from the separators around it. -/
namespace RouteTree.Form

theorem hexValue?_hexDigit : ∀ n < 16, Json.hexValue? (hexDigit n) = some n := by
  decide

theorem isPlain_hexDigit : ∀ n < 16, isPlain (hexDigit n) := by
  decide

theorem unescape_cons {c : Char} (hplus : c ≠ '+') (hpercent : c ≠ '%') (rest : List Char) :
    unescape (c :: rest) = String.utf8EncodeChar c ++ unescape rest := by
  rw [unescape]
  · exact hplus
  · rintro _ _ _ rfl
    exact absurd rfl hpercent

theorem utf8EncodeChar_of_isPlain : ∀ n < 256, isPlain (Char.ofNat n) →
    String.utf8EncodeChar (Char.ofNat n) = [UInt8.ofNat n] ∧
      Char.ofNat n ≠ '+' ∧ Char.ofNat n ≠ '%' := by
  decide +kernel

/-- A byte is read back, whatever follows it. -/
theorem unescape_encodeByte (b : UInt8) (rest : List Char) :
    unescape (encodeByte b ++ rest) = b :: unescape rest := by
  have hb := b.toNat_lt
  rw [encodeByte]
  -- the plus sign is not plain, so a plus sign in the text is no blank that was written
  split
  · next hplain =>
    obtain ⟨hbytes, hplus, hpercent⟩ := utf8EncodeChar_of_isPlain b.toNat hb hplain
    rw [List.singleton_append, unescape_cons hplus hpercent, hbytes, UInt8.ofNat_toNat]
    rfl
  split
  · next hblank =>
    rw [hblank]
    rfl
  · have hhigh := hexValue?_hexDigit (b.toNat / 16) (by omega)
    have hlow := hexValue?_hexDigit (b.toNat % 16) (by omega)
    simp only [List.cons_append, List.nil_append, unescape, hhigh, hlow, Nat.div_add_mod,
      UInt8.ofNat_toNat]

theorem unescape_flatMap_encodeByte (bytes : List UInt8) :
    unescape (bytes.flatMap encodeByte) = bytes := by
  induction bytes with
  | nil => rfl
  | cons b bytes ih => rw [List.flatMap_cons, unescape_encodeByte, ih]

theorem decode?_encode (s : String) : decode? (encode s).toList = some s := by
  have hbytes : (utf8Bytes s).toByteArray = s.toByteArray := String.utf8Encode_toList
  rw [decode?, encode, String.toList_ofList, unescape_flatMap_encodeByte, hbytes, String.fromUTF8?,
    dif_pos s.isValidUTF8]
  rfl

theorem mem_encode {s : String} {c : Char} (h : c ∈ (encode s).toList) :
    isPlain c ∨ c = '+' ∨ c = '%' := by
  rw [encode, String.toList_ofList, List.mem_flatMap] at h
  obtain ⟨b, -, hc⟩ := h
  have hb := b.toNat_lt
  rw [encodeByte] at hc
  split at hc
  · next hplain =>
    rw [List.mem_singleton.1 hc]
    exact .inl hplain
  split at hc
  · exact .inr (.inl (List.mem_singleton.1 hc))
  · simp only [List.mem_cons, List.not_mem_nil, or_false] at hc
    rcases hc with rfl | rfl | rfl
    · exact .inr (.inr rfl)
    · exact .inl (isPlain_hexDigit _ (by omega))
    · exact .inl (isPlain_hexDigit _ (by omega))

theorem ampersand_not_mem_encode (s : String) : '&' ∉ (encode s).toList :=
  fun h => absurd (mem_encode h) (by decide)

theorem equals_not_mem_encode (s : String) : '=' ∉ (encode s).toList :=
  fun h => absurd (mem_encode h) (by decide)

theorem question_not_mem_encode (s : String) : '?' ∉ (encode s).toList :=
  fun h => absurd (mem_encode h) (by decide)

def written (pair : String × String) : String := encode pair.1 ++ "=" ++ encode pair.2

theorem serialize_eq_join (pairs : List (String × String)) :
    serialize pairs = Text.join "&" (pairs.map written) :=
  rfl

theorem toList_written (pair : String × String) :
    (written pair).toList = (encode pair.1).toList ++ '=' :: (encode pair.2).toList := by
  simp [written]

/-- A pair is cut at its first equals sign, and none stands in its name. -/
theorem readPair?_written (pair : String × String) : readPair? (written pair).toList = some pair := by
  have hname : ∀ c ∈ (encode pair.1).toList, decide (c ≠ '=') := by
    intro c hc
    exact decide_eq_true fun heq => equals_not_mem_encode pair.1 (heq ▸ hc)
  rw [readPair?, toList_written, List.takeWhile_append_of_pos hname,
    List.dropWhile_append_of_pos hname]
  simp [decode?_encode]

theorem mapM_readPair? (pairs : List (String × String)) :
    ((pairs.map written).map String.toList).mapM readPair? = some pairs := by
  induction pairs with
  | nil => rfl
  | cons pair rest ih =>
    rw [List.map_cons, List.map_cons, List.mapM_cons, readPair?_written, ih]
    rfl

/-- Written pairs are read back, and no two of them run together. -/
theorem parse?_serialize (pairs : List (String × String)) :
    parse? (serialize pairs) = some pairs := by
  by_cases hpairs : pairs = []
  · rw [hpairs]
    rfl
  have hampersand : ∀ part ∈ pairs.map written, '&' ∉ part.toList := by
    intro part hpart
    obtain ⟨pair, -, rfl⟩ := List.mem_map.1 hpart
    simp [toList_written, ampersand_not_mem_encode]
  have hfilled : ∀ part ∈ (pairs.map written).map String.toList, decide (part ≠ []) := by
    intro part hpart
    obtain ⟨text, htext, rfl⟩ := List.mem_map.1 hpart
    obtain ⟨pair, -, rfl⟩ := List.mem_map.1 htext
    simp [toList_written]
  rw [parse?, serialize_eq_join, Text.splitOn_join rfl (mt List.map_eq_nil_iff.1 hpairs) hampersand,
    List.filter_eq_self.2 hfilled, mapM_readPair?]

theorem question_not_mem_serialize (pairs : List (String × String)) :
    '?' ∉ (serialize pairs).toList := by
  rw [serialize_eq_join]
  refine Text.not_mem_join (by decide) fun part hpart => ?_
  obtain ⟨pair, -, rfl⟩ := List.mem_map.1 hpart
  simp [toList_written, question_not_mem_encode]

theorem serialize_eq_empty_iff {pairs : List (String × String)} :
    serialize pairs = "" ↔ pairs = [] := by
  constructor
  · intro h
    have hread := parse?_serialize pairs
    rw [h] at hread
    exact (Option.some.inj hread).symm
  · rintro rfl
    rfl

/-- A URL is cut at a question mark behind which there is no other. -/
theorem cutQuery?_eq_some_iff {url path query : String} :
    cutQuery? url = some (path, query) ↔ url = path ++ "?" ++ query ∧ '?' ∉ query.toList := by
  constructor
  · intro h
    have hparts := List.takeWhile_append_dropWhile (p := (· ≠ '?')) (l := url.toList.reverse)
    rw [cutQuery?] at h
    split at h
    · cases h
    · next c front hfront =>
      cases h
      have hc := List.head?_dropWhile_not (· ≠ '?') url.toList.reverse
      rw [hfront] at hc
      obtain rfl : c = '?' := by simpa using hc
      have hurl := congrArg List.reverse (hfront ▸ hparts)
      rw [List.reverse_append, List.reverse_cons, List.reverse_reverse] at hurl
      refine ⟨String.toList_inj.1 (hurl.symm.trans ?_), fun hmem => ?_⟩
      · simp
      · rw [String.toList_ofList, List.mem_reverse] at hmem
        simpa using List.mem_takeWhile_imp hmem
  · rintro ⟨rfl, hquery⟩
    have hurl : (path ++ "?" ++ query).toList.reverse =
        query.toList.reverse ++ '?' :: path.toList.reverse := by simp
    have hbehind : ∀ c ∈ query.toList.reverse, decide (c ≠ '?') := by
      intro c hc
      exact decide_eq_true fun heq => hquery (heq ▸ List.mem_reverse.1 hc)
    rw [cutQuery?, hurl, List.dropWhile_append_of_pos hbehind, List.takeWhile_append_of_pos hbehind]
    simp

end RouteTree.Form

namespace RouteTree.Route

variable {r : Route} {params : Params} {search : List (String × String)}

theorem buildWithSearch_of_ne_nil (h : search ≠ []) :
    r.buildWithSearch params search =
      (r.build params).map (· ++ "?" ++ Form.serialize search) := by
  rw [buildWithSearch]
  congr 1
  funext url
  split
  · next hempty => exact absurd (Form.serialize_eq_empty_iff.1 hempty) h
  · rfl

/-- A query does not decide whether a URL is built nor what is reported instead, and no pairs leave
the URL as it is. Of a URL with pairs, what stands before the last question mark is the URL without
them, and what stands behind it is read as the pairs in their order. -/
theorem query_read_back (r : Route) (params : Params) (search : List (String × String)) :
    (∀ e, r.buildWithSearch params search = .error e ↔ r.build params = .error e) ∧
    r.buildWithSearch params [] = r.build params ∧
    (search ≠ [] → ∀ url, r.buildWithSearch params search = .ok url →
      ∃ path query, Form.cutQuery? url = some (path, query) ∧ r.build params = .ok path ∧
        Form.parse? query = some search) := by
  refine ⟨fun e => map_eq_error_iff, ?_, fun hsearch url hurl => ?_⟩
  · cases hbuild : r.build params <;> rw [buildWithSearch, hbuild] <;> rfl
  · rw [buildWithSearch_of_ne_nil hsearch, map_eq_ok_iff] at hurl
    obtain ⟨path, hpath, rfl⟩ := hurl
    exact ⟨path, Form.serialize search,
      Form.cutQuery?_eq_some_iff.2 ⟨rfl, Form.question_not_mem_serialize search⟩, hpath,
      Form.parse?_serialize search⟩

/-- A path that looks like a query, and pairs with empty names, separators and characters of more
than one byte. -/
theorem query_read_back_search :
    let faq := (parse "/faq?a=b&c").toOption.getD .root
    let search := [("", ""), ("q?", "a b+é&="), ("", "")]
    let url := "/faq?a=b&c?=&q%3F=a+b%2B%C3%A9%26%3D&="
    search ≠ [] ∧ faq.buildWithSearch .none search = .ok url ∧
    ∃ path query, Form.cutQuery? url = some (path, query) ∧ faq.build .none = .ok path ∧
      Form.parse? query = some search := by
  intro faq search url
  have hurl : faq.buildWithSearch .none search = .ok url := eq_ok_of_toOption (by decide +kernel)
  exact ⟨by decide, hurl, (query_read_back faq .none search).2.2 (by decide) url hurl⟩

end RouteTree.Route
