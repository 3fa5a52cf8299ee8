import RouteTree.Json.Reader
import RouteTree.Proofs.JsonText

/-! Reading strings and numbers of JSON text. Whatever groups are open and whatever follows, the
reader gets over a spelling and goes on with what it spells. -/
namespace RouteTree.Json

variable {stack : List Frame} {rest cs t : List Char} {c : Char} {v : Value}

/-- What a step leads to, and the reading of what follows from there. -/
def Step.run (s : Step) (rest : List Char) : Except (SyntaxFault × List Char) (Value × List Char) :=
  match s with
  | .next state => Json.run state rest
  | .whole v => .ok (v, rest)
  | .wholeBefore v => .ok (v, rest)

theorem run_cons_of_next {state state' : State} (h : step state c = .ok (.next state')) :
    run state (c :: rest) = run state' rest := by
  rw [run, h]

theorem finish_ne_wholeBefore (stack : List Frame) (v u : Value) :
    finish stack v ≠ .wholeBefore u := by
  unfold finish
  split <;> simp

theorem run_cons_of_finish {state : State} (h : step state c = .ok (finish stack v)) :
    run state (c :: rest) = (finish stack v).run rest := by
  rw [run, h]
  cases hfinish : finish stack v with
  | next state => rfl
  | whole u => rfl
  | wholeBefore u => exact absurd hfinish (finish_ne_wholeBefore stack v u)

/-! ### Blanks -/

theorem isBlank_of_blanks (h : Blanks cs) (hc : c ∈ cs) : isBlank c := by
  have hmem := h c hc
  simp only [List.mem_cons, List.not_mem_nil, or_false] at hmem
  rcases hmem with rfl | rfl | rfl | rfl <;> rfl

/-- The modes in which blanks do not matter. -/
def Mode.IsBetween (mode : Mode) : Prop :=
  ∀ stack c, isBlank c → step ⟨stack, mode⟩ c = .ok (.next ⟨stack, mode⟩)

theorem run_blanks {mode : Mode} (hmode : mode.IsBetween) {blanks : List Char}
    (h : Blanks blanks) : run ⟨stack, mode⟩ (blanks ++ rest) = run ⟨stack, mode⟩ rest := by
  induction blanks with
  | nil => rfl
  | cons c blanks ih =>
    rw [List.cons_append, run_cons_of_next (hmode _ _ (isBlank_of_blanks h List.mem_cons_self)),
      ih fun d hd => h d (List.mem_cons_of_mem c hd)]

/-- The modes in which a value is due, maybe after blanks. -/
inductive Mode.AwaitsValue : Mode → Prop
  | value : AwaitsValue .value
  | itemOrEnd : AwaitsValue .itemOrEnd
  | item : AwaitsValue .item

inductive Mode.AwaitsName : Mode → Prop
  | keyOrEnd : AwaitsName .keyOrEnd
  | key : AwaitsName .key

theorem Mode.AwaitsValue.isBetween {mode : Mode} (h : mode.AwaitsValue) : mode.IsBetween := by
  intro stack c hblank
  have hne : c ≠ ']' := by
    rintro rfl
    cases hblank
  cases h with
  | value => simp [step, startValue, hblank]
  | itemOrEnd => simp [step, hne, hblank]
  | item => simp [step, hne, hblank]

theorem Mode.AwaitsName.isBetween {mode : Mode} (h : mode.AwaitsName) : mode.IsBetween := by
  intro stack c hblank
  cases h with
  | keyOrEnd => simp [step, hblank]
  | key => simp [step, hblank]

theorem isBetween_colon (name : String) : Mode.IsBetween (.colon name) := by
  intro stack c hblank
  simp [step, hblank]

theorem isBetween_commaOrEnd : Mode.IsBetween .commaOrEnd := by
  intro stack c hblank
  simp [step, afterValue, hblank]

/-! ### Strings -/

/-- A mode for each part of a string, and where its closing quote leads. -/
structure ReadsString (stack : List Frame) (mode : StringPart → List Char → Mode)
    (closed : List Char → Step) : Prop where
  step (part : StringPart) (done : List Char) (c : Char) :
    Json.step ⟨stack, mode part done⟩ c = (stepString part done c).map fun
      | .next part done => .next ⟨stack, mode part done⟩
      | .closed => closed done

theorem readsString_value (stack : List Frame) : ReadsString stack .stringValue
    fun done => finish stack (.string (String.ofList done.reverse)) where
  step _ _ _ := rfl

theorem readsString_key (stack : List Frame) : ReadsString stack .stringKey
    fun done => .next ⟨stack, .colon (String.ofList done.reverse)⟩ where
  step _ _ _ := rfl

theorem hexValue?_of_spellsDigit {n : Nat} (h : SpellsDigit n c) : hexValue? c = some n := by
  have hread {digits : List Char}
      (hdigits : ∀ n < digits.length, digits[n]?.bind hexValue? = some n)
      (hc : digits[n]? = some c) : hexValue? c = some n := by
    obtain ⟨hn, -⟩ := List.getElem?_eq_some_iff.1 hc
    rw [← hdigits n hn, hc, Option.bind_some]
  rcases h with h | h
  · exact hread (by decide) h
  · exact hread (by decide) h

theorem simpleEscape?_of_mem {e : Char} (h : (e, c) ∈ escapes) :
    e ≠ 'u' ∧ simpleEscape? e = some c := by
  have hescapes : ∀ pair ∈ escapes, pair.1 ≠ 'u' ∧ simpleEscape? pair.1 = some pair.2 := by decide
  exact hescapes _ h

/-- The numbers of the surrogates are no characters. -/
theorem toNat_cases (c : Char) :
    c.toNat < 0xD800 ∨ 0xE000 ≤ c.toNat ∧ c.toNat < 0x110000 := by
  have hvalid := c.valid
  simp only [UInt32.isValidChar, Nat.isValidChar] at hvalid
  simp only [Char.toNat]
  omega

theorem isLeading_toNat (c : Char) : isLeading c.toNat = false := by
  have hcases := toNat_cases c
  simp only [isLeading, Bool.and_eq_false_iff, decide_eq_false_iff_not]
  omega

theorem isTrailing_toNat (c : Char) : isTrailing c.toNat = false := by
  have hcases := toNat_cases c
  simp only [isTrailing, Bool.and_eq_false_iff, decide_eq_false_iff_not]
  omega

theorem stepString_backslash (done : List Char) :
    stepString .plain done '\\' = .ok (.next .escape done) := rfl

theorem stepString_escape_u (done : List Char) :
    stepString .escape done 'u' = .ok (.next (.unicode 0 4) done) := rfl

theorem stepString_partner (leading : Nat) (done : List Char) :
    stepString (.partner leading) done '\\' = .ok (.next (.partnerEscape leading) done) := rfl

theorem stepString_partnerEscape (leading : Nat) (done : List Char) :
    stepString (.partnerEscape leading) done 'u' = .ok (.next (.partnerUnicode leading 0 4) done) :=
  rfl

theorem endUnicode_toNat (c : Char) (done : List Char) :
    endUnicode c.toNat done = .ok (.next .plain (c :: done)) := by
  rw [endUnicode, isLeading_toNat, isTrailing_toNat, Char.ofNat_toNat]
  rfl

theorem endUnicode_leading (h : 0x10000 ≤ c.toNat) (done : List Char) :
    endUnicode (0xD800 + (c.toNat - 0x10000) / 0x400) done =
      .ok (.next (.partner (0xD800 + (c.toNat - 0x10000) / 0x400)) done) := by
  have hcases := toNat_cases c
  have hleading : isLeading (0xD800 + (c.toNat - 0x10000) / 0x400) = true := by
    simp only [isLeading, Bool.and_eq_true, decide_eq_true_eq]
    omega
  rw [endUnicode, hleading]
  rfl

theorem endPartner_trailing (h : 0x10000 ≤ c.toNat) (done : List Char) :
    endPartner (0xD800 + (c.toNat - 0x10000) / 0x400) (0xDC00 + (c.toNat - 0x10000) % 0x400) done =
      .ok (.next .plain (c :: done)) := by
  have htrailing : isTrailing (0xDC00 + (c.toNat - 0x10000) % 0x400) = true := by
    simp only [isTrailing, Bool.and_eq_true, decide_eq_true_eq]
    omega
  have hcode : 0x10000 + (0xD800 + (c.toNat - 0x10000) / 0x400 - 0xD800) * 0x400 +
      (0xDC00 + (c.toNat - 0x10000) % 0x400 - 0xDC00) = c.toNat := by omega
  rw [endPartner, htrailing, if_pos rfl, hcode]
  dsimp only
  rw [Char.ofNat_toNat]

namespace ReadsString

variable {mode : StringPart → List Char → Mode} {closed : List Char → Step} {done : List Char}

section Reads

variable (h : ReadsString stack mode closed)

include h

theorem run_next {part part' : StringPart} {done done' : List Char}
    (hstep : stepString part done c = .ok (.next part' done')) :
    run ⟨stack, mode part done⟩ (c :: rest) = run ⟨stack, mode part' done'⟩ rest := by
  apply run_cons_of_next
  rw [h.step, hstep]
  rfl

theorem run_unit (part : Nat → Nat → StringPart) (ending : Nat → Except SyntaxFault StringStep)
    {part' : StringPart} {done' : List Char} {n : Nat} {ds : List Char}
    (hpart : ∀ value left c digit, hexValue? c = some digit →
      stepString (part value left) done c = if left ≤ 1 then ending (value * 16 + digit)
        else .ok (.next (part (value * 16 + digit) (left - 1)) done))
    (hds : SpellsUnit n ds) (hending : ending n = .ok (.next part' done')) :
    run ⟨stack, mode (part 0 4) done⟩ (ds ++ rest) = run ⟨stack, mode part' done'⟩ rest := by
  obtain ⟨ha, hb, hc, hd⟩ := hds
  have hn : (((0 * 16 + n / 4096) * 16 + n / 256 % 16) * 16 + n / 16 % 16) * 16 + n % 16 = n := by
    omega
  simp only [List.cons_append, List.nil_append]
  rw [h.run_next (hpart _ _ _ _ (hexValue?_of_spellsDigit ha)),
    h.run_next (hpart _ _ _ _ (hexValue?_of_spellsDigit hb)),
    h.run_next (hpart _ _ _ _ (hexValue?_of_spellsDigit hc)),
    h.run_next ((hpart _ _ _ _ (hexValue?_of_spellsDigit hd)).trans ?_)]
  rw [if_pos (by decide), hn, hending]

theorem run_unicode {part' : StringPart} {done' : List Char} {n : Nat} {ds : List Char}
    (hds : SpellsUnit n ds) (hending : endUnicode n done = .ok (.next part' done')) :
    run ⟨stack, mode (.unicode 0 4) done⟩ (ds ++ rest) = run ⟨stack, mode part' done'⟩ rest := by
  refine h.run_unit .unicode (endUnicode · done) (fun value left c digit hdigit => ?_) hds hending
  simp only [stepString, hdigit]

theorem run_partner {leading : Nat} {part' : StringPart} {done' : List Char} {n : Nat}
    {ds : List Char} (hds : SpellsUnit n ds)
    (hending : endPartner leading n done = .ok (.next part' done')) :
    run ⟨stack, mode (.partnerUnicode leading 0 4) done⟩ (ds ++ rest) =
      run ⟨stack, mode part' done'⟩ rest := by
  refine h.run_unit (.partnerUnicode leading) (endPartner leading · done)
    (fun value left c digit hdigit => ?_) hds hending
  simp only [stepString, hdigit]

theorem run_char (ht : SpellsChar c t) :
    run ⟨stack, mode .plain done⟩ (t ++ rest) = run ⟨stack, mode .plain (c :: done)⟩ rest := by
  cases ht with
  | plain hcontrol hquote hslash =>
    apply h.run_next
    rw [stepString, if_neg hquote, if_neg hslash, if_neg (by omega)]
  | escape he =>
    obtain ⟨hu, hescape⟩ := simpleEscape?_of_mem he
    rw [List.cons_append, h.run_next (stepString_backslash done), List.cons_append]
    apply h.run_next
    rw [stepString, if_neg hu, hescape]
  | unicode hds =>
    rw [List.cons_append, h.run_next (stepString_backslash done), List.cons_append,
      h.run_next (stepString_escape_u done), h.run_unicode hds (endUnicode_toNat c done)]
  | pair hlarge hhigh hlow =>
    rw [List.append_assoc, List.cons_append, h.run_next (stepString_backslash done),
      List.cons_append, h.run_next (stepString_escape_u done),
      h.run_unicode hhigh (endUnicode_leading hlarge done),
      List.cons_append, h.run_next (stepString_partner _ done), List.cons_append,
      h.run_next (stepString_partnerEscape _ done),
      h.run_partner hlow (endPartner_trailing hlarge done)]

theorem run_chars {cs : List Char} (ht : SpellsChars cs t) :
    run ⟨stack, mode .plain done⟩ (t ++ rest) =
      run ⟨stack, mode .plain (cs.reverse ++ done)⟩ rest := by
  induction ht generalizing done with
  | nil => rfl
  | cons hc hcs ih => rw [List.append_assoc, h.run_char hc, ih, List.reverse_cons,
      List.append_assoc, List.singleton_append]

theorem step_quote : Json.step ⟨stack, mode .plain done⟩ '"' = .ok (closed done) := by
  rw [h.step]
  rfl

end Reads

end ReadsString

theorem run_string {s : String} (h : SpellsString s t) :
    run ⟨stack, .value⟩ (t ++ rest) = (finish stack (.string s)).run rest := by
  obtain ⟨hchars⟩ := h
  have hstring := readsString_value stack
  have hopen : step ⟨stack, .value⟩ '"' = .ok (.next ⟨stack, .stringValue .plain []⟩) := rfl
  rw [List.append_assoc, List.cons_append, run_cons_of_next hopen, hstring.run_chars hchars,
    List.singleton_append, run_cons_of_finish hstring.step_quote]
  simp

theorem run_name {s : String} {mode : Mode} (hmode : mode.AwaitsName) (h : SpellsString s t) :
    run ⟨stack, mode⟩ (t ++ rest) = run ⟨stack, .colon s⟩ rest := by
  obtain ⟨hchars⟩ := h
  have hstring := readsString_key stack
  have hopen : step ⟨stack, mode⟩ '"' = .ok (.next ⟨stack, .stringKey .plain []⟩) := by
    cases hmode <;> rfl
  rw [List.append_assoc, List.cons_append, run_cons_of_next hopen, hstring.run_chars hchars,
    List.singleton_append, run_cons_of_next hstring.step_quote]
  simp

/-! ### Numbers -/

namespace NumberPart

variable {part part' : NumberPart} {ds : List Char}

theorem foldlM_digits (hstay : ∀ c, c.isDigit → part.next? c = some part)
    (hds : ∀ c ∈ ds, c.isDigit) : ds.foldlM next? part = some part := by
  induction ds with
  | nil => rfl
  | cons c ds ih =>
    rw [List.foldlM_cons, hstay c (hds c List.mem_cons_self)]
    exact ih fun d hd => hds d (List.mem_cons_of_mem c hd)

theorem foldlM_due (hfirst : ∀ c, c.isDigit → part.next? c = some part')
    (hstay : ∀ c, c.isDigit → part'.next? c = some part') (hne : ds ≠ [])
    (hds : ∀ c ∈ ds, c.isDigit) : ds.foldlM next? part = some part' := by
  cases ds with
  | nil => exact absurd rfl hne
  | cons c ds =>
    rw [List.foldlM_cons, hfirst c (hds c List.mem_cons_self)]
    exact foldlM_digits hstay fun d hd => hds d (List.mem_cons_of_mem c hd)

theorem foldlM_power (power : PowerOfTen) (h : part = zero ∨ part = integer ∨ part = fraction) :
    power.text.foldlM next? part = some exponentDigits := by
  have hmark : part.next? power.mark = some exponent := by
    have hmem := power.mark_mem
    simp only [List.mem_cons, List.not_mem_nil, or_false] at hmem
    rcases hmem with hmem | hmem <;> rw [hmem] <;> rcases h with rfl | rfl | rfl <;> rfl
  have hdigits (start : NumberPart) (hstart : start = exponent ∨ start = exponentSign) :
      power.digits.foldlM next? start = some exponentDigits := by
    refine foldlM_due (fun c hc => ?_) (fun c hc => by simp [next?, hc]) power.digits_ne power.isDigit
    rcases hstart with rfl | rfl <;> simp [next?, hc]
  rw [PowerOfTen.text, List.cons_append, List.foldlM_cons, hmark]
  change (power.sign ++ power.digits).foldlM next? exponent = _
  have hsign := power.sign_mem
  simp only [List.mem_cons, List.not_mem_nil, or_false] at hsign
  rcases hsign with hsign | hsign | hsign
  · rw [hsign]
    exact hdigits exponent (.inl rfl)
  · rw [hsign]
    exact hdigits exponentSign (.inr rfl)
  · rw [hsign]
    exact hdigits exponentSign (.inr rfl)

end NumberPart

namespace Numeral

variable (n : Numeral)

open NumberPart

/-- The digits before the point begin a number, and they may follow a sign. -/
theorem exists_whole : ∃ d ds, n.whole = d :: ds ∧ ∃ part, (part = zero ∨ part = integer) ∧
    first? d = some part ∧ minus.next? d = some part ∧ ds.foldlM next? part = some part := by
  obtain ⟨d, ds, hwhole⟩ := List.exists_cons_of_ne_nil n.whole_ne
  have hall : ∀ c ∈ d :: ds, c.isDigit := hwhole ▸ n.whole_isDigit
  refine ⟨d, ds, hwhole, ?_⟩
  by_cases hzero : d = '0'
  · have hds : ds = [] := by
      have halone := n.leading (by rw [hwhole, hzero]; rfl)
      rw [hwhole] at halone
      exact (List.cons.inj halone).2
    subst hzero hds
    exact ⟨zero, .inl rfl, rfl, rfl, rfl⟩
  · have hd : d.isDigit := hall d List.mem_cons_self
    have hminus : d ≠ '-' := by
      rintro rfl
      cases hd
    refine ⟨integer, .inr rfl, by simp [first?, hminus, hzero, hd], by simp [next?, hzero, hd], ?_⟩
    exact foldlM_digits (fun c hc => by simp [next?, hc]) fun c hc =>
      hall c (List.mem_cons_of_mem d hc)

theorem foldlM_decimals {part : NumberPart} (hpart : part = zero ∨ part = integer) :
    ∃ part', (part' = zero ∨ part' = integer ∨ part' = fraction) ∧
      (if n.decimals = [] then [] else '.' :: n.decimals).foldlM next? part = some part' := by
  split
  · refine ⟨part, ?_, rfl⟩
    rcases hpart with rfl | rfl
    · exact .inl rfl
    · exact .inr (.inl rfl)
  · next hne =>
    have hpoint : part.next? '.' = some point := by
      rcases hpart with rfl | rfl <;> rfl
    refine ⟨fraction, .inr (.inr rfl), ?_⟩
    rw [List.foldlM_cons, hpoint]
    exact foldlM_due (fun c hc => by simp [next?, hc]) (fun c hc => by simp [next?, hc]) hne
      n.decimals_isDigit

theorem foldlM_tail {part : NumberPart} (hpart : part = zero ∨ part = integer) :
    ∃ part', part'.isComplete ∧
      ((if n.decimals = [] then [] else '.' :: n.decimals) ++ n.power.elim [] PowerOfTen.text).foldlM
        next? part = some part' := by
  obtain ⟨part', hpart', hfold⟩ := n.foldlM_decimals hpart
  rw [List.foldlM_append, hfold]
  cases n.power with
  | none =>
    refine ⟨part', ?_, rfl⟩
    rcases hpart' with rfl | rfl | rfl <;> rfl
  | some power => exact ⟨exponentDigits, rfl, foldlM_power power hpart'⟩

/-- A number is read through, and it may end where it ends. -/
theorem exists_read : ∃ c cs, n.text = c :: cs ∧ ∃ part, first? c = some part ∧
    ∃ part', part'.isComplete ∧ cs.foldlM next? part = some part' := by
  obtain ⟨d, ds, hwhole, part, hpart, hfirst, hminus, hds⟩ := n.exists_whole
  obtain ⟨part', hpart', htail⟩ := n.foldlM_tail hpart
  have hsign := n.sign_mem
  simp only [List.mem_cons, List.not_mem_nil, or_false] at hsign
  rw [text, List.append_assoc, List.append_assoc, hwhole]
  generalize (if n.decimals = [] then [] else '.' :: n.decimals) ++
    n.power.elim [] PowerOfTen.text = tail at htail
  have hfold : (ds ++ tail).foldlM next? part = some part' := by
    rw [List.foldlM_append, hds]
    exact htail
  rcases hsign with hsign | hsign
  · rw [hsign]
    exact ⟨d, ds ++ tail, rfl, part, hfirst, part', hpart', hfold⟩
  · rw [hsign]
    refine ⟨'-', d :: (ds ++ tail), rfl, minus, rfl, part', hpart', ?_⟩
    rw [List.foldlM_cons, hminus]
    exact hfold

end Numeral

/-- What may follow a value: the blank or the sign that tells it has ended, or nothing if no group
is open. -/
def Follows (stack : List Frame) : List Char → Prop
  | [] => stack = []
  | c :: _ => c ∈ [' ', '\n', '\t', '\r', ',', ']', '\x7d']

theorem run_digits {part part' : NumberPart} {done : List Char}
    (h : cs.foldlM NumberPart.next? part = some part') :
    run ⟨stack, .number part done⟩ (cs ++ rest) =
      run ⟨stack, .number part' (cs.reverse ++ done)⟩ rest := by
  induction cs generalizing part done with
  | nil =>
    obtain rfl : part = part' := Option.some.inj h
    rfl
  | cons c cs ih =>
    rw [List.foldlM_cons, Option.bind_eq_bind, Option.bind_eq_some_iff] at h
    obtain ⟨next, hnext, hrest⟩ := h
    have hstep : step ⟨stack, .number part done⟩ c =
        .ok (.next ⟨stack, .number next (c :: done)⟩) := by
      simp only [step, hnext]
    rw [List.cons_append, run_cons_of_next hstep, ih hrest, List.reverse_cons, List.append_assoc,
      List.singleton_append]

theorem run_cons_congr {state state' : State} (h : step state c = step state' c) :
    run state (c :: rest) = run state' (c :: rest) := by
  rw [run, run, h]

theorem finish_eq_next {state : State} (h : finish stack v = .next state) :
    state.mode = .commaOrEnd := by
  unfold finish at h
  split at h <;> cases h <;> rfl

theorem ends_of_follows {part : NumberPart} (hcomplete : part.isComplete)
    (hrest : Follows stack (c :: rest)) : part.next? c = none ∧ part.canEnd c = true := by
  simp only [Follows, List.mem_cons, List.not_mem_nil, or_false] at hrest
  cases part with
  | minus | point | exponent | exponentSign => cases hcomplete
  | zero | integer | fraction | exponentDigits =>
    rcases hrest with rfl | rfl | rfl | rfl | rfl | rfl | rfl <;> exact ⟨rfl, rfl⟩

theorem run_number_end {part : NumberPart} {done : List Char} (hcomplete : part.isComplete)
    (hfits : overflows done.reverse = false) (hrest : Follows stack rest) :
    run ⟨stack, .number part done⟩ rest =
      (finish stack (.number (String.ofList done.reverse))).run rest := by
  cases rest with
  | nil =>
    obtain rfl : stack = [] := hrest
    simp only [run, atEnd, hcomplete, hfits]
    rfl
  | cons c rest =>
    rw [run]
    simp only [step, ends_of_follows hcomplete hrest, hfits]
    cases hfinish : finish stack (.number (String.ofList done.reverse)) with
    | whole u => rfl
    | wholeBefore u => rfl
    | next inner =>
      have hmode := finish_eq_next hfinish
      obtain ⟨innerStack, mode⟩ := inner
      subst hmode
      rw [Step.run, run]
      rfl

theorem run_number_large {part : NumberPart} {done : List Char} (hcomplete : part.isComplete)
    (hlarge : overflows done.reverse = true) (hrest : Follows stack rest) :
    run ⟨stack, .number part done⟩ rest = .error (.numberOutOfRange, rest) := by
  cases rest with
  | nil =>
    simp only [run, atEnd, hcomplete, hlarge]
    rfl
  | cons c rest =>
    rw [run]
    simp only [step, ends_of_follows hcomplete hrest, hlarge]
    rfl

theorem startValue_number (stack : List Frame) {part : NumberPart}
    (h : NumberPart.first? c = some part) :
    startValue stack c = .ok (.next ⟨stack, .number part [c]⟩) ∧ c ≠ ']' ∧ isBlank c = false := by
  have hother (d : Char) (hd : NumberPart.first? d = none) : c ≠ d := by
    rintro rfl
    rw [h] at hd
    cases hd
  have hblank : isBlank c = false := by
    simp [isBlank, hother ' ' rfl, hother '\n' rfl, hother '\t' rfl, hother '\r' rfl]
  refine ⟨?_, hother ']' rfl, hblank⟩
  simp [startValue, hblank, h, hother '"' rfl, hother '[' rfl, hother '\x7b' rfl, hother 't' rfl,
    hother 'f' rfl, hother 'n' rfl]

/-- All of a number is read before it is told whether it fits. -/
theorem exists_run_number (n : Numeral) : ∃ part : NumberPart, part.isComplete ∧
    run ⟨stack, .value⟩ (n.text ++ rest) = run ⟨stack, .number part n.text.reverse⟩ rest := by
  obtain ⟨c, cs, htext, part, hfirst, part', hcomplete, hfold⟩ := n.exists_read
  have hstart : step ⟨stack, .value⟩ c = .ok (.next ⟨stack, .number part [c]⟩) :=
    (startValue_number stack hfirst).1
  refine ⟨part', hcomplete, ?_⟩
  rw [htext, List.cons_append, run_cons_of_next hstart, run_digits hfold, List.reverse_cons]

theorem run_number (n : Numeral) (hfits : overflows n.text = false) (hrest : Follows stack rest) :
    run ⟨stack, .value⟩ (n.text ++ rest) =
      (finish stack (.number (String.ofList n.text))).run rest := by
  obtain ⟨part, hcomplete, hread⟩ := exists_run_number n
  rw [hread, run_number_end hcomplete (by rwa [List.reverse_reverse]) hrest, List.reverse_reverse]

theorem run_number_of_overflows (n : Numeral) (hlarge : overflows n.text = true)
    (hrest : Follows stack rest) :
    run ⟨stack, .value⟩ (n.text ++ rest) = .error (.numberOutOfRange, rest) := by
  obtain ⟨part, hcomplete, hread⟩ := exists_run_number n
  rw [hread, run_number_large hcomplete (by rwa [List.reverse_reverse]) hrest]

end RouteTree.Json
