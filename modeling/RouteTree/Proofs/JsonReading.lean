import Mathlib.Data.List.TakeWhile
import RouteTree.Proofs.JsonLiterals

/-! Reading JSON text. The reader takes every text that the grammar allows for the value that it
spells, so long as groups are not nested too deep, unless a number in it is too large. -/
namespace RouteTree.Json

variable {stack : List Frame} {rest cs t : List Char} {c : Char} {v : Value} {mode : Mode}

/-! ### Words -/

theorem run_word {d : Char} {due : List Char} :
    run ⟨stack, .word (d :: due) v⟩ (d :: due ++ rest) = (finish stack v).run rest := by
  induction due generalizing d with
  | nil =>
    apply run_cons_of_finish
    simp [step]
  | cons e due ih =>
    have hnext : step ⟨stack, .word (d :: e :: due) v⟩ d =
        .ok (.next ⟨stack, .word (e :: due) v⟩) := by
      simp [step]
    rw [List.cons_append, run_cons_of_next hnext, ih]

theorem run_letters {d : Char} {due : List Char}
    (h : startValue stack c = .ok (.next ⟨stack, .word (d :: due) v⟩)) :
    run ⟨stack, .value⟩ (c :: (d :: due ++ rest)) = (finish stack v).run rest := by
  have hstart : step ⟨stack, .value⟩ c = .ok (.next ⟨stack, .word (d :: due) v⟩) := h
  rw [run_cons_of_next hstart, run_word]

/-! ### Numbers in between -/

/-- None of the numbers is too large for the reader. -/
def AllFit (numbers : List String) : Prop := ∀ spelling ∈ numbers, overflows spelling.toList = false

instance (numbers : List String) : Decidable (AllFit numbers) :=
  inferInstanceAs (Decidable (∀ spelling ∈ numbers, overflows spelling.toList = false))

/-- Reading here comes to reading there, unless one of the numbers in between is too large. -/
structure Passes (numbers : List String)
    (here there : Except (SyntaxFault × List Char) (Value × List Char)) : Prop where
  eq (h : AllFit numbers) : here = there
  error (h : ¬ AllFit numbers) : ∃ left, here = .error (.numberOutOfRange, left)

section Passes

variable {here there behind : Except (SyntaxFault × List Char) (Value × List Char)}
  {numbers more : List String}

theorem Passes.of_eq (h : here = there) : Passes [] here there where
  eq _ := h
  error hlarge := absurd (fun _ hs => absurd hs List.not_mem_nil) hlarge

/-- The first number that is too large ends the reading. -/
theorem Passes.append (h : Passes numbers here there) (h' : Passes more there behind) :
    Passes (numbers ++ more) here behind where
  eq hfit := by
    obtain ⟨hfit, hmore⟩ := List.forall_mem_append.1 hfit
    rw [h.eq hfit, h'.eq hmore]
  error hlarge := by
    by_cases hfit : AllFit numbers
    · rw [h.eq hfit]
      exact h'.error fun hmore => hlarge (List.forall_mem_append.2 ⟨hfit, hmore⟩)
    · exact h.error hfit

end Passes

theorem passes_number (n : Numeral) (hrest : Follows stack rest) :
    Passes [String.ofList n.text] (run ⟨stack, .value⟩ (n.text ++ rest))
      ((finish stack (.number (String.ofList n.text))).run rest) where
  eq hfit := run_number n (by simpa [AllFit] using hfit) hrest
  error hlarge := ⟨rest, run_number_of_overflows n (by simpa [AllFit] using hlarge) hrest⟩

/-! ### Groups -/

theorem Spells.exists_cons (h : Spells v t) :
    ∃ c cs, t = c :: cs ∧ isBlank c = false ∧ c ≠ ']' := by
  cases h with
  | null | boolTrue | boolFalse => exact ⟨_, _, rfl, rfl, by decide⟩
  | number n =>
    obtain ⟨c, cs, htext, part, hfirst, -⟩ := n.exists_read
    obtain ⟨-, hne, hblank⟩ := startValue_number [] hfirst
    exact ⟨c, cs, htext, hblank, hne⟩
  | string h =>
    obtain ⟨-⟩ := h
    exact ⟨_, _, rfl, rfl, by decide⟩
  | emptyArray _ | array _ | emptyObject _ | object _ => exact ⟨_, _, rfl, rfl, by decide⟩

/-- In an array a value is read like a value that stands alone. -/
theorem Spells.run_item (h : Spells v t) (hmode : mode.AwaitsValue) :
    run ⟨stack, mode⟩ (t ++ rest) = run ⟨stack, .value⟩ (t ++ rest) := by
  obtain ⟨c, cs, rfl, hblank, hne⟩ := h.exists_cons
  apply run_cons_congr
  cases hmode with
  | value => rfl
  | itemOrEnd => simp [step, hblank, hne]
  | item => simp [step, hblank, hne]

theorem run_finish_blanks {frame : Frame} {blanks : List Char} (h : Blanks blanks) :
    (finish (frame :: stack) v).run (blanks ++ rest) = (finish (frame :: stack) v).run rest := by
  cases frame <;> exact run_blanks isBetween_commaOrEnd h

theorem follows_of_blanks {blanks : List Char} (h : Blanks blanks) (hc : c ∈ [',', ']', '\x7d']) :
    Follows stack (blanks ++ c :: rest) := by
  cases blanks with
  | nil => exact List.mem_append_right [' ', '\n', '\t', '\r'] hc
  | cons b blanks => exact List.mem_append_left [',', ']', '\x7d'] (h b List.mem_cons_self)

theorem follows_of_blanks_end {blanks : List Char} (h : Blanks blanks) : Follows [] blanks := by
  cases blanks with
  | nil => rfl
  | cons b blanks => exact List.mem_append_left [',', ']', '\x7d'] (h b List.mem_cons_self)

theorem run_openArray (h : stack.length < depthLimit) :
    run ⟨stack, .value⟩ ('[' :: rest) = run ⟨.array [] :: stack, .itemOrEnd⟩ rest := by
  apply run_cons_of_next
  simp [step, startValue, h, isBlank]

theorem run_openObject (h : stack.length < depthLimit) :
    run ⟨stack, .value⟩ ('\x7b' :: rest) = run ⟨.object [] :: stack, .keyOrEnd⟩ rest := by
  apply run_cons_of_next
  simp [step, startValue, h, isBlank]

section Closes

variable {items : List Value} {members : List (String × Value)}

theorem run_comma_array : run ⟨.array items :: stack, .commaOrEnd⟩ (',' :: rest) =
    run ⟨.array items :: stack, .item⟩ rest :=
  run_cons_of_next rfl

theorem run_close_array : run ⟨.array items :: stack, .commaOrEnd⟩ (']' :: rest) =
    (finish stack (.array items.reverse)).run rest :=
  run_cons_of_finish rfl

theorem run_comma_object : run ⟨.object members :: stack, .commaOrEnd⟩ (',' :: rest) =
    run ⟨.object members :: stack, .key⟩ rest :=
  run_cons_of_next rfl

theorem run_close_object : run ⟨.object members :: stack, .commaOrEnd⟩ ('\x7d' :: rest) =
    (finish stack (.object members.reverse)).run rest :=
  run_cons_of_finish rfl

theorem run_colon {name : String} : run ⟨.object members :: stack, .colon name⟩ (':' :: rest) =
    run ⟨.member members name :: stack, .value⟩ rest :=
  run_cons_of_next rfl

end Closes

mutual

theorem Spells.passes {v : Value} {t : List Char} (h : Spells v t) (stack : List Frame)
    (rest : List Char) (hdepth : stack.length + v.depth ≤ depthLimit)
    (hrest : Follows stack rest) :
    Passes v.numbers (run ⟨stack, .value⟩ (t ++ rest)) ((finish stack v).run rest) := by
  cases h with
  | null | boolTrue | boolFalse => exact .of_eq (run_letters rfl)
  | number n => exact passes_number n hrest
  | string h => exact .of_eq (run_string h)
  | emptyArray h =>
    simp only [Value.depth] at hdepth
    rw [List.append_assoc, List.cons_append, run_openArray (by omega),
      run_blanks Mode.AwaitsValue.itemOrEnd.isBetween h]
    exact .of_eq (run_cons_of_finish rfl)
  | array h =>
    simp only [Value.depth] at hdepth
    rw [List.append_assoc, List.cons_append, run_openArray (by omega)]
    exact h.passes [] stack .itemOrEnd rest .itemOrEnd (by omega)
  | emptyObject h =>
    simp only [Value.depth] at hdepth
    rw [List.append_assoc, List.cons_append, run_openObject (by omega),
      run_blanks Mode.AwaitsName.keyOrEnd.isBetween h]
    exact .of_eq (run_cons_of_finish rfl)
  | object h =>
    simp only [Value.depth] at hdepth
    rw [List.append_assoc, List.cons_append, run_openObject (by omega)]
    exact h.passes [] stack .keyOrEnd rest .keyOrEnd (by omega)

theorem SpellsPadded.passes {v : Value} {t : List Char} (h : SpellsPadded v t) (frame : Frame)
    (stack : List Frame) (mode : Mode) (c : Char) (rest : List Char)
    (hmode : mode.AwaitsValue) (hc : c ∈ [',', ']', '\x7d'])
    (hdepth : stack.length + 1 + v.depth ≤ depthLimit) :
    Passes v.numbers (run ⟨frame :: stack, mode⟩ (t ++ c :: rest))
      ((finish (frame :: stack) v).run (c :: rest)) := by
  obtain ⟨hbefore, h, hbehind⟩ := h
  rw [List.append_assoc, List.append_assoc, run_blanks hmode.isBetween hbefore, h.run_item hmode,
    ← run_finish_blanks hbehind]
  exact h.passes (frame :: stack) _ hdepth (follows_of_blanks hbehind hc)

theorem SpellsItems.passes {items : List Value} {t : List Char} (h : SpellsItems items t)
    (done : List Value) (stack : List Frame) (mode : Mode) (rest : List Char)
    (hmode : mode.AwaitsValue) (hdepth : stack.length + 1 + itemsDepth items ≤ depthLimit) :
    Passes (itemsNumbers items) (run ⟨.array done :: stack, mode⟩ (t ++ ']' :: rest))
      ((finish stack (.array (done.reverse ++ items))).run rest) := by
  cases h with
  | @last v t h =>
    simp only [itemsDepth] at hdepth
    refine (h.passes _ _ _ _ _ hmode (by simp) (by omega)).append (.of_eq ?_)
    refine run_close_array.trans ?_
    rw [List.reverse_cons]
  | @more v items t ts h hrest =>
    simp only [itemsDepth] at hdepth
    rw [List.append_assoc, List.cons_append]
    refine (h.passes _ _ _ _ _ hmode (by simp) (by omega)).append ?_
    have hitems := hrest.passes (v :: done) stack .item rest .item (by omega)
    rw [List.reverse_cons, List.append_assoc, List.singleton_append, ← run_comma_array] at hitems
    exact hitems

theorem SpellsMember.passes {m : String × Value} {t : List Char} (h : SpellsMember m t)
    (done : List (String × Value)) (stack : List Frame) (mode : Mode) (c : Char) (rest : List Char)
    (hmode : mode.AwaitsName) (hc : c ∈ [',', ']', '\x7d'])
    (hdepth : stack.length + 1 + m.2.depth ≤ depthLimit) :
    Passes m.2.numbers (run ⟨.object done :: stack, mode⟩ (t ++ c :: rest))
      (run ⟨.object (m :: done) :: stack, .commaOrEnd⟩ (c :: rest)) := by
  obtain ⟨hbefore, hname, hbehind, h⟩ := h
  rw [List.append_assoc, List.append_assoc, List.append_assoc, run_blanks hmode.isBetween hbefore,
    run_name hmode hname, run_blanks (isBetween_colon _) hbehind, List.cons_append, run_colon]
  exact h.passes _ _ _ _ _ .value hc hdepth

theorem SpellsMembers.passes {members : List (String × Value)} {t : List Char}
    (h : SpellsMembers members t) (done : List (String × Value)) (stack : List Frame) (mode : Mode)
    (rest : List Char) (hmode : mode.AwaitsName)
    (hdepth : stack.length + 1 + membersDepth members ≤ depthLimit) :
    Passes (membersNumbers members) (run ⟨.object done :: stack, mode⟩ (t ++ '\x7d' :: rest))
      ((finish stack (.object (done.reverse ++ members))).run rest) := by
  cases h with
  | @last m t h =>
    simp only [membersDepth] at hdepth
    refine (h.passes _ _ _ _ _ hmode (by simp) (by omega)).append (.of_eq ?_)
    refine run_close_object.trans ?_
    rw [List.reverse_cons]
  | @more m members t ts h hrest =>
    simp only [membersDepth] at hdepth
    rw [List.append_assoc, List.cons_append]
    refine (h.passes _ _ _ _ _ hmode (by simp) (by omega)).append ?_
    have hmembers := hrest.passes (m :: done) stack .key rest .key (by omega)
    rw [List.reverse_cons, List.append_assoc, List.singleton_append, ← run_comma_object] at hmembers
    exact hmembers

end

/-! ### Whole texts -/

def Value.Fits (v : Value) : Prop := AllFit v.numbers

instance (v : Value) : Decidable v.Fits := inferInstanceAs (Decidable (AllFit v.numbers))

/-- A text of a value is read as the value, and nothing else is found behind it. Only a number that
is too large can prevent it. -/
theorem readFirst_cases (h : SpellsPadded v t) (hdepth : v.depth ≤ depthLimit) :
    (v.Fits → ∃ rest, readFirst t = .ok (v, rest) ∧ checkEnd t rest = .ok ()) ∧
    (¬ v.Fits → ∃ e, readFirst t = .error e ∧ e.fault = .numberOutOfRange) := by
  obtain @⟨_, before, t, behind, hbefore, h, hbehind⟩ := h
  have hpasses : Passes v.numbers (run ⟨[], .value⟩ (before ++ t ++ behind)) (.ok (v, behind)) := by
    rw [List.append_assoc, run_blanks Mode.AwaitsValue.value.isBetween hbefore]
    exact h.passes [] behind (by simpa using hdepth) (follows_of_blanks_end hbehind)
  constructor
  · intro hfits
    refine ⟨behind, by rw [readFirst, hpasses.eq hfits]; rfl, ?_⟩
    have hnone : behind.dropWhile isBlank = [] :=
      List.dropWhile_eq_nil_iff.2 fun c hc => isBlank_of_blanks hbehind hc
    rw [checkEnd, hnone]
  · intro hlarge
    obtain ⟨left, hleft⟩ := hpasses.error hlarge
    exact ⟨_, by rw [readFirst, hleft]; rfl, rfl⟩

end RouteTree.Json
