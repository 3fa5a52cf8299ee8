import RouteTree.Terminal.Console
import RouteTree.Proofs.Reading

/-! What is left on the terminal. The console remembers the height of the last status block only,
and climbs that many rows before the next one. Read back on a terminal, every printed log entry
stands where it was put, and of status blocks with no entry printed between them the last one is
all that is seen. -/
namespace RouteTree.Terminal
open RouteTree.Text (splitOn splitOn_ne_nil)

/-! ### What is to be seen -/

/-- What a printed event is on the screen: its text without the styles, and whether the next status
may take its place. -/
structure Block where
  isStatus : Bool
  text : String
  deriving DecidableEq, Repr

/-- The rows that a block takes. -/
def Block.rows (block : Block) : List (List Char) := splitOn '\n' block.text.toList

def LogEntry.plain (entry : LogEntry) : String := "[" ++ entry.tag ++ "]" ++ " " ++ entry.message

namespace Status

def plainMark : Status → String
  | .success _ => "✓" ++ " "
  | .unchanged _ => ""
  | .failure _ _ => "✗" ++ " "

def plainMessage : Status → String
  | .success s => s
  | .unchanged s => s
  | .failure summary detail => if detail = "" then summary else summary ++ "\n" ++ detail

theorem message_failure (summary detail : String) :
    (failure summary detail).message = (failure summary detail).plainMessage := by
  by_cases h : detail = ""
  · subst h
    rfl
  · simp [message, plainMessage, h]

def plain (time : String) (status : Status) : String :=
  "[" ++ time ++ "]" ++ " " ++ status.plainMark ++ status.plainMessage

end Status

namespace Event

def block? (verbose : Bool) : Event → Option Block
  | .log entry => if entry.isShown verbose then some ⟨false, entry.plain⟩ else none
  | .line s => some ⟨false, s⟩
  | .status time report => some ⟨true, report.plain time⟩
  | .setVerbose _ => none

def verboseAfter (verbose : Bool) : Event → Bool
  | .setVerbose on => on
  | _ => verbose

/-- The events that log, choose what is logged or show a status: their texts are plain, a time of
day is within one row, and a status has fewer rows than the console can climb. -/
def IsPlainCall : Event → Prop
  | .log entry => IsPlain entry.tag ∧ IsPlain entry.message
  | .line _ => False
  | .status time report =>
    (∀ c ∈ time.toList, ¬ IsControl c) ∧ IsPlain report.plainMessage ∧
      (Block.rows ⟨true, report.plain time⟩).length ≤ 65535
  | .setVerbose _ => True

instance : DecidablePred IsPlainCall
  | .log _ => inferInstanceAs (Decidable (_ ∧ _))
  | .line _ => inferInstanceAs (Decidable False)
  | .status time _ =>
    have : Decidable (∀ c ∈ time.toList, ¬ IsControl c) := List.decidableBAll _ _
    inferInstanceAs (Decidable (_ ∧ _ ∧ _))
  | .setVerbose _ => inferInstanceAs (Decidable True)

end Event

def blocks (verbose : Bool) : List Event → List Block
  | [] => []
  | event :: rest => (event.block? verbose).toList ++ blocks (event.verboseAfter verbose) rest

/-- Of every run of statuses without another block between them only the last one. -/
def remaining : List Block → List Block
  | [] => []
  | [block] => [block]
  | block :: next :: rest =>
    if block.isStatus && next.isStatus then remaining (next :: rest)
    else block :: remaining (next :: rest)

theorem remaining_cons {block : Block} (h : block.isStatus = false) (rest : List Block) :
    remaining (block :: rest) = block :: remaining rest := by
  cases rest with
  | nil => rfl
  | cons next rest => simp [remaining, h]

theorem remaining_status_cons {status block : Block} (h : block.isStatus = false)
    (rest : List Block) :
    remaining (status :: block :: rest) = status :: block :: remaining rest := by
  simp [remaining, h, remaining_cons h]

theorem remaining_status_status {status next : Block} (h : status.isStatus) (hnext : next.isStatus)
    (rest : List Block) : remaining (status :: next :: rest) = remaining (next :: rest) := by
  simp [remaining, h, hnext]

/-! ### Reading what the console writes -/

namespace Console

/-- Nothing but the blocks below what was there before. -/
def sheet (above : List (List Char)) (shown : List Block) : Screen :=
  .page ((shown.flatMap Block.rows).reverse ++ above) []

theorem sheet_append (above : List (List Char)) (settled shown : List Block) :
    sheet above (settled ++ shown) =
      sheet ((settled.flatMap Block.rows).reverse ++ above) shown := by
  simp [sheet]

open Display in
theorem read_line {s : String} (block : Block) (h : Shows s block.text)
    (above : List (List Char)) (shown : List Block) :
    read { screen := sheet above shown } (s ++ "\n").toList =
      { screen := sheet above (shown ++ [block]) } := by
  have hend : ("\n" : String).toList = ['\n'] := rfl
  have hstep (screen : Screen) :
      read { screen } ['\n'] = { screen := screen.typeText ['\n'] } := rfl
  rw [String.toList_append, hend, read_append, h, hstep, ← Screen.typeText_append, sheet,
    Screen.typeText_line, sheet_append]
  have hhead : (splitOn '\n' block.text.toList).modifyHead ([] ++ ·) = block.rows := by
    unfold Block.rows
    cases splitOn '\n' block.text.toList <;> rfl
  rw [hhead]
  simp [sheet]

end Console

open Display in
theorem LogEntry.shows_text {entry : LogEntry} (htag : IsPlain entry.tag)
    (hmessage : IsPlain entry.message) : Shows entry.text entry.plain := by
  have hprefix : IsPlain ("[" ++ entry.tag ++ "]") :=
    .append (.append (by decide) htag) (by decide)
  have hblank : Shows " " " " := shows_plain (by decide)
  exact shows_append (shows_append (shows_bold (shows_paint _ (shows_plain hprefix))) hblank)
    (shows_plain hmessage)

open Display Status in
theorem Status.shows_block {time : String} {status : Status}
    (htime : ∀ c ∈ time.toList, ¬ IsControl c) (hmessage : IsPlain status.plainMessage) :
    Shows (status.block time) (status.plain time) := by
  have htime' : IsPlain ("[" ++ time ++ "]") :=
    .append (.append (by decide) fun c hc hcontrol => absurd hcontrol (htime c hc)) (by decide)
  have hblank : Shows " " " " := shows_plain (by decide)
  refine shows_append (shows_append (shows_append (shows_faint (shows_plain htime')) hblank) ?_) ?_
  · cases status with
    | success s => exact shows_append (shows_paint _ (shows_plain (by decide))) hblank
    | unchanged s => exact shows_plain fun c hc => absurd hc List.not_mem_nil
    | failure summary detail =>
      exact shows_append (shows_paint _ (shows_plain (by decide))) hblank
  · cases status with
    | success s => exact shows_plain hmessage
    | unchanged s => exact shows_faint (shows_plain hmessage)
    | failure summary detail =>
      rw [message_failure]
      exact shows_plain hmessage

theorem count_newline_faint (s : String) :
    (faint s).toList.count '\n' = s.toList.count '\n' := by
  simp [faint, escape]

theorem Status.count_newline_message (status : Status) :
    status.message.toList.count '\n' = status.plainMessage.toList.count '\n' := by
  cases status with
  | success s => rfl
  | unchanged s => exact count_newline_faint s
  | failure summary detail => rw [message_failure]

theorem Status.lineCount_eq {time : String} {status : Status}
    (htime : ∀ c ∈ time.toList, ¬ IsControl c) :
    status.lineCount = (Block.rows ⟨true, status.plain time⟩).length := by
  have hmark : status.plainMark.toList.count '\n' = 0 := by
    cases status <;> rw [plainMark] <;> decide
  have htime' : time.toList.count '\n' = 0 :=
    List.count_eq_zero.2 fun hmem => htime _ hmem (by decide)
  rw [lineCount, count_newline_message, Block.rows, Text.length_splitOn]
  simp [plain, hmark, htime']

namespace Console

/-- The rows that the console remembers are those of the last block if that is a status. -/
def Stands (console : Console) (last : Option Block) : Prop :=
  console.statusLines = (last.toList.flatMap Block.rows).length ∧ console.statusLines < climbLimit ∧
    ∀ block ∈ last, block.isStatus

theorem read_eraseLineEnd (above : List (List Char)) (shown : List Block) :
    Display.read { screen := sheet above shown } Control.eraseLineEnd.encode.toList =
      { screen := sheet above shown } := rfl

/-- The controls before a status take the one before it from the screen. -/
theorem read_overwrite (above : List (List Char)) (old : Block) :
    Display.read { screen := sheet above [old] }
        ((Control.cursorUp old.rows.length).encode ++ Control.eraseBelow.encode).toList =
      { screen := sheet above [] } := by
  have hrows : old.rows.length ≠ 0 :=
    mt List.length_eq_zero_iff.1 (splitOn_ne_nil '\n' old.text.toList)
  have hup : "A" = String.singleton 'A' := by decide
  have herase (screen : Screen) :
      Display.read { screen } Control.eraseBelow.encode.toList = { screen := screen.eraseBelow } :=
    rfl
  have hmax : max old.rows.length 1 = old.rows.length := by omega
  rw [String.toList_append, Display.read_append, Control.encode, hup,
    Display.read_control _ _ (by decide), herase, Screen.control, hmax]
  have hsheet : sheet above [old] = ⟨old.rows.reverse ++ above, [], 0, []⟩ := by
    simp [sheet, Screen.page]
  rw [hsheet, ← List.length_reverse, Screen.eraseBelow_up]
  rfl

theorem read_log (above : List (List Char)) (shown : List Block) {entry : LogEntry}
    (htag : IsPlain entry.tag) (hmessage : IsPlain entry.message) :
    Display.read { screen := sheet above shown }
        (String.join
          ([Control.eraseLineEnd, .text entry.text, .newline].map Control.encode)).toList =
      { screen := sheet above (shown ++ [⟨false, entry.plain⟩]) } := by
  have hjoin : String.join ([Control.eraseLineEnd, .text entry.text, .newline].map Control.encode)
      = Control.eraseLineEnd.encode ++ (entry.text ++ "\n") := by
    simp [Control.encode]
  rw [hjoin, String.toList_append, Display.read_append, read_eraseLineEnd]
  exact read_line ⟨false, entry.plain⟩ (LogEntry.shows_text htag hmessage) above shown

theorem read_status {console : Console} {last : Option Block} (hlast : console.Stands last)
    (above : List (List Char)) {time : String} {report : Status}
    (htime : ∀ c ∈ time.toList, ¬ IsControl c) (hmessage : IsPlain report.plainMessage) :
    Display.read { screen := sheet above last.toList }
        (String.join ((console.print (.status time report)).2.map Control.encode)).toList =
      { screen := sheet above [⟨true, report.plain time⟩] } := by
  have hline := read_line ⟨true, report.plain time⟩ (Status.shows_block htime hmessage) above []
  cases last with
  | none =>
    have hnone : console.statusLines = 0 := hlast.1
    simpa [print, hnone, Control.encode] using hline
  | some old =>
    have hheight : console.statusLines = old.rows.length := by simpa using hlast.1
    have hpos : console.statusLines ≠ 0 :=
      hheight ▸ mt List.length_eq_zero_iff.1 (splitOn_ne_nil '\n' old.text.toList)
    have hclimb : console.statusLines % climbLimit = old.rows.length :=
      (Nat.mod_eq_of_lt hlast.2.1).trans hheight
    have hjoin : String.join ((console.print (.status time report)).2.map Control.encode) =
        (Control.cursorUp old.rows.length).encode ++ Control.eraseBelow.encode ++
          (report.block time ++ "\n") := by
      simp [print, hpos, hclimb, Control.encode, String.append_assoc]
    rw [hjoin, String.toList_append, Display.read_append]
    exact (congrArg (Display.read · _) (read_overwrite above old)).trans hline

/-- One event: what it prints comes after the settled blocks, with or without the last status. -/
theorem read_print {console : Console} {event : Event} {last : Option Block}
    (hlast : console.Stands last) (hevent : event.IsPlainCall) (above : List (List Char)) :
    ∃ settled next, (console.print event).1.Stands next ∧
      (console.print event).1.verbose = event.verboseAfter console.verbose ∧
      Display.read { screen := sheet above last.toList }
          (String.join ((console.print event).2.map Control.encode)).toList =
        { screen := sheet above (settled ++ next.toList) } ∧
      ∀ rest, remaining (last.toList ++ (event.block? console.verbose).toList ++ rest) =
        settled ++ remaining (next.toList ++ rest) := by
  obtain ⟨hlines, hlimit, hstatus⟩ := hlast
  cases event with
  | line s => exact hevent.elim
  | setVerbose on =>
    exact ⟨[], last, ⟨hlines, hlimit, hstatus⟩, rfl, rfl, fun rest => by simp [Event.block?]⟩
  | log entry =>
    by_cases hshown : entry.isShown console.verbose
    · have hprint : console.print (.log entry) =
          ({ console with statusLines := 0 }, [.eraseLineEnd, .text entry.text, .newline]) :=
        if_pos hshown
      have hblock : (Event.log entry).block? console.verbose = some ⟨false, entry.plain⟩ :=
        if_pos hshown
      rw [hprint, hblock]
      refine ⟨last.toList ++ [⟨false, entry.plain⟩], none, ⟨rfl, Nat.zero_lt_succ _, by simp⟩, rfl,
        ?_, ?_⟩
      · rw [read_log above _ hevent.1 hevent.2, Option.toList_none, List.append_nil]
      · intro rest
        cases last with
        | none => simp [remaining_cons]
        | some status => simp [remaining_status_cons]
    · have hprint : console.print (.log entry) = (console, []) := if_neg hshown
      have hblock : (Event.log entry).block? console.verbose = none := if_neg hshown
      rw [hprint, hblock]
      exact ⟨[], last, ⟨hlines, hlimit, hstatus⟩, rfl, rfl, fun rest => by simp⟩
  | status time report =>
    obtain ⟨htime, hmessage, hrows⟩ := hevent
    have hcount : report.lineCount = (Block.rows ⟨true, report.plain time⟩).length :=
      Status.lineCount_eq htime
    have hheight : report.lineCount < climbLimit := Nat.lt_succ_of_le (hcount ▸ hrows)
    refine ⟨[], some ⟨true, report.plain time⟩, ⟨?_, hheight, by simp⟩, rfl,
      read_status ⟨hlines, hlimit, hstatus⟩ above htime hmessage, ?_⟩
    · simpa [print] using hcount
    · intro rest
      cases last with
      | none => rfl
      | some old => exact remaining_status_status (hstatus old rfl) rfl rest

theorem render_cons (console : Console) (event : Event) (events : List Event) :
    console.render (event :: events) =
      String.join ((console.print event).2.map Control.encode) ++
        (console.print event).1.render events := by
  simp [render, printAll]

/-- Any number of events, after some status or none. -/
theorem read_render {console : Console} {last : Option Block} {events : List Event}
    (hlast : console.Stands last) (hevents : ∀ event ∈ events, event.IsPlainCall)
    (above : List (List Char)) :
    Display.read { screen := sheet above last.toList } (console.render events).toList =
      { screen := sheet above (remaining (last.toList ++ blocks console.verbose events)) } := by
  induction events generalizing console last above with
  | nil => cases last <;> rfl
  | cons event events ih =>
    obtain ⟨settled, next, hnext, hverbose, hread, hremaining⟩ :=
      read_print hlast (hevents event List.mem_cons_self) above
    rw [render_cons, String.toList_append, Display.read_append, hread, sheet_append,
      ih hnext (fun e he => hevents e (List.mem_cons_of_mem _ he)), hverbose, ← sheet_append,
      blocks, ← List.append_assoc, hremaining]

/-- **Status lines overwrite only status lines.** On a terminal whose cursor stands on a fresh row,
a console that remembers no status leaves below what was there before every printed log entry and,
of each run of statuses with no printed entry between them, the last one, in the order of the calls.
The cursor stands on a fresh row again. -/
theorem rows_after_render (verbose : Bool) (above : List (List Char)) (events : List Event)
    (hevents : ∀ event ∈ events, event.IsPlainCall) :
    let screen := (Display.read { screen := { above } } (render { verbose } events).toList).screen
    screen.rows =
        above.reverse ++ (remaining (blocks verbose events)).flatMap Block.rows ++ [[]] ∧
      screen.column = 0 ∧ screen.below = [] := by
  have hstart : (⟨verbose, 0⟩ : Console).Stands none := ⟨rfl, Nat.zero_lt_succ _, by simp⟩
  have hread : Display.read { screen := { above } } (render { verbose } events).toList =
      { screen := sheet above (remaining (blocks verbose events)) } :=
    read_render hstart hevents above
  intro screen
  have hscreen : screen = sheet above (remaining (blocks verbose events)) :=
    congrArg Display.screen hread
  rw [hscreen]
  exact ⟨by simp [Screen.rows, sheet, Screen.page], rfl, rfl⟩

private def passes : List Event :=
  [.log (info "watch" "watching pages"), .status "10:00:00" (.failure "not generated" "a\nb"),
    .log (debug "watch" "1 change"), .status "10:00:05" (.success "generated"),
    .log (info "routes" "2 routes"), .status "10:00:09" (.unchanged "routes unchanged")]

/-- The failure is overwritten, since the entry after it is not shown. -/
theorem rows_after_passes :
    (∀ event ∈ passes, event.IsPlainCall) ∧
      (Display.read {} (render {} passes).toList).screen.rows =
        ["[watch] watching pages", "[10:00:05] ✓ generated", "[routes] 2 routes",
          "[10:00:09] routes unchanged", ""].map String.toList := by
  have hpasses : ∀ event ∈ passes, event.IsPlainCall := by decide
  exact ⟨hpasses, (rows_after_render false [] passes hpasses).1.trans (by decide)⟩

end Console
end RouteTree.Terminal
