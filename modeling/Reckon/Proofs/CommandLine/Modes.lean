import Reckon.CommandLine.Program
import Reckon.Proofs.Session.Replay
import Reckon.Proofs.Text.Encoding
import Reckon.Proofs.Tree.Visible

/-! Files and dialogues, which give the same results for the same lines. -/

namespace Reckon.CommandLine

/-- The line that shows the tree of a line, if that is accepted. -/
def treeLine (line : String) : String :=
  match parse line with
  | .ok tree => tree.display ++ "\n"
  | .error _ => ""

/-- The result text for a line and what it is answered. -/
def resultText (tree : Bool) (line : String) (answer : Except SyntaxError Binary64) : String :=
  if isBlankLine line then ""
  else match answer with
    | .ok value => (if tree then treeLine line else "") ++ line ++ " = " ++ value.text ++ "\n"
    | .error error => error.diagnostic line ++ "\n"

/-- The line that stands in for a prompt where the result text is that of an error. -/
def echoText (line : String) (answer : Except SyntaxError Binary64) : String :=
  if isBlankLine line then ""
  else match answer with
    | .ok _ => ""
    | .error _ => prompt ++ line ++ "\n"

/-- What a dialogue prints behind its banner for lines with their answers. -/
def transcript (tree : Bool) (answers : List (String × Except SyntaxError Binary64)) : String :=
  String.join (answers.map fun (line, answer) => prompt ++ resultText tree line answer) ++
    prompt ++ "\n"

/-- What is printed of a file for its lines with their answers. -/
def account (tree : Bool) (answers : List (String × Except SyntaxError Binary64)) : String :=
  String.join (answers.map fun (line, answer) =>
    echoText line answer ++ resultText tree line answer)

section Line

variable (tree echo : Bool) (session : Session) (line : String)

/-- The session behind a report is that behind the turn of the line. -/
theorem session_reportLine :
    (reportLine tree echo session line).session = (session.evaluate line).session := by
  -- A line that is rejected is reported without being run, and neither changes the session.
  cases parsed : parse line <;> simp [reportLine, Session.evaluate, Session.run, parsed]

/-- A report tells whether its line is accepted. -/
theorem accepted_reportLine : (reportLine tree echo session line).accepted = isAccepted line := by
  cases parsed : parse line <;> simp [reportLine, isAccepted, parsed, Except.isOk, Except.toBool]

/-- A report of a line that is not blank is its result text, behind an echo where that is due. -/
theorem output_reportLine (occupied : isBlankLine line = false) :
    (reportLine tree echo session line).output =
      (if echo then echoText line (session.evaluate line).answer else "") ++
        resultText tree line (session.evaluate line).answer := by
  cases parsed : parse line with
  -- An accepted line is not echoed, whatever is due.
  | ok accepted =>
    simp [reportLine, resultText, echoText, treeLine, Session.evaluate, Session.run, parsed,
      occupied]
  | error error =>
    cases echo <;>
      simp [reportLine, resultText, echoText, prompt, Session.evaluate, parsed, occupied,
        String.append_assoc]

/-- A blank line leaves the session as it was. -/
theorem session_evaluate_of_isBlankLine {line : String} (blank : isBlankLine line = true) :
    (session.evaluate line).session = session := by
  obtain ⟨error, rejected⟩ := exists_error_of_isBlankLine blank
  exact session.session_evaluate_of_error rejected

end Line

/-- Whether a line of a file makes it fail: it is not blank, and it is rejected. -/
def fails (line : String) : Bool := !isBlankLine line && !isAccepted line

/-- A line makes its file fail if it is rejected, and not just passed over. -/
theorem fails_iff {line : String} :
    fails line = true ↔ isBlankLine line = false ∧ ∃ error, parse line = .error error := by
  cases parsed : parse line <;> simp [fails, isAccepted, parsed, Except.isOk, Except.toBool]

section Lines

variable (tree : Bool) (session : Session)

/-- The lines of a file are reported as they are answered, and fail if one of them does. -/
theorem reportLines_eq (lines : List String) :
    reportLines tree session lines =
      ⟨if lines.any fails then 1 else 0, account tree (session.answers lines), ""⟩ := by
  -- The session goes from line to line, so it is a different one in each step.
  induction lines generalizing session with
  | nil => rfl
  | cons line lines ih =>
    rw [reportLines, Session.answers_cons]
    -- A blank line is passed over in a file, which its answer, an error, does not show.
    by_cases blank : isBlankLine line = true
    · rw [if_pos blank, ih, session_evaluate_of_isBlankLine session blank]
      simp [account, echoText, resultText, blank, fails]
    · have occupied : isBlankLine line = false := Bool.eq_false_iff.mpr blank
      rw [if_neg blank]
      simp only [session_reportLine, accepted_reportLine, output_reportLine _ _ _ _ occupied, ih,
        Response.after]
      cases accepted : isAccepted line <;> simp [account, fails, occupied, accepted]

/--
Lines that do not end a dialogue are answered behind one prompt each, and it goes on with the others
in the session that they leave.
-/
theorem converse_append {lines : List String}
    (stays : ∀ line ∈ lines, String.ofList (trimBlank line.toList) ≠ exitWord)
    (others : List (List UInt8)) :
    converse tree session ((lines.map fun line => encode line.toList) ++ others) =
      (converse tree (session.afterAll lines) others).after
        (String.join ((session.answers lines).map fun (line, answer) =>
          prompt ++ resultText tree line answer)) := by
  -- A line that is read is one of those that were split off, since its bytes decode to it.
  induction lines generalizing session with
  | nil => simp [Session.answers, Session.afterAll, Session.evaluateAll, Session.following,
      Response.after]
  | cons line lines ih =>
    obtain ⟨stay, stays⟩ := List.forall_mem_cons.mp stays
    -- The bytes of a line that stems from a text decode to it, so no read fails.
    have reading : Reading.ofBytes (encode line.toList) = .line line := by
      rw [Reading.ofBytes, decode?_eq_some_iff.mpr rfl]
    rw [List.map_cons, List.cons_append, converse, reading, respond, Session.answers_cons,
      Session.afterAll_cons]
    -- A dialogue trims a line before it asks whether it is empty, a file asks for blanks.
    have trimmed : (String.ofList (trimBlank line.toList)).isEmpty = isBlankLine line := by
      rw [isBlankLine, Bool.eq_iff_iff, String.isEmpty_iff, List.isEmpty_iff]
      simp
    simp only [if_neg stay, trimmed]
    by_cases blank : isBlankLine line = true
    · simp [blank, ih _ stays, session_evaluate_of_isBlankLine session blank, Response.after,
        resultText, String.append_assoc]
    · have occupied : isBlankLine line = false := Bool.eq_false_iff.mpr blank
      simp [occupied, ih _ stays, session_reportLine, output_reportLine _ _ _ _ occupied,
        Response.after, String.append_assoc]

/-- Where all lines are read the dialogue ends well. -/
theorem converse_eq {lines : List String}
    (stays : ∀ line ∈ lines, String.ofList (trimBlank line.toList) ≠ exitWord) :
    converse tree session (lines.map fun line => encode line.toList) =
      ⟨0, transcript tree (session.answers lines), ""⟩ := by
  -- With nothing behind the lines the dialogue meets the end of its input.
  have all := converse_append tree session stays []
  rw [List.append_nil] at all
  simp [all, converse, endOfInput, Response.after, transcript, String.append_assoc]

end Lines

/-- The lines of bytes that decode to a text are the bytes of its lines. -/
theorem byteLines_eq {bytes : List UInt8} {text : String} (decoded : decode? bytes = some text) :
    byteLines bytes = (textLines text).map fun line => encode line.toList := by
  -- A newline or a return is one byte, which is in the bytes of no other character.
  rw [decode?_eq_some_iff.mp decoded, byteLines_encode, textLines, List.map_map]
  simp [Function.comp_def]

/-- What a line of a run is answered it is answered in some session. -/
theorem exists_evaluate_of_mem_answers {session : Session} {lines : List String}
    {answered : String × Except SyntaxError Binary64} (member : answered ∈ session.answers lines) :
    ∃ between : Session, (between.evaluate answered.1).answer = answered.2 := by
  -- Each line leaves a session behind, in which the next one is answered.
  induction lines generalizing session with
  | nil => contradiction
  | cons line lines ih =>
    rw [Session.answers_cons] at member
    rcases List.mem_cons.mp member with rfl | later
    · exact ⟨session, rfl⟩
    · exact ih later

/-- The result text of a line with a value has the tree of the line in front, on one line. -/
theorem resultText_ok {session : Session} {line : String} {value : Binary64}
    (answered : (session.evaluate line).answer = .ok value) :
    ∃ tree, parse line = .ok tree ∧ '\n' ∉ tree.display.toList ∧
      resultText true line (.ok value) =
        tree.display ++ "\n" ++ resultText false line (.ok value) := by
  cases parsed : parse line with
  -- A rejected line would have been answered with an error.
  | error error => simp [Session.evaluate, parsed] at answered
  | ok tree =>
    refine ⟨tree, rfl, (legible_of_parse parsed).isInline.newline_notMem, ?_⟩
    -- A line with a tree is not blank, so there is a result text to put it in front of.
    have occupied := isBlankLine_eq_false_of_parse parsed
    simp [resultText, occupied, treeLine, parsed, String.append_assoc]

/-- The result text of a line with an error shows no tree. -/
theorem resultText_error {session : Session} {line : String} {error : SyntaxError}
    (answered : (session.evaluate line).answer = .error error) :
    parse line = .error error ∧
      resultText true line (.error error) = resultText false line (.error error) := by
  cases parsed : parse line with
  | error reported => exact ⟨by simpa [Session.evaluate, parsed] using answered, rfl⟩
  | ok tree => simp [Session.evaluate, Session.run, parsed] at answered

section Reading

variable {read : List String → Except Response Options} {arguments : List String} {tree : Bool}

/-- Where no file is found in the arguments, a dialogue is held over standard input. -/
theorem respondBy_dialogue (interactive : read arguments = .ok ⟨tree, false, none⟩)
    (files : String → Except String (List UInt8)) (input : List UInt8) :
    respondBy read arguments files input = dialogue tree input := by
  rw [respondBy, interactive]
  rfl

/-- Where a file is found in the arguments, its lines are evaluated, whatever is typed. -/
theorem respondBy_file {path : String} (batch : read arguments = .ok ⟨tree, false, some path⟩)
    (files : String → Except String (List UInt8)) (input : List UInt8) :
    respondBy read arguments files input = reportFile tree path (files path) := by
  rw [respondBy, batch]
  rfl

end Reading

/-- How the two modes respond to the same lines. -/
structure ModesAgree (tree : Bool) (lines : List String) (typed given : Response) : Prop where
  /-- A dialogue prints a prompt in front of each result text, and ends well. -/
  typed_eq : typed = ⟨0, banner ++ transcript tree (Session.new.answers lines), ""⟩
  /-- Of a file the result texts are printed, with an echo in front of each error. -/
  output_eq : given.output = account tree (Session.new.answers lines)
  errors_eq : given.errors = ""
  /-- The status of a file tells whether a line that is not blank is rejected. -/
  fails : given.status = 1 ↔
    ∃ line ∈ lines, isBlankLine line = false ∧ ∃ error, parse line = .error error
  passes : given.status = 0 ↔
    ¬ ∃ line ∈ lines, isBlankLine line = false ∧ ∃ error, parse line = .error error
  /-- A tree is one line in front of the value of an accepted line. -/
  accepted : ∀ line value, (line, .ok value) ∈ Session.new.answers lines →
    ∃ tree, parse line = .ok tree ∧ '\n' ∉ tree.display.toList ∧
      resultText true line (.ok value) =
        tree.display ++ "\n" ++ resultText false line (.ok value)
  /-- A line that is rejected is reported alike whether trees are shown or not. -/
  rejected : ∀ line error, (line, .error error) ∈ Session.new.answers lines →
    parse line = .error error ∧
      resultText true line (.error error) = resultText false line (.error error)

/--
A dialogue and a file with the same text in it give the same results, line by line.

The text is any that has no line which ends a dialogue. What comes of a line is what it is answered
in one session, behind the lines in front of it. Arguments may be read in any way that finds a file
in some of them and none in others.
-/
theorem modes_agree {bytes : List UInt8} {text : String} (decoded : decode? bytes = some text)
    (stays : ∀ line ∈ textLines text, String.ofList (trimBlank line.toList) ≠ exitWord)
    {read : List String → Except Response Options} {tree : Bool} {path : String}
    {typed given : List String} (interactive : read typed = .ok ⟨tree, false, none⟩)
    (batch : read given = .ok ⟨tree, false, some path⟩)
    {files : String → Except String (List UInt8)} (content : files path = .ok bytes)
    (others : String → Except String (List UInt8)) (input : List UInt8) :
    ModesAgree tree (textLines text) (respondBy read typed others bytes)
      (respondBy read given files input) := by
  -- Both sides are put together from the answers of one run over the lines of the text.
  have conversation : respondBy read typed others bytes =
      ⟨0, banner ++ transcript tree (Session.new.answers (textLines text)), ""⟩ := by
    rw [respondBy_dialogue interactive]
    simp only [dialogue, byteLines_eq decoded, converse_eq tree .new stays, Response.after]
  have report : respondBy read given files input =
      ⟨if (textLines text).any fails then 1 else 0,
        account tree (Session.new.answers (textLines text)), ""⟩ := by
    rw [respondBy_file batch]
    simp only [reportFile, content, decoded, reportLines_eq]
  constructor
  case typed_eq => exact conversation
  case output_eq => rw [report]
  case errors_eq => rw [report]
  -- The status is that of one line that fails, and a line fails if it is rejected and not blank.
  case fails => simp [report, fails_iff]
  case passes => simp [report, ← fails_iff]
  -- The answers depend on the session, but whether there is a tree does not.
  case accepted =>
    intro line value member
    obtain ⟨between, answered⟩ := exists_evaluate_of_mem_answers member
    exact resultText_ok answered
  case rejected =>
    intro line error member
    obtain ⟨between, answered⟩ := exists_evaluate_of_mem_answers member
    exact resultText_error answered

/-- Lines that end in two ways or not at all are blank, accepted, rejected and headers. -/
theorem modes_agree_mixed :
    let text := "x = 2\r\n\n \u3000\né +\n---\r\nexit x\n(x)"
    ∃ typed given, ModesAgree true (textLines text) typed given ∧
      typed.output = "Enter 'exit' to exit the program.\n" ++
        "> (Assignment x 2)\nx = 2 = 2\n> > >   ~~~^\n  Syntax error while parsing Atom\n" ++
        "> (Header ---)\n--- = 0\n>        ~^\n  Syntax error while parsing Session\n" ++
        "> (Parenthesized x)\n(x) = 0\n> \n" ∧
      given.output =
        "(Assignment x 2)\nx = 2 = 2\n> é +\n  ~~~^\n  Syntax error while parsing Atom\n" ++
        "(Header ---)\n--- = 0\n> exit x\n       ~^\n  Syntax error while parsing Session\n" ++
        "(Parenthesized x)\n(x) = 0\n" ∧
      given.status = 1 := by
  intro text
  let bytes : List UInt8 := [120, 32, 61, 32, 50, 13, 10, 10, 32, 227, 128, 128, 10, 195, 169, 32,
    43, 10, 45, 45, 45, 13, 10, 101, 120, 105, 116, 32, 120, 10, 40, 120, 41]
  have decoded : decode? bytes = some text := decode?_eq_some_iff.mpr (by decide +kernel)
  have stays : ∀ line ∈ textLines text, String.ofList (trimBlank line.toList) ≠ exitWord := by
    decide +kernel
  have interactive : readOptions ["-t"] = .ok ⟨true, false, none⟩ := rfl
  have batch : readOptions ["lines", "--tree"] = .ok ⟨true, false, some "lines"⟩ := rfl
  let files : String → Except String (List UInt8) := fun _ => .ok bytes
  have content : files "lines" = .ok bytes := rfl
  refine ⟨_, _, modes_agree decoded stays interactive batch content files [], ?_, ?_, ?_⟩
  all_goals decide +kernel

end Reckon.CommandLine
