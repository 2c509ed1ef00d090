import Reckon.Proofs.CommandLine.Modes
import Reckon.Proofs.Text.EndedLines

/-! How far the input is read: up to a line that ends a dialogue or that is no text. -/

namespace Reckon.CommandLine

/-- A line of bytes ends a dialogue: it is a text, the word for it but for white space. -/
def Leaves (line : List UInt8) : Prop :=
  ∃ text, decode? line = some text ∧ String.ofList (trimBlank text.toList) = exitWord

/-- What a dialogue prints for lines that do not end it, up to the prompt behind them. -/
def conversation (tree : Bool) (lines : List String) : String :=
  banner ++ String.join ((Session.new.answers lines).map fun (line, answer) =>
    prompt ++ resultText tree line answer) ++ prompt

/-- The first of some elements that have a property stands behind others that do not. -/
theorem exists_first {α : Type} {P : α → Prop} {elements : List α} (found : ∃ x ∈ elements, P x) :
    ∃ front x back, elements = front ++ x :: back ∧ P x ∧ ∀ y ∈ front, ¬ P y := by
  classical
  obtain ⟨x, member, holds⟩ := found
  -- A search for the property ends at the first element that has it.
  have findable : (elements.find? fun x => decide (P x)).isSome = true :=
    List.find?_isSome.mpr ⟨x, member, decide_eq_true holds⟩
  obtain ⟨first, found⟩ := Option.isSome_iff_exists.mp findable
  obtain ⟨own, front, back, split, before⟩ := List.find?_eq_some_iff_append.mp found
  exact ⟨front, first, back, split, of_decide_eq_true own, by simpa using before⟩

section Line

variable {line content : List UInt8} (single : endedLines 10 line = [line])
  (one : byteLines line = [content])

include single one

/-- A line and its content differ by the bytes of white space behind the content. -/
theorem exists_ending :
    ∃ ending, line = content ++ encode ending ∧ ∀ c ∈ ending, isBlank c = true := by
  obtain ⟨own, ending, split, whole, ends⟩ := exists_content 13 single
  obtain rfl : own = content := List.singleton_inj.mp (split.symm.trans one)
  refine ⟨ending.map fun byte => Char.ofNat byte.toNat, ?_, ?_⟩
  · -- The bytes that end a line are characters of one byte each.
    rw [whole]
    congr 1
    clear whole
    induction ending with
    | nil => rfl
    | cons byte ending ih =>
      obtain ⟨first, others⟩ := List.forall_mem_cons.mp ends
      rw [List.map_cons, encode_cons, ← ih others]
      rcases first with rfl | rfl <;> rfl
  · intro c member
    obtain ⟨byte, among, rfl⟩ := List.mem_map.mp member
    rcases ends byte among with rfl | rfl <;> decide

/-- The content of a line that is a text is a text that is trimmed to the same. -/
theorem exists_decode?_content {text : String} (decoded : decode? line = some text) :
    ∃ inner, decode? content = some inner ∧ trimBlank inner.toList = trimBlank text.toList := by
  obtain ⟨ending, whole, blank⟩ := exists_ending single one
  have bytes := decode?_eq_some_iff.mp decoded
  rw [bytes, byteLines_encode] at one
  obtain ⟨inner, _, rfl⟩ := List.map_eq_singleton_iff.mp one
  -- The characters of the content and those behind it are the characters of the line.
  rw [← encode_append] at whole
  have again : decode? line = some (.ofList (inner ++ ending)) :=
    decode?_eq_some_iff.mpr (by rw [whole, String.toList_ofList])
  obtain rfl := Option.some.inj (decoded.symm.trans again)
  refine ⟨.ofList inner, decode?_eq_some_iff.mpr (by rw [String.toList_ofList]), ?_⟩
  rw [String.toList_ofList, String.toList_ofList, trimBlank_append blank]

/-- A line is a text if its content is. -/
theorem isText_of_content (inner : IsText content) : IsText line := by
  -- Behind the content there are only bytes that are characters by themselves.
  obtain ⟨ending, whole, _⟩ := exists_ending single one
  obtain ⟨text, rfl⟩ := isText_iff.mp inner
  exact isText_iff.mpr ⟨text ++ ending, by rw [whole, encode_append]⟩

/-- A line that ends a dialogue is answered with a farewell. -/
theorem respond_of_leaves (tree : Bool) (session : Session) (leaves : Leaves line) :
    respond tree session (.ofBytes content) = .leave ⟨0, "Bye bye.\n", ""⟩ := by
  obtain ⟨text, decoded, word⟩ := leaves
  -- What is read is the content, which is trimmed to the same word.
  obtain ⟨inner, read, same⟩ := exists_decode?_content single one decoded
  rw [Reading.ofBytes, read, respond, same, word, if_pos rfl]

/-- A line that is no text is answered with an error. -/
theorem respond_of_not_isText (tree : Bool) (session : Session) (broken : ¬ IsText line) :
    respond tree session (.ofBytes content) =
      .leave ⟨1, "",
        "Failed to read from standard input: stream did not contain valid UTF-8\n"⟩ := by
  -- If the content could be decoded, so could the line.
  have unread : decode? content = none := by
    refine Option.eq_none_iff_forall_ne_some.mpr fun text read => broken ?_
    exact isText_of_content single one ⟨text, read⟩
  rw [Reading.ofBytes, unread]
  rfl

end Line

/-- Where no line of some bytes ends a dialogue, no line of their text does. -/
theorem forall_textLines {bytes : List UInt8} {text : String} (decoded : decode? bytes = some text)
    (stays : ∀ line ∈ endedLines 10 bytes, ¬ Leaves line) :
    ∀ line ∈ textLines text, String.ofList (trimBlank line.toList) ≠ exitWord := by
  intro line member word
  -- A line of the text is found again among the lines of the bytes.
  have content : encode line.toList ∈ byteLines bytes := by
    rw [byteLines_eq decoded]
    exact List.mem_map_of_mem member
  rw [byteLines, splitLines_eq_flatMap] at content
  obtain ⟨whole, among, inside⟩ := List.mem_flatMap.mp content
  have single := endedLines_of_mem among
  -- The line of the text is the content of one line of the bytes, and both are trimmed alike.
  obtain ⟨own, _, one, _, _⟩ := exists_content 13 single
  rw [one, List.mem_singleton] at inside
  subst inside
  obtain ⟨outer, read⟩ := isText_iff_forall_mem.mp ⟨text, decoded⟩ whole among
  obtain ⟨inner, again, same⟩ := exists_decode?_content single one read
  obtain rfl : line = inner := Option.some.inj ((decode?_eq_some_iff.mpr rfl).symm.trans again)
  exact stays whole among ⟨outer, read, by rw [← same, word]⟩

/-- A dialogue is over with the first line that is not answered and gone on from. -/
theorem dialogue_eq {tree : Bool} {input line : List UInt8} {earlier later : List (List UInt8)}
    {text : String} {response : Response}
    (split : endedLines 10 input = earlier ++ line :: later)
    (decoded : decode? earlier.flatten = some text) (stays : ∀ before ∈ earlier, ¬ Leaves before)
    (closing : ∀ session content, endedLines 10 line = [line] → byteLines line = [content] →
      respond tree session (.ofBytes content) = .leave response) :
    dialogue tree input = response.after (conversation tree (textLines text)) := by
  -- The lines in front are all ended, so together they split into themselves.
  have lines : endedLines 10 earlier.flatten = earlier := by
    simpa [endedLines] using endedLines_flatten_append (isEnded_of_endedLines split).1 []
  have member : line ∈ endedLines 10 input := split ▸ List.mem_append_right _ List.mem_cons_self
  have single := endedLines_of_mem member
  obtain ⟨content, _, one, _, _⟩ := exists_content 13 single
  -- The lines in front are those of a text, so they are answered one by one.
  have front : earlier.flatMap byteLines =
      (textLines text).map fun line => encode line.toList := by
    rw [← byteLines_eq decoded, byteLines, splitLines_eq_flatMap, lines]
    rfl
  have answered := converse_append tree .new (forall_textLines decoded (lines.symm ▸ stays))
    (content :: later.flatMap byteLines)
  rw [converse, closing _ content single one, ← front] at answered
  have bytes : byteLines input = earlier.flatMap byteLines ++ content :: later.flatMap byteLines := by
    rw [byteLines, splitLines_eq_flatMap, split, List.flatMap_append, List.flatMap_cons, one]
    rfl
  simp [dialogue, bytes, answered, Response.after, conversation, String.append_assoc]

/-- A dialogue that no line ends prints a newline in the end. -/
theorem dialogue_of_forall_not_leaves (tree : Bool) {input : List UInt8} {text : String}
    (decoded : decode? input = some text) (stays : ∀ line ∈ endedLines 10 input, ¬ Leaves line) :
    dialogue tree input = ⟨0, conversation tree (textLines text) ++ "\n", ""⟩ := by
  rw [dialogue, byteLines_eq decoded, converse_eq tree .new (forall_textLines decoded stays)]
  simp [Response.after, transcript, conversation, String.append_assoc]

/-- A line of some input ends a dialogue, and every line in front of it is a text. -/
def LeavesAt (input : List UInt8) (earlier : List (List UInt8)) (line : List UInt8) : Prop :=
  (∃ later, endedLines 10 input = earlier ++ line :: later) ∧
    (∀ before ∈ earlier, IsText before) ∧ Leaves line

/-- The first line that ends a dialogue decides how it goes. -/
theorem dialogue_of_leavesAt (tree : Bool) {input line : List UInt8} {earlier : List (List UInt8)}
    (leaves : LeavesAt input earlier line) (stays : ∀ before ∈ earlier, ¬ Leaves before) :
    ∃ text, decode? earlier.flatten = some text ∧ dialogue tree input =
      ⟨0, conversation tree (textLines text) ++ "Bye bye.\n", ""⟩ := by
  obtain ⟨⟨later, split⟩, texts, word⟩ := leaves
  -- The lines before the word are a text in one piece too.
  obtain ⟨text, decoded⟩ := isText_flatten texts
  exact ⟨text, decoded, dialogue_eq split decoded stays fun session content single one =>
    respond_of_leaves single one tree session word⟩

/-- Where a dialogue gets to some line that ends it, it gets to the first line that does. -/
theorem exists_first_leaving (earlier : List (List UInt8)) {line : List UInt8}
    (word : Leaves line) :
    ∃ front first, (∀ before ∈ front, ¬ Leaves before) ∧
      ∀ input, LeavesAt input earlier line → LeavesAt input front first := by
  -- The line itself leaves, so among it and those in front there is a first one.
  have found : ∃ part ∈ earlier ++ [line], Leaves part :=
    ⟨line, List.mem_append_right _ (List.mem_singleton_self line), word⟩
  obtain ⟨front, first, back, whole, own, stays⟩ := exists_first found
  refine ⟨front, first, stays, fun input ⟨⟨later, split⟩, texts, _⟩ => ⟨⟨back ++ later, ?_⟩, ?_, own⟩⟩
  · rw [split, List.append_cons, whole, List.append_assoc, List.cons_append]
  · intro before member
    have among : before ∈ earlier ++ [line] := whole ▸ List.mem_append_left _ member
    -- All that come before the first one are texts: those in front, and the line itself.
    rcases List.mem_append.mp among with inside | last
    · exact texts before inside
    · obtain ⟨text, decoded, _⟩ := word
      exact ⟨text, List.mem_singleton.mp last ▸ decoded⟩

/-- A dialogue gets to the same line if other bytes follow it. -/
theorem LeavesAt.append {input line : List UInt8} {earlier : List (List UInt8)}
    (leaves : LeavesAt input earlier line) {after : List UInt8}
    (ended : line.getLast? = some 10 ∨ after = []) :
    LeavesAt ((earlier ++ [line]).flatten ++ after) earlier line := by
  obtain ⟨⟨later, split⟩, texts, word⟩ := leaves
  obtain ⟨before, own⟩ := isEnded_of_endedLines split
  refine ⟨?_, texts, word⟩
  -- Without a newline at its end the line is the last one, and more bytes would belong to it.
  rcases ended with last | rfl
  · have all : ∀ part ∈ earlier ++ [line], IsEnded 10 part :=
      List.forall_mem_append.mpr ⟨before, List.forall_mem_singleton.mpr (own last)⟩
    refine ⟨endedLines 10 after, ?_⟩
    rw [endedLines_flatten_append all, List.append_assoc, List.singleton_append]
  · have member : line ∈ endedLines 10 input := split ▸ List.mem_append_right _ List.mem_cons_self
    refine ⟨[], ?_⟩
    rw [List.append_nil, List.flatten_append, List.flatten_singleton,
      endedLines_flatten_append before, endedLines_of_mem member]

/-- How far a dialogue reads its input, given its response to any input. -/
structure DialogueStops (tree : Bool) (response : List UInt8 → Response) (input : List UInt8) :
    Prop where
  /-- A line that ends the dialogue decides how it goes, whatever bytes follow the line. -/
  decided : ∀ earlier line, LeavesAt input earlier line →
    (response input).status = 0 ∧ (response input).errors = "" ∧
      ∀ after, (line.getLast? = some 10 ∨ after = []) →
        response ((earlier ++ [line]).flatten ++ after) = response input
  /-- The first such line is answered with a farewell, behind all that the earlier lines print. -/
  left : ∀ earlier line, LeavesAt input earlier line → (∀ before ∈ earlier, ¬ Leaves before) →
    ∃ text, decode? earlier.flatten = some text ∧
      response input = ⟨0, conversation tree (textLines text) ++ "Bye bye.\n", ""⟩
  /-- Otherwise the first line that is no text is an error, behind all that the earlier lines print
  when nothing follows them. -/
  broken : (¬ ∃ earlier line, LeavesAt input earlier line) →
    (∃ line ∈ endedLines 10 input, ¬ IsText line) →
    ∃ earlier line later text, endedLines 10 input = earlier ++ line :: later ∧ ¬ IsText line ∧
      decode? earlier.flatten = some text ∧
      response earlier.flatten = ⟨0, conversation tree (textLines text) ++ "\n", ""⟩ ∧
      response input = ⟨1, conversation tree (textLines text),
        "Failed to read from standard input: stream did not contain valid UTF-8\n"⟩

/-- How far a file is read, given the response to its bytes. -/
structure FileStops (tree : Bool) (path : String) (bytes : List UInt8) (response : Response) :
    Prop where
  /-- All lines of a text are answered, also those that end a dialogue. -/
  whole : ∀ text, decode? bytes = some text →
    response = ⟨if (textLines text).any fails then 1 else 0,
      account tree (Session.new.answers (textLines text)), ""⟩
  /-- No line is answered if any of them is no text. -/
  broken : (∃ line ∈ endedLines 10 bytes, ¬ IsText line) →
    response = ⟨1, "", "Failed to read the input file '" ++ path ++
      "': stream did not contain valid UTF-8\n"⟩

/-- A dialogue stops reading at the first line that ends it or is no text. -/
theorem dialogueStops (tree : Bool) (input : List UInt8) :
    DialogueStops tree (dialogue tree) input := by
  constructor
  case decided =>
    intro earlier line leaves
    -- Whatever follows, it is the same first line that decides, in front of this one or this one.
    obtain ⟨front, first, stays, moved⟩ := exists_first_leaving earlier leaves.2.2
    obtain ⟨text, decoded, response⟩ := dialogue_of_leavesAt tree (moved input leaves) stays
    rw [response]
    refine ⟨rfl, rfl, fun after ended => ?_⟩
    obtain ⟨again, same, other⟩ :=
      dialogue_of_leavesAt tree (moved _ (leaves.append ended)) stays
    obtain rfl := Option.some.inj (decoded.symm.trans same)
    exact other
  case left =>
    intro earlier line leaves stays
    exact dialogue_of_leavesAt tree leaves stays
  case broken =>
    intro unended invalid
    obtain ⟨earlier, line, later, split, broken, before⟩ := exists_first invalid
    -- The line is the first that is no text.
    have texts : ∀ before ∈ earlier, IsText before :=
      fun part member => not_not.mp (before part member)
    have stays : ∀ before ∈ earlier, ¬ Leaves before := by
      -- The lines in front of such a line would all be texts, as all of these are.
      intro part member word
      obtain ⟨front, back, rfl⟩ := List.append_of_mem member
      refine unended ⟨front, part, ⟨back ++ line :: later, ?_⟩, ?_, word⟩
      · rw [split, List.append_assoc, List.cons_append]
      · exact (List.forall_mem_append.mp texts).1
    obtain ⟨text, decoded⟩ := isText_flatten texts
    have lines : endedLines 10 earlier.flatten = earlier := by
      simpa [endedLines] using endedLines_flatten_append (isEnded_of_endedLines split).1 []
    refine ⟨earlier, line, later, text, split, broken, decoded, ?_, ?_⟩
    · exact dialogue_of_forall_not_leaves tree decoded (lines.symm ▸ stays)
    · have stopped := dialogue_eq split decoded stays fun session content single one =>
        respond_of_not_isText single one tree session broken
      simpa [Response.after] using stopped

/-- A file is read as a whole, and not at all unless each of its lines is a text. -/
theorem fileStops (tree : Bool) (path : String) (bytes : List UInt8) :
    FileStops tree path bytes (reportFile tree path (.ok bytes)) := by
  constructor
  case whole =>
    intro text decoded
    simp only [reportFile, decoded, reportLines_eq]
  case broken =>
    rintro ⟨line, member, broken⟩
    -- Bytes are a text only if all of their lines are.
    have unread : decode? bytes = none := by
      refine Option.eq_none_iff_forall_ne_some.mpr fun text read => broken ?_
      exact isText_iff_forall_mem.mp ⟨text, read⟩ line member
    simp [reportFile, unread, unreadableFile, notUtf8, String.append_assoc]

/--
A dialogue reads its input up to the first line that ends it or is no text, and a file is read as a
whole or not at all.
-/
theorem reading_stops {read : List String → Except Response Options} {typed given : List String}
    {typedTree givenTree : Bool} {path : String}
    (interactive : read typed = .ok ⟨typedTree, false, none⟩)
    (batch : read given = .ok ⟨givenTree, false, some path⟩)
    {files : String → Except String (List UInt8)} {bytes : List UInt8}
    (content : files path = .ok bytes) (others : String → Except String (List UInt8))
    (input : List UInt8) :
    DialogueStops typedTree (respondBy read typed others) input ∧
      FileStops givenTree path bytes (respondBy read given files input) := by
  -- Both ways of reading are those of the modes that the arguments ask for.
  have typed_eq : respondBy read typed others = dialogue typedTree :=
    funext (respondBy_dialogue interactive others)
  have given_eq : respondBy read given files input = reportFile givenTree path (.ok bytes) := by
    rw [respondBy_file batch, content]
  rw [typed_eq, given_eq]
  exact ⟨dialogueStops typedTree input, fileStops givenTree path bytes⟩

/-- Behind the line that ends a dialogue not even a byte that is no text matters, and in a file such
a line is answered. -/
theorem reading_stops_exit :
    let input : List UInt8 := [120, 61, 49, 10, 227, 128, 128, 101, 120, 105, 116, 32, 13, 10, 255]
    let bytes : List UInt8 := [101, 120, 105, 116, 61, 50, 10, 101, 120, 105, 116]
    let files : String → Except String (List UInt8) := fun _ => .ok bytes
    respondTo [] files input =
        ⟨0, "Enter 'exit' to exit the program.\n> x=1 = 1\n> Bye bye.\n", ""⟩ ∧
      respondTo ["lines"] files input = ⟨0, "exit=2 = 2\nexit = 2\n", ""⟩ ∧
      DialogueStops false (respondTo [] files) input ∧
      FileStops false "lines" bytes (respondTo ["lines"] files input) := by
  intro input bytes files
  have interactive : readOptions [] = .ok ⟨false, false, none⟩ := rfl
  have batch : readOptions ["lines"] = .ok ⟨false, false, some "lines"⟩ := rfl
  have content : files "lines" = .ok bytes := rfl
  exact ⟨by decide +kernel, by decide +kernel, reading_stops interactive batch content files input⟩

end Reckon.CommandLine
