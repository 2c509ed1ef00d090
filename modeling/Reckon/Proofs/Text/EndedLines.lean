import Mathlib.Data.List.TakeWhile
import Reckon.Proofs.Text.Encoding
import Reckon.Text.Blank

/-! Lines with what ends them, which are the input piece by piece, and their texts. -/

namespace Reckon

section Split

variable {α : Type} [DecidableEq α] {newline carriage : α}

/-- The lines of some input, each with the newline that ends it, if one does. -/
def endedLines (newline : α) : List α → List (List α)
  | [] => []
  | c :: rest =>
    if c = newline then [c] :: endedLines newline rest
    else match endedLines newline rest with
      | [] => [[c]]
      | line :: lines => (c :: line) :: lines

/-- A line that has its newline at the end, and no other one. -/
def IsEnded (newline : α) (line : List α) : Prop :=
  ∃ front, newline ∉ front ∧ line = front ++ [newline]

/-- The first newline of some input ends its first line. -/
theorem endedLines_append_newline {front : List α} (back : List α) (absent : newline ∉ front) :
    endedLines newline (front ++ newline :: back) =
      (front ++ [newline]) :: endedLines newline back := by
  -- The characters in front of the newline are put in front of the line that it ends.
  induction front with
  | nil => simp [endedLines]
  | cons c rest ih =>
    obtain ⟨other, absent⟩ := List.ne_and_not_mem_of_not_mem_cons absent
    rw [List.cons_append, endedLines, if_neg (Ne.symm other), ih absent]
    rfl

/-- Where no newline is left there is one more line, if anything is left. -/
theorem endedLines_of_notMem {front : List α} (absent : newline ∉ front) (occupied : front ≠ []) :
    endedLines newline front = [front] := by
  induction front with
  | nil => contradiction
  | cons c rest ih =>
    obtain ⟨other, absent⟩ := List.ne_and_not_mem_of_not_mem_cons absent
    rw [endedLines, if_neg (Ne.symm other)]
    -- The last character is a line by itself, and all others go in front of it.
    cases rest with
    | nil => rfl
    | cons d rest => rw [ih absent (List.cons_ne_nil d rest)]

/-- The lines of some input make up the input. -/
theorem flatten_endedLines (newline : α) (input : List α) :
    (endedLines newline input).flatten = input := by
  -- The input is a line with its newline and an input that is shorter, or a last line.
  induction input using line_induction newline with
  | nil => rfl
  | last front absent occupied => rw [endedLines_of_notMem absent occupied, List.flatten_singleton]
  | line front back absent ih =>
    rw [endedLines_append_newline back absent, List.flatten_cons, ih, List.append_assoc,
      List.singleton_append]

/-- Lines that have ended stay what they are, whatever comes behind them. -/
theorem endedLines_flatten_append {lines : List (List α)}
    (ended : ∀ line ∈ lines, IsEnded newline line) (after : List α) :
    endedLines newline (lines.flatten ++ after) = lines ++ endedLines newline after := by
  -- Each of the lines ends with its own newline, so the next one starts behind that.
  induction lines with
  | nil => rfl
  | cons line lines ih =>
    obtain ⟨⟨front, absent, rfl⟩, others⟩ := List.forall_mem_cons.mp ended
    rw [List.flatten_cons, List.append_assoc, List.append_assoc, List.singleton_append,
      endedLines_append_newline _ absent, ih others, List.cons_append]

/-- Only the last line may have no newline that ends it. -/
theorem isEnded_of_endedLines {input line : List α} {earlier later : List (List α)}
    (split : endedLines newline input = earlier ++ line :: later) :
    (∀ before ∈ earlier, IsEnded newline before) ∧
      (line.getLast? = some newline → IsEnded newline line) := by
  induction input using line_induction newline generalizing earlier with
  | nil => simp [endedLines] at split
  | last front absent occupied =>
    -- The last line has no newline, and there is no line in front of it.
    rw [endedLines_of_notMem absent occupied] at split
    obtain ⟨rfl, same⟩ := List.append_eq_singleton_iff.mp split.symm |>.resolve_right (by simp)
    obtain ⟨rfl, rfl⟩ := List.cons.inj same
    exact ⟨by simp, fun ends => absurd (List.mem_of_getLast? ends) absent⟩
  | line front back absent ih =>
    rw [endedLines_append_newline back absent] at split
    cases earlier with
    | nil =>
      obtain ⟨rfl, _⟩ := List.cons.inj split
      exact ⟨by simp, fun _ => ⟨front, absent, rfl⟩⟩
    | cons first earlier =>
      obtain ⟨rfl, rest⟩ := List.cons.inj split
      -- The first line has ended, and those between it and the line are lines of what is left.
      obtain ⟨before, own⟩ := ih rest
      exact ⟨List.forall_mem_cons.mpr ⟨⟨front, absent, rfl⟩, before⟩, own⟩

/-- A line of some input is the only line of its own. -/
theorem endedLines_of_mem {input line : List α} (member : line ∈ endedLines newline input) :
    endedLines newline line = [line] := by
  induction input using line_induction newline with
  | nil => contradiction
  | last front absent occupied =>
    -- A last line is the only line of its input.
    have single := endedLines_of_notMem absent occupied
    rw [single, List.mem_singleton] at member
    rw [member, single]
  | line front back absent ih =>
    rw [endedLines_append_newline back absent] at member
    -- It is the first line, with nothing behind it by itself, or one of those later on.
    rcases List.mem_cons.mp member with rfl | later
    · exact endedLines_append_newline [] absent
    · exact ih later

/-- A line has a content without what ends it, which is a newline behind a return or not. -/
theorem exists_content (carriage : α) {line : List α} (single : endedLines newline line = [line]) :
    ∃ content ending, splitLines newline carriage line = [content] ∧ line = content ++ ending ∧
      ∀ c ∈ ending, c = newline ∨ c = carriage := by
  cases line using line_induction newline with
  | nil => contradiction
  | last _ absent occupied =>
    exact ⟨line, [], splitLines_of_notMem absent occupied, by simp, by simp⟩
  | line front back absent _ =>
    -- Behind the newline there would be another line.
    rw [endedLines_append_newline back absent, List.cons.injEq] at single
    have nothing : back = [] := by
      rw [← flatten_endedLines newline back, single.2]
      rfl
    subst nothing
    have content : splitLines newline carriage (front ++ [newline]) =
        [dropReturn carriage front] := splitLines_append_newline [] absent
    -- A return in front of the newline belongs to what ends the line.
    by_cases returns : front.getLast? = some carriage
    · refine ⟨_, [carriage, newline], content, ?_, by simp [or_comm]⟩
      rw [dropReturn, if_pos returns, List.append_cons front.dropLast,
        List.dropLast_append_getLast? carriage returns]
    · exact ⟨_, [newline], content, by rw [dropReturn, if_neg returns], by simp⟩

/-- Splitting the lines of some input one by one is splitting the input. -/
theorem splitLines_eq_flatMap (input : List α) :
    splitLines newline carriage input =
      (endedLines newline input).flatMap (splitLines newline carriage) := by
  induction input using line_induction newline with
  | nil => rfl
  | last front absent occupied =>
    rw [endedLines_of_notMem absent occupied, List.flatMap_singleton]
  | line front back absent ih =>
    -- The first line by itself has the content that it has in the input.
    have own : splitLines newline carriage (front ++ [newline]) = [dropReturn carriage front] :=
      splitLines_append_newline [] absent
    rw [endedLines_append_newline back absent, List.flatMap_cons, ← ih, own,
      splitLines_append_newline back absent]
    rfl

end Split

/-- White space at the end of a text makes no difference to what it is trimmed to. -/
theorem trimBlank_append {text ending : List Char} (blank : ∀ c ∈ ending, isBlank c = true) :
    trimBlank (text ++ ending) = trimBlank text := by
  have nothing : ending.dropWhile isBlank = [] := List.dropWhile_eq_nil_iff.mpr blank
  have reversed : ending.reverse.dropWhile isBlank = [] :=
    List.dropWhile_eq_nil_iff.mpr fun c member => blank c (List.mem_reverse.mp member)
  -- Trimming drops white space in front, and then in front of what is reversed.
  unfold trimBlank
  rw [List.dropWhile_append, nothing]
  split
  -- A text of white space only is trimmed to nothing with the ending or without.
  case isTrue all => rw [List.isEmpty_iff.mp all]
  case isFalse => simp [List.dropWhile_append, reversed]

/-- Bytes that are those of a text. -/
def IsText (bytes : List UInt8) : Prop := ∃ text, decode? bytes = some text

/-- Bytes are those of a text when some characters are encoded as them. -/
theorem isText_iff {bytes : List UInt8} : IsText bytes ↔ ∃ text, bytes = encode text := by
  simp only [IsText, decode?_eq_some_iff]
  -- A text and its characters are the same but for their type.
  constructor
  · rintro ⟨text, rfl⟩
    exact ⟨_, rfl⟩
  · rintro ⟨text, rfl⟩
    exact ⟨.ofList text, by rw [String.toList_ofList]⟩

/-- The lines of the bytes of a text are the bytes of its lines. -/
theorem endedLines_encode (text : List Char) :
    endedLines 10 (encode text) = (endedLines '\n' text).map encode := by
  -- A byte of a newline stands for a newline, and is part of no other character.
  induction text using line_induction '\n' with
  | nil => rfl
  | last front absent occupied =>
    rw [endedLines_of_notMem absent occupied, List.map_singleton,
      endedLines_of_notMem (mt newline_mem_encode_iff.mp absent) (encode_ne_nil occupied)]
  | line front back absent ih =>
    rw [encode_line, endedLines_append_newline _ (mt newline_mem_encode_iff.mp absent), ih,
      endedLines_append_newline _ absent, List.map_cons, encode_line front [], encode_nil]

/-- Texts in a row are a text. -/
theorem isText_flatten {lines : List (List UInt8)} (texts : ∀ line ∈ lines, IsText line) :
    IsText lines.flatten := by
  induction lines with
  | nil => exact isText_iff.mpr ⟨[], rfl⟩
  | cons line lines ih =>
    obtain ⟨first, others⟩ := List.forall_mem_cons.mp texts
    -- The characters of the first text and of all others make up one text.
    obtain ⟨front, rfl⟩ := isText_iff.mp first
    obtain ⟨back, whole⟩ := isText_iff.mp (ih others)
    exact isText_iff.mpr ⟨front ++ back, by rw [List.flatten_cons, whole, encode_append]⟩

/-- Bytes are those of a text when each of their lines is. -/
theorem isText_iff_forall_mem {bytes : List UInt8} :
    IsText bytes ↔ ∀ line ∈ endedLines 10 bytes, IsText line := by
  constructor
  · intro whole line member
    obtain ⟨text, rfl⟩ := isText_iff.mp whole
    -- The lines of the bytes are the encoded lines of the text.
    rw [endedLines_encode] at member
    obtain ⟨part, _, rfl⟩ := List.mem_map.mp member
    exact isText_iff.mpr ⟨part, rfl⟩
  · intro texts
    -- The bytes are their lines in a row.
    rw [← flatten_endedLines 10 bytes]
    exact isText_flatten texts

end Reckon
