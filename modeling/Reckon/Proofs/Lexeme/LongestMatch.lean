import Mathlib.Data.List.TakeWhile
import Reckon.Proofs.Lexeme.Pattern
import Reckon.TokenLaws

/-! The lexeme that is taken at the start of a text is the longest match of any pattern there. -/

namespace Reckon

/-- Whether any declared pattern matches a text, be it of a lexeme or of what is skipped. -/
def Recognized (text : List Char) : Prop :=
  (∃ token : Token, token.Matches text) ∨ text ∈ Pattern.skipped.matches'

/-- A part at the start of a text whose characters are of one class is part of its longest run. -/
theorem isPrefix_takeWhile {inClass : Char → Bool} {part text : List Char}
    (start : part <+: text) (inside : ∀ c ∈ part, inClass c = true) :
    part <+: text.takeWhile inClass := by
  -- The run takes the whole part first, and goes on in what is behind.
  obtain ⟨rest, rfl⟩ := start
  rw [List.takeWhile_append_of_pos inside]
  exact List.prefix_append _ _

/-- The longest run is not empty where a part of its class starts that is not. -/
theorem takeWhile_ne_nil {inClass : Char → Bool} {part text : List Char} (occupied : part ≠ [])
    (start : part <+: text) (inside : ∀ c ∈ part, inClass c = true) :
    text.takeWhile inClass ≠ [] := by
  intro empty
  have longer := isPrefix_takeWhile start inside
  rw [empty] at longer
  exact occupied (List.prefix_nil.mp longer)

/-- A run of characters of one class ends where another character follows. -/
theorem takeWhile_append_cons {inClass : Char → Bool} {run : List Char} {c : Char}
    (inside : ∀ c ∈ run, inClass c = true) (ends : inClass c = false) (rest : List Char) :
    (run ++ c :: rest).takeWhile inClass = run ∧
      (run ++ c :: rest).dropWhile inClass = c :: rest := by
  -- Every character of the run is passed, and the one behind it stops both.
  rw [List.takeWhile_append_of_pos inside, List.dropWhile_append_of_pos inside]
  simp [ends]

namespace Token

/-- The kinds of lexeme whose texts start with a digit. -/
def IsNumeral (token : Token) : Prop :=
  token = .hexadecimal ∨ token = .binary ∨ token = .decimal

/-- No decimal digit is a letter. -/
theorem isAlpha_eq_false_of_isDigit {c : Char} (digit : c.isDigit = true) :
    c.isAlpha = false := by
  -- The code points of digits lie below those of all letters.
  have code := isDigit_iff.mp digit
  rw [Bool.eq_false_iff, ne_eq, isAlpha_iff]
  omega

/-- A character that is a lexeme by itself is neither a digit, nor a letter, nor a gap. -/
theorem excluded_of_symbol {token : Token} {c : Char} (symbol : ofSymbol? c = some token) :
    c.isDigit = false ∧ c.isAlpha = false ∧ isGap c = false := by
  -- There are eight such characters, and each is tested.
  unfold ofSymbol? at symbol
  split at symbol <;> first | contradiction | decide

/-- A gap is neither a digit nor a letter. -/
theorem excluded_of_gap {c : Char} (gap : isGap c = true) :
    c.isDigit = false ∧ c.isAlpha = false := by
  have code := isGap_iff.mp gap
  rw [Bool.eq_false_iff, Bool.eq_false_iff, ne_eq, ne_eq, isDigit_iff, isAlpha_iff]
  omega

/-- A lexeme starts with a character of its kind, and is that character if it is a symbol. -/
theorem Matches.head {token : Token} {text : List Char} (matched : token.Matches text) :
    ∃ c rest, text = c :: rest ∧
      ((c.isDigit = true ∧ token.IsNumeral) ∨ (c.isAlpha = true ∧ token = .name) ∨
        (ofSymbol? c = some token ∧ rest = [])) := by
  cases token with
  -- A hexadecimal literal starts with the digit of its marker.
  | hexadecimal =>
    obtain ⟨digits, _, _, rfl⟩ := matches_hexadecimal.mp matched
    exact ⟨_, _, rfl, .inl ⟨rfl, .inl rfl⟩⟩
  | binary =>
    obtain ⟨digits, occupied, inside, rfl⟩ := matches_binary.mp matched
    obtain ⟨c, rest, rfl⟩ := List.exists_cons_of_ne_nil occupied
    have bit := isBinaryDigit_iff.mp (inside c List.mem_cons_self)
    -- Binary digits are decimal ones too.
    exact ⟨c, _, rfl, .inl ⟨isDigit_iff.mpr (by omega), .inr (.inl rfl)⟩⟩
  | decimal =>
    obtain ⟨whole, fraction, occupied, inside, _, rfl⟩ := matches_decimal.mp matched
    obtain ⟨c, rest, rfl⟩ := List.exists_cons_of_ne_nil occupied
    exact ⟨c, _, rfl, .inl ⟨inside c List.mem_cons_self, .inr (.inr rfl)⟩⟩
  | name =>
    obtain ⟨occupied, inside⟩ := matches_name.mp matched
    obtain ⟨c, rest, rfl⟩ := List.exists_cons_of_ne_nil occupied
    exact ⟨c, rest, rfl, .inr (.inl ⟨inside c List.mem_cons_self, rfl⟩)⟩
  -- The patterns of all other kinds are single characters.
  | plus => exact ⟨'+', [], matched, .inr (.inr ⟨rfl, rfl⟩)⟩
  | minus => exact ⟨'-', [], matched, .inr (.inr ⟨rfl, rfl⟩)⟩
  | star => exact ⟨'*', [], matched, .inr (.inr ⟨rfl, rfl⟩)⟩
  | slash => exact ⟨'/', [], matched, .inr (.inr ⟨rfl, rfl⟩)⟩
  | caret => exact ⟨'^', [], matched, .inr (.inr ⟨rfl, rfl⟩)⟩
  | equals => exact ⟨'=', [], matched, .inr (.inr ⟨rfl, rfl⟩)⟩
  | leftParen => exact ⟨'(', [], matched, .inr (.inr ⟨rfl, rfl⟩)⟩
  | rightParen => exact ⟨')', [], matched, .inr (.inr ⟨rfl, rfl⟩)⟩

/-- No pattern of a lexeme matches the empty text. -/
theorem Matches.ne_nil {token : Token} {text : List Char} (matched : token.Matches text) :
    text ≠ [] := by
  obtain ⟨c, rest, rfl, _⟩ := matched.head
  simp

/-- No lexeme starts with a gap. -/
theorem Matches.head_solid {token : Token} {c : Char} {rest : List Char}
    (matched : token.Matches (c :: rest)) : isGap c = false := by
  obtain ⟨d, others, same, start⟩ := matched.head
  obtain ⟨rfl, rfl⟩ := List.cons.inj same
  by_contra gap
  -- A gap is none of the characters that lexemes start with.
  have excluded := excluded_of_gap (by simpa using gap : isGap c = true)
  rcases start with ⟨digit, _⟩ | ⟨letter, _⟩ | ⟨symbol, _⟩
  · simp [excluded.1] at digit
  · simp [excluded.2] at letter
  · exact gap (by simp [(excluded_of_symbol symbol).2.2])

/-- A decimal literal has digits and a point in it. -/
theorem mem_decimal {text : List Char} (matched : Matches .decimal text) {c : Char}
    (member : c ∈ text) : c.isDigit = true ∨ c = '.' := by
  obtain ⟨whole, fraction, _, wholeDigits, fractionDigits, rfl⟩ := matches_decimal.mp matched
  rcases List.mem_append.mp member with inWhole | inRest
  · exact .inl (wholeDigits c inWhole)
  · split at inRest
    · simp at inRest
    -- Behind the digits in front there are the point and those of the fraction.
    · rcases List.mem_cons.mp inRest with point | inFraction
      · exact .inr point
      · exact .inl (fractionDigits c inFraction)

/-- A binary literal has binary digits and its marker in it. -/
theorem mem_binary {text : List Char} (matched : Matches .binary text) {c : Char}
    (member : c ∈ text) : isBinaryDigit c = true ∨ c = 'b' := by
  obtain ⟨digits, _, inside, rfl⟩ := matches_binary.mp matched
  rcases List.mem_append.mp member with inDigits | marker
  · exact .inl (inside c inDigits)
  · exact .inr (List.mem_singleton.mp marker)

/-- No lexeme has a gap in it. -/
theorem Matches.solid {token : Token} {text : List Char} (matched : token.Matches text) :
    ∀ c ∈ text, isGap c = false := by
  intro c member
  -- A symbol is its only character, and the other kinds are made of classes of characters.
  obtain ⟨first, rest, rfl, ⟨_, numeral⟩ | ⟨_, rfl⟩ | ⟨symbol, rfl⟩⟩ := matched.head
  · rcases numeral with rfl | rfl | rfl
    -- The marker in front of hexadecimal digits is made of two more characters.
    · obtain ⟨digits, _, inside, cut⟩ := matches_hexadecimal.mp matched
      rw [cut] at member
      rcases List.mem_cons.mp member with rfl | member
      · rfl
      · rcases List.mem_cons.mp member with rfl | member
        · rfl
        · exact solid_of_class rfl rfl (inside c member)
    · rcases mem_binary matched member with digit | rfl
      · exact solid_of_class rfl rfl digit
      · rfl
    · rcases mem_decimal matched member with digit | rfl
      · exact solid_of_class rfl rfl digit
      · rfl
  · exact solid_of_class rfl rfl ((matches_name.mp matched).2 c member)
  · rw [List.mem_singleton.mp member]
    exact (excluded_of_symbol symbol).2.2

/-- What is skipped is no longer than a lexeme at the same start. -/
theorem Matches.not_skipped {token : Token} {taken longer text : List Char}
    (matched : token.Matches taken) (takenStart : taken <+: text) (start : longer <+: text)
    (more : taken.length < longer.length) : longer ∉ Pattern.skipped.matches' := by
  intro gaps
  -- It would start with the first character of the lexeme, and that is no gap.
  obtain ⟨c, rest, rfl, _⟩ := matched.head
  have within := List.prefix_of_prefix_length_le takenStart start (by omega)
  have gap := (Pattern.mem_skipped.mp gaps).2 c (within.subset List.mem_cons_self)
  rw [matched.head_solid] at gap
  contradiction

/-- A lexeme at the start of a text fits into the one that the reader of its kind takes. -/
theorem leadingHexadecimal?_of_matches {text part : List Char} (start : part <+: text)
    (matched : Matches .hexadecimal part) :
    ∃ taken, leadingHexadecimal? text = some taken ∧ part.length ≤ taken.length := by
  obtain ⟨digits, occupied, inside, rfl⟩ := matches_hexadecimal.mp matched
  obtain ⟨behind, rfl⟩ := start
  -- The digits of the literal are part of the run of digits that is taken.
  have longer := isPrefix_takeWhile (List.prefix_append digits behind) inside
  have found := takeWhile_ne_nil occupied (List.prefix_append digits behind) inside
  refine ⟨'0' :: 'x' :: (digits ++ behind).takeWhile isHexDigit, ?_, ?_⟩
  · simp [leadingHexadecimal?, found]
  · simpa using longer.length_le

/-- A hexadecimal literal that is taken matches its pattern. -/
theorem matches_of_leadingHexadecimal? {text taken : List Char}
    (found : leadingHexadecimal? text = some taken) : Matches .hexadecimal taken := by
  unfold leadingHexadecimal? at found
  split at found
  -- Something is taken only behind the marker, and only where a digit follows.
  · rename_i rest
    dsimp only at found
    split at found
    · contradiction
    · rename_i occupied
      simp only [Option.some.injEq] at found
      subst found
      exact matches_hexadecimal.mpr ⟨_, by simpa using occupied,
        fun c member => List.mem_takeWhile_imp member, rfl⟩
  · contradiction

/-- A binary literal at the start of a text is the one that is taken. -/
theorem leadingBinary?_of_matches {text part : List Char} (start : part <+: text)
    (matched : Matches .binary part) : leadingBinary? text = some part := by
  obtain ⟨digits, occupied, inside, rfl⟩ := matches_binary.mp matched
  obtain ⟨behind, rfl⟩ := start
  -- The marker is no digit, so the run of digits ends in front of it.
  obtain ⟨run, marker⟩ :=
    takeWhile_append_cons inside (by decide : isBinaryDigit 'b' = false) behind
  rw [List.append_assoc, List.singleton_append]
  simp only [leadingBinary?, run, marker]
  -- There is a digit at least, so the run is taken with its marker.
  cases digits with
  | nil => contradiction
  | cons c rest => rfl

/-- A binary literal that is taken matches its pattern. -/
theorem matches_of_leadingBinary? {text taken : List Char}
    (found : leadingBinary? text = some taken) : Matches .binary taken := by
  simp only [leadingBinary?] at found
  split at found
  -- Something is taken only if the run has a digit and ends at a marker.
  · rename_i occupied marker
    simp only [Option.some.injEq] at found
    subst found
    exact matches_binary.mpr ⟨_, by simpa using occupied,
      fun c member => List.mem_takeWhile_imp member, rfl⟩
  · contradiction

/-- A decimal literal at the start of a text fits into the one that is taken. -/
theorem leadingDecimal?_of_matches {text part : List Char} (start : part <+: text)
    (matched : Matches .decimal part) :
    ∃ taken, leadingDecimal? text = some taken ∧ part.length ≤ taken.length := by
  obtain ⟨whole, fraction, occupied, wholeDigits, fractionDigits, rfl⟩ := matches_decimal.mp matched
  obtain ⟨behind, rfl⟩ := start
  by_cases point : fraction = []
  · -- The digits alone are part of the longest run of digits, which is taken in any case.
    rw [if_pos point, List.append_nil]
    have found := takeWhile_ne_nil occupied (List.prefix_append whole behind) wholeDigits
    have bound := (isPrefix_takeWhile (List.prefix_append whole behind) wholeDigits).length_le
    simp only [leadingDecimal?, List.isEmpty_iff, if_neg found]
    split
    · refine ⟨_, rfl, ?_⟩
      split
      · exact bound
      · rw [List.length_append]
        omega
    · exact ⟨_, rfl, bound⟩
  · -- The point ends the run of digits, and the fraction is part of the run behind it.
    rw [if_neg point, List.append_assoc, List.cons_append]
    obtain ⟨run, rest⟩ := takeWhile_append_cons wholeDigits (by decide : Char.isDigit '.' = false)
      (fraction ++ behind)
    have found := takeWhile_ne_nil point (List.prefix_append fraction behind) fractionDigits
    have bound := (isPrefix_takeWhile (List.prefix_append fraction behind) fractionDigits).length_le
    simp only [leadingDecimal?, run, rest, List.isEmpty_iff, if_neg occupied, if_neg found]
    refine ⟨_, rfl, ?_⟩
    simp only [List.length_append, List.length_cons]
    omega

/-- A decimal literal that is taken matches its pattern. -/
theorem matches_of_leadingDecimal? {text taken : List Char}
    (found : leadingDecimal? text = some taken) : Matches .decimal taken := by
  have digits {rest : List Char} : ∀ c ∈ rest.takeWhile Char.isDigit, c.isDigit = true :=
    fun c member => List.mem_takeWhile_imp member
  simp only [leadingDecimal?] at found
  split at found
  · contradiction
  · rename_i occupied
    have occupied : text.takeWhile Char.isDigit ≠ [] := by simpa using occupied
    have whole : Matches .decimal (text.takeWhile Char.isDigit) :=
      matches_decimal.mpr ⟨_, [], occupied, digits, by simp, by simp⟩
    -- A point that no digit follows is left where it is.
    split at found
    · rename_i rest point
      simp only [Option.some.injEq] at found
      subst found
      split
      · exact whole
      · rename_i fraction
        have fraction : rest.takeWhile Char.isDigit ≠ [] := by simpa using fraction
        exact matches_decimal.mpr ⟨_, _, occupied, digits, digits, by rw [if_neg fraction]⟩
    · simp only [Option.some.injEq] at found
      exact found ▸ whole

/-- A name at the start of a text fits into the one that is taken. -/
theorem leadingName?_of_matches {text part : List Char} (start : part <+: text)
    (matched : Matches .name part) :
    ∃ taken, leadingName? text = some taken ∧ part.length ≤ taken.length := by
  obtain ⟨occupied, inside⟩ := matches_name.mp matched
  have found := takeWhile_ne_nil occupied start inside
  -- The name taken goes as far as there are letters and no less far than the part.
  have longer := isPrefix_takeWhile start inside
  exact ⟨_, by simp [leadingName?, found], longer.length_le⟩

/-- A name that is taken matches its pattern. -/
theorem matches_of_leadingName? {text taken : List Char}
    (found : leadingName? text = some taken) : Matches .name taken := by
  simp only [leadingName?] at found
  split at found
  · contradiction
  · rename_i occupied
    simp only [Option.some.injEq] at found
    subst found
    exact matches_name.mpr ⟨by simpa using occupied, fun c member => List.mem_takeWhile_imp member⟩

/-- A symbol that is taken is the first character. -/
theorem symbol_of_leadingSymbol? {text taken : List Char} {token : Token}
    (found : leadingSymbol? text = some (token, taken)) :
    ∃ c, taken = [c] ∧ ofSymbol? c = some token := by
  -- A symbol is a single character.
  cases text with
  | nil => contradiction
  | cons c rest =>
    obtain ⟨_, symbol, same⟩ := Option.map_eq_some_iff.mp found
    obtain ⟨rfl, rfl⟩ := Prod.mk.inj same
    exact ⟨c, rfl, symbol⟩

/-- What is taken stands at the start of the text. -/
theorem isPrefix_of_leading? {text taken : List Char} {token : Token}
    (found : leading? text = some (token, taken)) : taken <+: text :=
  (leading?_append found).2.imp fun _ same => same.symm

/-- What is taken matches the pattern of its kind. -/
theorem matches_of_leading? {text taken : List Char} {token : Token}
    (found : leading? text = some (token, taken)) : token.Matches taken := by
  -- Whichever reader has taken it, only that of its kind is to be looked at.
  rcases leading?_cases found with ⟨rfl, read⟩ | ⟨rfl, _, read⟩ | ⟨rfl, _, _, read⟩ |
    ⟨rfl, read⟩ | read
  · exact matches_of_leadingHexadecimal? read
  · exact matches_of_leadingBinary? read
  · exact matches_of_leadingDecimal? read
  · exact matches_of_leadingName? read
  · obtain ⟨c, rfl, symbol⟩ := symbol_of_leadingSymbol? read
    exact (matches_symbol symbol).mpr rfl

/-- What starts with a symbol is that symbol alone. -/
theorem Matches.eq_of_symbol {token other : Token} {c : Char} {rest : List Char}
    (matched : token.Matches (c :: rest)) (symbol : ofSymbol? c = some other) :
    token = other ∧ rest = [] := by
  obtain ⟨_, _, same, start⟩ := matched.head
  obtain ⟨rfl, rfl⟩ := List.cons.inj same
  -- A symbol is neither a digit nor a letter, which leaves the patterns of single characters.
  have excluded := excluded_of_symbol symbol
  rcases start with ⟨digit, _⟩ | ⟨letter, _⟩ | ⟨own, alone⟩
  · simp [excluded.1] at digit
  · simp [excluded.2.1] at letter
  · exact ⟨Option.some.inj (own.symm.trans symbol), alone⟩

/-- Two lexemes that start with the same character are of one kind, or both are numerals. -/
theorem Matches.eq_or_numerals {first second : Token} {c : Char} {left right : List Char}
    (firstMatched : first.Matches (c :: left)) (secondMatched : second.Matches (c :: right)) :
    first = second ∨ (first.IsNumeral ∧ second.IsNumeral) := by
  obtain ⟨_, _, same, start⟩ := firstMatched.head
  obtain ⟨rfl, rfl⟩ := List.cons.inj same
  obtain ⟨_, _, same, other⟩ := secondMatched.head
  obtain ⟨rfl, rfl⟩ := List.cons.inj same
  -- Digits, letters and symbols are apart, so both start with the same class.
  rcases start with ⟨digit, numeral⟩ | ⟨letter, rfl⟩ | ⟨symbol, _⟩
  · rcases other with ⟨_, numerals⟩ | ⟨letter, _⟩ | ⟨symbol, _⟩
    · exact .inr ⟨numeral, numerals⟩
    · simp [isAlpha_eq_false_of_isDigit digit] at letter
    · simp [(excluded_of_symbol symbol).1] at digit
  · rcases other with ⟨digit, _⟩ | ⟨_, rfl⟩ | ⟨symbol, _⟩
    · simp [isAlpha_eq_false_of_isDigit digit] at letter
    · exact .inl rfl
    · simp [(excluded_of_symbol symbol).2.1] at letter
  · exact .inl (secondMatched.eq_of_symbol symbol).1.symm

/-- The marker of a hexadecimal literal tells it from the other numerals. -/
theorem Matches.marker_x {token : Token} {text : List Char} (matched : token.Matches text)
    (numeral : token.IsNumeral) : 'x' ∈ text ↔ token = .hexadecimal := by
  rcases numeral with rfl | rfl | rfl
  · obtain ⟨digits, _, _, rfl⟩ := matches_hexadecimal.mp matched
    simp
  -- No other numeral has a character in it that could be taken for the marker.
  · have lacks : 'x' ∉ text := by
      intro member
      simpa [isBinaryDigit] using mem_binary matched member
    simp [lacks]
  · have lacks : 'x' ∉ text := fun member => absurd (mem_decimal matched member) (by decide)
    simp [lacks]

/-- The marker of a binary literal is in no decimal literal. -/
theorem Matches.marker_b {token : Token} {text : List Char} (matched : token.Matches text)
    (plain : token = .binary ∨ token = .decimal) : 'b' ∈ text ↔ token = .binary := by
  -- The letter stands behind the digits of a binary literal, and no decimal has one.
  rcases plain with rfl | rfl
  · obtain ⟨digits, _, _, rfl⟩ := matches_binary.mp matched
    simp
  · have lacks : 'b' ∉ text := fun member => absurd (mem_decimal matched member) (by decide)
    simp [lacks]

/-- A text is a lexeme of one kind at most. -/
theorem Matches.unique {first second : Token} {text : List Char}
    (firstMatched : first.Matches text) (secondMatched : second.Matches text) :
    first = second := by
  obtain ⟨c, rest, rfl, _⟩ := firstMatched.head
  rcases firstMatched.eq_or_numerals secondMatched with same | ⟨numeral, other⟩
  · exact same
  · -- Two numerals of one text have the same markers.
    have x := (firstMatched.marker_x numeral).symm.trans (secondMatched.marker_x other)
    by_cases hexadecimal : first = .hexadecimal
    · rw [hexadecimal, x.mp hexadecimal]
    · have plain := numeral.resolve_left hexadecimal
      have others := other.resolve_left (mt x.mpr hexadecimal)
      have b := (firstMatched.marker_b plain).symm.trans (secondMatched.marker_b others)
      by_cases binary : first = .binary
      · rw [binary, b.mp binary]
      · rw [plain.resolve_left binary, others.resolve_left (mt b.mpr binary)]

/-- A part that lacks some character of what is taken at the same start is not longer. -/
theorem length_le_of_notMem {part taken text : List Char} {marker : Char}
    (takenStart : taken <+: text) (start : part <+: text) (inside : marker ∈ taken)
    (outside : marker ∉ part) : part.length ≤ taken.length := by
  by_contra longer
  -- A part that is longer would have all of what is taken in it.
  have within := List.prefix_of_prefix_length_le takenStart start (by omega)
  exact outside (within.subset inside)

/-- Of two lexemes at one start, the one that is taken is the longer one. -/
theorem length_le_of_leading? {text taken part : List Char} {token other : Token}
    (found : leading? text = some (token, taken)) (start : part <+: text)
    (matched : other.Matches part) : part.length ≤ taken.length := by
  have takenMatched := matches_of_leading? found
  have takenStart := isPrefix_of_leading? found
  -- Both start with the first character of the text.
  obtain ⟨c, rest, rfl, _⟩ := takenMatched.head
  obtain ⟨d, others, rfl, _⟩ := matched.head
  obtain ⟨behind, rfl⟩ := start
  obtain rfl : c = d := (List.cons_prefix_cons.mp takenStart).1
  have start : c :: others <+: c :: others ++ behind := List.prefix_append _ _
  have kinds := takenMatched.eq_or_numerals matched
  rcases leading?_cases found with ⟨rfl, read⟩ | ⟨rfl, earlier, read⟩ |
    ⟨rfl, earlier, earliest, read⟩ | ⟨rfl, read⟩ | read
  · -- Nothing but another hexadecimal literal goes past the marker.
    by_cases same : other = .hexadecimal
    · subst same
      obtain ⟨_, again, bound⟩ := leadingHexadecimal?_of_matches start matched
      exact Option.some.inj (again.symm.trans read) ▸ bound
    · have numeral := (kinds.resolve_left (Ne.symm same)).2
      exact length_le_of_notMem takenStart start
        ((takenMatched.marker_x (.inl rfl)).mpr rfl) (mt (matched.marker_x numeral).mp same)
  · -- A binary literal is taken in front of a decimal one, which ends before the marker.
    by_cases same : other = .binary
    · subst same
      exact Option.some.inj ((leadingBinary?_of_matches start matched).symm.trans read) ▸ le_rfl
    · rcases (kinds.resolve_left (Ne.symm same)).2 with rfl | rfl | rfl
      · obtain ⟨_, again, _⟩ := leadingHexadecimal?_of_matches start matched
        cases earlier.symm.trans again
      · contradiction
      · exact length_le_of_notMem takenStart start
          ((takenMatched.marker_b (.inl rfl)).mpr rfl) (mt (matched.marker_b (.inr rfl)).mp same)
  · -- A decimal literal is taken only where there is no numeral with a marker.
    by_cases same : other = .decimal
    · subst same
      obtain ⟨_, again, bound⟩ := leadingDecimal?_of_matches start matched
      exact Option.some.inj (again.symm.trans read) ▸ bound
    · rcases (kinds.resolve_left (Ne.symm same)).2 with rfl | rfl | rfl
      · obtain ⟨_, again, _⟩ := leadingHexadecimal?_of_matches start matched
        cases earlier.symm.trans again
      · cases earliest.symm.trans (leadingBinary?_of_matches start matched)
      · contradiction
  · -- Nothing but a name starts with a letter.
    obtain rfl : other = .name := (kinds.resolve_right (by simp [IsNumeral])).symm
    obtain ⟨_, again, bound⟩ := leadingName?_of_matches start matched
    exact Option.some.inj (again.symm.trans read) ▸ bound
  · -- What starts with a symbol is no longer than it.
    obtain ⟨d, alone, symbol⟩ := symbol_of_leadingSymbol? read
    obtain ⟨rfl, rfl⟩ := List.cons.inj alone
    obtain ⟨_, rfl⟩ := matched.eq_of_symbol symbol
    exact le_rfl

/-- Where some lexeme starts, one is taken. -/
theorem leading?_ne_none {text part : List Char} {token : Token} (start : part <+: text)
    (matched : token.Matches part) : leading? text ≠ none := by
  intro nothing
  simp only [leading?, Option.orElse_eq_none, Option.map_eq_none_iff] at nothing
  obtain ⟨hexadecimal, binary, decimal, name, symbol⟩ := nothing
  -- Every reader fails, and that of the kind of the lexeme cannot.
  obtain ⟨c, rest, rfl, ⟨_, numeral⟩ | ⟨_, rfl⟩ | ⟨own, rfl⟩⟩ := matched.head
  · rcases numeral with rfl | rfl | rfl
    · obtain ⟨_, again, _⟩ := leadingHexadecimal?_of_matches start matched
      cases hexadecimal.symm.trans again
    · cases binary.symm.trans (leadingBinary?_of_matches start matched)
    · obtain ⟨_, again, _⟩ := leadingDecimal?_of_matches start matched
      cases decimal.symm.trans again
  · obtain ⟨_, again, _⟩ := leadingName?_of_matches start matched
    cases name.symm.trans again
  · obtain ⟨behind, rfl⟩ := start
    simp [leadingSymbol?, own] at symbol

/-- A lexeme is taken exactly when it matches its pattern and no pattern matches a longer part. -/
theorem leading?_eq_some_iff {text taken : List Char} {token : Token} :
    leading? text = some (token, taken) ↔
      token.Matches taken ∧ taken <+: text ∧
        ∀ longer, longer <+: text → taken.length < longer.length → ¬ Recognized longer := by
  constructor
  · intro found
    have matched := matches_of_leading? found
    have takenStart := isPrefix_of_leading? found
    refine ⟨matched, takenStart, ?_⟩
    intro longer start more recognized
    rcases recognized with ⟨other, otherMatched⟩ | gaps
    · exact absurd (length_le_of_leading? found start otherMatched) (by omega)
    · exact absurd gaps (matched.not_skipped takenStart start more)
  · intro longest
    obtain ⟨matched, takenStart, longest⟩ := longest
    cases found : leading? text with
    | none => exact absurd found (leading?_ne_none takenStart matched)
    | some result =>
      obtain ⟨other, part⟩ := result
      have otherMatched := matches_of_leading? found
      have start := isPrefix_of_leading? found
      have atLeast := length_le_of_leading? found takenStart matched
      have atMost : ¬ taken.length < part.length :=
        fun more => longest part start more (.inl ⟨other, otherMatched⟩)
      -- Two parts of one length at one start are the same.
      obtain rfl : taken = part :=
        (List.prefix_of_prefix_length_le takenStart start atLeast).eq_of_length (by omega)
      rw [matched.unique otherMatched]

/-- No lexeme is taken exactly when no pattern of a lexeme matches a part at the start. -/
theorem leading?_eq_none_iff {text : List Char} :
    leading? text = none ↔ ∀ part, part <+: text → ∀ token : Token, ¬ token.Matches part := by
  constructor
  · intro nothing part start token matched
    exact leading?_ne_none start matched nothing
  · intro unmatched
    cases found : leading? text with
    | none => rfl
    | some result =>
      -- What is taken would be such a part.
      exact absurd (matches_of_leading? found) (unmatched _ (isPrefix_of_leading? found) _)

end Token

end Reckon
