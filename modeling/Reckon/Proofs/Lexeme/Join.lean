import Reckon.Proofs.Lexeme.Split
import Reckon.Text.ByteLaws

/-! A text is split into lexemes part by part, where no lexeme goes across from part to part. -/

namespace Reckon

/-- Whether a character is in no lexeme but the one that it may be by itself. -/
def breaks (c : Char) : Bool := !(c.isAlpha || c.isDigit || c == '.')

/-- Nothing but gaps. -/
def Gaps (text : List Char) : Prop := ∀ c ∈ text, isGap c = true

/-- Two texts in a row, where the first ends or the second starts with a character that breaks. -/
def Apart (front back : List Char) : Prop :=
  ∀ c ∈ front.getLast?, ∀ d ∈ back.head?, breaks c = true ∨ breaks d = true

/-- A gap is in no lexeme at all. -/
theorem breaks_of_gap {c : Char} (gap : isGap c = true) : breaks c = true := by
  obtain ⟨digit, letter⟩ := Token.excluded_of_gap gap
  have code := isGap_iff.mp gap
  -- A gap is no point either, since its number is another one.
  have point : (c == '.') = false := by
    rw [beq_eq_false_iff_ne, ne_eq, ← Char.toNat_inj]
    change ¬ c.toNat = 46
    omega
  simp [breaks, digit, letter, point]

/-- A symbol is a lexeme by itself and in no other one. -/
theorem breaks_of_symbol {token : Token} {c : Char} (symbol : Token.ofSymbol? c = some token) :
    breaks c = true := by
  -- There are eight such characters, and each is tested.
  unfold Token.ofSymbol? at symbol
  split at symbol <;> first | contradiction | decide

/-- A lexeme of several characters has none in it that breaks. -/
theorem Token.Matches.not_breaks {token : Token} {text : List Char} (matched : token.Matches text)
    (several : 2 ≤ text.length) : ∀ c ∈ text, breaks c = false := by
  have letter {c : Char} (isLetter : c.isAlpha = true) : breaks c = false := by
    simp [breaks, isLetter]
  have digit {c : Char} (isDigit : c.isDigit = true) : breaks c = false := by
    simp [breaks, isDigit]
  intro c member
  -- Only symbols break, and a symbol is a lexeme of one character.
  obtain ⟨first, rest, rfl, ⟨_, numeral⟩ | ⟨_, rfl⟩ | ⟨symbol, rfl⟩⟩ := matched.head
  · rcases numeral with rfl | rfl | rfl
    · obtain ⟨digits, _, inside, cut⟩ := matches_hexadecimal.mp matched
      rw [cut] at member
      rcases List.mem_cons.mp member with rfl | member
      · rfl
      · rcases List.mem_cons.mp member with rfl | member
        · rfl
        · have code := isHexDigit_iff.mp (inside c member)
          by_cases decimal : c.toNat ≤ 57
          · exact digit (isDigit_iff.mpr (by omega))
          · exact letter (isAlpha_iff.mpr (by omega))
    · rcases mem_binary matched member with bit | rfl
      · have code := isBinaryDigit_iff.mp bit
        exact digit (isDigit_iff.mpr (by omega))
      · rfl
    · rcases mem_decimal matched member with isDigit | rfl
      · exact digit isDigit
      · rfl
  · exact letter ((matches_name.mp matched).2 c member)
  · simp at several

/-- Texts that are apart stay apart when the first one is cut short at its start. -/
theorem Apart.of_append (before : List Char) {front back : List Char}
    (apart : Apart (before ++ front) back) : Apart front back := by
  intro c last
  refine apart c ?_
  -- What is last is last in the longer text too.
  rw [List.getLast?_append, Option.mem_def.mp last]
  rfl

/-- A text is apart from one that starts with a character that breaks. -/
theorem Apart.of_head {c : Char} (front rest : List Char) (breaking : breaks c = true) :
    Apart front (c :: rest) := by
  intro _ _ d first
  obtain rfl := Option.some.inj first
  exact .inr breaking

/-- A text that ends with a character that breaks is apart from any other. -/
theorem Apart.of_last {c : Char} (front back : List Char) (breaking : breaks c = true) :
    Apart (front ++ [c]) back := by
  intro d last _ _
  rw [List.getLast?_concat] at last
  -- The character that breaks is the last one.
  obtain rfl := Option.some.inj last
  exact .inl breaking

/-- A text is apart from gaps behind it. -/
theorem Gaps.apart {gaps : List Char} (are : Gaps gaps) (front : List Char) :
    Apart front gaps := by
  intro _ _ d first
  exact .inr (breaks_of_gap (are d (List.mem_of_head? first)))

/-- No characters are gaps too. -/
theorem Gaps.nil : Gaps [] := by simp [Gaps]

/-- Gaps in front of gaps are gaps. -/
theorem Gaps.append {front back : List Char} (first : Gaps front) (second : Gaps back) :
    Gaps (front ++ back) := by
  intro c member
  exact (List.mem_append.mp member).elim (first c) (second c)

section Leading

variable {front back taken rest : List Char} {token : Token}

/-- A lexeme at the start of a text does not reach into a text that is apart from it. -/
theorem Apart.isPrefix {part : List Char} (apart : Apart front back) (occupied : front ≠ [])
    (start : part <+: front ++ back) (matched : token.Matches part) : part <+: front := by
  -- A part that is no longer than the first text stands in it.
  by_cases shorter : part.length ≤ front.length
  · exact List.prefix_of_prefix_length_le start (List.prefix_append front back) shorter
  · -- A longer one would have the characters on both sides of the junction in it.
    obtain ⟨more, rfl⟩ : front <+: part :=
      List.prefix_of_prefix_length_le (List.prefix_append front back) start (by omega)
    obtain ⟨before, c, rfl⟩ := (List.eq_nil_or_concat' front).resolve_left occupied
    obtain ⟨d, others, rfl⟩ : ∃ d others, more = d :: others :=
      List.exists_cons_of_ne_nil (by rintro rfl; simp at shorter)
    obtain ⟨behind, rfl⟩ := (List.prefix_append_right_inj _).mp start
    have solid := matched.not_breaks (by simp; omega)
    rcases apart c (by simp) d (by simp) with broken | broken
    · simp [solid c (by simp)] at broken
    · simp [solid d (by simp)] at broken

/-- Where no lexeme starts none does with a text behind that is apart. -/
theorem Apart.leading?_eq_none (apart : Apart front back) (occupied : front ≠ [])
    (nothing : Token.leading? front = none) : Token.leading? (front ++ back) = none := by
  rw [Token.leading?_eq_none_iff] at nothing ⊢
  intro part start token matched
  -- A lexeme of the longer text would be within the first one.
  exact nothing part (apart.isPrefix occupied start matched) token matched

/-- The lexeme that is taken stays the same with a text behind that is apart. -/
theorem Apart.leading?_eq_some (apart : Apart (taken ++ rest) back)
    (found : Token.leading? (taken ++ rest) = some (token, taken)) :
    Token.leading? (taken ++ rest ++ back) = some (token, taken) := by
  rw [Token.leading?_eq_some_iff] at found ⊢
  obtain ⟨matched, start, longest⟩ := found
  refine ⟨matched, start.trans (List.prefix_append _ back), ?_⟩
  intro longer longerStart more recognized
  rcases recognized with ⟨other, otherMatched⟩ | gaps
  · have occupied : taken ++ rest ≠ [] := by simp [matched.ne_nil]
    -- A longer lexeme stays within the first text, where the taken one is the longest.
    have inside := apart.isPrefix occupied longerStart otherMatched
    exact longest longer inside more (.inl ⟨other, otherMatched⟩)
  · exact matched.not_skipped (start.trans (List.prefix_append _ back)) longerStart more gaps

/-- Where no lexeme starts none does with less of the text behind. -/
theorem leading?_eq_none_of_append (nothing : Token.leading? (front ++ back) = none) :
    Token.leading? front = none := by
  rw [Token.leading?_eq_none_iff] at nothing ⊢
  intro part start
  exact nothing part (start.trans (List.prefix_append front back))

/-- The lexeme that is taken stays the same with less of the text behind. -/
theorem leading?_eq_some_of_append
    (found : Token.leading? (taken ++ (rest ++ back)) = some (token, taken)) :
    Token.leading? (taken ++ rest) = some (token, taken) := by
  rw [← List.append_assoc, Token.leading?_eq_some_iff] at found
  rw [Token.leading?_eq_some_iff]
  obtain ⟨matched, _, longest⟩ := found
  refine ⟨matched, List.prefix_append taken rest, ?_⟩
  -- A longer one at the start of less text is one at the start of all of it.
  intro longer start
  exact longest longer (start.trans (List.prefix_append _ back))

end Leading

/-- Gaps are split into no lexemes. -/
theorem Gaps.splits {text : List Char} (gaps : Gaps text) (offset : Nat) :
    Splits offset text [] := by
  -- One gap is passed after the other.
  induction text generalizing offset with
  | nil => exact .done offset
  | cons c rest ih =>
    exact .gap (gaps c List.mem_cons_self) (ih (fun d member => gaps d (.tail c member)) _)

/-- A text that is split into no lexemes is made of gaps. -/
theorem Splits.gaps {offset : Nat} {text : List Char} (split : Splits offset text []) :
    Gaps text := by
  -- Every step but that of a gap leaves a lexeme.
  generalize empty : ([] : List Lexeme) = lexemes at split
  induction split with
  | done offset => exact .nil
  | gap gap later ih => exact List.forall_mem_cons.mpr ⟨gap, ih empty⟩
  | unknown solid nothing later ih => contradiction
  | known found later ih => contradiction

/-- What a pattern matches is split into a single lexeme of its kind. -/
theorem Token.Matches.splits {token : Token} {text : List Char} (matched : token.Matches text)
    (offset : Nat) : Splits offset text [.ofChars (some token) offset text] := by
  -- Nothing is longer than the whole text.
  have found : leading? (text ++ []) = some (token, text) := by
    rw [List.append_nil, leading?_eq_some_iff]
    refine ⟨matched, List.prefix_refl text, ?_⟩
    intro longer start more
    have bound := start.length_le
    omega
  have split : Splits offset (text ++ []) _ := .known found (.done _)
  rwa [List.append_nil] at split

/-- Two texts that are apart are split one after the other. -/
theorem Splits.append {offset : Nat} {front back : List Char} {former latter : List Lexeme}
    (first : Splits offset front former) (second : Splits (offset + byteLength front) back latter)
    (apart : Apart front back) : Splits offset (front ++ back) (former ++ latter) := by
  -- The steps of the first text are taken again, with the second text behind.
  induction first with
  | done offset => simpa using second
  | @gap offset c rest lexemes gap later ih =>
    rw [byteLength_cons, ← Nat.add_assoc] at second
    exact .gap gap (ih second (apart.of_append [c]))
  | @unknown offset c rest lexemes solid nothing later ih =>
    rw [byteLength_cons, ← Nat.add_assoc] at second
    exact .unknown solid (apart.leading?_eq_none (by simp) nothing)
      (ih second (apart.of_append [c]))
  | @known offset token taken rest lexemes found later ih =>
    rw [byteLength_append, ← Nat.add_assoc] at second
    have again := apart.leading?_eq_some found
    rw [List.append_assoc] at again ⊢
    exact .known again (ih second (apart.of_append taken))

/-- The first lexeme stands behind gaps, and the others are split from what is behind it. -/
theorem Splits.exists_cons {offset : Nat} {text : List Char} {first : Lexeme}
    {others : List Lexeme} (split : Splits offset text (first :: others)) :
    ∃ gaps rest, text = gaps ++ (first.text.toList ++ rest) ∧ Gaps gaps ∧
      first.span = ⟨offset + byteLength gaps, byteLength first.text.toList⟩ ∧
      (∀ token, first.token = some token → token.Matches first.text.toList) ∧
      Splits (offset + byteLength gaps + byteLength first.text.toList) rest others := by
  -- Gaps are passed up to the step that leaves the first lexeme.
  generalize same : first :: others = lexemes at split
  induction split with
  | done offset => contradiction
  | @gap offset c rest lexemes gap later ih =>
    obtain ⟨gaps, behind, rfl, are, place, matched, split⟩ := ih same
    refine ⟨c :: gaps, behind, rfl, List.forall_mem_cons.mpr ⟨gap, are⟩, ?_, matched, ?_⟩
    · rw [place, byteLength_cons, Nat.add_assoc]
    · rwa [byteLength_cons, ← Nat.add_assoc]
  | @unknown offset c rest lexemes solid nothing later ih =>
    obtain ⟨rfl, rfl⟩ := List.cons.inj same
    refine ⟨[], rest, by simp, .nil, by simp [Lexeme.ofChars], ?_, by simpa using later⟩
    intro token known
    contradiction
  | @known offset token taken rest lexemes found later ih =>
    obtain ⟨rfl, rfl⟩ := List.cons.inj same
    refine ⟨[], rest, by simp, .nil, by simp [Lexeme.ofChars], ?_, by simpa using later⟩
    intro other known
    obtain rfl := Option.some.inj known
    rw [Lexeme.toList_ofChars]
    exact Token.matches_of_leading? found

/-- Two parts of the lexemes are split from two parts of the text, cut where the first one ends. -/
theorem Splits.exists_append {offset : Nat} {text : List Char} {former latter : List Lexeme}
    (split : Splits offset text (former ++ latter)) :
    ∃ front back, text = front ++ back ∧ Splits offset front former ∧
      Splits (offset + byteLength front) back latter ∧ (former = [] → front = []) ∧
      ∀ last ∈ former.getLast?, last.span.stop = offset + byteLength front := by
  -- The last lexeme of a part is its first one or the last of the others.
  have ending : ∀ {first : Lexeme} {others : List Lexeme} {stop : Nat},
      (others = [] → first.span.stop = stop) →
      (∀ last ∈ others.getLast?, last.span.stop = stop) →
      ∀ last ∈ (first :: others).getLast?, last.span.stop = stop := by
    intro first others stop alone more last ends
    cases others with
    | nil =>
      obtain rfl : first = last := by simpa using ends
      exact alone rfl
    | cons second others => exact more last (by simpa using ends)
  -- A part without lexemes takes nothing, and otherwise the steps up to its last lexeme are taken.
  generalize same : former ++ latter = lexemes at split
  induction split generalizing former with
  | done offset =>
    obtain ⟨rfl, rfl⟩ := List.append_eq_nil_iff.mp same
    exact ⟨[], [], rfl, .done offset, .done _, fun _ => rfl, by simp⟩
  | @gap offset c rest lexemes gap later ih =>
    cases former with
    | nil =>
      obtain rfl : latter = lexemes := same
      exact ⟨[], c :: rest, rfl, .done offset, .gap gap later, fun _ => rfl, by simp⟩
    | cons first others =>
      obtain ⟨front, back, rfl, firstSplit, secondSplit, _, stop⟩ := ih same
      rw [Nat.add_assoc, ← byteLength_cons] at secondSplit stop
      exact ⟨c :: front, back, rfl, .gap gap firstSplit, secondSplit, by simp, stop⟩
  | @unknown offset c rest lexemes solid nothing later ih =>
    cases former with
    | nil =>
      obtain rfl : latter = _ := same
      exact ⟨[], c :: rest, rfl, .done offset, .unknown solid nothing later, fun _ => rfl, by simp⟩
    | cons first others =>
      obtain ⟨rfl, rfl⟩ := List.cons.inj same
      obtain ⟨front, back, rfl, firstSplit, secondSplit, empty, stop⟩ := ih rfl
      have less : Token.leading? (c :: front) = none := leading?_eq_none_of_append nothing
      rw [Nat.add_assoc, ← byteLength_cons] at secondSplit stop
      refine ⟨c :: front, back, rfl, .unknown solid less firstSplit, secondSplit, by simp, ?_⟩
      exact ending (fun alone => by simp [empty alone]) stop
  | @known offset token taken rest lexemes found later ih =>
    cases former with
    | nil =>
      obtain rfl : latter = _ := same
      exact ⟨[], taken ++ rest, rfl, .done offset, .known found later, fun _ => rfl, by simp⟩
    | cons first others =>
      obtain ⟨rfl, rfl⟩ := List.cons.inj same
      obtain ⟨front, back, rfl, firstSplit, secondSplit, empty, stop⟩ := ih rfl
      have less := leading?_eq_some_of_append found
      rw [Nat.add_assoc, ← byteLength_append] at secondSplit stop
      refine ⟨taken ++ front, back, (List.append_assoc _ _ _).symm, .known less firstSplit,
        secondSplit, by simp, ?_⟩
      exact ending (fun alone => by simp [empty alone]) stop

/-- Where no lexeme starts in the first characters of a text these are gaps. -/
theorem Splits.skip {offset : Nat} {front back : List Char} {lexemes : List Lexeme}
    (split : Splits offset (front ++ back) lexemes)
    (behind : ∀ lexeme ∈ lexemes, offset + byteLength front ≤ lexeme.span.offset) :
    Gaps front ∧ Splits (offset + byteLength front) back lexemes := by
  induction front generalizing offset with
  | nil => exact ⟨.nil, split⟩
  | cons c front ih =>
    have positive := c.utf8Size_pos
    simp only [byteLength_cons, ← Nat.add_assoc] at behind ⊢
    generalize same : c :: front ++ back = text at split
    -- Any lexeme would start at the first character.
    cases split with
    | done => contradiction
    | gap gap later =>
      obtain ⟨rfl, rfl⟩ := List.cons.inj same
      obtain ⟨gaps, split⟩ := ih later behind
      exact ⟨List.forall_mem_cons.mpr ⟨gap, gaps⟩, split⟩
    | unknown solid nothing later =>
      have start := behind _ List.mem_cons_self
      simp only [Lexeme.ofChars] at start
      omega
    | known found later =>
      have start := behind _ List.mem_cons_self
      simp only [Lexeme.ofChars] at start
      omega

/-- A place between the lexemes of a text divides it into two texts that are split by themselves. -/
theorem Splits.divide {offset : Nat} {front back : List Char} {former latter : List Lexeme}
    (split : Splits offset (front ++ back) (former ++ latter))
    (before : ∀ lexeme ∈ former, lexeme.span.stop ≤ offset + byteLength front)
    (behind : ∀ lexeme ∈ latter, offset + byteLength front ≤ lexeme.span.offset) :
    Splits offset front former ∧ Splits (offset + byteLength front) back latter := by
  obtain ⟨taken, left, cut, firstSplit, secondSplit, empty, stop⟩ := split.exists_append
  -- The first part of the lexemes ends in front of the place.
  have reach : byteLength taken ≤ byteLength front := by
    rcases List.eq_nil_or_concat' former with nothing | ⟨others, last, rfl⟩
    · simp [empty nothing]
    · have ends := stop last (by simp)
      have bound := before last (by simp)
      omega
  obtain ⟨between, rfl, rfl⟩ := append_eq_append_of_byteLength_le cut.symm reach
  rw [byteLength_append, ← Nat.add_assoc] at behind ⊢
  -- What is left in front of the place are gaps.
  obtain ⟨gaps, later⟩ := secondSplit.skip behind
  have whole := firstSplit.append (gaps.splits _) (gaps.apart taken)
  rw [List.append_nil] at whole
  exact ⟨whole, later⟩

/-- The lexemes of a line that is cut between two of them and goes on behind a gap. -/
theorem lexemesOf_cut {line : String} {front back : List Char} {taken rest : List Lexeme}
    (same : line.toList = front ++ back) (parts : lexemesOf line = taken ++ rest)
    (before : ∀ lexeme ∈ taken, lexeme.span.stop ≤ byteLength front)
    (behind : ∀ lexeme ∈ rest, byteLength front ≤ lexeme.span.offset) (more : List Char) :
    lexemesOf (String.ofList (front ++ ' ' :: more)) =
      taken ++ lexemesFrom 0 (byteLength front + 1) more := by
  -- The lexemes in front of the cut are split by themselves, and the others start behind the gap.
  have split := splits_lexemesOf line
  rw [same, parts] at split
  obtain ⟨kept, _⟩ := split.divide (by simpa using before) (by simpa using behind)
  have added := Splits.gap (c := ' ') rfl (splits_lexemesFrom more (byteLength front + 1))
  rw [← Nat.zero_add (byteLength front)] at added
  have whole := kept.append added (.of_head front more rfl)
  rw [lexemesOf, String.toList_ofList, ← splits_iff.mp whole, Nat.zero_add]

end Reckon
