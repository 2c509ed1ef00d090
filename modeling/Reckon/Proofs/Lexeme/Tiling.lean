import Mathlib.Data.List.Pairwise
import Reckon.Proofs.Lexeme.Split

/-! The lexemes of a line are the only ones that tile it by longest matches. -/

namespace Reckon

namespace Lexeme

/-- A lexeme stands between two parts of a line, and its range is that of its characters. -/
structure StandsBetween (lexeme : Lexeme) (before after line : List Char) : Prop where
  /-- The line is made of the two parts and the characters between them. -/
  line_eq : line = before ++ (lexeme.text.toList ++ after)
  /-- The range starts behind the first part and has the bytes of the characters. -/
  span_eq : lexeme.span = ⟨byteLength before, byteLength lexeme.text.toList⟩

/--
What a lexeme is in front of the rest of its line.

With a kind it matches the pattern of that kind, and no pattern matches a longer part of the line
from there. Without one it is a single character at which no pattern matches anything.
-/
def IsLongest (lexeme : Lexeme) (after : List Char) : Prop :=
  match lexeme.token with
  | some token =>
    token.Matches lexeme.text.toList ∧
      ∀ longer, longer <+: lexeme.text.toList ++ after →
        lexeme.text.toList.length < longer.length → ¬ Recognized longer
  | none =>
    ∃ c, lexeme.text.toList = [c] ∧
      ∀ part, part <+: c :: after → part ≠ [] → ¬ Recognized part

/-- A lexeme covers some bytes of its line. -/
def Covers (lexeme : Lexeme) (start stop : Nat) : Prop :=
  lexeme.span.offset ≤ start ∧ stop ≤ lexeme.span.stop

end Lexeme

/-- Lexemes that cover a line but for gaps, each a longest match at its place. -/
structure Tiling (line : List Char) (lexemes : List Lexeme) : Prop where
  /-- Every lexeme stands between whole characters, as a longest match. -/
  longest : ∀ lexeme ∈ lexemes, ∃ before after,
    lexeme.StandsBetween before after line ∧ lexeme.IsLongest after
  /-- No lexeme is empty. -/
  occupied : ∀ lexeme ∈ lexemes, 0 < lexeme.span.length
  /-- The ranges increase strictly and do not overlap. -/
  ordered : lexemes.Pairwise fun left right =>
    left.span.offset < right.span.offset ∧ left.span.stop ≤ right.span.offset
  /-- Every character but a gap lies in exactly one lexeme. -/
  covered : ∀ before c after, line = before ++ c :: after → isGap c = false →
    ∃! lexeme, lexeme ∈ lexemes ∧
      lexeme.Covers (byteLength before) (byteLength before + c.utf8Size)
  /-- Every byte outside of all lexemes is one of a gap. -/
  gaps : ∀ before c after, line = before ++ c :: after →
    ∀ byte, byteLength before ≤ byte → byte < byteLength before + c.utf8Size →
      (∀ lexeme ∈ lexemes, ¬ lexeme.Covers byte (byte + 1)) → isGap c = true

/-- Every lexeme that a text splits into stands between parts of its line as a longest match. -/
theorem Splits.longest {offset : Nat} {text : List Char} {lexemes : List Lexeme}
    (split : Splits offset text lexemes) :
    ∀ passed, byteLength passed = offset → ∀ lexeme ∈ lexemes, ∃ before after,
      lexeme.StandsBetween before after (passed ++ text) ∧ lexeme.IsLongest after := by
  -- What has been passed in front of the text grows by what each step takes.
  induction split with
  | done offset => simp
  | @gap _ c rest _ gap later ih =>
    intro passed start lexeme member
    simpa using ih (passed ++ [c]) (by simp [start]) lexeme member
  | @unknown _ c rest _ solid nothing later ih =>
    intro passed start lexeme member
    rcases List.mem_cons.mp member with rfl | member
    · refine ⟨passed, rest, ⟨by simp, by simp [Lexeme.ofChars, start]⟩, c, by simp, ?_⟩
      intro part prefixed occupied recognized
      rcases recognized with ⟨token, matched⟩ | gaps
      · exact Token.leading?_eq_none_iff.mp nothing part prefixed token matched
      · -- A part that is skipped would start with this character.
        obtain ⟨d, others, rfl⟩ := List.exists_cons_of_ne_nil occupied
        have gap := (Pattern.mem_skipped.mp gaps).2 d List.mem_cons_self
        rw [(List.cons_prefix_cons.mp prefixed).1, solid] at gap
        contradiction
    · simpa using ih (passed ++ [c]) (by simp [start]) lexeme member
  | @known _ token taken rest _ found later ih =>
    intro passed start lexeme member
    rcases List.mem_cons.mp member with rfl | member
    · obtain ⟨matched, _, longest⟩ := Token.leading?_eq_some_iff.mp found
      refine ⟨passed, rest, ⟨by simp, by simp [Lexeme.ofChars, start]⟩, ?_⟩
      simpa [Lexeme.IsLongest, Lexeme.ofChars] using ⟨matched, longest⟩
    · simpa using ih (passed ++ taken) (by simp [start]) lexeme member

/-- Every character but a gap lies in a lexeme that its text splits into. -/
theorem Splits.covered {offset : Nat} {text : List Char} {lexemes : List Lexeme}
    (split : Splits offset text lexemes) :
    ∀ before c after, text = before ++ c :: after → isGap c = false →
      ∃ lexeme ∈ lexemes, lexeme.Covers (offset + byteLength before)
        (offset + byteLength before + c.utf8Size) := by
  -- A step covers the characters that it takes, and those behind are left to the others.
  induction split with
  | done offset => simp
  | gap gap later ih =>
    intro before c after cut solid
    cases before with
    | nil =>
      -- The character would be the gap itself.
      obtain ⟨rfl, _⟩ := List.cons.inj cut
      simp [gap] at solid
    | cons d before =>
      obtain ⟨rfl, tail⟩ := List.cons.inj cut
      obtain ⟨lexeme, member, covers⟩ := ih before c after tail solid
      exact ⟨lexeme, member, by simpa [Nat.add_assoc] using covers⟩
  | unknown own nothing later ih =>
    intro before c after cut solid
    cases before with
    | nil =>
      obtain ⟨rfl, _⟩ := List.cons.inj cut
      exact ⟨_, List.mem_cons_self, le_rfl, le_rfl⟩
    | cons d before =>
      obtain ⟨rfl, tail⟩ := List.cons.inj cut
      obtain ⟨lexeme, member, covers⟩ := ih before c after tail solid
      exact ⟨lexeme, List.mem_cons_of_mem _ member, by simpa [Nat.add_assoc] using covers⟩
  | @known start token taken rest _ found later ih =>
    intro before c after cut solid
    by_cases inside : before.length < taken.length
    · -- The character is one of those that the first lexeme takes.
      refine ⟨_, List.mem_cons_self, Nat.le_add_right _ _, ?_⟩
      obtain ⟨others, rfl⟩ : before ++ [c] <+: taken := by
        refine List.prefix_of_prefix_length_le ⟨after, ?_⟩ (List.prefix_append taken rest)
          (by simpa)
        rw [cut, List.append_assoc, List.singleton_append]
      simp only [Lexeme.stop_ofChars, byteLength_append, byteLength_cons, byteLength_nil]
      omega
    · -- All of the first lexeme is in front of the character.
      obtain ⟨between, rfl⟩ : taken <+: before :=
        List.prefix_of_prefix_length_le ⟨rest, rfl⟩ (cut ▸ List.prefix_append _ _) (by omega)
      rw [List.append_assoc, List.append_cancel_left_eq] at cut
      obtain ⟨lexeme, member, covers⟩ := ih between c after cut solid
      exact ⟨lexeme, List.mem_cons_of_mem _ member, by
        simpa [Nat.add_assoc] using covers⟩

/-- Two lexemes in order that cover a common byte are the same. -/
theorem eq_of_covers {lexemes : List Lexeme}
    (ordered : lexemes.Pairwise fun left right => left.span.stop ≤ right.span.offset)
    {left right : Lexeme} (leftMember : left ∈ lexemes) (rightMember : right ∈ lexemes)
    {start stop : Nat} (positive : start < stop) (leftCovers : left.Covers start stop)
    (rightCovers : right.Covers start stop) : left = right := by
  by_contra different
  -- One of the two ends where or before the other starts, and so cannot reach the byte.
  have either : lexemes.Pairwise fun left right =>
      left.span.stop ≤ right.span.offset ∨ right.span.stop ≤ left.span.offset :=
    ordered.imp Or.inl
  have symmetric : Std.Symm fun left right : Lexeme =>
      left.span.stop ≤ right.span.offset ∨ right.span.stop ≤ left.span.offset :=
    ⟨fun _ _ => Or.symm⟩
  have apart := either.forall leftMember rightMember different
  obtain ⟨leftStart, leftStop⟩ := leftCovers
  obtain ⟨rightStart, rightStop⟩ := rightCovers
  omega

/-- The lexemes of a line tile it. -/
theorem Splits.tiling {line : List Char} {lexemes : List Lexeme}
    (split : Splits 0 line lexemes) : Tiling line lexemes := by
  have covered : ∀ before c after, line = before ++ c :: after → isGap c = false →
      ∃ lexeme ∈ lexemes, lexeme.Covers (byteLength before) (byteLength before + c.utf8Size) := by
    simpa using split.covered
  refine ⟨split.longest [] rfl, split.length_pos, ?_, ?_, ?_⟩
  · -- Where one lexeme ends before another and is not empty it starts before it too.
    refine split.ordered.imp_of_mem ?_
    intro left right leftMember _ order
    have positive := split.length_pos left leftMember
    simp only [Span.stop] at order ⊢
    exact ⟨by omega, order⟩
  · -- Some lexeme covers the character, and no two of them overlap.
    intro before c after cut solid
    obtain ⟨lexeme, member, covers⟩ := covered before c after cut solid
    refine ⟨lexeme, ⟨member, covers⟩, ?_⟩
    intro other otherCovers
    exact eq_of_covers split.ordered otherCovers.1 member
      (Nat.lt_add_of_pos_right c.utf8Size_pos) otherCovers.2 covers
  · -- A byte of any other character is in the lexeme that covers the character.
    intro before c after cut byte low high uncovered
    by_contra solid
    obtain ⟨lexeme, member, start, stop⟩ := covered before c after cut (by simpa using solid)
    exact uncovered lexeme member ⟨start.trans low, by omega⟩

/-- A lexeme of a tiling is not empty. -/
theorem Lexeme.StandsBetween.text_ne_nil {lexeme : Lexeme} {before after line : List Char}
    (stands : lexeme.StandsBetween before after line) (occupied : 0 < lexeme.span.length) :
    lexeme.text.toList ≠ [] := by
  intro empty
  simp [stands.span_eq, empty] at occupied

/-- No longest match starts with a gap. -/
theorem Lexeme.IsLongest.head_solid {lexeme : Lexeme} {after rest : List Char} {c : Char}
    (longest : lexeme.IsLongest after) (head : lexeme.text.toList = c :: rest) :
    isGap c = false := by
  unfold IsLongest at longest
  split at longest
  · exact Token.Matches.head_solid (head ▸ longest.1)
  · obtain ⟨d, alone, nothing⟩ := longest
    obtain ⟨rfl, rfl⟩ := List.cons.inj (head.symm.trans alone)
    by_contra gap
    -- A gap would have been skipped.
    refine nothing [c] (List.prefix_append [c] after) (by simp) (.inr ?_)
    exact Pattern.mem_skipped.mpr ⟨by simp, by simpa using gap⟩

/-- A longest match at the start of a text is split off first. -/
theorem Lexeme.IsLongest.splits {lexeme : Lexeme} {before after line : List Char}
    (longest : lexeme.IsLongest after) (stands : lexeme.StandsBetween before after line)
    {lexemes : List Lexeme}
    (later : Splits (byteLength before + byteLength lexeme.text.toList) after lexemes) :
    Splits (byteLength before) (lexeme.text.toList ++ after) (lexeme :: lexemes) := by
  have made : lexeme = .ofChars lexeme.token (byteLength before) lexeme.text.toList := by
    cases lexeme
    simpa [Lexeme.ofChars] using stands.span_eq
  have solid {c : Char} {rest : List Char} (head : lexeme.text.toList = c :: rest) :
      isGap c = false := longest.head_solid head
  cases kind : lexeme.token with
  -- With a kind it is what the readers take.
  | some token =>
    simp only [IsLongest, kind] at longest
    rw [made, kind]
    simp only [toList_ofChars]
    exact .known (Token.leading?_eq_some_iff.mpr
      ⟨longest.1, List.prefix_append _ _, longest.2⟩) later
  -- Without a kind the readers take nothing, since no pattern matches.
  | none =>
    simp only [IsLongest, kind] at longest
    obtain ⟨c, alone, nothing⟩ := longest
    rw [made, kind]
    simp only [toList_ofChars, alone, List.singleton_append]
    refine .unknown (solid alone) (Token.leading?_eq_none_iff.mpr ?_) (by simpa [alone] using later)
    intro part start token matched
    exact nothing part start matched.ne_nil (.inl ⟨token, matched⟩)

/-- A place between the lexemes of a line: some have ended there, and the others start later. -/
structure Divides (line : List Char) (lexemes : List Lexeme) (passed text : List Char)
    (earlier later : List Lexeme) : Prop where
  line_eq : line = passed ++ text
  lexemes_eq : lexemes = earlier ++ later
  ended : ∀ lexeme ∈ earlier, lexeme.span.stop ≤ byteLength passed
  ahead : ∀ lexeme ∈ later, byteLength passed ≤ lexeme.span.offset

namespace Divides

variable {line passed text rest : List Char} {lexemes earlier later others : List Lexeme}
  {lexeme : Lexeme} {c : Char}

/-- The lexemes behind the place are lexemes of the line. -/
theorem mem (divides : Divides line lexemes passed text earlier later) (member : lexeme ∈ later) :
    lexeme ∈ lexemes :=
  divides.lexemes_eq ▸ List.mem_append_right earlier member

/-- A lexeme that stands behind the place is cut out of the rest of the line. -/
theorem exists_standsBetween (divides : Divides line lexemes passed text earlier later)
    (tiling : Tiling line lexemes) (member : lexeme ∈ later) :
    ∃ between after, lexeme.StandsBetween (passed ++ between) after line ∧
      lexeme.IsLongest after ∧ text = between ++ (lexeme.text.toList ++ after) := by
  obtain ⟨front, after, stands, longest⟩ := tiling.longest lexeme (divides.mem member)
  -- What is in front of the lexeme starts with what has been passed.
  have reach : byteLength passed ≤ byteLength front := by
    simpa [stands.span_eq] using divides.ahead lexeme member
  obtain ⟨between, rfl, rest⟩ :=
    append_eq_append_of_byteLength_le (divides.line_eq.symm.trans stands.line_eq) reach
  exact ⟨between, after, stands, longest, rest⟩

/-- At the end of the line there are no lexemes left. -/
theorem eq_nil (divides : Divides line lexemes passed [] earlier later)
    (tiling : Tiling line lexemes) : later = [] := by
  cases later with
  | nil => rfl
  | cons lexeme others =>
    have member : lexeme ∈ lexeme :: others := List.mem_cons_self
    obtain ⟨between, after, stands, _, rest⟩ := divides.exists_standsBetween tiling member
    -- No characters are left for another lexeme, and it has one at least.
    have empty := (List.append_eq_nil_iff.mp (List.append_eq_nil_iff.mp rest.symm).2).1
    exact absurd empty (stands.text_ne_nil (tiling.occupied lexeme (divides.mem member)))

/-- No lexeme of a tiling starts at a gap, so the place can move behind it. -/
theorem skip (divides : Divides line lexemes passed (c :: rest) earlier later)
    (tiling : Tiling line lexemes) (gap : isGap c = true) :
    Divides line lexemes (passed ++ [c]) rest earlier later := by
  refine ⟨by simp [divides.line_eq], divides.lexemes_eq, ?_, ?_⟩
  · intro lexeme member
    have ended := divides.ended lexeme member
    rw [byteLength_append]
    omega
  · intro lexeme member
    obtain ⟨between, after, stands, longest, same⟩ := divides.exists_standsBetween tiling member
    cases between with
    | nil =>
      -- A lexeme right here would start with the gap.
      have occupied := tiling.occupied lexeme (divides.mem member)
      obtain ⟨d, others, head⟩ := List.exists_cons_of_ne_nil (stands.text_ne_nil occupied)
      have solid := longest.head_solid head
      rw [List.nil_append, head, List.cons_append] at same
      rw [← (List.cons.inj same).1, gap] at solid
      contradiction
    | cons d between =>
      -- Any other lexeme has the gap in front of it.
      rw [List.cons_append] at same
      simp only [stands.span_eq, byteLength_append, byteLength_cons, byteLength_nil,
        (List.cons.inj same).1]
      omega

/-- At a character that is no gap the next lexeme of a tiling starts. -/
theorem exists_cons (divides : Divides line lexemes passed (c :: rest) earlier later)
    (tiling : Tiling line lexemes) (solid : isGap c = false) :
    ∃ lexeme others, later = lexeme :: others ∧ lexeme.span.offset = byteLength passed := by
  have positive := c.utf8Size_pos
  obtain ⟨lexeme, ⟨member, start, stop⟩, _⟩ :=
    tiling.covered passed c rest divides.line_eq solid
  -- The lexeme that covers the character ends behind the place, so it is one of the later ones.
  have isLater : lexeme ∈ later := by
    rw [divides.lexemes_eq] at member
    rcases List.mem_append.mp member with isEarlier | isLater
    · have ended := divides.ended lexeme isEarlier
      omega
    · exact isLater
  have same : lexeme.span.offset = byteLength passed := by
    apply le_antisymm start
    exact divides.ahead lexeme isLater
  cases later with
  | nil => simp at isLater
  | cons first others =>
    rcases List.mem_cons.mp isLater with rfl | isOther
    · exact ⟨_, others, rfl, same⟩
    · -- Nothing has room between the place and the lexeme that starts there.
      have ordered := (List.pairwise_append.mp (divides.lexemes_eq ▸ tiling.ordered)).2.1
      have order := (List.pairwise_cons.mp ordered).1 lexeme isOther
      have reach := divides.ahead first List.mem_cons_self
      omega

/-- The next lexeme of a tiling is a longest match at the place, which can move behind it. -/
theorem take (divides : Divides line lexemes passed text earlier (lexeme :: others))
    (tiling : Tiling line lexemes) (start : lexeme.span.offset = byteLength passed) :
    ∃ after, lexeme.StandsBetween passed after line ∧ lexeme.IsLongest after ∧
      text = lexeme.text.toList ++ after ∧
      Divides line lexemes (passed ++ lexeme.text.toList) after (earlier ++ [lexeme]) others := by
  obtain ⟨between, after, stands, longest, same⟩ :=
    divides.exists_standsBetween tiling List.mem_cons_self
  obtain rfl : between = [] := by
    simp only [stands.span_eq, byteLength_append] at start
    exact byteLength_eq_zero.mp (by omega)
  rw [List.append_nil] at stands
  rw [List.nil_append] at same
  have stop : lexeme.span.stop = byteLength (passed ++ lexeme.text.toList) := by
    simp [stands.span_eq, Span.stop]
  refine ⟨after, stands, longest, same, ?_, by simp [divides.lexemes_eq], ?_, ?_⟩
  · rw [stands.line_eq, List.append_assoc]
  · -- The earlier lexemes have ended in front of this one.
    intro other member
    rcases List.mem_append.mp member with isEarlier | isThis
    · have ended := divides.ended other isEarlier
      rw [byteLength_append]
      omega
    · rw [List.mem_singleton.mp isThis, stop]
  · -- The others start behind the end of this one.
    intro other isOther
    have ordered := (List.pairwise_append.mp (divides.lexemes_eq ▸ tiling.ordered)).2.1
    rw [← stop]
    exact ((List.pairwise_cons.mp ordered).1 other isOther).2

/-- The lexemes of a tiling behind a place are those that the rest of the line splits into. -/
theorem splits (divides : Divides line lexemes passed text earlier later)
    (tiling : Tiling line lexemes) : Splits (byteLength passed) text later := by
  -- One gap or one lexeme is passed at a time, so the induction is on the length of the rest.
  induction length : text.length using Nat.strong_induction_on
    generalizing text passed earlier later with
  | h count ih =>
    cases text with
    | nil =>
      rw [divides.eq_nil tiling]
      exact .done _
    | cons c rest =>
      by_cases gap : isGap c = true
      · have shorter : rest.length < count := by simp [← length]
        have next := ih _ shorter (divides.skip tiling gap) rfl
        exact .gap gap (by simpa using next)
      · obtain ⟨lexeme, others, rfl, start⟩ := divides.exists_cons tiling (by simpa using gap)
        obtain ⟨after, stands, longest, same, moved⟩ := divides.take tiling start
        have member := divides.mem List.mem_cons_self
        have occupied := stands.text_ne_nil (tiling.occupied lexeme member)
        have shorter : after.length < count := by
          have positive := List.length_pos_iff.mpr occupied
          rw [← length, same, List.length_append]
          omega
        have next := ih _ shorter moved rfl
        rw [same]
        exact longest.splits stands (by simpa using next)

end Divides

/-- The lexemes of a line are the only ones that tile it by longest matches. -/
theorem tiling_iff_eq_lexemesOf (line : String) (lexemes : List Lexeme) :
    Tiling line.toList lexemes ↔ lexemes = lexemesOf line := by
  constructor
  · intro tiling
    -- In front of the line nothing has been passed, and all lexemes are still to come.
    have divides : Divides line.toList lexemes [] line.toList [] lexemes :=
      ⟨rfl, rfl, by simp, by simp⟩
    exact splits_iff.mp (divides.splits tiling)
  · intro same
    exact same ▸ (splits_lexemesOf line).tiling

end Reckon
