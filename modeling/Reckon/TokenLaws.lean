import Reckon.Token

/-! A lexeme takes at least one character, and only characters at the start of its text. -/

namespace Reckon.Token

/-- A hexadecimal literal is a nonempty part at the start of its text. -/
theorem leadingHexadecimal?_append {text taken : List Char}
    (found : leadingHexadecimal? text = some taken) :
    taken ≠ [] ∧ ∃ rest, text = taken ++ rest := by
  unfold leadingHexadecimal? at found
  -- Only a text with the marker in front is read, and with a digit behind it.
  split at found
  · rename_i rest
    dsimp only at found
    split at found
    · contradiction
    · simp only [Option.some.injEq] at found
      subst found
      -- What is left is behind the run of digits.
      refine ⟨by simp, rest.dropWhile isHexDigit, ?_⟩
      rw [List.cons_append, List.cons_append, List.takeWhile_append_dropWhile]
  · contradiction

/-- A binary literal is a nonempty part at the start of its text. -/
theorem leadingBinary?_append {text taken : List Char}
    (found : leadingBinary? text = some taken) :
    taken ≠ [] ∧ ∃ rest, text = taken ++ rest := by
  simp only [leadingBinary?] at found
  split at found
  · rename_i rest _ marker
    simp only [Option.some.injEq] at found
    subst found
    -- The marker is the first character behind the run of digits.
    refine ⟨by simp, rest, ?_⟩
    rw [List.append_assoc, List.singleton_append, ← marker, List.takeWhile_append_dropWhile]
  · contradiction

/-- A decimal literal is a nonempty part at the start of its text. -/
theorem leadingDecimal?_append {text taken : List Char}
    (found : leadingDecimal? text = some taken) :
    taken ≠ [] ∧ ∃ rest, text = taken ++ rest := by
  -- The text is its run of digits and what is behind that.
  have cut : text = text.takeWhile Char.isDigit ++ text.dropWhile Char.isDigit :=
    List.takeWhile_append_dropWhile.symm
  simp only [leadingDecimal?] at found
  split at found
  · contradiction
  · rename_i occupied
    have occupied : text.takeWhile Char.isDigit ≠ [] := by simpa using occupied
    split at found
    · rename_i rest point
      simp only [Option.some.injEq] at found
      subst found
      -- Without digits behind it the point is left, and otherwise it is taken with them.
      split
      · exact ⟨occupied, _, cut⟩
      · refine ⟨by simp, rest.dropWhile Char.isDigit, ?_⟩
        rw [List.append_assoc, List.cons_append, List.takeWhile_append_dropWhile, ← point]
        exact cut
    · simp only [Option.some.injEq] at found
      subst found
      exact ⟨occupied, _, cut⟩

/-- A name is a nonempty part at the start of its text. -/
theorem leadingName?_append {text taken : List Char}
    (found : leadingName? text = some taken) :
    taken ≠ [] ∧ ∃ rest, text = taken ++ rest := by
  simp only [leadingName?] at found
  split at found
  · contradiction
  · rename_i occupied
    simp only [Option.some.injEq] at found
    subst found
    -- The name is the run of letters, and the rest is behind it.
    exact ⟨by simpa using occupied, _, List.takeWhile_append_dropWhile.symm⟩

/-- A symbol is a nonempty part at the start of its text. -/
theorem leadingSymbol?_append {text taken : List Char} {token : Token}
    (found : leadingSymbol? text = some (token, taken)) :
    taken ≠ [] ∧ ∃ rest, text = taken ++ rest := by
  -- A symbol is one character.
  cases text with
  | nil => contradiction
  | cons c rest =>
    obtain ⟨_, _, same⟩ := Option.map_eq_some_iff.mp found
    obtain ⟨rfl, rfl⟩ := Prod.mk.inj same
    exact ⟨by simp, rest, rfl⟩

/-- The kinds are tried in order, so what is taken is none of the kinds that come before. -/
theorem leading?_cases {text taken : List Char} {token : Token}
    (found : leading? text = some (token, taken)) :
    (token = .hexadecimal ∧ leadingHexadecimal? text = some taken) ∨
    (token = .binary ∧ leadingHexadecimal? text = none ∧ leadingBinary? text = some taken) ∨
    (token = .decimal ∧ leadingHexadecimal? text = none ∧ leadingBinary? text = none ∧
      leadingDecimal? text = some taken) ∨
    (token = .name ∧ leadingName? text = some taken) ∨
    leadingSymbol? text = some (token, taken) := by
  simp only [leading?] at found
  -- The readers are gone through in the order they are tried in.
  cases hexadecimal : leadingHexadecimal? text with
  | some digits =>
    simp [hexadecimal] at found
    exact .inl ⟨found.1.symm, by rw [found.2]⟩
  | none =>
    cases binary : leadingBinary? text with
    | some digits =>
      simp [hexadecimal, binary] at found
      exact .inr (.inl ⟨found.1.symm, rfl, by rw [found.2]⟩)
    | none =>
      cases decimal : leadingDecimal? text with
      | some digits =>
        simp [hexadecimal, binary, decimal] at found
        exact .inr (.inr (.inl ⟨found.1.symm, rfl, rfl, by rw [found.2]⟩))
      | none =>
        cases name : leadingName? text with
        | some letters =>
          simp [hexadecimal, binary, decimal, name] at found
          exact .inr (.inr (.inr (.inl ⟨found.1.symm, by rw [found.2]⟩)))
        | none =>
          simp [hexadecimal, binary, decimal, name] at found
          exact .inr (.inr (.inr (.inr found)))

/-- The longest lexeme is a nonempty part at the start of its text. -/
theorem leading?_append {text taken : List Char} {token : Token}
    (found : leading? text = some (token, taken)) :
    taken ≠ [] ∧ ∃ rest, text = taken ++ rest := by
  -- It is so for each of the readers.
  rcases leading?_cases found with ⟨_, read⟩ | ⟨_, _, read⟩ | ⟨_, _, _, read⟩ | ⟨_, read⟩ | read
  · exact leadingHexadecimal?_append read
  · exact leadingBinary?_append read
  · exact leadingDecimal?_append read
  · exact leadingName?_append read
  · exact leadingSymbol?_append read

end Reckon.Token
