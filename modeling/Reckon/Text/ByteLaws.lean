import Reckon.Text.Bytes

/-! Laws of byte lengths, cuts and columns at the boundaries between characters. -/

namespace Reckon

/-- No characters take no bytes. -/
@[simp] theorem byteLength_nil : byteLength [] = 0 := rfl

/-- A character adds its own bytes. -/
@[simp] theorem byteLength_cons (c : Char) (rest : List Char) :
    byteLength (c :: rest) = c.utf8Size + byteLength rest := rfl

/-- The bytes of two texts in a row are those of the one and those of the other. -/
@[simp] theorem byteLength_append (before after : List Char) :
    byteLength (before ++ after) = byteLength before + byteLength after := by
  -- The bytes of the first text are counted one character after the other.
  induction before with
  | nil => simp
  | cons c rest ih => simp [ih, Nat.add_assoc]

/-- The bytes of a string's characters are the bytes of the string. -/
theorem byteLength_toList (text : String) : byteLength text.toList = text.utf8ByteSize := by
  -- A string made of characters has the bytes of each of them.
  have general : ∀ chars : List Char, byteLength chars = (String.ofList chars).utf8ByteSize := by
    intro chars
    induction chars with
    | nil => simp
    | cons c rest ih =>
      rw [byteLength_cons, ih, show c :: rest = [c] ++ rest from rfl, String.ofList_append,
        String.utf8ByteSize_append, ← String.singleton_eq_ofList, String.utf8ByteSize_singleton]
  rw [general, String.ofList_toList]

/-- A text with a character in it takes at least one byte. -/
theorem byteLength_cons_eq_succ (c : Char) (rest : List Char) :
    ∃ width, c.utf8Size = width + 1 ∧ byteLength (c :: rest) = width + byteLength rest + 1 := by
  obtain ⟨width, positive⟩ := Nat.exists_eq_add_of_lt c.utf8Size_pos
  exact ⟨width, by omega, by rw [byteLength_cons, positive]; omega⟩

/-- Only the empty text takes no bytes. -/
theorem byteLength_eq_zero {text : List Char} : byteLength text = 0 ↔ text = [] := by
  cases text with
  | nil => simp
  | cons c rest =>
    -- A character takes a byte at least.
    have positive := c.utf8Size_pos
    simp
    omega

/-- Of two parts at the start of one text, the one with fewer bytes is a part of the other. -/
theorem append_eq_append_of_byteLength_le {before after left right : List Char}
    (same : before ++ after = left ++ right) (shorter : byteLength before ≤ byteLength left) :
    ∃ between, left = before ++ between ∧ after = between ++ right := by
  rcases List.append_eq_append_iff.mp same with ⟨between, longer, rest⟩ | ⟨between, rfl, rfl⟩
  · exact ⟨between, longer, rest⟩
  · -- What the first part has beyond the second takes no bytes.
    have nothing : between = [] := by
      rw [byteLength_append] at shorter
      exact byteLength_eq_zero.mp (by omega)
    exact ⟨[], by simp [nothing], by simp [nothing]⟩

/-- Of the beginnings of a text no two have the same number of bytes. -/
theorem eq_of_prefix_of_byteLength_eq {left right text : List Char} (leftPart : left <+: text)
    (rightPart : right <+: text) (same : byteLength left = byteLength right) : left = right := by
  obtain ⟨leftRest, rfl⟩ := leftPart
  obtain ⟨rightRest, whole⟩ := rightPart
  obtain ⟨between, rfl, _⟩ := append_eq_append_of_byteLength_le whole (Nat.le_of_eq same.symm)
  -- What the longer one has beyond the other takes no bytes.
  rw [byteLength_append] at same
  rw [byteLength_eq_zero.mp (by omega : byteLength between = 0), List.append_nil]

/-- Behind the bytes of a whole text the bytes of what follows are dropped. -/
theorem dropBytes?_append_add (before after : List Char) (count : Nat) :
    dropBytes? (byteLength before + count) (before ++ after) = dropBytes? count after := by
  -- Each step drops one whole character, whose bytes are still to be dropped.
  induction before with
  | nil => simp
  | cons c rest ih =>
    obtain ⟨width, size, whole⟩ := byteLength_cons_eq_succ c rest
    rw [whole, List.cons_append, Nat.add_right_comm, dropBytes?, if_pos (by omega),
      show width + byteLength rest + count + 1 - c.utf8Size = byteLength rest + count by omega, ih]

/-- Dropping the bytes of a whole text leaves what stands behind it. -/
theorem dropBytes?_append (before after : List Char) :
    dropBytes? (byteLength before) (before ++ after) = some after := by
  have dropped := dropBytes?_append_add before after 0
  rwa [Nat.add_zero, dropBytes?] at dropped

/-- Taking the bytes of a whole text gives that text. -/
theorem takeBytes?_append (before after : List Char) :
    takeBytes? (byteLength before) (before ++ after) = some before := by
  -- Each step takes one whole character, whose bytes are still to be taken.
  induction before with
  | nil => simp [takeBytes?]
  | cons c rest ih =>
    obtain ⟨width, size, whole⟩ := byteLength_cons_eq_succ c rest
    rw [whole, List.cons_append, takeBytes?, if_pos (by omega),
      show width + byteLength rest + 1 - c.utf8Size = byteLength rest by omega, ih]
    rfl

/-- What is left behind some bytes stands behind a text of so many bytes. -/
theorem dropBytes?_eq_some {count : Nat} {text rest : List Char}
    (found : dropBytes? count text = some rest) :
    ∃ taken, text = taken ++ rest ∧ byteLength taken = count := by
  -- Each step takes one character off the text and its bytes off the count.
  induction text generalizing count with
  | nil =>
    cases count with
    | zero => exact ⟨[], by simpa [dropBytes?] using found, rfl⟩
    | succ count => contradiction
  | cons c others ih =>
    cases count with
    | zero => exact ⟨[], by simpa [dropBytes?] using found, rfl⟩
    | succ count =>
      rw [dropBytes?] at found
      split at found
      · obtain ⟨taken, rfl, bytes⟩ := ih found
        exact ⟨c :: taken, rfl, by rw [byteLength_cons]; omega⟩
      · contradiction

/-- The text that some bytes make up stands in front and is of so many bytes. -/
theorem takeBytes?_eq_some {count : Nat} {text taken : List Char}
    (found : takeBytes? count text = some taken) :
    (∃ rest, text = taken ++ rest) ∧ byteLength taken = count := by
  -- Each step takes one character off the text and its bytes off the count.
  induction text generalizing count taken with
  | nil =>
    cases count with
    | zero =>
      obtain rfl := Option.some.inj found
      exact ⟨⟨[], rfl⟩, rfl⟩
    | succ count => contradiction
  | cons c others ih =>
    cases count with
    | zero =>
      obtain rfl := Option.some.inj found
      exact ⟨⟨c :: others, rfl⟩, rfl⟩
    | succ count =>
      rw [takeBytes?] at found
      split at found
      · obtain ⟨more, later, rfl⟩ := Option.map_eq_some_iff.mp found
        obtain ⟨⟨rest, rfl⟩, bytes⟩ := ih later
        exact ⟨⟨rest, rfl⟩, by rw [byteLength_cons]; omega⟩
      · contradiction

/-- A text in the middle of another is cut out by its own bytes behind those in front of it. -/
theorem slice?_append (before middle after : List Char) :
    slice? (before ++ (middle ++ after)) (byteLength before) (byteLength middle) =
      some middle := by
  simp [slice?, dropBytes?_append, takeBytes?_append]

/-- The column behind some characters is their number. -/
theorem columnAt_append (before after : List Char) :
    columnAt (before ++ after) (byteLength before) = before.length := by
  induction before with
  | nil =>
    -- No character of what follows ends at offset zero.
    cases after with
    | nil => rfl
    | cons c rest =>
      have positive := c.utf8Size_pos
      simp [columnAt]
      omega
  | cons c rest ih => simp [columnAt, ih]

end Reckon
