import Mathlib.Data.List.Basic
import Reckon.Proofs.Lexeme.Classes
import Reckon.Text.LineLaws

/-! Texts in UTF-8: the bytes of a text, their order and their lines, and what they decode to. -/

namespace Reckon

/-- The bytes of a text in UTF-8. -/
def encode (text : List Char) : List UInt8 := text.flatMap String.utf8EncodeChar

/-- No characters have no bytes. -/
@[simp] theorem encode_nil : encode [] = [] := rfl

/-- The bytes of a character stand in front of those of the others. -/
@[simp] theorem encode_cons (c : Char) (rest : List Char) :
    encode (c :: rest) = String.utf8EncodeChar c ++ encode rest := List.flatMap_cons

/-- A string is stored as the bytes of its characters. -/
theorem encode_toList (text : String) : encode text.toList = text.toByteArray.data.toList := by
  conv => rhs; rw [← String.ofList_toList (s := text), String.toByteArray_ofList]
  rw [List.utf8Encode, List.data_toByteArray, encode]

/-- Bytes decode to a text when they are those of the text. -/
theorem decode?_eq_some_iff {bytes : List UInt8} {text : String} :
    decode? bytes = some text ↔ bytes = encode text.toList := by
  rw [encode_toList, decode?, String.fromUTF8?]
  constructor
  · intro decoded
    -- Bytes that are valid become a string as they are.
    split at decoded
    · obtain rfl := Option.some.inj decoded
      rfl
    · contradiction
  · -- The bytes that a string is stored as are valid.
    rintro rfl
    rw [dif_pos text.isValidUTF8]
    rfl

/-- The bytes of two texts in a row are those of the one and those of the other. -/
theorem encode_append (front back : List Char) :
    encode (front ++ back) = encode front ++ encode back :=
  List.flatMap_append

/-- A character below 128 is encoded as the one byte of its number. -/
theorem utf8EncodeChar_of_lt {c : Char} (small : c.toNat < 128) :
    String.utf8EncodeChar c = [UInt8.ofNat c.toNat] := by
  -- One byte is enough for a number of seven bits.
  have within : c.val.toNat ≤ 127 := Nat.le_of_lt_succ small
  simp only [String.utf8EncodeChar, if_pos within]
  rfl

/-- Any other character is encoded as bytes that are not below 128. -/
theorem le_of_mem_utf8EncodeChar {c : Char} (large : 128 ≤ c.toNat) :
    ∀ byte ∈ String.utf8EncodeChar c, 128 ≤ byte := by
  have beyond : ¬ c.val.toNat ≤ 127 := Nat.not_le_of_lt large
  have marked {rest mark : Nat} (small : rest + mark < 256) (high : 128 ≤ mark) :
      128 ≤ UInt8.ofNat (rest + mark) := by
    rw [UInt8.le_iff_toNat_le, UInt8.toNat_ofNat', Nat.mod_eq_of_lt small]
    exact Nat.le_add_left_of_le high
  intro byte member
  -- Every byte has a mark in its highest bits, above what it holds of the number.
  simp only [String.utf8EncodeChar, if_neg beyond] at member
  -- Two, three or four bytes are taken, as the number needs.
  split at member
  case isTrue =>
    simp only [List.mem_cons, List.not_mem_nil, or_false] at member
    rcases member with rfl | rfl <;> exact marked (by omega) (by omega)
  case isFalse =>
    split at member
    case isTrue =>
      simp only [List.mem_cons, List.not_mem_nil, or_false] at member
      rcases member with rfl | rfl | rfl <;> exact marked (by omega) (by omega)
    case isFalse =>
      simp only [List.mem_cons, List.not_mem_nil, or_false] at member
      rcases member with rfl | rfl | rfl | rfl <;> exact marked (by omega) (by omega)

/-- A byte below 128 is in the bytes of a text where its character is in the text. -/
theorem mem_encode_iff {d : Char} (small : d.toNat < 128) {text : List Char} :
    UInt8.ofNat d.toNat ∈ encode text ↔ d ∈ text := by
  rw [encode, List.mem_flatMap]
  constructor
  · intro found
    obtain ⟨c, among, member⟩ := found
    by_cases within : c.toNat < 128
    · rw [utf8EncodeChar_of_lt within, List.mem_singleton, ← UInt8.toNat_inj,
        UInt8.toNat_ofNat', UInt8.toNat_ofNat'] at member
      -- Two small characters with the same byte are the same.
      have same : c = d := Char.toNat_inj.mp (by omega)
      exact same ▸ among
    · -- The bytes of a large character are all past the byte.
      have large := le_of_mem_utf8EncodeChar (by omega) _ member
      rw [UInt8.le_iff_toNat_le, UInt8.toNat_ofNat', Nat.mod_eq_of_lt (by omega)] at large
      exact absurd large (Nat.not_le_of_lt small)
  · intro among
    exact ⟨d, among, by rw [utf8EncodeChar_of_lt small]; exact List.mem_singleton_self _⟩

/-- Letters have the order of their bytes. -/
theorem encode_lt_encode {text other : List Char} (letters : ∀ c ∈ text, c.isAlpha = true)
    (otherLetters : ∀ c ∈ other, c.isAlpha = true) (below : text < other) :
    encode text < encode other := by
  -- The induction is on the place of the first letter that differs.
  induction (show List.Lex (· < ·) text other from below) with
  -- A text that ends before the other has fewer bytes, and each letter has one.
  | nil =>
    have range := isAlpha_iff.mp (otherLetters _ List.mem_cons_self)
    rw [encode_cons, utf8EncodeChar_of_lt (by omega)]
    exact List.Lex.nil
  | @rel c text d other earlier =>
    -- The numbers of letters are small enough for a byte.
    have range := isAlpha_iff.mp (letters c List.mem_cons_self)
    have otherRange := isAlpha_iff.mp (otherLetters d List.mem_cons_self)
    rw [encode_cons, encode_cons, utf8EncodeChar_of_lt (by omega), utf8EncodeChar_of_lt (by omega)]
    have numbers : c.toNat < d.toNat := earlier
    refine List.Lex.rel ?_
    rw [UInt8.lt_iff_toNat_lt, UInt8.toNat_ofNat', UInt8.toNat_ofNat']
    omega
  | @cons c text other later ih =>
    rw [encode_cons, encode_cons]
    obtain ⟨_, letters⟩ := List.forall_mem_cons.mp letters
    obtain ⟨_, otherLetters⟩ := List.forall_mem_cons.mp otherLetters
    exact List.append_left_lt (ih letters otherLetters later)

section Lines

/-- The return in front of a newline is dropped from the bytes as it is from the text. -/
theorem dropReturn_encode (text : List Char) :
    dropReturn 13 (encode text) = encode (dropReturn '\r' text) := by
  rcases List.eq_nil_or_concat' text with rfl | ⟨front, c, rfl⟩
  · rfl
  · by_cases same : c = '\r'
    · have single : encode ['\r'] = [13] := by decide
      rw [same, encode_append, single]
      simp [dropReturn]
    · -- No other character has the byte of a return in it.
      have other : 13 ∉ encode [c] := fun among =>
        same (List.mem_singleton.mp ((mem_encode_iff (d := '\r') (by decide)).mp among)).symm
      have occupied : encode [c] ≠ [] := by simp [encode, String.utf8EncodeChar_ne_nil]
      -- The last byte of the text is one of its last character.
      have keeps : (encode (front ++ [c])).getLast? ≠ some 13 := by
        rw [encode_append, List.getLast?_append_of_ne_nil _ occupied]
        exact fun last => other (List.mem_of_getLast? last)
      simp [dropReturn, keeps, same]

/-- Some characters have some bytes. -/
theorem encode_ne_nil {text : List Char} (occupied : text ≠ []) : encode text ≠ [] := by
  obtain ⟨c, rest, rfl⟩ := List.exists_cons_of_ne_nil occupied
  rw [encode_cons]
  exact List.append_ne_nil_of_left_ne_nil String.utf8EncodeChar_ne_nil _

/-- The byte of a newline is in the bytes of a text where the text has a newline. -/
theorem newline_mem_encode_iff {text : List Char} : 10 ∈ encode text ↔ '\n' ∈ text :=
  mem_encode_iff (d := '\n') (by decide)

/-- A newline is encoded as one byte. -/
theorem encode_line (front back : List Char) :
    encode (front ++ '\n' :: back) = encode front ++ 10 :: encode back := by
  have single : String.utf8EncodeChar '\n' = [10] := by decide
  rw [encode_append, encode_cons, single, List.singleton_append]

/-- The lines of the bytes of a text are the bytes of its lines. -/
theorem byteLines_encode (text : List Char) :
    byteLines (encode text) = (splitLines '\n' '\r' text).map encode := by
  rw [byteLines]
  -- The text is cut at its newlines, and the bytes are cut at the same places.
  induction text using line_induction '\n' with
  | nil => rfl
  | last front absent occupied =>
    rw [splitLines_of_notMem absent occupied, List.map_singleton,
      splitLines_of_notMem (mt newline_mem_encode_iff.mp absent) (encode_ne_nil occupied)]
  | line front back absent ih =>
    rw [encode_line, splitLines_append_newline _ (mt newline_mem_encode_iff.mp absent), ih,
      dropReturn_encode, splitLines_append_newline _ absent, List.map_cons]

end Lines

end Reckon
