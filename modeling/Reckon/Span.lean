/-! Byte ranges in one line of input. -/

namespace Reckon

/-- A range of bytes, measured from the start of the line. -/
structure Span where
  /-- The offset of the first byte. -/
  offset : Nat
  /-- The number of bytes. -/
  length : Nat
  deriving DecidableEq

namespace Span

/-- The offset one past the last byte. -/
def stop (span : Span) : Nat := span.offset + span.length

/-- The range from one offset up to another. -/
def between (start stop : Nat) : Span := ⟨start, stop - start⟩

/-- The smallest range that covers two ranges. -/
def cover (left right : Span) : Span :=
  between (min left.offset right.offset) (max left.stop right.stop)

/-- The range in the notation that the journal writes it in. -/
def display (span : Span) : String :=
  "Span \x7b offset: " ++ toString span.offset ++ ", length: " ++ toString span.length ++ " \x7d"

end Span

end Reckon
