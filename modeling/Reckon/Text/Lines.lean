/-! Text and bytes split into lines. -/

namespace Reckon

/--
The lines of some input, without what ends them.

A line ends with a newline, or with a return and a newline. A return by itself stays in its line,
and the input need not end its last line.
-/
def splitLines {α : Type} [DecidableEq α] (newline carriage : α) : List α → List (List α)
  | [] => []
  | c :: rest =>
    if c = newline then [] :: splitLines newline carriage rest
    else if c = carriage ∧ rest.head? = some newline then splitLines newline carriage rest
    else match splitLines newline carriage rest with
      | [] => [[c]]
      | line :: lines => (c :: line) :: lines

/-- The lines of a text. -/
def textLines (text : String) : List String :=
  (splitLines '\n' '\r' text.toList).map String.ofList

/-- The lines of some bytes. -/
def byteLines (bytes : List UInt8) : List (List UInt8) := splitLines 10 13 bytes

/-- The text that bytes encode in UTF-8, if they encode one. -/
def decode? (bytes : List UInt8) : Option String := String.fromUTF8? ⟨bytes.toArray⟩

end Reckon
