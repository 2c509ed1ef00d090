/-! Characters of a line located by the bytes that its UTF-8 text takes. -/

namespace Reckon

/-- The number of bytes that some characters take. -/
def byteLength : List Char → Nat
  | [] => 0
  | c :: rest => c.utf8Size + byteLength rest

/-- The characters left after a number of bytes, if a character starts or the text ends there. -/
def dropBytes? : Nat → List Char → Option (List Char)
  | 0, text => some text
  | _ + 1, [] => none
  | count + 1, c :: rest =>
    if c.utf8Size ≤ count + 1 then dropBytes? (count + 1 - c.utf8Size) rest else none
termination_by structural _ text => text

/-- The characters that make up a number of leading bytes, if they end with a whole character. -/
def takeBytes? : Nat → List Char → Option (List Char)
  | 0, _ => some []
  | _ + 1, [] => none
  | count + 1, c :: rest =>
    if c.utf8Size ≤ count + 1 then (takeBytes? (count + 1 - c.utf8Size) rest).map (c :: ·)
    else none
termination_by structural _ text => text

/-- The text of a byte range, which is refused past the end and inside a character. -/
def slice? (source : List Char) (offset length : Nat) : Option (List Char) :=
  (dropBytes? offset source).bind (takeBytes? length)

/-- The number of characters that end at or before a byte offset. -/
def columnAt : List Char → Nat → Nat
  | [], _ => 0
  | c :: rest, offset =>
    if c.utf8Size ≤ offset then columnAt rest (offset - c.utf8Size) + 1 else 0

/-- Whether a character only separates lexemes. -/
def isGap (c : Char) : Bool := c == ' ' || c == '\t'

/-- The number of bytes up to the last character that is not a gap. -/
def contentLength : List Char → Nat
  | [] => 0
  | c :: rest =>
    let following := contentLength rest
    -- A gap counts only when something else comes after it.
    if following = 0 && isGap c then 0 else c.utf8Size + following

end Reckon
