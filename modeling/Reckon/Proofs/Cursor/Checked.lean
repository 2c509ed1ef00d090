import Reckon.Proofs.Cursor.Run

/-!
Matching in steps that are checked where they are made.

A text is cut only inside of the line and between characters. A range starts no later than it ends.
A literal is read only where one stands, and a name is one. The lexemes are indexed only as far as
they go, and every loop and every recursion has to end within a count.
-/

namespace Reckon

/-- A place in a line, as an index into its lexemes. -/
structure Reader where
  source : String
  lexemes : List Lexeme
  /-- How many of the lexemes have been taken. -/
  position : Nat
  /-- Where the content of the line ends. -/
  stop : Nat
  /-- The number of open levels. -/
  depth : Nat

namespace Reader

/-- The place in front of the first lexeme of a line. -/
def ofLine (line : String) : Reader := ⟨line, lexemesOf line, 0, contentLength line.toList, 0⟩

/-- The lexeme a number of places ahead, which are added to the index in one machine word. -/
def ahead? (reader : Reader) (places : Nat) : Option Lexeme :=
  reader.lexemes[(reader.position + places) % UInt64.size]?

/-- Whether the lexeme a number of places ahead is of a kind. -/
def isAt (reader : Reader) (places : Nat) (token : Token) : Bool :=
  (reader.ahead? places).any (·.isToken token)

/--
The lexeme that comes next, or the one behind it.

The rules look no further, and to count so far no word is too short for a line that it can index.
-/
def near? (reader : Reader) (places : Fin 2) : Option Lexeme :=
  reader.lexemes[reader.position + places]?

/-- Whether the lexeme that comes next, or the one behind it, is of a kind. -/
def isNear (reader : Reader) (places : Fin 2) (token : Token) : Bool :=
  (reader.near? places).any (·.isToken token)

/-- Where no count passes the word, the rules look at what anyone finds ahead. -/
theorem near?_eq_ahead? (reader : Reader) (places : Fin 2)
    (short : reader.position + 1 < UInt64.size) : reader.near? places = reader.ahead? places := by
  have fits : reader.position + places < UInt64.size := by omega
  rw [near?, ahead?, Nat.mod_eq_of_lt fits]

/-- The next lexeme and the place behind it, if there is one. -/
def take (reader : Reader) : Option Lexeme × Reader :=
  match reader.near? 0 with
  | some lexeme => (some lexeme, { reader with position := reader.position + 1 })
  | none => (none, reader)

/-- The next lexeme and the place behind it, if it is of a kind. -/
def takeIf (reader : Reader) (token : Token) : Option Lexeme × Reader :=
  if reader.isNear 0 token then reader.take else (none, reader)

/-- The lexemes that have not been taken, unless the index is past all of them. -/
def remaining? (reader : Reader) : Option (List Lexeme) :=
  if reader.position ≤ reader.lexemes.length then some (reader.lexemes.drop reader.position)
  else none

/-- Whether all lexemes have been taken. -/
def atEnd (reader : Reader) : Bool := decide (reader.lexemes.length ≤ reader.position)

/-- The text of a range of the line, which is refused past the end and inside a character. -/
def slice? (reader : Reader) (span : Span) : Option String :=
  (Reckon.slice? reader.source.toList span.offset span.length).map String.ofList

/-- The error of a rule that fails here, which reaches to the end of the content. -/
def error (reader : Reader) (rule : Rule) : SyntaxError :=
  let offset := ((reader.near? 0).map fun lexeme => lexeme.span.offset).getD reader.stop
  ⟨rule, offset, reader.stop - offset⟩

/-- Opens a level on behalf of a rule. -/
def openLevel (reader : Reader) (rule : Rule) : Except SyntaxError Reader :=
  if levelLimit ≤ reader.depth then .error (reader.error rule)
  else .ok { reader with depth := reader.depth + 1 }

/-- Closes a level, if one is open. -/
def closeLevel (reader : Reader) : Reader := { reader with depth := reader.depth - 1 }

end Reader

/--
A step of a reader.

It gives nothing where it is not defined. Otherwise it gives a value or the error of a rule, and the
reader that it leaves.
-/
def Checked (α : Type) : Type := Reader → Option (Except SyntaxError α × Reader)

namespace Checked

variable {α β : Type}

/-- Goes on behind a value, and lets an error stand. -/
def andThen (step : Checked α) (next : α → Checked β) : Checked β := fun reader =>
  match step reader with
  | none => none
  | some (.error error, last) => some (.error error, last)
  | some (.ok value, last) => next value last

/-- Steps are taken one after the other. -/
instance : Monad Checked where
  pure value := fun reader => some (.ok value, reader)
  bind := andThen

/-- The step that is nowhere defined. -/
def undefined : Checked α := fun _ => none

/-- Goes on only where something holds. -/
def require (holds : Bool) : Checked Unit := if holds then pure () else undefined

/-- What a reader tells, if it tells anything. -/
def told (question : Reader → Option α) : Checked α := fun reader =>
  (question reader).map fun answer => (.ok answer, reader)

/-- The error of a rule that fails here. -/
def fail (rule : Rule) : Checked α := fun reader => some (.error (reader.error rule), reader)

/-- The lexeme that comes next, or the one behind it. -/
def near (places : Fin 2) : Checked (Option Lexeme) := fun reader =>
  some (.ok (reader.near? places), reader)

/-- Whether the lexeme that comes next, or the one behind it, is of a kind. -/
def isNear (places : Fin 2) (token : Token) : Checked Bool := fun reader =>
  some (.ok (reader.isNear places token), reader)

/-- Takes the next lexeme. -/
def take : Checked (Option Lexeme) := fun reader => some (.ok reader.take.1, reader.take.2)

/-- Takes the next lexeme, if it is of a kind. -/
def takeIf (token : Token) : Checked (Option Lexeme) := fun reader =>
  some (.ok (reader.takeIf token).1, (reader.takeIf token).2)

/-- The lexemes that have not been taken. -/
def remaining : Checked (List Lexeme) := told Reader.remaining?

/-- The text of a range of the line. -/
def slice (span : Span) : Checked String := told fun reader => reader.slice? span

/-- The range that covers two ranges, which may not end before it starts. -/
def cover (left right : Span) : Checked Span := do
  require (min left.offset right.offset ≤ max left.stop right.stop)
  pure (left.cover right)

/-- A step one level deeper, on behalf of a rule. -/
def deeper (rule : Rule) (inner : Checked Expr) : Checked Expr := fun reader =>
  match reader.openLevel rule with
  | .error error => some (.error error, reader)
  -- The level is closed only behind a match.
  | .ok below => (inner >>= fun tree inside => some (.ok tree, inside.closeLevel)) below

/-- The text of a range as a literal of a kind, which it has to be. -/
def literal (kind : LiteralKind) (span : Span) : Checked Expr := do
  let text ← slice span
  match kind.read text with
  | .ok value => pure (.literal kind text value span)
  | .error _ => undefined

/-- Whether a decimal literal stands right behind a minus that comes next. -/
def isSign (minus : Lexeme) : Checked Bool := fun reader =>
  some (.ok ((reader.near? 1).any fun digits =>
    digits.isToken .decimal && digits.span.offset == minus.span.stop), reader)

/-- Whether a number comes next: a literal, or a minus with a decimal literal right behind it. -/
def startsNumber : Checked Bool := do
  match ← near 0 with
  | none => pure false
  | some lexeme =>
    match lexeme.token with
    | some .hexadecimal | some .binary | some .decimal => pure true
    | some .minus => isSign lexeme
    | _ => pure false

/-- A number, which has to come next. -/
def number : Checked Expr := do
  let starts ← startsNumber
  -- Who asks for a number has seen one, so that anything else is no error but a flaw.
  require starts
  match ← take with
  | none => fail .number
  | some lexeme =>
    match lexeme.token with
    | some .hexadecimal => literal .hexadecimal lexeme.span
    | some .binary => literal .binary lexeme.span
    | some .decimal => literal .decimal lexeme.span
    | some .minus =>
      match ← takeIf .decimal with
      -- Never reached, as the digits were seen behind the minus.
      | none => fail .decimalLiteral
      | some digits =>
        let span ← cover lexeme.span digits.span
        literal .decimal span
    | _ => undefined

/-- An expression between parentheses, where the step for the expression is one level deeper. -/
def parenthesized (inner : Checked Expr) : Checked Expr := do
  match ← takeIf .leftParen with
  | none => fail .parenthesized
  | some opening =>
    let tree ← deeper .parenthesized inner
    match ← takeIf .rightParen with
    | none => fail .parenthesized
    | some closing =>
      let span ← cover opening.span closing.span
      pure (.parenthesized tree span)

/-- The name that comes next, which has to be one. -/
def reference (lexeme : Lexeme) : Checked Expr := do
  let _ ← take
  let name ← slice lexeme.span
  require (isName name)
  pure (.reference name lexeme.span)

/-- A literal, a variable or an expression between parentheses. -/
def atom (inner : Checked Expr) : Checked Expr := do
  match ← near 0 with
  | none => fail .atom
  | some lexeme =>
    match lexeme.token with
    | some .hexadecimal | some .binary | some .decimal => number
    | some .minus => do
      if ← isSign lexeme then number else fail .atom
    | some .name => reference lexeme
    | some .leftParen => parenthesized inner
    | _ => fail .atom

/-- The function that is called next, if one is. -/
def called? : Checked (Option NamedFunction) := do
  match ← near 0 with
  | none => pure none
  | some name =>
    -- The text is cut out only where parentheses follow.
    if name.isToken .name && (← isNear 1 .leftParen) then
      let text ← slice name.span
      pure (NamedFunction.called? text)
    else pure none

/-- A call of a function, or an atom. -/
def signedAtom (inner : Checked Expr) : Checked Expr := do
  match ← called? with
  | none => atom inner
  | some function =>
    match ← take with
    | none => fail .functionExpression
    | some name =>
      let argument ← parenthesized inner
      let span ← cover name.span argument.span
      pure (.call function argument span)

/-- The operator that comes next, if it is one of those accepted. -/
def operator? (accepted : List Operator) : Checked (Option Operator) := fun reader =>
  some (.ok (((reader.near? 0).bind fun lexeme =>
    lexeme.token.bind Token.operator?).filter accepted.contains), reader)

/-- An operation, which reaches from its left operand to its right one. -/
def operation (left : Expr) (operator : Operator) (right : Expr) : Checked Expr := do
  let span ← cover left.span right.span
  pure (.operation left operator right span)

/-- Operators with their right operands, folded onto a left operand within a number of rounds. -/
def chainFrom (accepted : List Operator) (operand : Checked Expr) :
    (rounds : Nat) → Expr → Checked Expr
  | 0, _ => undefined
  | rounds + 1, left => do
    match ← operator? accepted with
    | none => pure left
    | some operator =>
      let _ ← take
      let right ← operand
      let whole ← operation left operator right
      chainFrom accepted operand rounds whole

/-- Operands joined by operators of one precedence, with more rounds than there are lexemes. -/
def chain (accepted : List Operator) (operand : Checked Expr) : Checked Expr := do
  let left ← operand
  -- Each round takes the operator at least, and the last one only looks.
  fun reader => chainFrom accepted operand (reader.lexemes.length + 1) left reader

/-- Powers joined by multiplications and divisions. -/
def multiplicativeOver (power : Checked Expr) : Checked Expr := chain [.multiply, .divide] power

/-- Products joined by additions and subtractions. -/
def additiveOver (power : Checked Expr) : Checked Expr :=
  chain [.add, .subtract] (multiplicativeOver power)

/-- An assignment, whose name and equals sign come next. -/
def assignment (power : Checked Expr) : Checked Expr := do
  match ← take with
  -- The name and the sign were both seen before the first of them is taken.
  | none => undefined
  | some target =>
    let _ ← take
    let name ← slice target.span
    require (isName name)
    let value ← additiveOver power
    let span ← cover target.span value.span
    pure (.assignment ⟨name, target.span⟩ value span)

/-- An assignment, if a name and an equals sign come next. -/
def assignmentOver? (power : Checked Expr) : Checked (Option Expr) := do
  if (← isNear 0 .name) && (← isNear 1 .equals) then some <$> assignment power else pure none

/-- An assignment, or a sum. -/
def expressionOver (power : Checked Expr) : Checked Expr := do
  match ← assignmentOver? power with
  | some tree => pure tree
  | none => additiveOver power

/-- A signed atom, and a power as its exponent if a caret follows. -/
def powerOver (deeperPower : Checked Expr) : Checked Expr := do
  let base ← signedAtom (expressionOver deeperPower)
  match ← takeIf .caret with
  | none => pure base
  | some _ =>
    let exponent ← deeper .powerExpression deeperPower
    operation base .power exponent

/-- A power, whose recursion has to end within a number of calls. -/
def power : (calls : Nat) → Checked Expr
  | 0 => powerOver undefined
  | calls + 1 => powerOver (power calls)

/-- Takes the lexemes that are left within a number of rounds. -/
def takeAll : (rounds : Nat) → Checked Unit
  | 0 => undefined
  | rounds + 1 => do
    match ← take with
    | none => pure ()
    | some _ => takeAll rounds

/-- A header, if nothing but minus signs is left. -/
def header? : Checked (Option Expr) := do
  let left ← remaining
  match left.head?, left.getLast? with
  | some first, some last =>
    if left.all (·.isToken .minus) then
      let span ← cover first.span last.span
      let text ← slice span
      -- One more round than there are lexemes, to find that none is left.
      takeAll (left.length + 1)
      pure (some (.header text span))
    else pure none
  | _, _ => pure none

/-- A header or an expression, behind which nothing may be left. -/
def session (power : Checked Expr) : Checked Expr := do
  match ← header? with
  | some tree => pure tree
  | none =>
    let tree ← expressionOver power
    fun reader => if reader.atEnd then some (.ok tree, reader) else fail .session reader

end Checked

/-- The steps of a rule, where a recursion goes no deeper than the limit of levels. -/
def Entry.checked (entry : Entry) : Checked (Option Expr) :=
  -- No level is left below the last call, which therefore never goes on.
  let powers := Checked.power levelLimit
  match entry with
  | session => some <$> Checked.session powers
  | expression => some <$> Checked.expressionOver powers
  | assignment => Checked.assignmentOver? powers
  | additive => some <$> Checked.additiveOver powers
  | multiplicative => some <$> Checked.multiplicativeOver powers
  | power => some <$> powers

end Reckon
