/-! The binary operators and the functions that can be called by name. -/

namespace Reckon

/-- A binary operator. -/
inductive Operator where
  | add
  | subtract
  | multiply
  | divide
  | power
  deriving DecidableEq

namespace Operator

/-- Every operator, loosest first. -/
def all : List Operator := [.add, .subtract, .multiply, .divide, .power]

/-- The name of the tree node that the operator makes. -/
def name : Operator → String
  | .add => "Add"
  | .subtract => "Subtract"
  | .multiply => "Multiply"
  | .divide => "Divide"
  | .power => "Power"

/-- The operator as it is typed. -/
def symbol : Operator → Char
  | .add => '+'
  | .subtract => '-'
  | .multiply => '*'
  | .divide => '/'
  | .power => '^'

end Operator

/-- A function that an expression can call by name. -/
inductive NamedFunction where
  | sine
  | cosine
  deriving DecidableEq

namespace NamedFunction

/-- Every function, in the order they are listed to the user. -/
def all : List NamedFunction := [.sine, .cosine]

/-- The name that calls the function. -/
def keyword : NamedFunction → String
  | .sine => "sin"
  | .cosine => "cos"

/-- The name of the tree node that a call makes. -/
def name : NamedFunction → String
  | .sine => "Sin"
  | .cosine => "Cos"

/-- The function that a name calls, if it calls one. -/
def called? (text : String) : Option NamedFunction :=
  all.find? fun function => function.keyword == text

end NamedFunction

end Reckon
