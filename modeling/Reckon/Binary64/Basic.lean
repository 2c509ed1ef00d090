/-! Binary64 values, whose finite magnitudes are numbered in increasing order. -/

namespace Reckon

/-- How many magnitudes share one scale, which is two to the power fifty-two. -/
def blockSize : Nat := 0x10000000000000

/-- How many finite magnitudes there are, zero included. -/
def finiteCount : Nat := 2047 * blockSize

/--
A binary64 value.

A finite value is a sign and the rank of its magnitude: rank zero is zero, and each later rank is
the next larger magnitude. The rank is also what the sixty-three bits below the sign store.
A NaN stands for no number and is quiet or signaling. Every operation on a signaling one has the
quiet one as its result, and nothing else that a NaN stores makes a difference.
-/
inductive Binary64 where
  | nan (signaling : Bool)
  | infinity (negative : Bool)
  | finite (negative : Bool) (rank : Fin finiteCount)
  deriving DecidableEq

/-- The least bit pattern of a quiet NaN. -/
def quietStart : Nat := finiteCount + blockSize / 2

/-- The integer significand of a finite magnitude, with its leading one made explicit. -/
def significand (rank : Nat) : Nat :=
  -- The first block of ranks is subnormal and has no implicit bit.
  if rank < blockSize then rank else blockSize + rank % blockSize

/-- The power of two that one step of a magnitude's significand weighs, in units of 2^-1074. -/
def scale (rank : Nat) : Nat := rank / blockSize - 1

/-- A finite magnitude as a whole number of units of 2^-1074. -/
def units (rank : Nat) : Nat := significand rank <<< scale rank

/-- How many units make one. -/
def unitsPerOne : Nat := 1 <<< 1074

/-- The exact magnitude that a rank stands for. -/
def magnitude (rank : Nat) : Rat := (units rank : Rat) / unitsPerOne

namespace Binary64

/-- Zero with the given sign. -/
def zero (negative : Bool) : Binary64 := .finite negative ⟨0, by decide⟩

/-- The quiet NaN, which is the result of every operation that has none. -/
@[match_pattern] abbrev quietNaN : Binary64 := .nan false

/-- The value one. -/
def one : Binary64 := .finite false ⟨1023 * blockSize, by decide⟩

/-- A sign put in front of an exact magnitude. -/
def signed (negative : Bool) (amount : Rat) : Rat := if negative then -amount else amount

/-- The exact value of a finite number, and zero for the three values that are not finite. -/
def toRat : Binary64 → Rat
  | .finite negative rank => signed negative (magnitude rank)
  | _ => 0

/-- Whether a value stands for a real number. -/
def isFinite : Binary64 → Bool
  | .finite _ _ => true
  | _ => false

/-- Whether a value stands for no number. -/
def isNaN : Binary64 → Bool
  | .nan _ => true
  | _ => false

/-- Whether a value is a NaN that no operation may pass over. -/
def isSignaling : Binary64 → Bool
  | .nan signaling => signaling
  | _ => false

/-- The value with its sign changed. -/
def negate : Binary64 → Binary64
  | .nan signaling => .nan signaling
  | .infinity negative => .infinity (!negative)
  | .finite negative rank => .finite (!negative) rank

/-- Numeric equality, under which the two zeros are equal and NaN equals nothing. -/
def equals : Binary64 → Binary64 → Bool
  | .finite s a, .finite t b => a == b && (s == t || a.val == 0)
  | .infinity s, .infinity t => s == t
  | _, _ => false

/-- The sixty-four bits of a value, with one fixed pattern for each kind of NaN. -/
def toBits : Binary64 → UInt64
  | .nan signaling => if signaling then 0x7ff0000000000001 else UInt64.ofNat quietStart
  | .infinity negative => signBit negative + UInt64.ofNat finiteCount
  | .finite negative rank => signBit negative + UInt64.ofNat rank
where
  /-- The contribution of the sign to the bit pattern. -/
  signBit (negative : Bool) : UInt64 := if negative then 0x8000000000000000 else 0

/-- The value that sixty-four bits store. -/
def ofBits (bits : UInt64) : Binary64 :=
  let negative := decide (0x8000000000000000 ≤ bits)
  let rank := bits.toNat % 0x8000000000000000
  -- Everything above the pattern of infinity is some NaN, and the upper half of that is quiet.
  if finite : rank < finiteCount then .finite negative ⟨rank, finite⟩
  else if rank = finiteCount then .infinity negative
  else .nan (decide (rank < quietStart))

end Binary64

end Reckon
