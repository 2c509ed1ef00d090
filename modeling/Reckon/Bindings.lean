import Reckon.Binary64.Basic

/-! The variables that are bound and their values, in the order of their names. -/

namespace Reckon

/-- Puts a value under a name in a list in the order of names, in place of the name's old value. -/
def insertSorted (name : String) (value : Binary64) :
    List (String × Binary64) → List (String × Binary64)
  | [] => [(name, value)]
  | entry :: rest =>
    if name < entry.1 then (name, value) :: entry :: rest
    else if name = entry.1 then (name, value) :: rest
    else entry :: insertSorted name value rest

/-- Every entry of a list after an insertion was there before or is the new one. -/
theorem mem_insertSorted {name : String} {value : Binary64} {entry : String × Binary64}
    {entries : List (String × Binary64)} (member : entry ∈ insertSorted name value entries) :
    entry = (name, value) ∨ entry ∈ entries := by
  -- The new entry is put in front of one entry, in its place or somewhere behind it.
  induction entries with
  | nil => simpa [insertSorted] using member
  | cons first rest ih =>
    unfold insertSorted at member
    split at member
    · simpa using member
    · split at member
      · rcases List.mem_cons.mp member with new | old
        · exact .inl new
        · exact .inr (List.mem_cons_of_mem _ old)
      · rcases List.mem_cons.mp member with old | later
        · exact .inr (old ▸ List.mem_cons_self)
        · exact (ih later).imp_right (List.mem_cons_of_mem _)

/-- An insertion keeps the order of the names. -/
theorem insertSorted_pairwise (name : String) (value : Binary64)
    {entries : List (String × Binary64)} (sorted : entries.Pairwise (·.1 < ·.1)) :
    (insertSorted name value entries).Pairwise (·.1 < ·.1) := by
  -- The induction follows the search for the place of the name.
  induction entries with
  | nil => simp [insertSorted]
  | cons first rest ih =>
    obtain ⟨above, sorted⟩ := List.pairwise_cons.mp sorted
    unfold insertSorted
    split
    · -- A name below the first one is below all the others too.
      rename_i below
      refine List.pairwise_cons.mpr ⟨?_, List.pairwise_cons.mpr ⟨above, sorted⟩⟩
      intro entry member
      rcases List.mem_cons.mp member with same | later
      · exact same ▸ below
      · exact String.lt_trans below (above entry later)
    · rename_i notBelow
      split
      · -- The same name stands in the same place.
        rename_i same
        exact List.pairwise_cons.mpr ⟨fun entry member => same ▸ above entry member, sorted⟩
      · rename_i different
        refine List.pairwise_cons.mpr ⟨?_, ih sorted⟩
        intro entry member
        rcases mem_insertSorted member with new | old
        · -- A name that is neither below nor equal is above.
          subst new
          exact Std.lt_of_le_of_ne (String.not_lt.mp notBelow) (Ne.symm different)
        · exact above entry old

/-- The variables that are bound, each under its own name. -/
structure Bindings where
  /-- The names and their values. -/
  entries : List (String × Binary64)
  /-- The names stand in increasing order, so none stands twice. -/
  sorted : entries.Pairwise (·.1 < ·.1)
  deriving DecidableEq

namespace Bindings

/-- No variable is bound. -/
def empty : Bindings := ⟨[], .nil⟩

/-- The value of a name, if the name is bound. -/
def get? (bindings : Bindings) (name : String) : Option Binary64 := bindings.entries.lookup name

/-- The value of a name, where an unbound name has the value zero. -/
def lookup (bindings : Bindings) (name : String) : Binary64 :=
  (bindings.get? name).getD (.zero false)

/-- The number of names that are bound. -/
def size (bindings : Bindings) : Nat := bindings.entries.length

/-- Whether no name is bound. -/
def isEmpty (bindings : Bindings) : Bool := bindings.entries.isEmpty

/-- Binds a name to a value, in place of the value that it may have had. -/
def bind (bindings : Bindings) (name : String) (value : Binary64) : Bindings :=
  ⟨insertSorted name value bindings.entries, insertSorted_pairwise name value bindings.sorted⟩

/-- Whether two sets of bindings have the same names and each name has equal values. -/
def same (left right : Bindings) : Bool :=
  left.size == right.size && left.entries.all fun (name, value) =>
    (right.get? name).any value.equals

end Bindings

end Reckon
