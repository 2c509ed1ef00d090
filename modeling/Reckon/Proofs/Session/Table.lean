import Reckon.Proofs.Evaluation.Change
import Reckon.Proofs.Text.Encoding

/-! The variables in a hash map, which holds them in no order and sorts them where it lists them. -/

namespace Reckon

/-- The variables as a hash map holds them. -/
abbrev Table := Std.HashMap String Binary64

namespace Table

/-- Whether the bytes of a name are not greater than those of another one. -/
def inOrder (left right : String × Binary64) : Bool :=
  decide (encode left.1.toList ≤ encode right.1.toList)

/-- All variables with their values, sorted by the bytes of their names. -/
def listing (table : Table) : List (String × Binary64) := table.toList.mergeSort inOrder

/-- The variables are listed in order. -/
theorem pairwise_listing (table : Table) :
    table.listing.Pairwise fun left right => inOrder left right = true := by
  -- Sorting needs an order that is transitive and total, as that of the bytes is.
  apply List.pairwise_mergeSort
  · intro first second third former latter
    exact decide_eq_true (Std.le_trans (of_decide_eq_true former) (of_decide_eq_true latter))
  · intro left right
    simpa [inOrder] using Std.le_total

section Order

variable {left right : String × Binary64} (leftLetters : ∀ c ∈ left.1.toList, c.isAlpha = true)
  (rightLetters : ∀ c ∈ right.1.toList, c.isAlpha = true)

include leftLetters rightLetters

/-- Of two names of letters the lesser one is listed first. -/
theorem inOrder_of_lt (less : left.1 < right.1) : inOrder left right = true :=
  decide_eq_true (Std.le_of_lt (encode_lt_encode leftLetters rightLetters less))

/-- Two names of letters that are in order both ways are one. -/
theorem eq_of_inOrder (former : inOrder left right = true) (latter : inOrder right left = true) :
    left.1 = right.1 := by
  have notLess := Std.not_lt.mpr (of_decide_eq_true latter)
  have notGreater := Std.not_lt.mpr (of_decide_eq_true former)
  -- Different names would have different bytes, and be in order one way only.
  rcases Std.lt_trichotomy left.1 right.1 with less | equal | greater
  · exact absurd (encode_lt_encode leftLetters rightLetters less) notLess
  · exact equal
  · exact absurd (encode_lt_encode rightLetters leftLetters greater) notGreater

end Order

/-- The table behind a change. -/
def change (table : Table) : Change → Table
  | .bind name value => table.insert name value
  | .clear => ∅

/-- The table behind several changes, in order. -/
def changeAll (table : Table) (changes : List Change) : Table := changes.foldl change table

/-- A table has every name bound to what it is bound to in some bindings. -/
def Holds (table : Table) (bindings : Bindings) : Prop :=
  ∀ name, table[name]? = bindings.get? name

namespace Holds

variable {table : Table} {bindings : Bindings}

/-- A table without entries holds no bindings. -/
theorem empty : Holds ∅ .empty := fun _ => Std.HashMap.getElem?_empty

/-- A table and bindings that it holds go through a change alike. -/
theorem change (holds : table.Holds bindings) (change : Change) :
    (table.change change).Holds (bindings.change change) := by
  cases change with
  | bind name value =>
    intro other
    rw [Table.change, Bindings.change, Std.HashMap.getElem?_insert, Bindings.get?_bind]
    -- A name that was bound last is looked up as that, and any other as before.
    by_cases same : name = other
    · simp [same]
    · simp [same, Ne.symm same, holds other]
  | clear => exact empty

/-- A table and bindings that it holds go through any changes alike. -/
theorem changeAll (holds : table.Holds bindings) (changes : List Change) :
    (table.changeAll changes).Holds (bindings.changeAll changes) := by
  -- Both go on from what the first change has made of them.
  induction changes generalizing table bindings with
  | nil => exact holds
  | cons first rest ih => exact ih (holds.change first)

/-- A table has the same entries as the bindings that it holds, in some order. -/
theorem perm (holds : table.Holds bindings) : table.toList.Perm bindings.entries := by
  have apart : table.toList.Nodup := by
    -- No key of a hash map is there twice.
    refine Std.HashMap.distinct_keys_toList.imp fun distinct same => ?_
    simp [same] at distinct
  -- Names are listed in a strict order, so no entry is there twice either.
  have distinct : bindings.entries.Nodup :=
    bindings.sorted.imp fun below same => String.ne_of_lt below (congrArg Prod.fst same)
  apply (List.perm_ext_iff_of_nodup apart distinct).mpr
  -- Both lists have an entry when a look-up finds it.
  intro entry
  rw [Std.HashMap.mem_toList_iff_getElem?_eq_some, Bindings.mem_entries_iff, holds]

/-- A table has as many entries as the bindings that it holds. -/
theorem size_eq (holds : table.Holds bindings) : table.size = bindings.size := by
  rw [← Std.HashMap.length_toList, holds.perm.length_eq, Bindings.size]

/-- A table is empty when the bindings that it holds are. -/
theorem isEmpty_eq (holds : table.Holds bindings) : table.isEmpty = bindings.isEmpty := by
  rw [← Std.HashMap.isEmpty_toList, holds.perm.isEmpty_eq, Bindings.isEmpty]

/-- Sorting the entries of a table lists the bindings that it holds, if their names are letters. -/
theorem listing_eq (holds : table.Holds bindings)
    (letters : ∀ name ∈ bindings.names, ∀ c ∈ name.toList, c.isAlpha = true) :
    table.listing = bindings.entries := by
  have same : table.listing.Perm bindings.entries := (List.mergeSort_perm _ _).trans holds.perm
  have named {entry : String × Binary64} (member : entry ∈ bindings.entries) :
      ∀ c ∈ entry.1.toList, c.isAlpha = true := letters _ (List.mem_map_of_mem member)
  -- The bindings are sorted by the same order, and two sorted lists of one set are one.
  have sorted : bindings.entries.Pairwise fun left right => inOrder left right = true :=
    bindings.sorted.imp_of_mem fun leftMember rightMember less =>
      inOrder_of_lt (named leftMember) (named rightMember) less
  apply List.Perm.eq_of_pairwise _ table.pairwise_listing sorted same
  intro left right listed rightMember former latter
  have leftMember := same.mem_iff.mp listed
  -- Two entries that are in order both ways have the same name, and so the same value.
  have names := eq_of_inOrder (named leftMember) (named rightMember) former latter
  have leftValue := Bindings.mem_entries_iff.mp leftMember
  have rightValue := Bindings.mem_entries_iff.mp rightMember
  rw [names, rightValue] at leftValue
  exact Prod.ext names (Option.some.inj leftValue).symm

end Holds

end Table

end Reckon
