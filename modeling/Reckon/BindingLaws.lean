import Reckon.Bindings

/-! What a name is bound to after each operation on the bindings. -/

namespace Reckon.Bindings

/-- Bindings are the same when their entries are. -/
@[ext] theorem ext {left right : Bindings} (entries : left.entries = right.entries) :
    left = right := by
  cases left
  cases right
  simp_all

/-- A look-up asks the first entry and then the others. -/
theorem lookup_cons_if (key other : String) (value : Binary64)
    (rest : List (String × Binary64)) :
    List.lookup other ((key, value) :: rest) =
      if other = key then some value else rest.lookup other := by
  by_cases same : other = key
  · simp [same]
  · simp [List.lookup_cons, beq_eq_false_iff_ne.mpr same, same]

/-- An insertion changes what is found under its own name only. -/
theorem lookup_insertSorted (name other : String) (value : Binary64)
    (entries : List (String × Binary64)) :
    (insertSorted name value entries).lookup other =
      if other = name then some value else entries.lookup other := by
  -- The induction follows the search for the place of the name.
  induction entries with
  | nil => exact lookup_cons_if name other value []
  | cons first rest ih =>
    obtain ⟨key, stored⟩ := first
    simp only [insertSorted]
    split
    · rw [lookup_cons_if]
    · split
      -- The old value of the name is no longer found behind the new one.
      · rename_i same
        subst same
        rw [lookup_cons_if, lookup_cons_if]
        by_cases found : other = name <;> simp [found]
      · rename_i different
        rw [lookup_cons_if, lookup_cons_if, ih]
        -- A name stands under one key only, so the order of the two tests does not matter.
        by_cases here : other = key
        · simp [here, Ne.symm different]
        · simp [here]

/-- A look-up finds a value under the names that there are, and under no others. -/
theorem isSome_lookup_iff (entries : List (String × Binary64)) (name : String) :
    (entries.lookup name).isSome = true ↔ name ∈ entries.map Prod.fst := by
  induction entries with
  | nil => simp
  | cons first rest ih =>
    obtain ⟨key, stored⟩ := first
    rw [lookup_cons_if, List.map_cons, List.mem_cons, ← ih]
    -- The first entry settles its own name, and the others are for the rest of the list.
    by_cases here : name = key <;> simp [here]

/-- Nothing is bound at first. -/
@[simp] theorem get?_empty (name : String) : empty.get? name = none := rfl

/-- Binding a name changes the value of that name only. -/
theorem get?_bind (bindings : Bindings) (name other : String) (value : Binary64) :
    (bindings.bind name value).get? other =
      if other = name then some value else bindings.get? other :=
  lookup_insertSorted name other value bindings.entries

/-- Binding a name changes what that name is worth only. -/
theorem lookup_bind (bindings : Bindings) (name other : String) (value : Binary64) :
    (bindings.bind name value).lookup other =
      if other = name then value else bindings.lookup other := by
  rw [lookup, get?_bind]
  split <;> rfl

/-- The names that are bound, in increasing order. -/
def names (bindings : Bindings) : List String := bindings.entries.map Prod.fst

/-- There are as many names as bindings. -/
@[simp] theorem length_names (bindings : Bindings) : bindings.names.length = bindings.size :=
  List.length_map _

/-- The names that are bound are those with a value. -/
theorem mem_names_iff {bindings : Bindings} {name : String} :
    name ∈ bindings.names ↔ (bindings.get? name).isSome = true :=
  (isSome_lookup_iff bindings.entries name).symm

/-- No name is bound twice. -/
theorem nodup_names (bindings : Bindings) : bindings.names.Nodup := by
  -- Names that increase do not repeat.
  have increasing : bindings.names.Pairwise (· < ·) := List.pairwise_map.mpr bindings.sorted
  exact increasing.imp String.ne_of_lt

/-- A name in a list in the order of names is found with the value that it stands with. -/
theorem lookup_eq_some_iff {entries : List (String × Binary64)}
    (sorted : entries.Pairwise (·.1 < ·.1)) {name : String} {value : Binary64} :
    entries.lookup name = some value ↔ (name, value) ∈ entries := by
  induction entries with
  | nil => simp
  | cons first rest ih =>
    obtain ⟨key, stored⟩ := first
    obtain ⟨above, sorted⟩ := List.pairwise_cons.mp sorted
    rw [lookup_cons_if, List.mem_cons]
    by_cases here : name = key
    · -- All later names are greater, so the name does not stand there a second time.
      have later : (name, value) ∉ rest := by
        intro member
        exact String.lt_irrefl name (here ▸ above (name, value) member)
      simp [here, here ▸ later, eq_comm]
    · simp [here, ih sorted]

/-- The values of names are those that the bindings list. -/
theorem mem_entries_iff {bindings : Bindings} {name : String} {value : Binary64} :
    (name, value) ∈ bindings.entries ↔ bindings.get? name = some value :=
  (lookup_eq_some_iff bindings.sorted).symm

/-- What a name that is bound is worth is its value. -/
theorem get?_eq_some_lookup {bindings : Bindings} {name : String}
    (bound : (bindings.get? name).isSome = true) :
    bindings.get? name = some (bindings.lookup name) := by
  obtain ⟨value, found⟩ := Option.isSome_iff_exists.mp bound
  rw [lookup, found, Option.getD_some]

/-- Bindings are the same when every name is bound to the same in both. -/
theorem eq_of_get?_eq {left right : Bindings}
    (same : ∀ name, left.get? name = right.get? name) : left = right := by
  -- Whether an entry is listed is told by the value that its name is bound to.
  have members (entry : String × Binary64) : entry ∈ left.entries ↔ entry ∈ right.entries := by
    rw [mem_entries_iff, mem_entries_iff, same]
  have distinct (bindings : Bindings) : bindings.entries.Nodup :=
    bindings.sorted.imp fun below same => String.ne_of_lt below (congrArg Prod.fst same)
  -- The same entries in the order of their names are the same list.
  apply ext
  apply List.Perm.eq_of_pairwise _ left.sorted right.sorted
  · exact (List.perm_ext_iff_of_nodup (distinct left) (distinct right)).mpr members
  · intro first second _ _ below above
    exact absurd (String.lt_trans below above) (String.lt_irrefl _)

end Reckon.Bindings
