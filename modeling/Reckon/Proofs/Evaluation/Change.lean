import Mathlib.Data.List.Dedup
import Mathlib.Data.List.DropRight
import Reckon.BindingLaws

/-! Changes to the bindings one after another, and what a name is bound to behind them. -/

namespace Reckon

/-- Something that changes the bindings. -/
inductive Change where
  /-- A name gets a value. -/
  | bind (name : String) (value : Binary64)
  /-- Every binding is dropped. -/
  | clear
  deriving DecidableEq

namespace Change

/-- Whether every binding is dropped. -/
def isClear : Change → Bool
  | .clear => true
  | .bind .. => false

/-- The name that gets a value, and the value. -/
def binding? : Change → Option (String × Binary64)
  | .bind name value => some (name, value)
  | .clear => none

/-- Whether a change makes a difference to a name. -/
def Concerns (name : String) : Change → Prop
  | .bind other _ => other = name
  | .clear => True

/-- The names that got a value since all bindings were dropped, in order and with the values. -/
def sinceClear (changes : List Change) : List (String × Binary64) :=
  (changes.rtakeWhile fun change => !change.isClear).filterMap binding?

/-- The last value that a name got since all bindings were dropped, if it got one. -/
def latest? (changes : List Change) (name : String) : Option Binary64 :=
  (sinceClear changes).reverse.lookup name

/-- How many names got a value since all bindings were dropped. -/
def countSinceClear (changes : List Change) : Nat :=
  ((sinceClear changes).map Prod.fst).dedup.length

section Concat

variable (changes : List Change) (name other : String) (value : Binary64)

/-- A name that gets a value counts behind those that got one before. -/
@[simp] theorem sinceClear_concat_bind :
    sinceClear (changes ++ [.bind name value]) = sinceClear changes ++ [(name, value)] := by
  -- The changes are looked through from the last one, up to a drop.
  simp [sinceClear, isClear, binding?]

/-- Behind a drop nothing counts that came before it. -/
@[simp] theorem sinceClear_concat_clear : sinceClear (changes ++ [.clear]) = [] := by
  simp [sinceClear, isClear]

/-- The last value of a name is the one that it just got. -/
theorem latest?_concat_bind :
    latest? (changes ++ [.bind name value]) other =
      if other = name then some value else latest? changes other := by
  -- The latest binding is the first to be looked up.
  simp only [latest?, sinceClear_concat_bind, List.reverse_append, List.reverse_singleton,
    List.singleton_append, Bindings.lookup_cons_if]

/-- Right behind a drop no name has a last value. -/
@[simp] theorem latest?_concat_clear : latest? (changes ++ [.clear]) name = none := by
  simp [latest?]

end Concat

/-- A name has a last value if it got one since all bindings were dropped. -/
theorem isSome_latest?_iff {changes : List Change} {name : String} :
    (latest? changes name).isSome = true ↔ name ∈ (sinceClear changes).map Prod.fst := by
  -- To look up from the last one finds the same names as from the first.
  rw [latest?, Bindings.isSome_lookup_iff, List.map_reverse, List.mem_reverse]

end Change

namespace Bindings

/-- The bindings behind a change. -/
def change (bindings : Bindings) : Change → Bindings
  | .bind name value => bindings.bind name value
  | .clear => .empty

/-- The bindings behind several changes, in order. -/
def changeAll (bindings : Bindings) (changes : List Change) : Bindings :=
  changes.foldl change bindings

/-- Without a change the bindings stay as they are. -/
@[simp] theorem changeAll_nil (bindings : Bindings) : bindings.changeAll [] = bindings := rfl

/-- Behind a first change the others go on from the bindings that it leaves. -/
@[simp] theorem changeAll_cons (bindings : Bindings) (first : Change) (others : List Change) :
    bindings.changeAll (first :: others) = (bindings.change first).changeAll others := rfl

/-- Later changes go on from the bindings that the earlier ones leave. -/
@[simp] theorem changeAll_append (bindings : Bindings) (earlier later : List Change) :
    bindings.changeAll (earlier ++ later) = (bindings.changeAll earlier).changeAll later :=
  List.foldl_append

/-- A change makes no difference to a name that it does not concern. -/
theorem get?_change_of_not_concerns (bindings : Bindings) {change : Change} {name : String}
    (other : ¬ change.Concerns name) : (bindings.change change).get? name = bindings.get? name := by
  -- Another name is bound, or all are, and a drop concerns all.
  cases change with
  | bind bound value => rw [Bindings.change, get?_bind, if_neg fun same => other same.symm]
  | clear => exact absurd trivial other

/-- A name that no change concerns stays bound to what it was. -/
theorem get?_changeAll_of_forall (bindings : Bindings) {changes : List Change} {name : String}
    (others : ∀ change ∈ changes, ¬ change.Concerns name) :
    (bindings.changeAll changes).get? name = bindings.get? name := by
  -- The name is looked up alike behind the first change, and so on.
  induction changes generalizing bindings with
  | nil => rfl
  | cons first rest ih =>
    obtain ⟨other, others⟩ := List.forall_mem_cons.mp others
    rw [changeAll_cons, ih _ others, get?_change_of_not_concerns _ other]

/--
What a name is bound to behind some changes.

It is the last value that it got since all was dropped. A name that got none since then is not
bound, and where nothing was dropped it is bound to what it was at first.
-/
theorem get?_changeAll (bindings : Bindings) (changes : List Change) (name : String) :
    (bindings.changeAll changes).get? name =
      (Change.latest? changes name).or (if .clear ∈ changes then none else bindings.get? name) := by
  -- The induction is on the last change, since a drop undoes the changes in front of it.
  induction changes using List.reverseRecOn with
  | nil => rfl
  | append_singleton changes last ih =>
    rw [changeAll_append, changeAll_cons, changeAll_nil]
    cases last with
    | bind bound value =>
      rw [change, get?_bind, Change.latest?_concat_bind]
      -- The name is the one that just got a value, or it is bound to what it was.
      by_cases same : name = bound <;> simp [same, ih]
    | clear => simp [change]

/-- From nothing bound, a name is bound to the last value that it got since all was dropped. -/
theorem get?_empty_changeAll (changes : List Change) (name : String) :
    (empty.changeAll changes).get? name = Change.latest? changes name := by
  simp [get?_changeAll]

/-- From nothing bound, as many names are bound as got a value since all was dropped. -/
theorem size_empty_changeAll (changes : List Change) :
    (empty.changeAll changes).size = Change.countSinceClear changes := by
  -- The names that are bound are those that have a last value.
  have members (name : String) : name ∈ (empty.changeAll changes).names ↔
      name ∈ ((Change.sinceClear changes).map Prod.fst).dedup := by
    rw [mem_names_iff, get?_empty_changeAll, Change.isSome_latest?_iff, List.mem_dedup]
  -- Neither list has a name twice, so the same names are equally many.
  have same := (List.perm_ext_iff_of_nodup (nodup_names _) (List.nodup_dedup _)).mpr members
  rw [← length_names, same.length_eq, Change.countSinceClear]

end Bindings

end Reckon
