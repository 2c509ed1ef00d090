import Reckon.Proofs.Binary64.Equality
import Reckon.Proofs.Session.BoundNames

/-! Bindings that are compared, in two hash maps with a size check and look-ups in one of them. -/

namespace Reckon

namespace Bindings

variable {left middle right : Bindings}

/-- The same names are bound, each of them to one number. -/
structure Equal (left right : Bindings) : Prop where
  names : ∀ name, name ∈ left.names ↔ name ∈ right.names
  numbers : ∀ name value other, left.get? name = some value → right.get? name = some other →
    ∃ number, value.number? = some number ∧ other.number? = some number

/-- The comparison finds as many names on both sides, and an equal value for each name of one. -/
theorem same_eq_true_iff : left.same right = true ↔ left.size = right.size ∧
    ∀ name value, left.get? name = some value →
      ∃ other, right.get? name = some other ∧ value.equals other = true := by
  simp only [same, Bool.and_eq_true, beq_iff_eq, List.all_eq_true, Option.any_eq_true,
    ← mem_entries_iff, Prod.forall]

/-- A bound name has a value. -/
theorem exists_of_mem_names {bindings : Bindings} {name : String} (bound : name ∈ bindings.names) :
    ∃ value, bindings.get? name = some value :=
  Option.isSome_iff_exists.mp (mem_names_iff.mp bound)

/-- A name with a value is bound. -/
theorem mem_names_of_get? {bindings : Bindings} {name : String} {value : Binary64}
    (found : bindings.get? name = some value) : name ∈ bindings.names :=
  mem_names_iff.mpr (Option.isSome_of_eq_some found)

/--
The comparison tells whether the bindings are equal.

It looks up the names of one side only. Since no name is there twice and both sides have as many,
there is none left on the other side.
-/
theorem same_iff : left.same right = true ↔ left.Equal right := by
  rw [same_eq_true_iff]
  constructor
  · rintro ⟨sizes, found⟩
    -- Every name of the left side is looked up on the right, where it has to have a value.
    have subset : left.names ⊆ right.names := by
      intro name bound
      obtain ⟨value, here⟩ := exists_of_mem_names bound
      obtain ⟨other, there, _⟩ := found name value here
      exact mem_names_of_get? there
    -- A part of the names that has as many of them has them all.
    have perm : left.names.Perm right.names := by
      refine (List.subperm_of_subset left.nodup_names subset).perm_of_length_le ?_
      rw [length_names, length_names, sizes]
    refine ⟨fun name => perm.mem_iff, fun name value other here there => ?_⟩
    -- The value that was looked up is the one that the right side has for the name.
    obtain ⟨again, stored, equal⟩ := found name value here
    obtain rfl : other = again := Option.some.inj (there.symm.trans stored)
    exact Binary64.equals_iff.mp equal
  · rintro ⟨names, numbers⟩
    constructor
    · -- Names that are there once each and are the same on both sides are as many.
      have perm := (List.perm_ext_iff_of_nodup left.nodup_names right.nodup_names).mpr names
      rw [← length_names, ← length_names, perm.length_eq]
    · intro name value here
      obtain ⟨other, there⟩ := exists_of_mem_names ((names name).mp (mem_names_of_get? here))
      exact ⟨other, there, Binary64.equals_iff.mpr (numbers name value other here there)⟩

/-- The comparison does not depend on which side comes first. -/
theorem same_comm (left right : Bindings) : left.same right = right.same left := by
  rw [Bool.eq_iff_iff, same_iff, same_iff]
  -- Equality asks the same of both sides, unlike the look-ups, which go from one to the other.
  have flip {left right : Bindings} (equal : left.Equal right) : right.Equal left := by
    refine ⟨fun name => (equal.names name).symm, fun name value other here there => ?_⟩
    obtain ⟨number, former, latter⟩ := equal.numbers name other value there here
    exact ⟨number, latter, former⟩
  exact ⟨flip, flip⟩

/-- Bindings that are the same as some bindings are the same as each other. -/
theorem same_trans (former : left.same middle = true) (latter : middle.same right = true) :
    left.same right = true := by
  obtain ⟨sizes, found⟩ := same_eq_true_iff.mp former
  obtain ⟨others, later⟩ := same_eq_true_iff.mp latter
  refine same_eq_true_iff.mpr ⟨sizes.trans others, fun name value here => ?_⟩
  -- What is found in the middle for a name is looked up once more on the right.
  obtain ⟨between, there, equal⟩ := found name value here
  obtain ⟨last, behind, equal'⟩ := later name between there
  exact ⟨last, behind, Binary64.equals_trans equal equal'⟩

/-- Bindings are the same as themselves unless a name is bound to what is no number. -/
theorem same_self_iff {bindings : Bindings} : bindings.same bindings = true ↔
    ∀ name value, bindings.get? name = some value → value.isNaN = false := by
  rw [same_eq_true_iff]
  constructor
  · rintro ⟨_, found⟩ name value here
    -- A name is looked up where its value comes from, so that is compared with itself.
    obtain ⟨other, there, equal⟩ := found name value here
    obtain rfl : value = other := Option.some.inj (here.symm.trans there)
    exact Binary64.equals_self_iff.mp equal
  · intro numbers
    refine ⟨rfl, fun name value here => ⟨value, here, ?_⟩⟩
    exact Binary64.equals_self_iff.mpr (numbers name value here)

end Bindings

namespace Table

/-- Whether two hash maps have as many entries, and each one of the first is in the second with an
equal value. -/
def same (left right : Table) : Bool :=
  left.size == right.size && left.toList.all fun (name, value) => right[name]?.any value.equals

/-- Two hash maps compare as the bindings that they hold, whatever order they have them in. -/
theorem Holds.same_eq {left right : Table} {first second : Bindings} (leftHolds : left.Holds first)
    (rightHolds : right.Holds second) : left.same right = first.same second := by
  unfold same Bindings.same
  -- The entries of a map are those of the bindings in some order, which a test of all ignores.
  simp only [leftHolds.size_eq, rightHolds.size_eq, leftHolds.perm.all_eq, rightHolds _]

/-- The hash map behind what a session with a story has reported. -/
def ofStory (story : List (Task × Reply)) : Table :=
  changeAll ∅ (Session.new.changes (story.map Prod.fst))

/-- The hash map behind the story of a session holds the bindings of the session. -/
theorem holds_ofStory {story : List (Task × Reply)} {session : Session}
    (retold : Retold story session) : (ofStory story).Holds session.bindings := by
  -- The session has come from an empty one by the changes that its story reports.
  rw [← retold.session, ← Session.changeAll_changes]
  exact Holds.empty.changeAll _

end Table

namespace Workspace

variable {workspace : Workspace} {number other : Nat} {left right session : Session}

/-- A request to compare two sessions is answered with yes. -/
def Same (workspace : Workspace) (number other : Nat) : Prop :=
  workspace.perform? number (.compare other) = some (.comparison true, workspace)

/-- Whether two sessions are the same is told by the answer. -/
instance : Decidable (workspace.Same number other) :=
  inferInstanceAs (Decidable (workspace.perform? number (.compare other) = _))

/-- A comparison of two sessions that are there is answered, and leaves everything as it was. -/
theorem perform?_compare (found : workspace.sessions[number]? = some left)
    (beside : workspace.sessions[other]? = some right) :
    workspace.perform? number (.compare other) =
      some (.comparison (left.bindings.same right.bindings), workspace) := by
  simp [perform?, found, beside]

/-- Two sessions that are there are the same when their bindings are. -/
theorem same_iff (found : workspace.sessions[number]? = some left)
    (beside : workspace.sessions[other]? = some right) :
    workspace.Same number other ↔ left.bindings.same right.bindings = true := by
  simp [Same, perform?_compare found beside]

/-- Sessions that are the same are there. -/
theorem Same.exists_sessions (same : workspace.Same number other) :
    ∃ left right, workspace.sessions[number]? = some left ∧
      workspace.sessions[other]? = some right ∧ left.bindings.same right.bindings = true := by
  -- An answer comes of two look-ups, and neither of them can have failed.
  obtain ⟨left, found, answered⟩ := Option.bind_eq_some_iff.mp same
  obtain ⟨right, beside, _⟩ := Option.bind_eq_some_iff.mp answered
  exact ⟨left, right, found, beside, (same_iff found beside).mp same⟩

/-- Which of two sessions is asked does not matter. -/
theorem Same.symm (same : workspace.Same number other) : workspace.Same other number := by
  obtain ⟨left, right, found, beside, equal⟩ := same.exists_sessions
  exact (same_iff beside found).mpr (Bindings.same_comm left.bindings right.bindings ▸ equal)

/-- Two sessions that are the same as a third one are the same. -/
theorem Same.trans {last : Nat} (former : workspace.Same number other)
    (latter : workspace.Same other last) : workspace.Same number last := by
  obtain ⟨left, middle, found, between, equal⟩ := former.exists_sessions
  obtain ⟨again, right, there, beside, equal'⟩ := latter.exists_sessions
  -- The session between is looked up twice under one number.
  obtain rfl : middle = again := Option.some.inj (between.symm.trans there)
  exact (same_iff found beside).mpr (Bindings.same_trans equal equal')

/-- A clone has the bindings of the session that it is a clone of. -/
theorem exists_clone (found : workspace.sessions[number]? = some session) :
    ∃ copy next, workspace.perform? number .clone = some (.session copy, next) ∧
      next.sessions[number]? = some session ∧ next.sessions[copy]? = some session := by
  obtain ⟨bound, _⟩ := List.getElem?_eq_some_iff.mp found
  refine ⟨workspace.sessions.length,
    { workspace with sessions := workspace.sessions ++ [session] }, ?_, ?_, ?_⟩
  · -- The copy is put behind all others, whose numbers stay as they are.
    simp [perform?, found, add]
  · rw [List.getElem?_append_left bound, found]
  · simp

end Workspace

/-- What comparisons tell of the sessions of a workspace, each of which has come from its story. -/
structure Comparable (stories : List (List (Task × Reply))) (workspace : Workspace) : Prop where
  /-- Any two sessions can be compared, and that changes nothing. -/
  answered : ∀ number < workspace.sessions.length, ∀ other < workspace.sessions.length,
    ∃ same, workspace.perform? number (.compare other) = some (.comparison same, workspace)
  /-- Two sessions are the same if they have the same names bound to the same numbers. -/
  same_iff : ∀ number other left right, workspace.sessions[number]? = some left →
    workspace.sessions[other]? = some right →
    (workspace.Same number other ↔ left.bindings.Equal right.bindings)
  /-- So are the hash maps that have gone through what the two stories have changed. -/
  held : ∀ number other left right, stories[number]? = some left → stories[other]? = some right →
    (workspace.Same number other ↔ (Table.ofStory left).same (Table.ofStory right) = true)
  symm : ∀ number other, workspace.Same number other → workspace.Same other number
  trans : ∀ number other last, workspace.Same number other → workspace.Same other last →
    workspace.Same number last
  /-- A session is the same as its own clone unless a name in it is bound to no number. -/
  clone : ∀ number session, workspace.sessions[number]? = some session →
    ∃ copy next, workspace.perform? number .clone = some (.session copy, next) ∧
      (next.Same number copy ↔
        ∀ name value, session.bindings.get? name = some value → value.isNaN = false)

/--
The sessions of every workspace that requests lead to compare by the names and numbers bound in
them.

It does not matter which assignments have led there, nor in which order.
-/
theorem comparable_of_performAll? {steps : List (Nat × Request)} {replies : List Reply}
    {final : Workspace} (performed : Workspace.new.performAll? steps = some (replies, final)) :
    Comparable (Chronicle.new.recordAll (steps.zip replies)).stories final := by
  have start : Faithful .new .new := ⟨.cons ⟨rfl, rfl⟩ .nil, .nil⟩
  -- Every session has come from its story, so its hash map has gone through the same changes.
  have retold := (start.run performed).sessions
  constructor
  case answered =>
    intro number bound other beside
    exact ⟨_, Workspace.perform?_compare (List.getElem?_eq_getElem bound)
      (List.getElem?_eq_getElem beside)⟩
  case same_iff =>
    intro number other left right found beside
    rw [Workspace.same_iff found beside, Bindings.same_iff]
  case held =>
    intro number other left right found beside
    -- There is a session behind each story, and it holds what the story has changed.
    obtain ⟨former, there, own⟩ := exists_getElem?_of_forall₂ retold.flip found
    obtain ⟨latter, behind, its⟩ := exists_getElem?_of_forall₂ retold.flip beside
    rw [Workspace.same_iff there behind,
      (Table.holds_ofStory own).same_eq (Table.holds_ofStory its)]
  case symm => exact fun number other same => same.symm
  case trans => exact fun number other last former latter => former.trans latter
  case clone =>
    intro number session found
    obtain ⟨copy, next, cloned, there, behind⟩ := Workspace.exists_clone found
    refine ⟨copy, next, cloned, ?_⟩
    rw [Workspace.same_iff there behind, Bindings.same_self_iff]

/-- Two sessions come to equal bindings in different ways, and a third one has no number in it. -/
theorem comparable_zeros :
    let steps : List (Nat × Request) := [(0, .evaluate "z = -0"), (0, .evaluate "a = 1"),
      (0, .begin), (1, .evaluate "a = 5"), (1, .evaluate "--"), (1, .evaluate "a = 2 - (z = 0) - 1"),
      (0, .clone), (2, .evaluate "z = 0 / 0")]
    ∃ replies final, Workspace.new.performAll? steps = some (replies, final) ∧
      final.Same 0 1 ∧ ¬ final.Same 0 2 ∧ ¬ final.Same 2 2 ∧
      Comparable (Chronicle.new.recordAll (steps.zip replies)).stories final := by
  intro steps
  have performed : (Workspace.new.performAll? steps).isSome = true := by decide +kernel
  obtain ⟨⟨replies, final⟩, found⟩ := Option.isSome_iff_exists.mp performed
  -- The zeros are equal with either sign, and what is no number is not equal to itself.
  have sessions : (Workspace.new.performAll? steps).map
      (fun result => (decide (result.2.Same 0 1), decide (result.2.Same 0 2),
        decide (result.2.Same 2 2))) = some (true, false, false) := by decide +kernel
  rw [found] at sessions
  simp only [Option.map_some, Option.some.injEq, Prod.mk.injEq, decide_eq_true_eq,
    decide_eq_false_iff_not] at sessions
  obtain ⟨equal, unequal, unlike⟩ := sessions
  exact ⟨replies, final, found, equal, unequal, unlike, comparable_of_performAll? found⟩

end Reckon
