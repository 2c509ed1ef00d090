import Reckon.Text.Lines

/-! Laws of splitting into lines, one newline after the other. -/

namespace Reckon

variable {α : Type} [DecidableEq α] {newline carriage : α}

/-- A line without the return in front of the newline that ends it. -/
def dropReturn (carriage : α) (line : List α) : List α :=
  if line.getLast? = some carriage then line.dropLast else line

/-- A line that does not end with a return stays as it is. -/
theorem dropReturn_of_notMem {line : List α} (absent : carriage ∉ line) :
    dropReturn carriage line = line :=
  if_neg fun last => absent (List.mem_of_getLast? last)

/-- The first newline of some input ends its first line. -/
theorem splitLines_append_newline {front : List α} (back : List α) (absent : newline ∉ front) :
    splitLines newline carriage (front ++ newline :: back) =
      dropReturn carriage front :: splitLines newline carriage back := by
  induction front with
  | nil => simp [splitLines, dropReturn]
  | cons c rest ih =>
    obtain ⟨other, absent⟩ := List.ne_and_not_mem_of_not_mem_cons absent
    rw [List.cons_append, splitLines, if_neg (Ne.symm other), ih absent]
    -- Only the return right in front of the newline is dropped, with nothing left of the line.
    cases rest with
    | nil => by_cases returns : c = carriage <;> simp [returns, dropReturn]
    | cons d rest =>
      -- A newline behind this character would be the first one, but there is none in front of it.
      have inside : (d :: rest ++ newline :: back).head? ≠ some newline := by
        rintro same
        exact absent (List.mem_cons.mpr (.inl (Option.some.inj same).symm))
      rw [if_neg fun both => inside both.2]
      simp only [dropReturn, List.getLast?_cons_cons]
      split <;> rfl

/-- Where no newline is left there is one more line, if anything is left. -/
theorem splitLines_of_notMem {front : List α} (absent : newline ∉ front) (occupied : front ≠ []) :
    splitLines newline carriage front = [front] := by
  induction front with
  | nil => contradiction
  | cons c rest ih =>
    obtain ⟨other, absent⟩ := List.ne_and_not_mem_of_not_mem_cons absent
    -- Without a newline no return is in front of one.
    have inside : rest.head? ≠ some newline := fun same => absent (List.mem_of_head? same)
    rw [splitLines, if_neg (Ne.symm other), if_neg fun both => inside both.2]
    cases rest with
    | nil => rfl
    | cons d rest => rw [ih absent (List.cons_ne_nil d rest)]

/-- What is kept by one more line in front holds of any input, whether or not its last line ends. -/
theorem line_induction {motive : List α → Prop} (newline : α) (nil : motive [])
    (last : ∀ front, newline ∉ front → front ≠ [] → motive front)
    (line : ∀ front back, newline ∉ front → motive back → motive (front ++ newline :: back))
    (input : List α) : motive input := by
  by_cases ends : newline ∈ input
  · obtain ⟨front, back, whole, absent⟩ := List.eq_append_cons_of_mem ends
    -- Behind the first newline less is left, so the induction comes to its end.
    have shorter : back.length < input.length := by
      rw [whole, List.length_append, List.length_cons]
      omega
    exact whole ▸ line front back absent (line_induction newline nil last line back)
  · by_cases occupied : input = []
    · exact occupied ▸ nil
    · exact last input ends occupied
termination_by input.length

end Reckon
