import Reckon.Proofs.Grammar.WrittenLine

/-! The range of every node of a tree is that of the text that the node is read from. -/

namespace Reckon

/-- A tree is written as a part of a text. -/
inductive WrittenIn : List Char → Expr → Prop where
  | between (before after : List Char) {text : List Char} {tree : Expr}
      (written : LineWrites text tree) :
      WrittenIn (before ++ (text ++ after)) (tree.shift (byteLength before))

/-- What is written as a part of a text is written as a part of a longer one. -/
theorem WrittenIn.extend {text : List Char} {tree : Expr} (written : WrittenIn text tree)
    (front back : List Char) :
    WrittenIn (front ++ (text ++ back)) (tree.shift (byteLength front)) := by
  obtain @⟨before, after, text, tree, written⟩ := written
  have outer := WrittenIn.between (front ++ before) (after ++ back) written
  simpa [Nat.add_comm] using outer

/-- The trees right below what a rule writes are written as parts of its text. -/
theorem Writes.writtenIn_child {rule : Rule} {text : List Char} {tree child : Expr}
    (written : Writes rule text tree) (member : child ∈ tree.children) :
    WrittenIn text child := by
  -- The text of the last child ends the whole text, unless a parenthesis is behind it.
  have last {rule : Rule} {text : List Char} {tree : Expr} (front : List Char)
      (written : Writes rule text tree) :
      WrittenIn (front ++ text) (tree.shift (byteLength front)) := by
    simpa using WrittenIn.between front [] (.expression written.expression)
  have first {rule : Rule} {text : List Char} {tree : Expr} (back : List Char)
      (written : Writes rule text tree) : WrittenIn (text ++ back) tree := by
    simpa using WrittenIn.between [] back (.expression written.expression)
  induction written with
  | alternative listed written ih => exact ih member
  | literal | signed | reference => simp [Expr.children] at member
  | @parenthesized before text after tree leading written trailing ih =>
    obtain rfl := List.mem_singleton.mp member
    exact .between ('(' :: before) (after ++ [')']) (.expression written.expression)
  | call gaps written ih =>
    obtain rfl := List.mem_singleton.mp member
    rw [← List.append_assoc]
    exact last _ written
  | power leftWritten joins rightWritten leftIh rightIh
  | fold layer leftWritten joins among rightWritten leftIh rightIh =>
    -- The left operand starts the text and the right one ends it.
    simp only [Expr.children, List.mem_cons, List.not_mem_nil, or_false] at member
    rcases member with rfl | rfl
    · exact first _ leftWritten
    · rw [← List.append_assoc]
      exact last _ rightWritten
  | assignment target joins written ih =>
    obtain rfl := List.mem_singleton.mp member
    rw [← List.append_assoc]
    exact last _ written

/-- The trees right below what is written in a text are written in it too. -/
theorem WrittenIn.child {text : List Char} {tree child : Expr} (written : WrittenIn text tree)
    (member : child ∈ tree.children) : WrittenIn text child := by
  obtain @⟨before, after, text, tree, written⟩ := written
  rw [Expr.children_shift] at member
  obtain ⟨unmoved, below, rfl⟩ := List.mem_map.mp member
  -- A header has no children, and those of an expression are written inside of it.
  cases written with
  | header trimmed signs => simp [Expr.children] at below
  | expression written => exact (written.writtenIn_child below).extend before after

/-- A range that lies within another. -/
def Span.Within (inner outer : Span) : Prop :=
  outer.offset ≤ inner.offset ∧ inner.stop ≤ outer.stop

/-- The children of a node stand one behind the other in the range of the node. -/
structure Expr.Nested (tree : Expr) : Prop where
  inside : ∀ child ∈ tree.childSpans, child.Within tree.span
  ordered : tree.childSpans.Pairwise fun left right => left.stop ≤ right.offset

/-- The children of a node are nested in it wherever it stands. -/
theorem Expr.Nested.shift {tree : Expr} (nested : tree.Nested) (distance : Nat) :
    (tree.shift distance).Nested := by
  -- Every offset grows by the same distance, so the comparisons stay.
  constructor
  · intro child member
    rw [childSpans_shift] at member
    obtain ⟨unmoved, below, rfl⟩ := List.mem_map.mp member
    have inside := nested.inside unmoved below
    simp only [Span.Within, span_shift, Span.offset_shift, Span.stop_shift] at inside ⊢
    omega
  · rw [childSpans_shift, List.pairwise_map]
    refine nested.ordered.imp fun order => ?_
    simp only [Span.offset_shift, Span.stop_shift]
    omega

/-- The children of what a rule writes are nested in it. -/
theorem Writes.nested {rule : Rule} {text : List Char} {tree : Expr}
    (written : Writes rule text tree) : tree.Nested := by
  -- Each part of the text takes as many bytes as its child is long.
  induction written with
  | alternative listed written ih => exact ih
  | literal | signed | reference => exact ⟨by simp [Expr.childSpans], .nil⟩
  | parenthesized leading written trailing ih | call gaps written ih =>
    refine ⟨?_, List.pairwise_singleton _ _⟩
    simp only [Expr.childSpans, List.mem_singleton, forall_eq, Expr.span_shift, written.span_eq]
    simp [Span.Within, Expr.span, Span.stop]
    omega
  | power leftWritten joins rightWritten leftIh rightIh
  | fold layer leftWritten joins among rightWritten leftIh rightIh =>
    constructor
    · simp only [Expr.childSpans, List.forall_mem_cons, Expr.span_shift, leftWritten.span_eq,
        rightWritten.span_eq]
      simp [Span.Within, Expr.span, Span.stop, Nat.add_assoc]
    · simp only [Expr.childSpans, Expr.span_shift, leftWritten.span_eq, rightWritten.span_eq]
      simp [Span.stop]
  | assignment target joins written ih =>
    constructor
    · simp only [Expr.childSpans, List.forall_mem_cons, Expr.span_shift, written.span_eq]
      simp [Span.Within, Expr.span, Span.stop, Nat.add_assoc]
    · simp only [Expr.childSpans, Expr.span_shift, written.span_eq]
      simp [Span.stop]

/-- The children of the tree of a line are nested in it. -/
theorem LineWrites.nested {text : List Char} {tree : Expr} (written : LineWrites text tree) :
    tree.Nested := by
  cases written with
  | header trimmed signs => exact ⟨by simp [Expr.childSpans], .nil⟩
  | expression written => exact written.nested

/-- The ranges of a tree say which part of a line each node of the tree is read from. -/
structure Ranged (line : String) (tree : Expr) : Prop where
  /-- The text in the range of a node is accepted by itself, as the node moved to its start. -/
  accepted : ∀ node ∈ tree.nodes, ∃ text moved,
    slice? line.toList node.span.offset node.span.length = some text ∧
    parse (String.ofList text) = .ok moved ∧ moved.shift node.span.offset = node
  /-- The tree as a whole starts with the first lexeme. -/
  starts : (lexemesOf line).head?.map (·.span.offset) = some tree.span.offset
  /-- The tree as a whole ends with the line, but for the gaps there. -/
  ends : tree.span.stop = byteLength (line.toList.rdropWhile isGap)
  /-- The children of each node stand one behind the other in the range of the node. -/
  nested : ∀ node ∈ tree.nodes, node.Nested

/-- The ranges in the tree of a line are those of the texts that its nodes are read from. -/
theorem ranged_of_parse {line : String} {tree : Expr} (parsed : parse line = .ok tree) :
    Ranged line tree := by
  obtain ⟨before, text, after, base, cut, leading, trailing, written, rfl, bound⟩ :=
    parse_eq_ok_iff_exists_written.mp parsed
  -- A node of the tree is written in a part of the line.
  have parts : ∀ node ∈ (base.shift (byteLength before)).nodes, WrittenIn line.toList node := by
    refine Expr.forall_mem_nodes (fun tree inside child member => inside.child member) ?_
    rw [cut]
    exact .between before after written
  constructor
  · intro node member
    -- By itself the part is a line too, whose tree opens no more levels than the whole.
    have shallow := Expr.nest_le_of_mem_nodes member
    have part := parts node member
    generalize line.toList = characters at part ⊢
    obtain @⟨front, back, inner, moved, written⟩ := part
    rw [Expr.nest_shift, Expr.nest_shift] at shallow
    refine ⟨inner, moved, ?_, written.parse_eq_ok (shallow.trans bound), ?_⟩
    · simpa [written.span_eq] using slice?_append front inner back
    · simp [written.span_eq]
  · have split := splits_lexemesOf line
    rw [cut] at split
    obtain ⟨occupied, range⟩ := split.extent_eq leading written.trimmed trailing
    obtain ⟨first, others, lexemes⟩ := List.exists_cons_of_ne_nil occupied
    -- The range of all lexemes starts with the first one.
    have start : (extent (lexemesOf line)).offset = first.span.offset := by
      simp [extent, lexemes, List.getLast?_eq_some_getLast, Span.between]
    rw [range] at start
    simp [lexemes, ← start, written.span_eq]
  · -- What is written ends with a solid character, and only gaps are behind it.
    rw [← contentLength_eq, cut, ← List.append_assoc, trailing.contentLength_append,
      written.trimmed.contentLength_append, byteLength_append, Expr.span_shift, Span.stop_shift,
      written.span_eq]
    simp [Span.stop, Nat.add_comm]
  · intro node member
    have part := parts node member
    generalize line.toList = characters at part
    obtain @⟨front, back, inner, moved, written⟩ := part
    exact written.nested.shift (byteLength front)

/-- The call of a function has the range of its text, in an assignment with gaps around it. -/
theorem ranged_assignment :
    parse "  y=sin ( x ^z)\t" = .ok (.assignment ⟨"y", ⟨2, 1⟩⟩
        (.call .sine (.parenthesized
          (.operation (.reference "x" ⟨10, 1⟩) .power (.reference "z" ⟨13, 1⟩) ⟨10, 4⟩)
          ⟨8, 7⟩) ⟨4, 11⟩) ⟨2, 13⟩) ∧
      Ranged "  y=sin ( x ^z)\t" (.assignment ⟨"y", ⟨2, 1⟩⟩
        (.call .sine (.parenthesized
          (.operation (.reference "x" ⟨10, 1⟩) .power (.reference "z" ⟨13, 1⟩) ⟨10, 4⟩)
          ⟨8, 7⟩) ⟨4, 11⟩) ⟨2, 13⟩) := by
  have parsed : parse "  y=sin ( x ^z)\t" = .ok (.assignment ⟨"y", ⟨2, 1⟩⟩
      (.call .sine (.parenthesized
        (.operation (.reference "x" ⟨10, 1⟩) .power (.reference "z" ⟨13, 1⟩) ⟨10, 4⟩)
        ⟨8, 7⟩) ⟨4, 11⟩) ⟨2, 13⟩) := by decide +kernel
  exact ⟨parsed, ranged_of_parse parsed⟩

end Reckon
