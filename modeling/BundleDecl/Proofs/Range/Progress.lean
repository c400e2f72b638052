import BundleDecl.Proofs.Range.Walk.Reads

/-!
# Progress of walks

For every text the walk over it ends, with the range or the failure that reading the text gives. On
the way its index never goes back and never leaves the text, no character is looked for behind the
end, whenever a range is found the index is ahead of where the search for it began, and every pass
of a loop begins ahead of the pass before it.

The walks over ranges call each other, so what each of them reads is proved for all of them at once,
by the length of what is left of the text. At one and the same length a walk calls only those that
the measure puts below it.
-/

namespace BundleDecl

namespace Range

namespace Walk

variable {text rest : Text}

mutual

theorem reads_atom (rest : Text) : Reads text atom rest (plain (readAtom rest)) := by
  rw [atom, plain_readAtom]
  rcases start : skipBlanks rest with _ | ⟨first, tail⟩
  · exact (reads_peek_nil start).bind_error
  · refine (reads_peek start).bind_ok ?_
    have shorter := Symbol.length_lt start
    dsimp only
    split
    · -- A version number starts with the digit, which was only looked at.
      have same : readNumber (first :: tail) = readNumber rest := by
        rw [← start, readNumber_skipBlanks]
      rw [← same, ← map_checkNumber]
      exact reads_number.bind_ok ((reads_validNumber _).map base)
    · split
      · exact reads_move.bind_ok (reads_braced first)
      · split
        · -- The union begins behind its opening brace.
          have members := reads_union tail
          exact reads_move.bind_ok (members.returning .union fun _ _ => length_lt_of_readUnion)
        · exact reads_refuse _
termination_by 4 * rest.length

theorem reads_expression (rest : Text) : Reads text expression rest (readExpression rest) := by
  rw [expression, readExpression_eq]
  have first := (reads_atom rest).returning .atom fun _ _ => length_lt_of_plain
  refine first.bind fun factor mid found => ?_
  have shorter := length_lt_of_plain found
  exact (reads_factors mid).first.map fun factors => intersectionOf (factor :: factors)
termination_by 4 * rest.length + 1

theorem reads_factors (rest : Text) : Reads text factors rest (readMore rest) := by
  rw [factors]
  refine .of_suffix fun inside => reads_position.bind_ok (reads_hasNext.bind_ok ?_)
  rcases start : skipBlanks rest with _ | ⟨first, tail⟩
  · rw [readMore_of_ne (by simp [start]), start]
    exact .pure []
  · refine (reads_peek (skipBlanks_cons start)).bind_ok ?_
    by_cases ampersand : first = '&'
    · subst ampersand
      rw [if_pos rfl, readMore_of_ampersand start]
      have shorter := Symbol.length_lt start
      have next := (reads_atom tail).returning .atom fun _ _ => length_lt_of_plain
      refine reads_move.bind_ok (next.bind fun factor mid found => ?_)
      have ahead := (length_lt_of_plain found).trans shorter
      exact ((reads_factors mid).next inside ahead).map (factor :: ·)
    · rw [if_neg ampersand, readMore_of_ne (by simp [start, ampersand]), start]
      exact .pure []
termination_by 4 * rest.length

theorem reads_union (rest : Text) : Reads text union rest (readUnion rest) := by
  rw [union]
  rcases start : skipBlanks rest with _ | ⟨first, tail⟩
  · simp only [readUnion, start]
    exact (reads_expect_nil _ start).bind_error
  · refine (reads_expect _ start).bind_ok ?_
    by_cases brace : first = '\x7d'
    · subst brace
      simp only [readUnion, start]
      exact reads_move.bind_ok (.pure unsatisfiable)
    · have shorter := skipBlanks_length_le rest
      have members := reads_alternatives (skipBlanks rest)
      rw [plain_readAlternatives_skipBlanks, start] at members
      rw [if_neg brace, readUnion_of_ne (by simp [start]) (by simp [start, brace])]
      exact members.first.map unionOf
termination_by 4 * rest.length + 3

theorem reads_alternatives (rest : Text) :
    Reads text alternatives rest (plain (readAlternatives rest)) := by
  rw [alternatives, plain_readAlternatives]
  refine .of_suffix fun inside => reads_position.bind_ok ?_
  -- A pass begins without a symbol of its own: the member in it consumes text.
  have first := (reads_expression rest).returning .expression fun _ _ => length_lt_of_readExpression
  refine first.bind fun member mid found => ?_
  have shorter := length_lt_of_readExpression found
  dsimp only
  split
  · rename_i ends
    exact (reads_expect_nil _ ends).bind_error
  · rename_i after start
    refine (reads_expect _ start).bind_ok (reads_move.bind_ok ?_)
    rw [if_pos rfl]
    exact .pure [member]
  · rename_i next start
    have ahead := (Symbol.length_lt start).trans shorter
    refine (reads_expect _ start).bind_ok (reads_move.bind_ok ?_)
    rw [if_neg (by decide)]
    refine (reads_ensure true _).bind_ok ?_
    exact ((reads_alternatives next).next inside ahead).map (member :: ·)
  · rename_i character after notBrace notBar start
    refine (reads_expect _ start).bind_ok (reads_move.bind_ok ?_)
    rw [if_neg notBrace, decide_eq_false notBar]
    exact (reads_ensure false _).bind_error
termination_by 4 * rest.length + 2

end

theorem reads_whole (rest : Text) : Reads text whole (skipBlanks rest)
    ((Range.read rest).map fun range => (range, [])) := by
  have members : Reads text (expression.returning .expression) (skipBlanks rest)
      (readExpression (skipBlanks rest)) :=
    (reads_expression _).returning .expression fun _ _ => length_lt_of_readExpression
  rw [readExpression_skipBlanks] at members
  rw [whole, Range.read]
  rcases found : readFactors rest with obstacle | ⟨factors, after⟩
  · rw [readExpression, found] at members
    exact members.bind_error
  · rw [readExpression, found] at members
    refine members.bind_ok (reads_hasNext.bind_ok ?_)
    rw [skipBlanks_skipBlanks]
    rcases ends : skipBlanks after.1 with _ | ⟨first, tail⟩
    · simp only [ends]
      exact (reads_ensure true _).bind_ok (.pure _)
    · simp only [ends]
      exact (reads_ensure false _).bind_error

theorem steady_start (text : Text) : Steady text text ⟨text, 0, []⟩ where
  same := rfl
  suffix := List.suffix_rfl
  index := (Nat.sub_self _).symm
  positions := rfl
  sound := by simp

/-- What holds where a walk over a text has stopped, and of everything that happened on it. -/
structure Progresses (text : Text) (last : Place) : Prop where
  /-- The index was set to one position after the other, up to where it stands. -/
  stepwise : positions last.events = List.range' 1 last.index
  /-- From its first position on the index never decreased. -/
  ascending : (0 :: positions last.events).Pairwise (· ≤ ·)
  /-- The index never exceeded the length of the text. -/
  moved : ∀ position, .moved position ∈ last.events → position ≤ text.length
  /-- No character was looked at behind the end of the text. -/
  looked : ∀ position, .looked position ∈ last.events → position < text.length
  taken : ∀ start stop, .taken start stop ∈ last.events → start ≤ stop ∧ stop ≤ text.length
  /-- The index was ahead whenever a range was found. -/
  returned : ∀ part start stop, .returned part start stop ∈ last.events → start < stop
  /-- Every pass of a loop began ahead of the pass before it. -/
  passed : ∀ part before start, .pass part (some before) start ∈ last.events → before < start

theorem Steady.progresses {place : Place} (steady : Steady text rest place) :
    Progresses text place where
  stepwise := steady.positions
  ascending := by
    rw [steady.positions]
    exact List.pairwise_le_range' (s := 0) (n := place.index + 1)
  moved _ := steady.sound _
  looked _ := steady.sound _
  taken _ _ := steady.sound _
  returned _ _ _ := steady.sound _
  passed _ _ _ happened := steady.sound _ happened _ rfl

theorem runAt_range (nonempty : text ≠ []) : range.runAt ⟨text, 0, []⟩ =
    (hasNext >>= fun remains => if remains then whole else
      throw (.refused ⟨.blankRange text, none⟩)).runAt ⟨text, 0, []⟩ := by
  rw [range, runAt_get, if_neg nonempty]

/-- The walk over any text ends as reading that text does, and it makes progress all the way. -/
theorem range_progresses (text : Text) : ∃ last,
    range.runAt ⟨text, 0, []⟩ = some ((ofText text).mapError .refused, last) ∧
      Progresses text last := by
  by_cases empty : text = []
  · subst empty
    exact ⟨⟨[], 0, []⟩, rfl, (steady_start []).progresses⟩
  · rw [runAt_range empty, ofText, if_neg empty]
    rcases reads_hasNext ⟨text, 0, []⟩ (steady_start text) with ⟨first, run, steady⟩
    rw [runAt_bind, run]
    split
    · rename_i blank
      rw [blank] at steady ⊢
      exact ⟨first, rfl, steady.progresses⟩
    · rename_i content
      have remains : (!(skipBlanks text).isEmpty) = true := by simpa using content
      rcases reads_whole text first steady with ⟨last, run', final⟩
      refine ⟨last, ?_, final.progresses⟩
      simp only [Option.bind_some, outcome, remains, if_true, run']
      rcases Range.read text with obstacle | range <;> rfl

end Walk

end Range

end BundleDecl
