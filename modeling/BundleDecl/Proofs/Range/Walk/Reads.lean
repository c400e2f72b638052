import BundleDecl.Proofs.Range.Equations
import BundleDecl.Proofs.Range.Walk
import BundleDecl.Proofs.Version.Order

/-!
# What walks read

A place is steady if the index got there one position after the other and if everything on the
record stays in the text and goes ahead. A walk reads what the reader gives for what is left of the
text if it stops from every steady place before that text, with the reader's result and at a steady
place before what the reader leaves.

So one statement about a walk says that it ends, what its result is and that its record is sound,
and these statements follow the binds of a walk.
-/

namespace BundleDecl

namespace Range

namespace Walk

variable {Value Result : Type}

/-! ## Steady places -/

/-- The position that the index was set to. -/
def Event.position? : Event → Option Nat
  | .moved position => some position
  | _ => none

/-- The positions of the index in the order in which it was set to them. -/
def positions (events : List Event) : List Nat :=
  events.filterMap Event.position?

/-- An event that stays in the text and goes ahead. -/
def Event.Sound (text : Text) : Event → Prop
  | .looked position => position < text.length
  | .taken start stop => start ≤ stop ∧ stop ≤ text.length
  | .moved position => position ≤ text.length
  | .pass _ before start => ∀ position ∈ before, position < start
  | .returned _ start stop => start < stop

/-- A place before the rest of a text that was reached step by step and with sound events only. -/
structure Steady (text rest : Text) (place : Place) : Prop where
  same : place.text = text
  suffix : rest <:+ text
  index : place.index = text.length - rest.length
  /-- The index took one position after the other. -/
  positions : positions place.events = List.range' 1 place.index
  sound : ∀ event ∈ place.events, event.Sound text

variable {text rest : Text} {place : Place}

/-- Where less of the text is left the index is greater. -/
theorem index_lt {start : Text} (inside : start <:+ text) (shorter : rest.length < start.length) :
    text.length - start.length < text.length - rest.length := by
  have := inside.length_le
  omega

theorem Steady.drop_eq (steady : Steady text rest place) :
    place.text.drop place.index = rest := by
  rw [steady.same, steady.index]
  exact (List.suffix_iff_eq_drop.1 steady.suffix).symm

theorem Steady.note (steady : Steady text rest place) {event : Event} (sound : event.Sound text)
    (still : event.position? = none) :
    Steady text rest { place with events := place.events ++ [event] } where
  same := steady.same
  suffix := steady.suffix
  index := steady.index
  positions := by
    rw [Walk.positions, List.filterMap_append, List.filterMap_cons_none still,
      List.filterMap_nil, List.append_nil]
    exact steady.positions
  sound := List.forall_mem_append.2 ⟨steady.sound, List.forall_mem_singleton.2 sound⟩

theorem Steady.move {character : Char} {tail : Text}
    (steady : Steady text (character :: tail) place) :
    Steady text tail
      ⟨place.text, place.index + 1, place.events ++ [.moved (place.index + 1)]⟩ := by
  have suffix := (List.suffix_cons character tail).trans steady.suffix
  have shorter := steady.suffix.length_le
  have index := steady.index
  rw [List.length_cons] at shorter index
  have next : place.index + 1 = text.length - tail.length := by omega
  have sound : (Event.moved (place.index + 1)).Sound text := by
    rw [Event.Sound]
    omega
  have positions : Walk.positions (place.events ++ [.moved (place.index + 1)]) =
      List.range' 1 (place.index + 1) := by
    rw [List.range'_concat, ← steady.positions, Walk.positions, List.filterMap_append]
    simp [Walk.positions, Event.position?, Nat.add_comm]
  exact ⟨steady.same, suffix, next, positions,
    List.forall_mem_append.2 ⟨steady.sound, List.forall_mem_singleton.2 sound⟩⟩

/-! ## What walks read -/

theorem runAt_bind (first : Walk Value) (next : Value → Walk Result) (place : Place) :
    (first >>= next).runAt place = (first.runAt place).bind fun (result, after) =>
      match result with
      | .ok value => (next value).runAt after
      | .error stop => some (.error stop, after) := by
  simp only [runAt, ExceptT.run_bind, StateT.run_bind]
  refine congrArg _ (funext fun (result, after) => ?_)
  cases result <;> rfl

theorem runAt_get (next : Place → Walk Result) (place : Place) :
    (get >>= next).runAt place = (next place).runAt place :=
  rfl

/-- What a walk gives where reading has a result: the value, or the failure at the obstacle. -/
def outcome (text : Text) : Except Obstacle (Value × Text) → Except Stop Value
  | .ok (value, _) => .ok value
  | .error obstacle =>
    .error (.refused ⟨.range obstacle.problem (text.length - obstacle.left.length) text, none⟩)

/-- The text that is left where reading has a result. -/
def left : Except Obstacle (Value × Text) → Text
  | .ok (_, rest) => rest
  | .error obstacle => obstacle.left

/-- From every steady place before the rest of a text a walk stops, with the result of reading that
rest, at a steady place before what reading leaves of it. -/
def Reads (text : Text) (walk : Walk Value) (rest : Text)
    (result : Except Obstacle (Value × Text)) : Prop :=
  ∀ place, Steady text rest place → ∃ after,
    walk.runAt place = some (outcome text result, after) ∧ Steady text (left result) after

theorem Reads.pure (value : Value) : Reads text (pure value) rest (.ok (value, rest)) :=
  fun place steady => ⟨place, rfl, steady⟩

theorem Reads.bind_error {first : Walk Value} {next : Value → Walk Result} {obstacle : Obstacle}
    (reads : Reads text first rest (.error obstacle)) :
    Reads text (first >>= next) rest (.error obstacle) := by
  intro place steady
  rcases reads place steady with ⟨after, run, steady'⟩
  exact ⟨after, by rw [runAt_bind, run]; rfl, steady'⟩

theorem Reads.bind_ok {first : Walk Value} {next : Value → Walk Result} {value : Value}
    {mid : Text} {result : Except Obstacle (Result × Text)}
    (reads : Reads text first rest (.ok (value, mid)))
    (follow : Reads text (next value) mid result) : Reads text (first >>= next) rest result := by
  intro place steady
  rcases reads place steady with ⟨after, run, between⟩
  rcases follow after between with ⟨last, run', final⟩
  exact ⟨last, by rw [runAt_bind, run]; exact run', final⟩

/-- A walk after another one reads what follows what the first one reads. -/
theorem Reads.bind {first : Walk Value} {next : Value → Walk Result}
    {found : Except Obstacle (Value × Text)}
    {following : Value × Text → Except Obstacle (Result × Text)}
    (reads : Reads text first rest found)
    (follow : ∀ value mid, found = .ok (value, mid) →
      Reads text (next value) mid (following (value, mid))) :
    Reads text (first >>= next) rest (found.bind following) := by
  rcases found with obstacle | ⟨value, mid⟩
  · exact reads.bind_error
  · exact reads.bind_ok (follow value mid rfl)

theorem Reads.map {walk : Walk Value} {result : Except Obstacle (Value × Text)}
    (reads : Reads text walk rest result) (f : Value → Result) :
    Reads text (do return f (← walk)) rest
      (result.map fun (value, after) => (f value, after)) := by
  rcases result with obstacle | ⟨value, after⟩
  · exact reads.bind_error
  · exact reads.bind_ok (.pure _)

/-- What is left at a steady place is a final part of the text. -/
theorem Reads.of_suffix {walk : Walk Value} {result : Except Obstacle (Value × Text)}
    (reads : rest <:+ text → Reads text walk rest result) : Reads text walk rest result :=
  fun place steady => reads steady.suffix place steady

/-! ## Steps -/

theorem reads_note {event : Event} (sound : event.Sound text) (still : event.position? = none) :
    Reads text (note event) rest (.ok ((), rest)) :=
  fun _ steady => ⟨_, rfl, steady.note sound still⟩

theorem reads_position : Reads text position rest (.ok (text.length - rest.length, rest)) :=
  fun place steady => ⟨place, steady.index ▸ rfl, steady⟩

theorem reads_within : Reads text within rest (.ok (!rest.isEmpty, rest)) := by
  intro place steady
  have remains : place.index < place.text.length ↔ rest ≠ [] := by
    rw [← steady.drop_eq, Ne, List.drop_eq_nil_iff, Nat.not_le]
  have told : decide (place.index < place.text.length) = !rest.isEmpty := by
    rw [Bool.eq_iff_iff, decide_eq_true_iff, remains]
    simp
  refine ⟨place, ?_, steady⟩
  rw [outcome, ← told]
  rfl

theorem reads_refuse (problem : RangeProblem) :
    Reads text (refuse problem : Walk Value) rest (.error ⟨problem, rest⟩) := by
  intro place steady
  refine ⟨place, ?_, steady⟩
  rw [outcome, ← steady.index, ← steady.same]
  rfl

theorem reads_ensure (condition : Bool) (problem : RangeProblem) :
    Reads text (ensure condition problem) rest
      (if condition then .ok ((), rest) else .error ⟨problem, rest⟩) := by
  rw [ensure]
  split
  · exact .pure ()
  · exact reads_refuse problem

variable {character : Char} {tail : Text}

theorem reads_look : Reads text look (character :: tail) (.ok (character, character :: tail)) := by
  intro place steady
  have first : place.text[place.index]? = some character := by
    rw [← List.head?_drop, steady.drop_eq]
    rfl
  have sound : (Event.looked place.index).Sound text := by
    rw [Event.Sound, ← steady.same]
    exact (List.getElem?_eq_some_iff.1 first).1
  refine ⟨_, ?_, steady.note sound rfl⟩
  rw [look, runAt_get, first]
  rfl

theorem reads_move : Reads text move (character :: tail) (.ok ((), tail)) :=
  fun _ steady => ⟨_, rfl, steady.move⟩

theorem reads_take {start : Text} (inside : start <:+ text) (passed : rest.length ≤ start.length) :
    Reads text (take (text.length - start.length)) rest
      (.ok (start.take (start.length - rest.length), rest)) := by
  intro place steady
  have shorter := inside.length_le
  have index := steady.index
  have sound : (Event.taken (text.length - start.length) place.index).Sound text := by
    rw [Event.Sound]
    omega
  refine ⟨_, ?_, steady.note sound rfl⟩
  have size : place.index - (text.length - start.length) = start.length - rest.length := by
    omega
  have taken : (place.text.drop (text.length - start.length)).take
      (place.index - (text.length - start.length)) = start.take (start.length - rest.length) := by
    rw [steady.same, ← List.suffix_iff_eq_drop.1 inside, size]
  rw [outcome, ← taken]
  rfl

/-- A pass of a loop is recorded where the pass before it began with more text left. -/
theorem Reads.pass {part : Part} {before : Option Nat} {walk : Walk Value}
    {result : Except Obstacle (Value × Text)} (reads : Reads text walk rest result)
    (ahead : ∀ position ∈ before, position < text.length - rest.length) :
    Reads text (walk.pass part before) rest result := by
  have sound : (Event.pass part before (text.length - rest.length)).Sound text := ahead
  exact reads_position.bind_ok ((reads_note sound rfl).bind_ok reads)

theorem Reads.first {part : Part} {walk : Walk Value} {result : Except Obstacle (Value × Text)}
    (reads : Reads text walk rest result) : Reads text (walk.pass part none) rest result :=
  reads.pass (by simp)

theorem Reads.next {part : Part} {walk : Walk Value} {result : Except Obstacle (Value × Text)}
    {start : Text} (reads : Reads text walk rest result) (inside : start <:+ text)
    (shorter : rest.length < start.length) :
    Reads text (walk.pass part (some (text.length - start.length))) rest result :=
  reads.pass (by simpa using index_lt inside shorter)

/-- A range is recorded where text was consumed for it. -/
theorem Reads.returning (part : Part) {walk : Walk Range} {result : Except Obstacle (Range × Text)}
    (reads : Reads text walk rest result)
    (shorter : ∀ range left, result = .ok (range, left) → left.length < rest.length) :
    Reads text (walk.returning part) rest result := by
  refine .of_suffix fun inside => reads_position.bind_ok ?_
  rcases result with obstacle | ⟨range, left⟩
  · exact reads.bind_error
  · have ahead : (Event.returned part (text.length - rest.length)
        (text.length - left.length)).Sound text := index_lt inside (shorter range left rfl)
    exact reads.bind_ok (reads_position.bind_ok ((reads_note ahead rfl).bind_ok (.pure range)))

/-! ## Symbols -/

theorem reads_moveWhile (test : Char → Bool) (rest : Text) :
    Reads text (moveWhile test) rest (.ok ((), rest.dropWhile test)) := by
  induction rest with
  | nil =>
      rw [moveWhile]
      exact reads_position.bind_ok (reads_within.bind_ok (.pure ()))
  | cons character tail ih =>
      rw [moveWhile]
      refine .of_suffix fun inside => reads_position.bind_ok ?_
      refine reads_within.bind_ok (reads_look.bind_ok ?_)
      rw [List.dropWhile_cons]
      split
      · exact reads_move.bind_ok (ih.next inside (Nat.lt_succ_self _))
      · exact .pure ()

/-- The walk over a run of characters goes as far as they do. -/
theorem reads_run (test : Char → Bool) :
    Reads text (run test) rest (.ok ((), rest.dropWhile test)) :=
  (reads_moveWhile test rest).first

theorem reads_blanks : Reads text (run Text.isIndentCharacter) rest (.ok ((), skipBlanks rest)) :=
  reads_run _

theorem reads_hasNext :
    Reads text hasNext rest (.ok (!(skipBlanks rest).isEmpty, skipBlanks rest)) := by
  rw [hasNext]
  exact reads_blanks.bind_ok reads_within

theorem reads_peek_nil (ends : skipBlanks rest = []) :
    Reads text peek rest (.error ⟨.unexpectedEnd, []⟩) := by
  rw [peek]
  refine reads_hasNext.bind_ok ?_
  rw [ends]
  exact (reads_ensure false _).bind_error

theorem reads_peek (start : skipBlanks rest = character :: tail) :
    Reads text peek rest (.ok (character, character :: tail)) := by
  rw [peek]
  refine reads_hasNext.bind_ok ?_
  rw [start]
  exact (reads_ensure true _).bind_ok reads_look

theorem reads_expect_nil (problem : RangeProblem) (ends : skipBlanks rest = []) :
    Reads text (expect problem) rest (.error ⟨problem, []⟩) := by
  rw [expect]
  refine reads_hasNext.bind_ok ?_
  rw [ends]
  exact (reads_ensure false _).bind_error

theorem reads_expect (problem : RangeProblem) (start : skipBlanks rest = character :: tail) :
    Reads text (expect problem) rest (.ok (character, character :: tail)) := by
  rw [expect]
  refine reads_hasNext.bind_ok ?_
  rw [start]
  exact (reads_ensure true _).bind_ok (reads_peek (skipBlanks_cons start))

theorem reads_number : Reads text number rest (.ok ((readNumber rest).1, (readNumber rest).2)) := by
  rw [number]
  refine reads_blanks.bind_ok (.of_suffix fun inside => ?_)
  refine reads_position.bind_ok ((reads_run _).bind_ok ?_)
  rw [readNumber_fst_eq_take]
  exact reads_take inside (List.dropWhile_sublist _).length_le

theorem reads_validNumber (number : Text) :
    Reads text (validNumber number) rest
      ((checkNumber number rest).map fun version => (version, rest)) := by
  rw [validNumber, checkNumber]
  split
  · rename_i valid
    rw [valid]
    exact (reads_ensure true _).bind_ok (.pure number)
  · rename_i invalid
    rw [Bool.eq_false_iff.2 invalid]
    exact (reads_ensure false _).bind_error

/-- What follows a bound may take its version to be valid. -/
theorem Reads.bound_bind {number : Text} {missing : RangeProblem} {next : Text → Walk Result}
    {following : Text → Except Obstacle (Result × Text)}
    (follow : Version.isValid number = true → Reads text (next number) rest (following number)) :
    Reads text (bound number missing >>= next) rest
      (if number = [] then .error ⟨missing, rest⟩
        else (checkNumber number rest).bind following) := by
  rw [bound]
  split
  · rename_i empty
    rw [decide_eq_false (not_not_intro empty)]
    exact (reads_ensure false _).bind_error.bind_error
  · rename_i nonempty
    rw [decide_eq_true nonempty]
    have checks : Reads text (ensure true missing >>= fun _ => validNumber number) rest
        ((checkNumber number rest).map fun version => (version, rest)) :=
      (reads_ensure true missing).bind_ok (reads_validNumber number)
    rcases checked : checkNumber number rest with obstacle | version
    · rw [checked] at checks
      exact checks.bind_error
    · rcases isValid_of_checkNumber checked with ⟨rfl, valid⟩
      rw [checked] at checks
      exact checks.bind_ok (follow valid)

/-! ## Ranges in braces -/

theorem reads_single (opening closing : Char) (version : Text) :
    Reads text (single opening closing version) rest
      ((singleBound opening closing version rest).bind fun range => .ok (range, rest)) := by
  rw [single, singleBound]
  split
  · exact .pure _
  · split
    · exact reads_refuse _
    · exact .pure _

theorem reads_isBelow {left right : Text} (leftValid : Version.isValid left = true)
    (rightValid : Version.isValid right = true) :
    Reads text (isBelow left right) rest (.ok (Version.isBelow left right, rest)) := by
  rw [isBelow, Version.isBelow, Version.compareNumbers_of_isValid leftValid rightValid]
  cases compare (Version.numbers left) (Version.numbers right) <;> exact .pure _

theorem reads_rightBound (opening : Char) {left : Text} (valid : Version.isValid left = true) :
    Reads text (rightBound opening left) rest (readRightBound opening left rest) := by
  rw [rightBound, readRightBound_eq]
  refine reads_number.bind_ok (.bound_bind fun rightValid => ?_)
  split
  · rename_i ends
    exact (reads_peek_nil ends).bind_error
  · rename_i closing after start
    refine (reads_peek start).bind_ok ?_
    split
    · rename_i other
      rw [decide_eq_false (by grind)]
      exact (reads_ensure false _).bind_error
    · rename_i closes
      rw [decide_eq_true (by grind)]
      refine (reads_ensure true _).bind_ok (reads_move.bind_ok ?_)
      refine (reads_isBelow valid rightValid).bind_ok ?_
      split
      · rename_i below
        rw [below]
        exact (reads_ensure true _).bind_ok (.pure _)
      · rename_i notBelow
        rw [Bool.eq_false_iff.2 notBelow]
        exact (reads_ensure false _).bind_error

theorem reads_braced (opening : Char) :
    Reads text (braced opening) rest (readBraced opening rest) := by
  rw [braced, readBraced_eq]
  refine reads_number.bind_ok ?_
  split
  · rename_i ends
    exact (reads_expect_nil _ ends).bind_error
  · rename_i next start
    refine (reads_expect _ start).bind_ok ?_
    rw [if_pos rfl]
    exact .bound_bind fun valid => reads_move.bind_ok (reads_rightBound opening valid)
  · rename_i closing after notComma start
    refine (reads_expect _ start).bind_ok ?_
    rw [if_neg notComma]
    by_cases closes : closing = ')' ∨ closing = ']'
    · rw [if_pos closes, if_neg (by grind)]
      exact reads_move.bind_ok (.bound_bind fun _ => reads_single opening closing _)
    · rw [if_neg closes, if_pos (by grind)]
      exact reads_refuse _

end Walk

end Range

end BundleDecl
