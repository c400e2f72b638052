import BundleDecl.Proofs.Lines
import BundleDecl.Text.Cursor

/-!
# Runs of a cursor

Whatever a cursor is asked and in whatever order, it consumes the lines that are not blank one after
the other and numbers them as they stand among all lines. What it shows of the next line is what it
consumes next, and once all lines are consumed nothing changes any more.

One line is always in sight before it is consumed, so the lines that remain are that line and those
ahead, counted on from all that were seen.
-/

namespace BundleDecl

namespace Cursor

/-- What a cursor can be asked. -/
inductive Call where
  | hasNext
  | peek
  | move
  | next
  deriving DecidableEq, Repr

/-- What a cursor answers. -/
inductive Answer where
  | flag (remains : Bool)
  | line (text : Text)
  /-- The cursor has moved on. -/
  | moved
  /-- There are no more lines. -/
  | ended
  deriving DecidableEq, Repr

/-- The answer to a call, and the place after it. A call that fails leaves the cursor where it is.
-/
def answer (cursor : Cursor) : Call → Answer × Cursor
  | .hasNext => (.flag cursor.hasNext, cursor)
  | .peek => ((cursor.peek?.map .line).getD .ended, cursor)
  | .move => (cursor.move?.map (.moved, ·)).getD (.ended, cursor)
  | .next => (cursor.next?.map fun (text, after) => (.line text, after)).getD (.ended, cursor)

/-- The place after some calls. -/
def after (cursor : Cursor) (calls : List Call) : Cursor :=
  calls.foldl (fun cursor call => (cursor.answer call).2) cursor

/-- The line that a call consumes: the one that it answers with, or the one that it moves past. -/
def taken (cursor : Cursor) (call : Call) : List Text :=
  match call, (cursor.answer call).1 with
  | .next, .line text => [text]
  | .move, .moved => cursor.peek?.toList
  | _, _ => []

/-- The lines that some calls consume. -/
def consumed : Cursor → List Call → List Text
  | _, [] => []
  | cursor, call :: calls => cursor.taken call ++ (cursor.answer call).2.consumed calls

/-! ## The lines that remain -/

/-- The lines that are not blank and have not been consumed. -/
def remaining (cursor : Cursor) : List Line :=
  cursor.inSight.toList ++ Line.nonBlankFrom cursor.seen cursor.ahead

@[simp]
theorem remaining_lookAhead (seen lineNumber : Nat) (lines : List Text) :
    (lookAhead seen lineNumber lines).remaining = Line.nonBlankFrom seen lines := by
  fun_induction lookAhead seen lineNumber lines with
  | case1 seen => rfl
  | case2 seen text rest blank ih => rw [ih, Line.nonBlankFrom, if_pos blank]
  | case3 seen text rest content => rw [Line.nonBlankFrom, if_neg content]; rfl

@[simp]
theorem lineNumber_lookAhead (seen lineNumber : Nat) (lines : List Text) :
    (lookAhead seen lineNumber lines).lineNumber = lineNumber := by
  fun_induction lookAhead seen lineNumber lines with
  | case1 seen => rfl
  | case2 seen text rest blank ih => exact ih
  | case3 seen text rest content => rfl

/-- The first of the remaining lines is in sight. -/
theorem inSight_lookAhead (seen lineNumber : Nat) (lines : List Text) :
    (lookAhead seen lineNumber lines).inSight = (Line.nonBlankFrom seen lines).head? := by
  fun_induction lookAhead seen lineNumber lines with
  | case1 seen => rfl
  | case2 seen text rest blank ih => rw [ih, Line.nonBlankFrom, if_pos blank]
  | case3 seen text rest content => rw [Line.nonBlankFrom, if_neg content]; rfl

/-! ## One call -/

/-- A cursor over some lines has consumed the given ones. -/
structure Stands (lines : List Text) (done : List Line) (cursor : Cursor) : Prop where
  split : done ++ cursor.remaining = Line.nonBlank lines
  inSight : cursor.inSight = cursor.remaining.head?
  lineNumber : cursor.lineNumber = (done.getLast?.map Line.number).getD 0

variable {lines : List Text} {done : List Line} {cursor : Cursor}

theorem stands_ofLines (lines : List Text) : Stands lines [] (ofLines lines) where
  split := remaining_lookAhead 0 0 lines
  inSight := by rw [ofLines, inSight_lookAhead, remaining_lookAhead]
  lineNumber := lineNumber_lookAhead 0 0 lines

/-- Without a line in sight every call fails, but for the question whether one remains. -/
theorem answer_of_inSight_eq_none (none : cursor.inSight = none) {call : Call}
    (asks : call ≠ .hasNext) : cursor.answer call = (.ended, cursor) := by
  cases call with
  | hasNext => contradiction
  | peek => simp [answer, peek?, none]
  | move => simp [answer, move?, none]
  | next => simp [answer, next?, peek?, none]

theorem answer_snd_of_inSight_eq_none (none : cursor.inSight = none) (call : Call) :
    (cursor.answer call).2 = cursor := by
  by_cases asks : call = .hasNext
  · rw [asks]
    rfl
  · rw [answer_of_inSight_eq_none none asks]

/-- The place behind a line is the one from which the line after it is in sight. -/
theorem Stands.lookAhead {line : Line} (stands : Stands lines done cursor)
    (sight : cursor.inSight = some line) :
    Stands lines (done ++ [line]) (lookAhead cursor.seen line.number cursor.ahead) where
  split := by
    rw [remaining_lookAhead, ← stands.split, remaining, sight, List.append_assoc]
    rfl
  inSight := by rw [inSight_lookAhead, remaining_lookAhead]
  lineNumber := by simp

/-- Every call leaves the cursor behind the lines that it has consumed. -/
theorem Stands.answer (stands : Stands lines done cursor) (call : Call) :
    ∃ more, more.map Line.text = cursor.taken call ∧
      Stands lines (done ++ more) (cursor.answer call).2 := by
  cases sight : cursor.inSight with
  | none =>
      refine ⟨[], ?_, ?_⟩
      · cases call with
        | hasNext => rfl
        | peek => rfl
        | move => simp [taken, Cursor.answer, move?, sight]
        | next => simp [taken, Cursor.answer, next?, peek?, sight]
      · rw [List.append_nil, answer_snd_of_inSight_eq_none sight]
        exact stands
  | some line =>
      cases call with
      | hasNext => exact ⟨[], rfl, by rwa [List.append_nil]⟩
      | peek => exact ⟨[], rfl, by rwa [List.append_nil]⟩
      | move =>
          refine ⟨[line], by simp [taken, Cursor.answer, move?, peek?, sight], ?_⟩
          simpa [Cursor.answer, move?, sight] using stands.lookAhead sight
      | next =>
          refine ⟨[line], by simp [taken, Cursor.answer, next?, move?, peek?, sight], ?_⟩
          simpa [Cursor.answer, next?, peek?, move?, sight] using stands.lookAhead sight

/-! ## All calls -/

theorem Stands.after (stands : Stands lines done cursor) (calls : List Call) :
    ∃ more, more.map Line.text = cursor.consumed calls ∧
      Stands lines (done ++ more) (cursor.after calls) := by
  induction calls generalizing done cursor with
  | nil => exact ⟨[], rfl, by rwa [List.append_nil]⟩
  | cons call calls ih =>
      rcases stands.answer call with ⟨first, firstTexts, next⟩
      rcases ih next with ⟨others, otherTexts, final⟩
      refine ⟨first ++ others, ?_, ?_⟩
      · rw [List.map_append, firstTexts, otherTexts, consumed]
      · rw [← List.append_assoc]
        exact final

/-- What holds of a cursor over some lines once it has consumed the given ones. -/
structure Answers (lines done : List Text) (cursor : Cursor) : Prop where
  /-- The consumed lines are the first of those that are not blank. -/
  consumed : done <+: Text.compact lines
  /-- The number is that of the last consumed line among all lines. -/
  lineNumber : done = [] ∧ cursor.lineNumber = 0 ∨
    ∃ before line after, lines = before ++ line :: after ∧ done = Text.compact before ++ [line] ∧
      cursor.lineNumber = before.length + 1
  /-- Whether a line remains is told without a change. -/
  hasNext : ∃ remains, cursor.answer .hasNext = (.flag remains, cursor) ∧
    (remains = false ↔ done = Text.compact lines)
  /-- The next line is shown without a change. -/
  peek : cursor.answer .peek = ((cursor.answer .next).1, cursor)
  /-- A line that remains is consumed next. -/
  next : ∀ text rest, Text.compact lines = done ++ text :: rest →
    (cursor.answer .next).1 = .line text ∧ (cursor.answer .move).1 = .moved ∧
      (cursor.answer .move).2 = (cursor.answer .next).2
  /-- After the last line nothing changes any more. -/
  ended : done = Text.compact lines → (∀ call, call ≠ .hasNext → (cursor.answer call).1 = .ended) ∧
    ∀ calls, cursor.after calls = cursor

theorem Stands.compact_eq (stands : Stands lines done cursor) :
    Text.compact lines = done.map Line.text ++ cursor.remaining.map Line.text := by
  rw [← List.map_append, stands.split]
  exact (Line.map_text_nonBlankFrom 0 lines).symm

theorem Stands.inSight_eq_none_iff (stands : Stands lines done cursor) :
    cursor.inSight = none ↔ done.map Line.text = Text.compact lines := by
  rw [stands.compact_eq, stands.inSight, List.head?_eq_none_iff, List.self_eq_append_right,
    List.map_eq_nil_iff]

/-- The last consumed line stands among all lines where the cursor says. -/
theorem Stands.lineNumber_eq (stands : Stands lines done cursor) :
    done.map Line.text = [] ∧ cursor.lineNumber = 0 ∨
      ∃ before line after, lines = before ++ line :: after ∧
        done.map Line.text = Text.compact before ++ [line] ∧
        cursor.lineNumber = before.length + 1 := by
  have split := stands.split
  rcases List.eq_nil_or_concat done with rfl | ⟨earlier, last, rfl⟩
  · exact .inl ⟨rfl, stands.lineNumber⟩
  · right
    rw [List.concat_eq_append, List.append_assoc] at split
    rcases Line.exists_split_of_nonBlankFrom split.symm with
      ⟨before, after, whole, -, number, same⟩
    refine ⟨before, last.text, after, whole, ?_, ?_⟩
    · rw [List.concat_eq_append, List.map_append, ← same, Line.map_text_nonBlankFrom]
      rfl
    · have last := stands.lineNumber
      rw [List.concat_eq_append, List.getLast?_concat] at last
      rw [last, Option.map_some, Option.getD_some, number, Nat.zero_add]

theorem after_of_inSight_eq_none (none : cursor.inSight = none) (calls : List Call) :
    cursor.after calls = cursor := by
  induction calls with
  | nil => rfl
  | cons call calls ih =>
      rw [after, List.foldl_cons, answer_snd_of_inSight_eq_none none]
      exact ih

theorem Stands.answers (stands : Stands lines done cursor) :
    Answers lines (done.map Line.text) cursor where
  consumed := ⟨_, stands.compact_eq.symm⟩
  lineNumber := stands.lineNumber_eq
  hasNext := by
    refine ⟨_, rfl, ?_⟩
    rw [← stands.inSight_eq_none_iff, Cursor.hasNext, Option.isSome_eq_false_iff,
      Option.isNone_iff_eq_none]
  peek := by
    cases sight : cursor.inSight with
    | none => simp [Cursor.answer, peek?, next?, sight]
    | some line => simp [Cursor.answer, peek?, next?, move?, sight]
  next := by
    intro text rest whole
    rw [stands.compact_eq, List.append_cancel_left_eq, List.map_eq_cons_iff] at whole
    rcases whole with ⟨line, others, remaining, rfl, -⟩
    have sight := stands.inSight
    rw [remaining, List.head?_cons] at sight
    simp [Cursor.answer, next?, peek?, move?, sight]
  ended := by
    intro all
    have none := stands.inSight_eq_none_iff.2 all
    refine ⟨?_, after_of_inSight_eq_none none⟩
    intro call asks
    rw [answer_of_inSight_eq_none none asks]

/-- Whatever was asked of a cursor before, it has consumed some of the lines that are not blank, in
their order, and answers accordingly. -/
theorem answers_of_calls (lines : List Text) (calls : List Call) :
    Answers lines ((ofLines lines).consumed calls) ((ofLines lines).after calls) := by
  rcases (stands_ofLines lines).after calls with ⟨done, texts, stands⟩
  rw [← texts]
  exact stands.answers

/-- Blank lines count, and after the last line a call changes nothing. -/
example :
    let cursor := (ofLines ["".toList, "a".toList, " \t".toList, "b".toList]).after
      [.peek, .next, .hasNext, .move, .next]
    cursor.lineNumber = 4 ∧ (cursor.answer .peek).1 = .ended := by decide

end Cursor

end BundleDecl
