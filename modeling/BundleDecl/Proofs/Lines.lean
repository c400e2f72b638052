import BundleDecl.Proofs.Text
import BundleDecl.Text.Lines

/-!
# Laws of lines

A text without carriage returns is split at its line feeds alone. No line holds a line terminator,
so a text with all its line breaks made line feeds is such a text.
-/

namespace BundleDecl

namespace Text

theorem splitLines_ne_nil (text : Text) : splitLines text ≠ [] := by
  fun_induction splitLines text <;> simp

theorem splitLines_eq_splitOn {text : Text} (noReturn : '\r' ∉ text) :
    splitLines text = splitOn '\n' text := by
  simp only [splitOn]
  fun_induction splitLines text with
  | case1 => rfl
  | case2 rest ih => simp at noReturn
  | case3 character rest _ terminator ih =>
      rw [List.mem_cons, not_or] at noReturn
      rcases terminator with rfl | rfl
      · exact absurd rfl noReturn.1
      · simp [splitWhere, ih noReturn.2]
  | case4 character rest _ terminator none ih => exact absurd none (splitLines_ne_nil rest)
  | case5 character rest _ terminator line lines pieces ih =>
      rw [List.mem_cons, not_or] at noReturn
      rw [not_or] at terminator
      rw [splitWhere, ← ih noReturn.2, pieces]
      simp [terminator.2]

/-- No line holds a line terminator. -/
theorem notMem_of_mem_splitLines {text line : Text} (member : line ∈ splitLines text) :
    '\r' ∉ line ∧ '\n' ∉ line := by
  fun_induction splitLines text generalizing line with
  | case1 => simp_all
  | case2 rest ih =>
      rcases List.mem_cons.1 member with rfl | member
      · simp
      · exact ih member
  | case3 character rest _ terminator ih =>
      rcases List.mem_cons.1 member with rfl | member
      · simp
      · exact ih member
  | case4 character rest _ terminator none ih => exact absurd none (splitLines_ne_nil rest)
  | case5 character rest _ terminator first lines pieces ih =>
      rw [not_or] at terminator
      rcases List.mem_cons.1 member with rfl | member
      · have others := @ih first (by simp [pieces])
        simp only [List.mem_cons, not_or]
        exact ⟨⟨Ne.symm terminator.1, others.1⟩, Ne.symm terminator.2, others.2⟩
      · exact ih (by rw [pieces]; exact List.mem_cons_of_mem _ member)

theorem mem_splitLines_of_mem_lines {text line : Text} (member : line ∈ lines text) :
    line ∈ splitLines text := by
  simp only [lines] at member
  split at member
  · exact List.dropLast_subset _ member
  · exact member

theorem splitLines_eq_singleton {text : Text} (noReturn : '\r' ∉ text) (noFeed : '\n' ∉ text) :
    splitLines text = [text] := by
  rw [splitLines_eq_splitOn noReturn]
  apply splitWhere_eq_singleton
  intro character member
  apply decide_eq_false
  rintro rfl
  exact noFeed member

theorem eq_of_splitLines_eq_singleton {text line : Text} (single : splitLines text = [line]) :
    text = line := by
  fun_induction splitLines text generalizing line with
  | case1 => exact (List.cons.inj single).1
  | case2 rest ih => exact absurd (List.cons.inj single).2 (splitLines_ne_nil rest)
  | case3 character rest _ terminator ih =>
      exact absurd (List.cons.inj single).2 (splitLines_ne_nil rest)
  | case4 character rest _ terminator none ih => exact absurd none (splitLines_ne_nil rest)
  | case5 character rest _ terminator first lines pieces ih =>
      rcases List.cons.inj single with ⟨rfl, rfl⟩
      rw [ih pieces]

theorem splitLines_append_cons {before after : Text} (noReturn : '\r' ∉ before)
    (noReturn' : '\r' ∉ after) :
    splitLines (before ++ '\n' :: after) = splitLines before ++ splitLines after := by
  rw [splitLines_eq_splitOn (by simp [noReturn, noReturn']), splitLines_eq_splitOn noReturn,
    splitLines_eq_splitOn noReturn']
  exact splitWhere_append_cons rfl before after

/-- What is put in front of a text stands on its first line. -/
theorem splitLines_append {before after line : Text} {lines : List Text}
    (noReturn : '\r' ∉ before) (noFeed : '\n' ∉ before)
    (pieces : splitLines after = line :: lines) :
    splitLines (before ++ after) = (before ++ line) :: lines := by
  induction before with
  | nil => exact pieces
  | cons character before ih =>
      rw [List.mem_cons, not_or] at noReturn noFeed
      have others := ih noReturn.2 noFeed.2
      rw [List.cons_append, splitLines]
      · rw [if_neg (by simp [Ne.symm noReturn.1, Ne.symm noFeed.1]), others]
        rfl
      · rintro rest rfl
        exact absurd rfl noReturn.1

/-- A text may be cut between two parts: no line goes on from one to the other, and no line
terminator does. -/
def Cut (before after : Text) : Prop :=
  before = [] ∨ after = [] ∨ before.getLast? = some '\n' ∨
    before.getLast? = some '\r' ∧ after.head? ≠ some '\n'

/-- Behind a line terminator, which no line feed completes, lines begin anew. -/
theorem splitLines_append_of_terminator {before after : Text}
    (ends : before.getLast? = some '\n' ∨ before.getLast? = some '\r' ∧ after.head? ≠ some '\n') :
    ∃ pieces, splitLines before = pieces ++ [[]] ∧
      splitLines (before ++ after) = pieces ++ splitLines after := by
  -- What follows is looked at only where the first part ends, behind its last terminator.
  fun_induction splitLines before with
  | case1 => simp at ends
  | case2 rest ih =>
      cases rest with
      | nil => exact ⟨[[]], rfl, rfl⟩
      | cons character rest =>
          rcases ih (by simpa using ends) with ⟨pieces, whole, both⟩
          refine ⟨[] :: pieces, ?_, ?_⟩
          · rw [whole, List.cons_append]
          · change [] :: splitLines ((character :: rest) ++ after) = _
            rw [both, List.cons_append]
  | case3 character rest noPair terminator ih =>
      cases rest with
      | nil =>
          refine ⟨[[]], rfl, ?_⟩
          rw [List.singleton_append, splitLines, if_pos terminator]
          · rfl
          · rintro rest rfl rfl
            simp at ends
      | cons next rest =>
          rcases ih (by simpa using ends) with ⟨pieces, whole, both⟩
          refine ⟨[] :: pieces, ?_, ?_⟩
          · rw [whole, List.cons_append]
          · rw [List.cons_append, splitLines, if_pos terminator, both, List.cons_append]
            rintro rest rfl same
            rcases List.cons.inj same with ⟨rfl, _⟩
            exact noPair _ rfl rfl
  | case4 character rest noPair noTerminator none ih => exact absurd none (splitLines_ne_nil rest)
  | case5 character rest noPair noTerminator line lines split ih =>
      cases rest with
      | nil => simp_all
      | cons next rest =>
          rcases ih (by simpa using ends) with ⟨pieces, whole, both⟩
          cases pieces with
          | nil =>
              have empty := eq_of_splitLines_eq_singleton whole
              contradiction
          | cons first pieces =>
              rw [split] at whole
              rcases List.cons.inj whole with ⟨rfl, rfl⟩
              refine ⟨(character :: line) :: pieces, rfl, ?_⟩
              rw [List.cons_append, splitLines, if_neg noTerminator, both]
              · rfl
              · rintro rest rfl same
                rcases List.cons.inj same with ⟨rfl, _⟩
                exact noPair _ rfl rfl

theorem lines_append {before after : Text} (cut : Cut before after) :
    lines (before ++ after) = lines before ++ lines after := by
  rcases cut with rfl | rfl | ends
  · rfl
  · rw [List.append_nil]
    exact (List.append_nil _).symm
  · rcases splitLines_append_of_terminator ends with ⟨pieces, whole, both⟩
    have nonempty := splitLines_ne_nil after
    have last : (pieces ++ splitLines after).getLast? = (splitLines after).getLast? := by
      rw [List.getLast?_append_of_ne_nil _ nonempty]
    simp only [lines, whole, both, last, List.getLast?_concat, if_true, List.dropLast_concat]
    split
    · rw [List.dropLast_append_of_ne_nil nonempty]
    · rfl

/-- The lines do not depend on the line terminators. -/
theorem lines_withLineFeeds (text : Text) : lines (withLineFeeds text) = lines text := by
  have noReturn : '\r' ∉ withLineFeeds text := by
    intro member
    rcases mem_joinWith member with feed | ⟨line, lineMem, member⟩
    · simp at feed
    · exact (notMem_of_mem_splitLines lineMem).1 member
  have pieces : splitLines (withLineFeeds text) = splitLines text := by
    rw [splitLines_eq_splitOn noReturn]
    exact splitOn_joinWith (splitLines_ne_nil text)
      fun line member => (notMem_of_mem_splitLines member).2
  rw [lines, pieces]
  rfl

theorem withLineFeeds_eq_self {text : Text} (noReturn : '\r' ∉ text) :
    withLineFeeds text = text := by
  rw [withLineFeeds, splitLines_eq_splitOn noReturn, joinWith_splitOn]

/-- A text that has no line feed in place of its line terminators has none of them. -/
theorem withLineFeeds_eq_self_of_noFeed {text : Text} (noFeed : '\n' ∉ withLineFeeds text) :
    withLineFeeds text = text := by
  rcases pieces : splitLines text with _ | ⟨line, _ | ⟨next, lines⟩⟩
  · exact absurd pieces (splitLines_ne_nil text)
  · rw [withLineFeeds, pieces, eq_of_splitLines_eq_singleton pieces]
    rfl
  · rw [withLineFeeds, pieces] at noFeed
    exact absurd (by simp [joinWith]) noFeed

/-- The lines that are not blank. -/
def compact (lines : List Text) : List Text :=
  lines.filter fun line => !isBlank line

theorem filter_content_eq_nil {lines : List Text} (blank : ∀ line ∈ lines, isBlank line = true) :
    (lines.filter fun line => !isBlank line) = [] := by
  simpa [List.filter_eq_nil_iff] using blank

/-- The lines of lines that were written with a line feed behind each of them. -/
theorem lines_flatMap {written : List Text} (noReturn : ∀ line ∈ written, '\r' ∉ line) :
    lines (written.flatMap (· ++ ['\n'])) = written.flatMap splitLines := by
  have pieces :
      splitLines (written.flatMap (· ++ ['\n'])) = written.flatMap splitLines ++ [[]] := by
    induction written with
    | nil => rfl
    | cons line written ih =>
        rw [List.forall_mem_cons] at noReturn
        have others : '\r' ∉ written.flatMap (· ++ ['\n']) := by
          intro member
          rcases List.mem_flatMap.1 member with ⟨other, otherMem, inOther⟩
          rcases List.mem_append.1 inOther with inOther | feed
          · exact noReturn.2 other otherMem inOther
          · exact absurd feed (by decide)
        rw [List.flatMap_cons, List.append_assoc]
        exact (splitLines_append_cons noReturn.1 others).trans (by
          rw [ih noReturn.2, List.flatMap_cons, List.append_assoc])
  simp [lines, pieces]

end Text

namespace Line

/-- The texts of the non-blank lines. -/
theorem map_text_nonBlankFrom (seen : Nat) (lines : List Text) :
    (nonBlankFrom seen lines).map Line.text = lines.filter fun line => !Text.isBlank line := by
  induction lines generalizing seen with
  | nil => rfl
  | cons line lines ih =>
      rw [nonBlankFrom]
      by_cases blank : Text.isBlank line
      · simp [blank, ih]
      · simp [blank, ih]

theorem nonBlank_append_cons (before after : List Text) {line : Text}
    (content : Text.isBlank line = false) :
    nonBlank (before ++ line :: after) =
      nonBlank before ++ ⟨before.length + 1, line⟩ :: nonBlankFrom (before.length + 1) after := by
  simp [nonBlank, nonBlankFrom_append, nonBlankFrom, content]

/-- Numbered lines come from the lines up to each of them and behind it. -/
theorem exists_split_of_nonBlankFrom {seen : Nat} {lines : List Text} {before after : List Line}
    {line : Line} (split : nonBlankFrom seen lines = before ++ line :: after) :
    ∃ first rest, lines = first ++ line.text :: rest ∧ Text.isBlank line.text = false ∧
      line.number = seen + first.length + 1 ∧ nonBlankFrom seen first = before := by
  induction lines generalizing seen before with
  | nil => simp [nonBlankFrom] at split
  | cons text lines ih =>
      rw [nonBlankFrom] at split
      split at split
      · rename_i blank
        rcases ih split with ⟨first, rest, rfl, content, number, same⟩
        refine ⟨text :: first, rest, rfl, content, ?_, ?_⟩
        · rw [number, List.length_cons]
          omega
        · rw [nonBlankFrom, if_pos blank, same]
      · rename_i content
        cases before with
        | nil =>
            rcases List.cons.inj split with ⟨rfl, -⟩
            exact ⟨[], lines, rfl, by simpa using content, rfl, rfl⟩
        | cons earlier before =>
            rcases List.cons.inj split with ⟨rfl, others⟩
            rcases ih others with ⟨first, rest, rfl, lineContent, number, same⟩
            refine ⟨text :: first, rest, rfl, lineContent, ?_, ?_⟩
            · rw [number, List.length_cons]
              omega
            · rw [nonBlankFrom, if_neg content, same]

/-- A line that is not blank stands where its number says. -/
theorem exists_split_of_mem_nonBlankFrom {seen : Nat} {lines : List Text} {line : Line}
    (member : line ∈ nonBlankFrom seen lines) :
    Text.isBlank line.text = false ∧ ∃ before after, before ++ line.text :: after = lines ∧
      line.number = seen + before.length + 1 := by
  rcases List.append_of_mem member with ⟨before, after, split⟩
  rcases exists_split_of_nonBlankFrom split with ⟨first, rest, rfl, content, number, -⟩
  exact ⟨content, first, rest, rfl, number⟩

end Line

end BundleDecl
