import BundleDecl.Proofs.MetadataValue
import Mathlib.Data.List.Forall2

/-!
# Lines of a written value

The written form of a value suits the rules by which lines are read. Unquoted it is one line that
has nothing to lose at its ends. Quoted it goes on where the value does: no line before the last one
closes it, none after the first one would be skipped as blank, and a backslash at the end of a line
is a mark and nothing else.
-/

namespace BundleDecl

namespace Text

/-- A text has several lines if and only if it holds a line terminator. -/
theorem splitLines_eq_singleton_iff {text : Text} :
    splitLines text = [text] ↔ '\r' ∉ text ∧ '\n' ∉ text := by
  constructor
  · intro single
    exact notMem_of_mem_splitLines (by rw [single]; exact List.mem_cons_self)
  · rintro ⟨noReturn, noFeed⟩
    exact splitLines_eq_singleton noReturn noFeed

end Text

namespace MetadataValue

/-- The last visible character of a line, blanks left aside. -/
def EndsIn (character : Char) (line : Text) : Prop :=
  ∃ before blanks, line = before ++ character :: blanks ∧ Text.isBlank blanks = true

/-- A line of a value that others follow, and what is written for it. -/
structure Continues (line written : Text) : Prop where
  /-- At most a backslash is added. -/
  form : written = line ∨ written = line ++ ['\\']
  /-- The value is not closed. -/
  unclosed : ¬EndsIn '"' written
  /-- A backslash at the end was added. -/
  marked : EndsIn '\\' written ↔ written = line ++ ['\\']

theorem needsMark_of_endsIn {line : Text} (ends : EndsIn '\\' line) : needsMark line = true := by
  rcases ends with ⟨before, blanks, rfl, blank⟩
  simp [needsMark, getLast?_trimEnd_of_isBlank before '\\' rfl blank]

theorem continues_renderLine (line : Text) : Continues line (renderLine line) where
  form := by
    rw [renderLine]
    split
    · exact .inr rfl
    · exact .inl rfl
  unclosed := by
    rintro ⟨before, blanks, written, blank⟩
    exact not_closes_renderLine line before ⟨blanks, blank, written⟩
  marked := by
    rw [renderLine]
    split
    · exact iff_of_true ⟨line, [], rfl, rfl⟩ rfl
    · rename_i unmarked
      have noEnd : ¬EndsIn '\\' line := fun ends => unmarked (needsMark_of_endsIn ends)
      exact iff_of_false noEnd (by simp)

theorem renderedLines_concat (earlier : List Text) (last : Text) :
    renderedLines (earlier ++ [last]) = earlier.map renderLine ++ [last ++ ['"']] := by
  induction earlier with
  | nil => rfl
  | cons line earlier ih =>
      rw [List.map_cons, List.cons_append, List.cons_append, ← ih]
      cases earlier <;> rfl

theorem feed_mem_renderLines {first second : Text} {rest : List Text} :
    '\n' ∈ renderLines (first :: second :: rest) := by
  simp [renderLines]

theorem splitOn_renderLines {lines : List Text} (nonempty : lines ≠ [])
    (unbroken : ∀ line ∈ lines, '\r' ∉ line ∧ '\n' ∉ line) :
    Text.splitOn '\n' (renderLines lines ++ ['"']) = renderedLines lines := by
  have noReturn := notMem_renderLines (fun line member => (unbroken line member).1)
    (by decide : '\r' ≠ '\\') (by decide)
  rw [← splitLines_renderLines nonempty unbroken, Text.splitLines_eq_splitOn]
  simp [noReturn]

/-- A line break is written if and only if the value has one, and it is a line feed. -/
theorem feed_mem_render_iff {value : Text} :
    '\n' ∈ render value ↔ '\r' ∈ value ∨ '\n' ∈ value := by
  rw [← not_iff_not, not_or, ← Text.splitLines_eq_singleton_iff]
  constructor
  · intro noFeed
    rcases render_eq_quote_or_eq_self value with quoted | ⟨-, single, -⟩
    · rcases pieces : Text.splitLines value with _ | ⟨first, _ | ⟨second, rest⟩⟩
      · exact absurd pieces (Text.splitLines_ne_nil value)
      · rw [Text.eq_of_splitLines_eq_singleton pieces]
      · rw [quoted, pieces] at noFeed
        simp [quote, feed_mem_renderLines] at noFeed
    · exact single
  · intro single
    have noFeed := (Text.splitLines_eq_singleton_iff.1 single).2
    rcases render_eq_quote_or_eq_self value with quoted | ⟨plain, -⟩
    · simp [quoted, single, quote, renderLines, noFeed]
    · rwa [plain]

/-- What is written between the quotes are the lines of the value, and the rules keep them so. -/
theorem exists_lines_of_quote {value rest : Text} (quoted : render value = '"' :: rest) :
    ∃ earlier last written, Text.splitLines value = earlier ++ [last] ∧
      Text.splitOn '\n' rest = written ++ [last ++ ['"']] ∧
      List.Forall₂ Continues earlier written ∧
      ∀ line ∈ Text.splitOn '\n' rest, Text.isBlank line = false := by
  have nonempty := Text.splitLines_ne_nil value
  have inner : rest = renderLines (Text.splitLines value) ++ ['"'] := by
    rcases render_eq_quote_or_eq_self value with whole | ⟨plain, -, noQuote, -⟩
    · rw [whole] at quoted
      exact (List.cons.inj quoted).2.symm
    · rw [plain] at quoted
      rw [quoted] at noQuote
      contradiction
  have lines : Text.splitOn '\n' rest = renderedLines (Text.splitLines value) := by
    rw [inner, splitOn_renderLines nonempty fun line => Text.notMem_of_mem_splitLines]
  have visible (line : Text) (member : line ∈ Text.splitOn '\n' rest) :
      Text.isBlank line = false := isBlank_renderedLines (lines ▸ member)
  rcases List.eq_nil_or_concat (Text.splitLines value) with none | ⟨earlier, last, pieces⟩
  · exact absurd none nonempty
  · rw [List.concat_eq_append] at pieces
    rw [pieces, renderedLines_concat] at lines
    refine ⟨earlier, last, _, pieces, lines, ?_, visible⟩
    rw [List.forall₂_map_right_iff, List.forall₂_same]
    exact fun line _ => continues_renderLine line

/-- The written form of a value keeps to the rules of lines. It is empty for the empty value alone,
and has line breaks if the value has some. Unless it starts with a quote, it is a single line
without white space at its ends. Otherwise its lines are those of the value: the last one is closed
by a quote behind it and the others go on, all of them visible. -/
theorem render_lines (value : Text) :
    (render value = [] ↔ value = [] ∧ '\r' ∉ value) ∧
    ('\n' ∈ render value ↔ '\r' ∈ value ∨ '\n' ∈ value) ∧ '\r' ∉ render value ∧
    ((render value).head? ≠ some '"' →
      '\n' ∉ render value ∧ Text.strip (render value) = render value) ∧
    ∀ rest, render value = '"' :: rest →
      ∃ earlier last written, Text.splitLines value = earlier ++ [last] ∧
        Text.splitOn '\n' rest = written ++ [last ++ ['"']] ∧
        List.Forall₂ Continues earlier written ∧
        ∀ line ∈ Text.splitOn '\n' rest, Text.isBlank line = false := by
  refine ⟨?_, feed_mem_render_iff, return_notMem_render value, ?_,
    fun rest => exists_lines_of_quote⟩
  · rw [render_eq_nil_iff]
    constructor
    · rintro rfl
      exact ⟨rfl, List.not_mem_nil⟩
    · exact And.left
  · intro plain
    rcases render_eq_quote_or_eq_self value with quoted | ⟨same, single, -, stripped⟩
    · rw [quoted] at plain
      contradiction
    · rw [same]
      exact ⟨(Text.splitLines_eq_singleton_iff.1 single).2, stripped⟩

theorem render_lines_marked :
    render "a\"\r\n\t\nb\\".toList = "\"a\"\\\n\t\\\nb\\\"".toList ∧
      ∃ earlier last written,
        Text.splitLines "a\"\r\n\t\nb\\".toList = earlier ++ [last] ∧
        Text.splitOn '\n' "a\"\\\n\t\\\nb\\\"".toList = written ++ [last ++ ['"']] ∧
        List.Forall₂ Continues earlier written ∧
        ∀ line ∈ Text.splitOn '\n' "a\"\\\n\t\\\nb\\\"".toList, Text.isBlank line = false :=
  ⟨by decide, (render_lines "a\"\r\n\t\nb\\".toList).2.2.2.2 _ (by decide)⟩

end MetadataValue

end BundleDecl
