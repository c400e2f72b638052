import BundleDecl.Proofs.Declarations.Grammar
import BundleDecl.Proofs.Lines

/-!
# Metadata values

The reader recognises the lines of a value as the grammar says. The lines that the writer makes of a
value are lines of exactly this value, with line feeds as its line breaks, and none of them is
blank.
-/

namespace BundleDecl

namespace MetadataValue

/-! ## Reading -/

theorem closing?_eq_some_iff {line before : Text} :
    closing? line = some before ↔ Closes line before := by
  simp only [closing?, Closes]
  constructor
  · intro found
    split at found
    · rename_i start blanks split
      rw [Text.splitLast?_eq_some_iff] at split
      rw [Option.ite_none_right_eq_some, Option.some.injEq] at found
      rcases found with ⟨blank, rfl⟩
      exact ⟨blanks, blank, split.1⟩
    · contradiction
  · rintro ⟨blanks, blank, rfl⟩
    have noQuote : '"' ∉ blanks := by
      intro member
      exact absurd (List.all_eq_true.1 blank _ member) (by decide)
    rw [Text.splitLast?_eq_some_iff.2 ⟨rfl, noQuote⟩]
    simp [blank]

theorem closing?_eq_none_iff {line : Text} :
    closing? line = none ↔ ∀ before, ¬Closes line before := by
  simp [Option.eq_none_iff_forall_ne_some, closing?_eq_some_iff]

theorem extend_of_closes {content line before : Text} (closes : Closes line before) :
    extend content line = .complete (content ++ before) := by
  rw [extend, closing?_eq_some_iff.2 closes]

theorem extend_of_not_closes {content line : Text} (goesOn : ∀ before, ¬Closes line before) :
    extend content line = .unclosed (content ++ openLine line ++ ['\n']) := by
  rw [extend, closing?_eq_none_iff.2 goesOn]

theorem start_of_quote {blanks : Text} (blank : Text.isBlank blanks = true) (line : Text) :
    start (blanks ++ '"' :: line) = extend [] line := by
  have dropped : (blanks ++ '"' :: line).dropWhile Text.isIndentCharacter = '"' :: line := by
    rw [List.dropWhile_append_of_pos (List.all_eq_true.1 blank),
      List.dropWhile_cons_of_neg (by decide)]
  simp only [start, dropped]

theorem start_of_not_quote {tail : Text}
    (plain : ∀ blanks line, Text.isBlank blanks = true → tail ≠ blanks ++ '"' :: line) :
    start tail = .complete (Text.strip tail) := by
  rw [start]
  split
  · rename_i line dropped
    have parts := List.takeWhile_append_dropWhile (p := Text.isIndentCharacter) (l := tail)
    rw [dropped] at parts
    exact absurd parts.symm (plain _ line (Text.isBlank_indentation tail))
  · rfl

theorem mem_of_mem_openLine {line : Text} {character : Char}
    (member : character ∈ openLine line) : character ∈ line := by
  rw [openLine] at member
  split at member
  · rename_i before after found
    rcases Text.splitLast?_eq_some_iff.1 found with ⟨rfl, _⟩
    split at member
    · exact List.mem_append_left _ member
    · exact member
  · exact member

/-- A quoted value holds nothing but characters of its lines and line feeds. -/
theorem QuotedLines.mem {lines : List Text} {value : Text} (quoted : QuotedLines lines value)
    {character : Char} (member : character ∈ value) :
    character = '\n' ∨ ∃ line ∈ lines, character ∈ line := by
  induction quoted with
  | @last line value closes =>
      rcases closes with ⟨blanks, blank, rfl⟩
      exact Or.inr ⟨_, List.mem_cons_self, List.mem_append_left _ member⟩
  | @more line value lines goesOn quoted ih =>
      rcases List.mem_append.1 member with member | member
      · exact Or.inr ⟨line, List.mem_cons_self, mem_of_mem_openLine member⟩
      · rcases List.mem_cons.1 member with rfl | member
        · exact Or.inl rfl
        · rcases ih member with rfl | ⟨other, otherMem, member⟩
          · exact Or.inl rfl
          · exact Or.inr ⟨other, List.mem_cons_of_mem _ otherMem, member⟩

theorem ValueLines.mem {lines : List Text} {value : Text} (written : ValueLines lines value)
    {character : Char} (member : character ∈ value) :
    character = '\n' ∨ ∃ line ∈ lines, character ∈ line := by
  cases written with
  | plain plain => exact Or.inr ⟨_, List.mem_cons_self, Text.mem_of_mem_strip member⟩
  | quoted blank quoted =>
      rcases quoted.mem member with feed | ⟨line, lineMem, member⟩
      · exact Or.inl feed
      · rcases List.mem_cons.1 lineMem with rfl | lineMem
        · exact Or.inr ⟨_, List.mem_cons_self, by simp [member]⟩
        · exact Or.inr ⟨line, List.mem_cons_of_mem _ lineMem, member⟩

/-! ## Writing -/

theorem getLast?_trimEnd_of_isBlank (before : Text) (character : Char) {after : Text}
    (visible : Text.isIndentCharacter character = false) (blank : Text.isBlank after = true) :
    (Text.trimEnd Text.isIndentCharacter (before ++ character :: after)).getLast? =
      some character := by
  rw [List.append_cons, Text.trimEnd_append_of_all blank, Text.trimEnd_eq_self]
  · simp
  · simp [visible]

theorem not_closes_renderLine (line before : Text) : ¬Closes (renderLine line) before := by
  rintro ⟨blanks, blank, written⟩
  have last := getLast?_trimEnd_of_isBlank before '"' rfl blank
  rw [← written, renderLine] at last
  split at last
  · rw [getLast?_trimEnd_of_isBlank line '\\' rfl rfl] at last
    simp at last
  · rename_i unmarked
    simp [needsMark, last] at unmarked

theorem openLine_renderLine (line : Text) : openLine (renderLine line) = line := by
  rw [renderLine]
  split
  · have parts : Text.splitLast? '\\' (line ++ ['\\']) = some (line, []) :=
      Text.splitLast?_eq_some_iff.2 ⟨rfl, List.not_mem_nil⟩
    simp [openLine, parts, Text.isBlank]
  · rename_i unmarked
    rw [openLine]
    split
    · rename_i before after found
      rcases Text.splitLast?_eq_some_iff.1 found with ⟨rfl, _⟩
      split
      · rename_i blank
        have last := getLast?_trimEnd_of_isBlank before '\\' rfl blank
        simp [needsMark, last] at unmarked
      · rfl
    · rfl

theorem isBlank_renderLine (line : Text) : Text.isBlank (renderLine line) = false := by
  rw [renderLine]
  split
  · simp [Text.isBlank, Text.isIndentCharacter]
  · rename_i unmarked
    by_contra blank
    rw [Bool.not_eq_false] at blank
    have kept := Text.trimEnd_eq_nil_iff.2 blank
    simp [needsMark, kept] at unmarked

/-- The lines of a quoted value from behind the opening quote on. -/
def renderedLines : List Text → List Text
  | [] => []
  | [last] => [last ++ ['"']]
  | line :: next :: rest => renderLine line :: renderedLines (next :: rest)

theorem notMem_renderLine {line : Text} {character : Char} (absent : character ∉ line)
    (other : character ≠ '\\') : character ∉ renderLine line := by
  rw [renderLine]
  split
  · simp [absent, other]
  · exact absent

/-- The written form of a quoted value has these lines. -/
theorem splitLines_renderLines {lines : List Text} (nonempty : lines ≠ [])
    (unbroken : ∀ line ∈ lines, '\r' ∉ line ∧ '\n' ∉ line) :
    Text.splitLines (renderLines lines ++ ['"']) = renderedLines lines := by
  fun_induction renderLines lines with
  | case1 => contradiction
  | case2 last =>
      rw [List.forall_mem_singleton] at unbroken
      exact Text.splitLines_eq_singleton (by simp [unbroken.1]) (by simp [unbroken.2])
  | case3 line next rest ih =>
      rw [List.forall_mem_cons] at unbroken
      have noReturn := notMem_renderLine unbroken.1.1 (by decide)
      have noFeed := notMem_renderLine unbroken.1.2 (by decide)
      have others := ih (by simp) unbroken.2
      rw [renderedLines, ← others]
      have first : Text.splitLines ('\n' :: (renderLines (next :: rest) ++ ['"'])) =
          [] :: Text.splitLines (renderLines (next :: rest) ++ ['"']) := by
        rw [Text.splitLines]
        · rfl
        · simp
      simpa using Text.splitLines_append noReturn noFeed first

theorem isBlank_renderedLines {lines : List Text} {line : Text}
    (member : line ∈ renderedLines lines) :
    Text.isBlank line = false := by
  fun_induction renderedLines lines with
  | case1 => simp at member
  | case2 last =>
      rcases List.mem_singleton.1 member with rfl
      simp [Text.isBlank, Text.isIndentCharacter]
  | case3 first next rest ih =>
      rcases List.mem_cons.1 member with rfl | member
      · exact isBlank_renderLine first
      · exact ih member

/-- The written lines are lines of the value that they were made of. -/
theorem quotedLines_renderedLines {lines : List Text} (nonempty : lines ≠ []) :
    QuotedLines (renderedLines lines) (Text.joinWith ['\n'] lines) := by
  fun_induction renderedLines lines with
  | case1 => contradiction
  | case2 last => exact .last ⟨[], rfl, rfl⟩
  | case3 line next rest ih =>
      have others := QuotedLines.more (not_closes_renderLine line) (ih (by simp))
      rw [openLine_renderLine] at others
      simpa [Text.joinWith] using others

theorem notMem_renderLines {lines : List Text} {character : Char}
    (absent : ∀ line ∈ lines, character ∉ line) (other : character ≠ '\\')
    (noFeed : character ≠ '\n') : character ∉ renderLines lines := by
  fun_induction renderLines lines with
  | case1 => simp
  | case2 last => exact absent last List.mem_cons_self
  | case3 line next rest ih =>
      rw [List.forall_mem_cons] at absent
      simp [notMem_renderLine absent.1 other, noFeed, ih absent.2]

/-- What is written behind the colon of a metadata line. -/
def afterColon (value : Text) : Text :=
  if value = [] then [] else ' ' :: render value

theorem splitLines_quote {lines : List Text} (nonempty : lines ≠ [])
    (unbroken : ∀ line ∈ lines, '\r' ∉ line ∧ '\n' ∉ line) :
    ∃ first others, Text.splitLines (' ' :: quote (renderLines lines)) =
      ([' '] ++ '"' :: first) :: others ∧ renderedLines lines = first :: others := by
  have pieces := splitLines_renderLines nonempty unbroken
  cases rendered : renderedLines lines with
  | nil => exact absurd (pieces.trans rendered) (Text.splitLines_ne_nil _)
  | cons first others =>
      rw [rendered] at pieces
      have written : Text.splitLines ([' ', '"'] ++ (renderLines lines ++ ['"'])) =
          ([' ', '"'] ++ first) :: others :=
        Text.splitLines_append (by decide) (by decide) pieces
      exact ⟨first, others, written, rfl⟩

theorem ne_quote_of_stripped {value : Text} (stripped : Text.strip value = value)
    (noQuote : value.head? ≠ some '"') {blanks line : Text} (blank : Text.isBlank blanks = true) :
    ' ' :: value ≠ blanks ++ '"' :: line := by
  intro written
  cases blanks with
  | nil => simp at written
  | cons first blanks =>
      rcases List.cons.inj written with ⟨_, rfl⟩
      cases blanks with
      | nil => simp at noQuote
      | cons second blanks =>
          have visible := Text.isWhiteSpace_eq_false_of_strip_eq_self stripped
          simp only [Text.isBlank, List.all_cons, Bool.and_eq_true] at blank
          rw [Text.isWhiteSpace_of_isIndentCharacter blank.2.1] at visible
          contradiction

/-- A value is written between quotes unless it is its own stripped form on a single line. -/
theorem render_eq_quote_or_eq_self (value : Text) :
    render value = quote (renderLines (Text.splitLines value)) ∨
      render value = value ∧ Text.splitLines value = [value] ∧
        value.head? ≠ some '"' ∧ Text.strip value = value := by
  rw [render]
  split
  · rename_i first second rest pieces
    exact Or.inl (by rw [pieces])
  · rename_i unlike
    have single : ∃ line, Text.splitLines value = [line] := by
      rcases pieces : Text.splitLines value with _ | ⟨first, _ | ⟨second, rest⟩⟩
      · exact absurd pieces (Text.splitLines_ne_nil value)
      · exact ⟨first, rfl⟩
      · exact absurd pieces (unlike first second rest)
    rcases single with ⟨line, pieces⟩
    rcases Text.eq_of_splitLines_eq_singleton pieces with rfl
    split
    · exact Or.inl (by rw [pieces, renderLines])
    · rename_i plain
      simp only [Bool.or_eq_true, decide_eq_true_eq, bne_iff_ne, ne_eq, not_or,
        Decidable.not_not] at plain
      exact Or.inr ⟨rfl, pieces, plain.1, plain.2.symm⟩

theorem render_eq_nil_iff {value : Text} : render value = [] ↔ value = [] := by
  constructor
  · intro empty
    rcases render_eq_quote_or_eq_self value with quoted | ⟨plain, _⟩
    · simp [quoted, quote] at empty
    · rw [← plain, empty]
  · rintro rfl
    rfl

/-- No carriage return is written, whatever line breaks a value has. -/
theorem return_notMem_render (value : Text) : '\r' ∉ render value := by
  have clean (line : Text) (member : line ∈ Text.splitLines value) : '\r' ∉ line :=
    (Text.notMem_of_mem_splitLines member).1
  rcases render_eq_quote_or_eq_self value with quoted | ⟨plain, single, _⟩
  · rw [quoted, quote]
    simp [notMem_renderLines clean]
  · rw [plain]
    exact clean value (by rw [single]; exact List.mem_cons_self)

/-- What is written for a value are lines of the value with line feeds as its line breaks. None of
them but the first may be blank. -/
theorem valueLines_afterColon (value : Text) :
    ∃ tail others, Text.splitLines (afterColon value) = tail :: others ∧
      ValueLines (tail :: others) (Text.withLineFeeds value) ∧
      ∀ line ∈ others, Text.isBlank line = false := by
  rw [afterColon]
  split
  · rename_i empty
    subst empty
    exact ⟨[], [], rfl, .plain (by simp), by simp⟩
  · rcases render_eq_quote_or_eq_self value with quoted | ⟨plain, single, noQuote, stripped⟩
    · rcases splitLines_quote (Text.splitLines_ne_nil value)
        (fun line member => Text.notMem_of_mem_splitLines member) with
        ⟨first, others, pieces, rendered⟩
      have quotedLines := quotedLines_renderedLines (Text.splitLines_ne_nil value)
      rw [rendered] at quotedLines
      refine ⟨_, others, by rw [quoted, pieces], .quoted rfl quotedLines, ?_⟩
      intro line member
      exact isBlank_renderedLines (rendered ▸ List.mem_cons_of_mem first member)
    · have pieces : Text.splitLines ([' '] ++ value) = ([' '] ++ value) :: [] :=
        Text.splitLines_append (by decide) (by decide) single
      have valueLines : ValueLines [' ' :: value] (Text.strip ([' '] ++ value)) :=
        .plain fun blanks line blank => ne_quote_of_stripped stripped noQuote blank
      rw [Text.strip_append_of_isBlank rfl, stripped] at valueLines
      refine ⟨' ' :: value, [], by rw [plain]; exact pieces, ?_, by simp⟩
      simpa [Text.withLineFeeds, single, Text.joinWith] using valueLines

end MetadataValue

end BundleDecl
