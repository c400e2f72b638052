import BundleDecl.Proofs.Host
import BundleDecl.Proofs.Range.Comparisons

/-!
# Acceptance of range texts within the limits of a host

A host interrupts the reading of a text as a range if its stack does not hold that reading, and if a
bound that is compared has a number with too many digits. Every other text is read exactly if the
grammar derives it.
-/

namespace BundleDecl

/-! ## Conversions -/

namespace Version

theorem conversion?_eq_some_iff {version : Text} {interruption : Interruption} :
    conversion? version = some interruption ↔
      ∃ before part after, Text.splitOn '.' version = before ++ part :: after ∧
        (∀ earlier ∈ before, earlier.length ≤ Text.longestNumber) ∧
        Text.longestNumber < part.length ∧ interruption = .conversion part.length := by
  simp only [conversion?, Option.map_eq_some_iff, List.find?_eq_some_iff_append, decide_eq_true_eq,
    Bool.not_eq_true', decide_eq_false_iff_not, Nat.not_lt]
  constructor
  · rintro ⟨part, ⟨long, before, after, parts, short⟩, rfl⟩
    exact ⟨before, part, after, parts, short, long, rfl⟩
  · rintro ⟨before, part, after, parts, short, long, rfl⟩
    exact ⟨part, ⟨long, before, after, parts, short⟩, rfl⟩

theorem splitOn_of_isCanonicalNumber {digits : Text}
    (canonical : isCanonicalNumber digits = true) : Text.splitOn '.' digits = [digits] := by
  apply Text.splitWhere_eq_singleton
  intro character member
  rw [decide_eq_false_iff_not]
  rintro rfl
  exact dot_notMem_of_isCanonicalNumber canonical member

theorem isValid_of_isCanonicalNumber {digits : Text}
    (canonical : isCanonicalNumber digits = true) : isValid digits = true := by
  simpa [isValid, splitOn_of_isCanonicalNumber canonical] using canonical

/-- Any number but zero is above zero. -/
theorem zero_lt_of_isCanonicalNumber {digits : Text} (canonical : isCanonicalNumber digits = true)
    (positive : digits ≠ ['0']) : numbers ['0'] < numbers digits := by
  have value : Text.toNat digits 0 ≠ 0 := fun zero =>
    positive (toNat_inj canonical (by decide) zero)
  have zero : numbers ['0'] = [0] := by decide
  rw [zero, numbers, splitOn_of_isCanonicalNumber canonical]
  exact List.Lex.rel (Nat.pos_of_ne_zero value)

theorem conversion?_of_isCanonicalNumber {digits : Text}
    (canonical : isCanonicalNumber digits = true) (long : Text.longestNumber < digits.length) :
    conversion? digits = some (.conversion digits.length) :=
  conversion?_eq_some_iff.2
    ⟨[], digits, [], splitOn_of_isCanonicalNumber canonical, nofun, long, rfl⟩

theorem isSome_components?_of_isValid {version : Text} (valid : isValid version = true) :
    (components? version).isSome = true := by
  have numeric := List.all_eq_true.2 (isNumeric_iff.1 (isNumeric_of_isValid valid))
  simp only [components?, numeric, if_true, Option.isSome_some]

/-- Both of two different valid versions are converted when they are compared. -/
theorem interruption?_of_isValid {left right : Text} (leftValid : isValid left = true)
    (rightValid : isValid right = true) (different : left ≠ right) :
    interruption? left right = (conversion? left).or (conversion? right) := by
  have leftConverted := isSome_components?_of_isValid leftValid
  have rightConverted := isSome_components?_of_isValid rightValid
  rw [← Option.not_isNone, Bool.not_eq_true'] at leftConverted rightConverted
  simp [interruption?, different, ne_nil_of_isValid rightValid, leftConverted, rightConverted]

/-- A comparison is interrupted by a conversion of one of both versions. -/
theorem conversion?_of_interruption? {left right : Text} {interruption : Interruption}
    (cut : interruption? left right = some interruption) :
    conversion? left = some interruption ∨ conversion? right = some interruption := by
  rw [interruption?] at cut
  split at cut
  · contradiction
  · rcases Option.or_eq_some_iff.1 cut with first | ⟨-, second⟩
    · exact Or.inl first
    · split at second
      · contradiction
      · exact Or.inr second

end Version

namespace Range

/-! ## Interruptions -/

section

variable {host : Host} {text : Text}

/-- A version number in a text is interrupted by a long run of digits in that text. -/
theorem exists_digits_of_conversion? {version : Text} {interruption : Interruption}
    (valid : Version.isValid version = true) (inside : version <:+: text)
    (cut : Version.conversion? version = some interruption) :
    ∃ digits, digits <:+: text ∧ digits.all Char.isDigit = true ∧
      Text.longestNumber < digits.length ∧ interruption = .conversion digits.length := by
  rcases Version.conversion?_eq_some_iff.1 cut with ⟨before, part, after, parts, -, long, rfl⟩
  have member : part ∈ Text.splitOn '.' version := by simp [parts]
  have canonical := Version.isCanonicalNumber_of_mem valid member
  simp only [Version.isCanonicalNumber, Version.isNumber, Bool.and_eq_true] at canonical
  exact ⟨part, (Text.infix_of_mem_splitOn member).trans inside, canonical.1.2, long, rfl⟩

theorem exists_digits_of_comparisons {interruption : Interruption}
    (cut : (comparisons text).findSome? (fun (left, right) => Version.interruption? left right) =
      some interruption) :
    ∃ digits, digits <:+: text ∧ digits.all Char.isDigit = true ∧
      Text.longestNumber < digits.length ∧ interruption = .conversion digits.length := by
  rcases List.exists_of_findSome?_eq_some cut with ⟨⟨left, right⟩, compared, cut⟩
  have stand := standIn_of_mem_comparisons compared
  rcases Version.conversion?_of_interruption? cut with first | second
  · exact exists_digits_of_conversion? stand.leftValid stand.left first
  · exact exists_digits_of_conversion? stand.rightValid stand.right second

/-- The reading of a text is interrupted by its depth, or by a long run of digits in it. -/
theorem interruption?_eq_some {interruption : Interruption}
    (cut : interruption? host text = some interruption) :
    (host.holds (.range text) = false ∧ interruption = .stack) ∨
      (host.holds (.range text) = true ∧
        ∃ digits, digits <:+: text ∧ digits.all Char.isDigit = true ∧
          Text.longestNumber < digits.length ∧ interruption = .conversion digits.length) := by
  rw [interruption?, Host.interruption?] at cut
  cases holds : host.holds (.range text) with
  | false =>
      rw [holds] at cut
      exact Or.inl ⟨rfl, (Option.some.inj cut).symm⟩
  | true =>
      rw [holds] at cut
      exact Or.inr ⟨rfl, exists_digits_of_comparisons cut⟩

/-- No number in a short text has too many digits. -/
theorem interruption?_eq_none_of_length (holds : host.holds (.range text) = true)
    (short : text.length ≤ Text.longestNumber) : interruption? host text = none := by
  rw [Option.eq_none_iff_forall_ne_some]
  intro interruption cut
  rcases interruption?_eq_some cut with ⟨shallow, -⟩ | ⟨-, digits, inside, -, long, -⟩
  · rw [holds] at shallow
    contradiction
  · have atMost := inside.length_le
    omega

theorem interruption?_of_holds (holds : host.holds (.range text) = true) :
    interruption? host text =
      (comparisons text).findSome? fun (left, right) => Version.interruption? left right := by
  rw [interruption?, Host.interruption?, if_pos holds, Option.none_or]

theorem interruption?_eq_stack_iff :
    interruption? host text = some .stack ↔ host.holds (.range text) = false := by
  constructor
  · intro cut
    rcases interruption?_eq_some cut with ⟨shallow, -⟩ | ⟨-, digits, -, -, -, other⟩
    · exact shallow
    · contradiction
  · intro shallow
    simp [interruption?, Host.interruption?, shallow]

end

mutual

theorem AtomTree.ordered : ∀ tree : AtomTree, ∀ bounds ∈ tree.bounds,
    Version.numbers bounds.1 < Version.numbers bounds.2
  | .bounded _ _ _ _ below => List.forall_mem_singleton.2 below
  | .union members => members.ordered
  | .base _ | .exact _ | .minimum _ | .maximum _ | .unsatisfiable => nofun

/-- The left one of two bounds is less than the right one. -/
theorem RangeTree.ordered : ∀ tree : RangeTree, ∀ bounds ∈ tree.bounds,
    Version.numbers bounds.1 < Version.numbers bounds.2
  | .last atom => atom.ordered
  | .more atom following => List.forall_mem_append.2 ⟨atom.ordered, following.ordered⟩

theorem UnionTree.ordered : ∀ tree : UnionTree, ∀ bounds ∈ tree.bounds,
    Version.numbers bounds.1 < Version.numbers bounds.2
  | .last member => member.ordered
  | .more member following => List.forall_mem_append.2 ⟨member.ordered, following.ordered⟩

end

/-- All bounds of the ranges with two bounds in a tree, in their order. -/
def RangeTree.compared (tree : RangeTree) : List Version.Valid :=
  tree.bounds.flatMap fun (left, right) => [left, right]

theorem findSome?_written {bounds : List (Version.Valid × Version.Valid)}
    (ordered : ∀ pair ∈ bounds, Version.numbers pair.1 < Version.numbers pair.2) :
    (bounds.map written).findSome? (fun (left, right) => Version.interruption? left right) =
      (bounds.flatMap fun (left, right) => [left, right]).findSome?
        fun bound => Version.conversion? bound.1 := by
  induction bounds with
  | nil => rfl
  | cons pair bounds ih =>
      rcases pair with ⟨left, right⟩
      rcases List.forall_mem_cons.1 ordered with ⟨below, ordered⟩
      have different : left.1 ≠ right.1 := by
        intro same
        rw [same] at below
        exact lt_irrefl _ below
      have first := Version.interruption?_of_isValid left.2 right.2 different
      simp only [List.map_cons, List.flatMap_cons, List.cons_append, List.nil_append,
        List.findSome?_cons, written, first, ih ordered]
      cases Version.conversion? left.1 with
      | some found => rfl
      | none => rfl

/-- The interruption of the reading of a text that the grammar derives is the conversion of the
first of its compared bounds that has a number with too many digits. -/
theorem Derives.interruption?_eq {host : Host} {text : Text} {tree : RangeTree}
    (derives : Derives text tree) (holds : host.holds (.range text) = true) :
    interruption? host text =
      tree.compared.findSome? fun bound => Version.conversion? bound.1 := by
  rw [interruption?_of_holds holds, derives.comparisons]
  exact findSome?_written tree.ordered

/-! ## Acceptance -/

/-- What the reading of a text as a range results in on a host. -/
structure Acceptance (host : Host) (text : Text) : Prop where
  /-- A text on which the host does not interrupt the reader is read if and only if the grammar
  derives it. -/
  accepted : interruption? host text = none →
    ((∃ range, ofTextWithin host text = .ok range) ↔ ∃ tree, Derives text tree)
  /-- Every other text on which the host does not interrupt the reader is refused as malformed. -/
  refused : interruption? host text = none → (¬∃ tree, Derives text tree) →
    ∃ failure, ofTextWithin host text = .error (.refused failure) ∧
      failure.cause.failureClass = .format
  /-- A range includes the versions that any derivation of its text means, and it excludes all other
  valid versions. -/
  meaning : ∀ tree range, Derives text tree → ofTextWithin host text = .ok range →
    ∀ version, Version.isValid version = true → Decides version range (tree.Includes version)
  interrupted : ∀ interruption, ofTextWithin host text = .error (.interrupted interruption) ↔
    interruption? host text = some interruption
  /-- The reader runs out of stack exactly on the texts that the stack does not hold. -/
  stack : interruption? host text = some .stack ↔ host.holds (.range text) = false
  /-- Any other interruption comes from a run of too many digits in the text. -/
  digits : host.holds (.range text) = true →
    ∀ interruption, interruption? host text = some interruption →
      ∃ digits, digits <:+: text ∧ digits.all Char.isDigit = true ∧
        Text.longestNumber < digits.length ∧ interruption = .conversion digits.length
  /-- In a text that the grammar derives it comes from the first compared bound that has a number
  with too many digits. -/
  bounds : host.holds (.range text) = true → ∀ tree, Derives text tree →
    interruption? host text = tree.compared.findSome? fun bound => Version.conversion? bound.1

/-- On every host, a text is read as a range if and only if the grammar derives it and the host does
not interrupt the reader. -/
theorem acceptance_ofTextWithin (host : Host) (text : Text) : Acceptance host text where
  accepted quiet := by
    rw [← (exists_ofText_iff_exists_derives text).1]
    simp only [ofTextWithin, interruptedBy_eq_ok_iff, quiet, true_and]
  refused quiet underivable := by
    rcases (exists_ofText_iff_exists_derives text).2.1 underivable with
      ⟨failure, refused, known⟩
    exact ⟨failure, interruptedBy_eq_refused_iff.2 ⟨quiet, refused⟩, known⟩
  meaning tree range derives read :=
    have unlimited := (interruptedBy_eq_ok_iff.1 read).2
    (exists_ofText_iff_exists_derives text).2.2 tree range derives unlimited
  interrupted _ := interruptedBy_eq_interrupted_iff
  stack := interruption?_eq_stack_iff
  digits holds interruption cut := by
    rcases interruption?_eq_some cut with ⟨shallow, -⟩ | ⟨-, found⟩
    · rw [holds] at shallow
      contradiction
    · exact found
  bounds holds _ derives := derives.interruption?_eq holds

theorem acceptance_ofTextWithin_union :
    ∃ range, ofTextWithin .usual "\x7b [1.0,2) &(1.5]\t| 3 \x7d".toList = .ok range ∧
      includes "1.5".toList range = .ok true ∧ includes "3.0.1".toList range = .ok true ∧
      includes "1.6".toList range = .ok false := by
  have below : Version.numbers "1.0".toList < Version.numbers "2".toList := by decide
  let bounded : AtomTree := .bounded ⟨"1.0".toList, rfl⟩ ⟨"2".toList, rfl⟩ true false below
  let first : RangeTree := .more bounded (.last (.maximum ⟨"1.5".toList, rfl⟩))
  let second : RangeTree := .last (.base ⟨"3".toList, rfl⟩)
  let tree : RangeTree := .last (.union (.more first (.last second)))
  have derives : Derives "\x7b [1.0,2) &(1.5]\t| 3 \x7d".toList tree :=
    ⟨[], rfl, [], _, rfl, rfl, [' '], _, rfl, rfl, [], _, rfl, rfl, [], _, rfl, rfl,
      [], _, rfl, rfl, [], _, rfl, rfl, [' '], _, rfl, rfl, [], _, rfl, rfl, [], _, rfl, rfl,
      [], _, rfl, rfl, ['\t'], _, rfl, rfl, [' '], _, rfl, rfl, [' '], _, rfl, rfl, rfl⟩
  have acceptance := acceptance_ofTextWithin .usual "\x7b [1.0,2) &(1.5]\t| 3 \x7d".toList
  have quiet : interruption? .usual "\x7b [1.0,2) &(1.5]\t| 3 \x7d".toList = none := by
    rw [acceptance.bounds rfl tree derives]
    rfl
  rcases (acceptance.accepted quiet).2 ⟨tree, derives⟩ with ⟨range, read⟩
  have decides := acceptance.meaning tree range derives read
  refine ⟨range, read, ?_, ?_, ?_⟩
  · apply (decides "1.5".toList rfl).includes_iff.2
    exact Or.inl ⟨⟨Or.inl (by decide), Or.inl (by decide)⟩, Or.inr rfl⟩
  · apply (decides "3.0.1".toList rfl).includes_iff.2
    exact Or.inr ⟨[0, 1], rfl⟩
  · rcases decides "1.6".toList rfl with ⟨included, answer, meaning⟩
    have excluded : ¬tree.Includes "1.6".toList := by
      rintro (⟨-, tooLate | same⟩ | continued)
      · exact absurd tooLate (by decide)
      · exact absurd same (by decide)
      · exact absurd (show [3] <+: [1, 6] from continued) (by decide)
    rw [answer, Bool.eq_false_iff.2 (fun included => excluded (meaning.1 included))]

/-! ## A bound with too many digits -/

/-- The text of the range from zero up to a number. -/
def upTo (digits : Text) : Text :=
  ['[', '0', ',', ' '] ++ (digits ++ [']'])

theorem exists_derives_upTo {digits : Text} (canonical : Version.isCanonicalNumber digits = true)
    (positive : digits ≠ ['0']) :
    ∃ tree, Derives (upTo digits) tree ∧ tree.compared.map Subtype.val = [['0'], digits] := by
  have valid := Version.isValid_of_isCanonicalNumber canonical
  let tree : RangeTree := .last (.bounded ⟨['0'], by decide⟩ ⟨digits, valid⟩ true true
    (Version.zero_lt_of_isCanonicalNumber canonical positive))
  refine ⟨tree, ⟨[], rfl, ?_⟩, rfl⟩
  exact ⟨[], _, rfl, rfl, [], _, rfl, rfl, [], _, rfl, rfl, [' '], _, rfl, rfl, [], _, rfl, rfl,
    rfl⟩

/-- A range whose upper bound has too many digits is well-formed, but its reading is interrupted. -/
theorem interruption?_upTo {host : Host} {digits : Text}
    (canonical : Version.isCanonicalNumber digits = true)
    (long : Text.longestNumber < digits.length)
    (holds : host.holds (.range (upTo digits)) = true) :
    interruption? host (upTo digits) = some (.conversion digits.length) := by
  have positive : digits ≠ ['0'] := by
    rintro rfl
    exact absurd long (by decide)
  rcases exists_derives_upTo canonical positive with ⟨tree, derives, compared⟩
  have zero : Version.conversion? ['0'] = none := by decide
  have found : (tree.compared.map Subtype.val).findSome? Version.conversion? =
      some (.conversion digits.length) := by
    rw [compared]
    simp [zero, Version.conversion?_of_isCanonicalNumber canonical long]
  rw [derives.interruption?_eq holds, ← found, List.findSome?_map]
  rfl

/-- So many ones. -/
def ones (count : Nat) : Text :=
  List.replicate count '1'

theorem isCanonicalNumber_ones {count : Nat} (positive : 0 < count) :
    Version.isCanonicalNumber (ones count) = true := by
  rcases count with _ | count
  · contradiction
  · rw [ones, List.replicate_succ, Version.isCanonicalNumber_iff]
    refine .positive (by decide) (by decide) ?_
    intro digit member
    rw [List.eq_of_mem_replicate member]
    decide

theorem notMem_upTo_ones {character : Char} {count : Nat}
    (other : character ∉ ['[', '0', ',', ' ', '1', ']']) : character ∉ upTo (ones count) := by
  intro member
  simp only [upTo, ones, List.mem_append, List.mem_replicate] at member
  rcases member with prefixed | ⟨-, rfl⟩ | closed
  · exact other (List.mem_append_left ['1', ']'] prefixed)
  · exact other (by decide)
  · exact other (List.mem_append_right ['[', '0', ',', ' ', '1'] closed)

theorem interruption?_upTo_ones {host : Host} {count : Nat} (long : Text.longestNumber < count)
    (holds : host.holds (.range (upTo (ones count))) = true) :
    interruption? host (upTo (ones count)) = some (.conversion count) := by
  have digits : (ones count).length = count := List.length_replicate
  have positive : 0 < count := Nat.zero_lt_of_lt long
  rw [← digits] at long
  rw [interruption?_upTo (isCanonicalNumber_ones positive) long holds, digits]

/-- A range with a bound of too many digits is derived, and it is neither read nor refused. -/
theorem ofTextWithin_long_bound :
    (∃ tree, Derives (upTo (ones 4301)) tree) ∧
      ofTextWithin .usual (upTo (ones 4301)) = .error (.interrupted (.conversion 4301)) := by
  have canonical : Version.isCanonicalNumber (ones 4301) = true :=
    isCanonicalNumber_ones (by decide)
  have positive : ones 4301 ≠ ['0'] := by
    intro same
    exact absurd (congrArg List.length same) (by rw [ones, List.length_replicate]; decide)
  rcases exists_derives_upTo canonical positive with ⟨tree, derives, -⟩
  refine ⟨⟨tree, derives⟩, ?_⟩
  rw [ofTextWithin, interruption?_upTo_ones (by decide) rfl]
  rfl

end Range

end BundleDecl
