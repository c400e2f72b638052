import BundleDecl.Proofs.Range.Acceptance
import BundleDecl.Proofs.Range.Interval
import Mathlib.Order.Cover

/-!
# Bounded ranges without a version

The bounds of a bounded range that is read are in order, but versions are not dense: a version is
followed immediately by its successor. So a bounded range includes some version, except where both
bounds are excluded and the right one is the successor of the left one.
-/

namespace BundleDecl

/-- A list of numbers is followed immediately by itself with a zero at its end, and by nothing
else. -/
theorem covBy_iff {left right : List Nat} : left ⋖ right ↔ right = left ++ [0] := by
  constructor
  · intro covers
    rcases (append_zero_le_of_lt covers.lt).lt_or_eq with between | same
    · exact absurd between (covers.2 (lt_append_zero left))
    · exact same.symm
  · rintro rfl
    refine ⟨lt_append_zero left, ?_⟩
    intro middle above below
    exact absurd below (not_lt.2 (append_zero_le_of_lt above))

theorem Version.next_eq_ok_iff {version successor : Text} (valid : isValid version = true)
    (successorValid : isValid successor = true) :
    next version = .ok successor ↔ numbers version ⋖ numbers successor := by
  rw [next, if_neg (ne_nil_of_isValid valid), Except.ok.injEq, covBy_iff,
    ← numbers_append_zero, ← eq_iff_numbers_eq successorValid (isValid_append_zero valid), eq_comm]

namespace Range

/-! ## Where bounded ranges are empty -/

/-- A bounded range with its bounds in order includes some version, unless it excludes both bounds
and nothing lies between them. -/
theorem exists_includes_bounded_iff {left right : Text} (leftIncluded rightIncluded : Bool)
    (leftValid : Version.isValid left = true) (rightValid : Version.isValid right = true)
    (below : Version.isBelow left right = true) :
    (∃ version, Version.isValid version = true ∧
        includes version (bounded left right leftIncluded rightIncluded) = .ok true) ↔
      ¬(leftIncluded = false ∧ rightIncluded = false ∧ Version.next left = .ok right) := by
  rw [Version.isBelow_iff leftValid rightValid] at below
  rw [Version.next_eq_ok_iff leftValid rightValid]
  constructor
  · rintro ⟨version, valid, included⟩ ⟨rfl, rfl, covers⟩
    rw [(decides_bounded false false leftValid rightValid valid).includes_iff] at included
    rcases included with ⟨above | ⟨impossible, -⟩, before | ⟨impossible, -⟩⟩
    · exact covers.2 above before
    all_goals contradiction
  · intro gap
    by_cases ends : leftIncluded = true ∨ rightIncluded = true
    -- A bound that is included is a version of the range itself.
    · rcases ends with rfl | rfl
      · exact ⟨left, leftValid, (decides_bounded true rightIncluded leftValid rightValid
          leftValid).includes_iff.2 ⟨Or.inr ⟨rfl, rfl⟩, Or.inl below⟩⟩
      · exact ⟨right, rightValid, (decides_bounded leftIncluded true leftValid rightValid
          rightValid).includes_iff.2 ⟨Or.inl below, Or.inr ⟨rfl, rfl⟩⟩⟩
    -- Between two excluded bounds, the successor of the left one is the least candidate.
    · rw [not_or, Bool.not_eq_true, Bool.not_eq_true] at ends
      have valid := Version.isValid_append_zero leftValid
      refine ⟨left ++ ".0".toList, valid, (decides_bounded leftIncluded rightIncluded leftValid
        rightValid valid).includes_iff.2 ?_⟩
      have distinct : Version.numbers left ++ [0] ≠ Version.numbers right := by
        intro same
        exact gap ⟨ends.1, ends.2, covBy_iff.2 same.symm⟩
      rw [Version.numbers_append_zero]
      exact ⟨Or.inl (lt_append_zero _),
        Or.inl (lt_of_le_of_ne (append_zero_le_of_lt below) distinct)⟩

/-! ## The texts of bounded ranges -/

theorem skipBlanks_append_cons {run after : Text} {stop : Char}
    (numeric : ∀ character ∈ run, isNumberCharacter character = true)
    (visible : Text.isIndentCharacter stop = false) :
    skipBlanks (run ++ stop :: after) = run ++ stop :: after := by
  rcases run with _ | ⟨first, run⟩
  · exact List.dropWhile_cons_of_neg (by simp [visible])
  · have shown : Text.isIndentCharacter first = false := by
      by_contra indent
      rw [Bool.not_eq_false] at indent
      have other := isNumberCharacter_of_isIndentCharacter indent
      simp [numeric first List.mem_cons_self] at other
    exact List.dropWhile_cons_of_neg (by simp [shown])

/-- A version number that is read at a run of digits and dots is that run. -/
theorem Number.eq_run (blanks : Text) {run after version rest : Text} {stop : Char}
    (number : Number (blanks ++ (run ++ stop :: after)) version rest)
    (blank : Text.isBlank blanks = true)
    (numeric : ∀ character ∈ run, isNumberCharacter character = true)
    (other : isNumberCharacter stop = false) (visible : Text.isIndentCharacter stop = false) :
    version = run ∧ rest = stop :: after ∧ Version.isValid run = true := by
  rcases number with ⟨read, valid⟩
  rw [readNumber_append blank (skipBlanks_append_cons numeric visible) numeric (ends_cons other),
    Prod.mk.injEq] at read
  rcases read with ⟨rfl, rfl⟩
  exact ⟨rfl, rfl, valid⟩

/-- What is read between braces around two runs of digits and dots is the range with these
bounds. -/
theorem Braced.eq_bounded {opening closing : Char} {left right rest : Text} {range : Range}
    (braced : Braced opening (left ++ ',' :: ' ' :: (right ++ [closing])) range rest)
    (closes : closing = ')' ∨ closing = ']')
    (leftNumeric : ∀ character ∈ left, isNumberCharacter character = true)
    (rightNumeric : ∀ character ∈ right, isNumberCharacter character = true) :
    rest = [] ∧ Version.isValid left = true ∧ Version.isValid right = true ∧
      Version.isBelow left right = true ∧
      range = Range.bounded left right (opening = '[') (closing = ']') := by
  have comma {version mid : Text}
      (number : Number (left ++ ',' :: ' ' :: (right ++ [closing])) version mid) :
      version = left ∧ Symbol ',' mid (' ' :: (right ++ [closing])) ∧
        Version.isValid left = true := by
    rcases Number.eq_run [] number rfl leftNumeric (by decide) (by decide) with
      ⟨same, rfl, valid⟩
    exact ⟨same, symbol_append [] rfl (by decide), valid⟩
  cases braced with
  | exact number close | minimum number close | maximum number close =>
      exact absurd (close.inj (comma number).2.1).1 (by decide)
  | bounded opens closes' leftNumber separator rightNumber close below =>
      rcases comma leftNumber with ⟨rfl, known, leftValid⟩
      rcases separator.inj known with ⟨-, rfl⟩
      rcases Number.eq_run [' '] rightNumber rfl rightNumeric
        (isNumberCharacter_of_closes closes) (isIndentCharacter_of_closes closes) with
        ⟨rfl, rfl, rightValid⟩
      have finish : Symbol closing [closing] [] :=
        symbol_append [] rfl (isIndentCharacter_of_closes closes)
      rcases close.inj finish with ⟨rfl, rfl⟩
      exact ⟨rfl, leftValid, rightValid, below, rfl⟩

/-- What is read of such a text is the range with these bounds alone. -/
theorem ofText_eq_bounded {opening closing : Char} {left right : Text} {range : Range}
    (read : ofText (opening :: (left ++ ',' :: ' ' :: (right ++ [closing]))) = .ok range)
    (opens : opening = '(' ∨ opening = '[') (closes : closing = ')' ∨ closing = ']')
    (leftNumeric : ∀ character ∈ left, isNumberCharacter character = true)
    (rightNumeric : ∀ character ∈ right, isNumberCharacter character = true) :
    Version.isValid left = true ∧ Version.isValid right = true ∧
      Version.isBelow left right = true ∧
      range = bounded left right (opening = '[') (closing = ']') := by
  rcases ofText_eq_ok_iff.1 read with ⟨factors, rest, derivation, -, rfl⟩
  have start : Symbol opening (opening :: (left ++ ',' :: ' ' :: (right ++ [closing]))) _ :=
    symbol_append [] rfl (isIndentCharacter_of_opens opens)
  have whole {factor : Range} {mid : Text}
      (atom : Atom (opening :: (left ++ ',' :: ' ' :: (right ++ [closing]))) factor mid) :=
    ((leaves_readAtom_of_opens start opens).1 atom.leaves).eq_bounded closes leftNumeric
      rightNumeric
  cases derivation with
  | last atom _ =>
      rcases whole atom with ⟨-, leftValid, rightValid, below, rfl⟩
      exact ⟨leftValid, rightValid, below, intersectionOf_singleton rfl⟩
  | more atom ampersand _ =>
      rcases whole atom with ⟨rfl, -⟩
      exact absurd rfl ampersand.ne_nil

/-- The text of a bounded range is read if and only if its bounds are valid version numbers in
order, and then as that range. -/
theorem ofText_bounded_eq_ok_iff {left right : Text} (leftIncluded rightIncluded : Bool)
    (leftNumeric : ∀ character ∈ left, isNumberCharacter character = true)
    (rightNumeric : ∀ character ∈ right, isNumberCharacter character = true) {range : Range} :
    ofText (bounded left right leftIncluded rightIncluded).toText = .ok range ↔
      Version.isValid left = true ∧ Version.isValid right = true ∧
        Version.isBelow left right = true ∧
        range = bounded left right leftIncluded rightIncluded := by
  constructor
  · intro read
    cases leftIncluded <;> cases rightIncluded <;>
      simp only [toText_bounded, List.append_assoc] at read
    · exact ofText_eq_bounded read (Or.inl rfl) (Or.inl rfl) leftNumeric rightNumeric
    · exact ofText_eq_bounded read (Or.inl rfl) (Or.inr rfl) leftNumeric rightNumeric
    · exact ofText_eq_bounded read (Or.inr rfl) (Or.inl rfl) leftNumeric rightNumeric
    · exact ofText_eq_bounded read (Or.inr rfl) (Or.inr rfl) leftNumeric rightNumeric
  · rintro ⟨leftValid, rightValid, below, rfl⟩
    exact (Normal.bounded leftIncluded rightIncluded leftValid rightValid below).ofText_eq_ok

/-- A bounded range that is read includes some valid version, except exactly when it excludes both
bounds and the right one is the successor of the left one. Then it includes none. The text of a
bounded range is read as the range with the bounds and braces that are written. -/
theorem exists_includes_of_ofText_bounded :
    (∀ text left right leftIncluded rightIncluded,
      ofText text = .ok (bounded left right leftIncluded rightIncluded) →
        ((∃ version, Version.isValid version = true ∧
            includes version (bounded left right leftIncluded rightIncluded) = .ok true) ↔
          ¬(leftIncluded = false ∧ rightIncluded = false ∧ Version.next left = .ok right)) ∧
        (leftIncluded = false ∧ rightIncluded = false ∧ Version.next left = .ok right →
          ∀ version, Version.isValid version = true →
            includes version (bounded left right leftIncluded rightIncluded) = .ok false)) ∧
      ∀ left right : Text, (∀ character ∈ left, isNumberCharacter character = true) →
        (∀ character ∈ right, isNumberCharacter character = true) →
        ∀ leftIncluded rightIncluded range,
          ofText (bounded left right leftIncluded rightIncluded).toText = .ok range ↔
            Version.isValid left = true ∧ Version.isValid right = true ∧
              Version.isBelow left right = true ∧
              range = bounded left right leftIncluded rightIncluded := by
  refine ⟨?_, ?_⟩
  · intro text left right leftIncluded rightIncluded read
    have normal := (wellFormed_of_ofText read).normal
    cases normal with
    | bounded _ _ leftValid rightValid below =>
        have inhabited :=
          exists_includes_bounded_iff leftIncluded rightIncluded leftValid rightValid below
        refine ⟨inhabited, ?_⟩
        intro gap version valid
        rcases decides_bounded leftIncluded rightIncluded leftValid rightValid valid with
          ⟨included, answer, -⟩
        cases included with
        | false => exact answer
        | true => exact absurd gap (inhabited.1 ⟨version, valid, answer⟩)
  · intro left right leftNumeric rightNumeric leftIncluded rightIncluded range
    exact ofText_bounded_eq_ok_iff leftIncluded rightIncluded leftNumeric rightNumeric

theorem exists_includes_of_ofText_bounded_adjacent :
    ofText "(1.9, 1.9.0)".toList = .ok (bounded "1.9".toList "1.9.0".toList false false) ∧
      includes "1.9.0".toList (bounded "1.9".toList "1.9.0".toList false false) = .ok false ∧
      ∃ version, Version.isValid version = true ∧
        includes version (bounded "1.9".toList "1.9.0.0".toList false false) = .ok true := by
  have narrow : ofText "(1.9, 1.9.0)".toList =
      .ok (bounded "1.9".toList "1.9.0".toList false false) :=
    (exists_includes_of_ofText_bounded.2 "1.9".toList "1.9.0".toList (List.all_eq_true.1 rfl)
      (List.all_eq_true.1 rfl) false false _).2 ⟨rfl, rfl, by decide, rfl⟩
  have wide : ofText "(1.9, 1.9.0.0)".toList =
      .ok (bounded "1.9".toList "1.9.0.0".toList false false) :=
    (exists_includes_of_ofText_bounded.2 "1.9".toList "1.9.0.0".toList (List.all_eq_true.1 rfl)
      (List.all_eq_true.1 rfl) false false _).2 ⟨rfl, rfl, by decide, rfl⟩
  refine ⟨narrow, ?_, ?_⟩
  · exact (exists_includes_of_ofText_bounded.1 _ _ _ _ _ narrow).2 ⟨rfl, rfl, by decide⟩ _ rfl
  · exact (exists_includes_of_ofText_bounded.1 _ _ _ _ _ wide).1.2 (by decide)

end Range

end BundleDecl
