import BundleDecl.Proofs.Range.Normal

/-!
# The text of a range denotes it

The text of a range in normal form, with anything behind it that does not continue it, is derived as
that range. The induction follows the normal form; what it says of the members of a union or an
intersection carries over to their texts between separators.
-/

namespace BundleDecl

namespace Range

/-- What may follow a version number without continuing it. -/
def Ends (rest : Text) : Prop :=
  ∀ character after, rest = character :: after → isNumberCharacter character = false

theorem ends_nil : Ends [] := by
  intro character after impossible
  simp at impossible

theorem ends_cons {character : Char} {after : Text}
    (other : isNumberCharacter character = false) : Ends (character :: after) := by
  intro first rest same
  rcases List.cons.inj same with ⟨rfl, -⟩
  exact other

theorem skipBlanks_append {blanks text : Text} (blank : Text.isBlank blanks = true) :
    skipBlanks (blanks ++ text) = skipBlanks text := by
  simp only [Text.isBlank, List.all_eq_true] at blank
  rw [skipBlanks, List.dropWhile_append_of_pos blank, skipBlanks]

theorem symbol_append {character : Char} (blanks : Text) {rest : Text}
    (blank : Text.isBlank blanks = true)
    (visible : Text.isIndentCharacter character = false) :
    Symbol character (blanks ++ character :: rest) rest := by
  rw [Symbol, skipBlanks_append blank, skipBlanks, List.dropWhile_cons_of_neg (by simp [visible])]

theorem isNumberCharacter_of_isValid {version : Text} (valid : Version.isValid version = true)
    {character : Char} (member : character ∈ version) : isNumberCharacter character = true := by
  rcases Version.isDigit_or_eq_dot_of_isValid valid member with digit | rfl
  · simp [isNumberCharacter, digit]
  · decide

theorem isIndentCharacter_of_isDigit {character : Char} (digit : character.isDigit = true) :
    Text.isIndentCharacter character = false := by
  rw [Text.isIndentCharacter, Bool.or_eq_false_iff]
  constructor
  · apply decide_eq_false
    rintro rfl
    exact absurd digit (by decide)
  · apply decide_eq_false
    rintro rfl
    exact absurd digit (by decide)

/-- A run of digits and dots is read up to its end. -/
theorem readNumber_append {blanks run rest : Text} (blank : Text.isBlank blanks = true)
    (start : skipBlanks (run ++ rest) = run ++ rest)
    (numeric : ∀ character ∈ run, isNumberCharacter character = true) (ends : Ends rest) :
    readNumber (blanks ++ (run ++ rest)) = (run, rest) := by
  have stops : rest.takeWhile isNumberCharacter = [] ∧
      rest.dropWhile isNumberCharacter = rest := by
    rcases rest with _ | ⟨first, others⟩
    · exact ⟨rfl, rfl⟩
    · have other := ends first others rfl
      exact ⟨List.takeWhile_cons_of_neg (by simp [other]),
        List.dropWhile_cons_of_neg (by simp [other])⟩
  rw [readNumber, skipBlanks_append blank, start]
  simp only [List.takeWhile_append_of_pos numeric, List.dropWhile_append_of_pos numeric,
    stops.1, stops.2, List.append_nil]

/-- A valid version number is read up to its end. -/
theorem number_append (blanks : Text) {version rest : Text} (blank : Text.isBlank blanks = true)
    (valid : Version.isValid version = true) (ends : Ends rest) :
    Number (blanks ++ (version ++ rest)) version rest := by
  have start : skipBlanks (version ++ rest) = version ++ rest := by
    rcases Version.exists_digit_of_isValid valid with ⟨first, others, rfl, digit⟩
    rw [skipBlanks, List.cons_append,
      List.dropWhile_cons_of_neg (by simp [isIndentCharacter_of_isDigit digit])]
  have numeric : ∀ character ∈ version, isNumberCharacter character = true := by
    intro character member
    exact isNumberCharacter_of_isValid valid member
  exact ⟨readNumber_append blank start numeric ends, valid⟩

theorem memberTexts_eq_map (members : List Range) : memberTexts members = members.map toText := by
  induction members with
  | nil => rfl
  | cons member members ih => exact congrArg (member.toText :: ·) ih

theorem toText_bounded (left right : Text) (leftIncluded rightIncluded : Bool) :
    (bounded left right leftIncluded rightIncluded).toText =
      (if leftIncluded then "[" else "(") ++ left ++ ", " ++ right ++
        (if rightIncluded then "]" else ")") := rfl

theorem toText_union (members : List Range) :
    (union members).toText = '\x7b' :: (Text.joinWith " | " (members.map toText) ++ ['\x7d']) := by
  rw [← memberTexts_eq_map]
  rfl

theorem toText_intersection (members : List Range) :
    (intersection members).toText = Text.joinWith " & " (members.map toText) := by
  rw [← memberTexts_eq_map]
  rfl

/-- The text of a range derives it as an atom, whatever follows that does not continue it. -/
def DerivesAtom (range : Range) : Prop :=
  ∀ blanks rest, Text.isBlank blanks = true → Ends rest →
    Atom (blanks ++ (range.toText ++ rest)) range rest

/-- The text of a range derives factors of which it is the intersection. -/
def DerivesFactors (range : Range) : Prop :=
  ∀ blanks rest, Text.isBlank blanks = true → Ends rest → (∀ after, ¬Symbol '&' rest after) →
    ∃ factors, Factors (blanks ++ (range.toText ++ rest)) factors rest ∧
      intersectionOf factors = range

theorem DerivesAtom.derivesFactors {range : Range} (derives : range.DerivesAtom)
    (flat : intersectionMembers range = [range]) : range.DerivesFactors := by
  intro blanks rest blank ends noAmpersand
  exact ⟨[range], .last (derives blanks rest blank ends) noAmpersand,
    intersectionOf_singleton flat⟩

theorem derivesAtom_base {version : Text} (valid : Version.isValid version = true) :
    (base version).DerivesAtom := by
  intro blanks rest blank ends
  exact .base (number_append blanks blank valid ends)

theorem isIndentCharacter_of_opens {opening : Char} (opens : opening = '(' ∨ opening = '[') :
    Text.isIndentCharacter opening = false := by
  rcases opens with rfl | rfl <;> decide

theorem isIndentCharacter_of_closes {closing : Char} (closes : closing = ')' ∨ closing = ']') :
    Text.isIndentCharacter closing = false := by
  rcases closes with rfl | rfl <;> decide

theorem isNumberCharacter_of_closes {closing : Char} (closes : closing = ')' ∨ closing = ']') :
    isNumberCharacter closing = false := by
  rcases closes with rfl | rfl <;> decide

/-- A range is derived from a single bound between the braces that make it. -/
theorem derivesAtom_of_single {opening closing : Char} {range : Range} {version : Text}
    (opens : opening = '(' ∨ opening = '[') (closes : closing = ')' ∨ closing = ']')
    (written : range.toText = opening :: (version ++ [closing]))
    (valid : Version.isValid version = true)
    (braced : ∀ {text mid rest : Text}, Number text version mid → Symbol closing mid rest →
      Braced opening text range rest) : range.DerivesAtom := by
  intro blanks rest blank ends
  rw [written, List.cons_append, List.append_assoc]
  exact .braced (symbol_append blanks blank (isIndentCharacter_of_opens opens))
    (braced (number_append [] rfl valid (ends_cons (isNumberCharacter_of_closes closes)))
      (symbol_append [] rfl (isIndentCharacter_of_closes closes)))

theorem derivesAtom_exact {version : Text} (valid : Version.isValid version = true) :
    (exact version).DerivesAtom :=
  derivesAtom_of_single (Or.inr rfl) (Or.inr rfl) rfl valid .exact

theorem derivesAtom_minimum {version : Text} (valid : Version.isValid version = true) :
    (minimum version).DerivesAtom :=
  derivesAtom_of_single (Or.inr rfl) (Or.inl rfl) rfl valid .minimum

theorem derivesAtom_maximum {version : Text} (valid : Version.isValid version = true) :
    (maximum version).DerivesAtom :=
  derivesAtom_of_single (Or.inl rfl) (Or.inr rfl) rfl valid .maximum

/-- The derivation of a bounded range with given braces around it. -/
theorem atom_bounded (opening closing : Char) {blanks left right rest : Text}
    (opens : opening = '(' ∨ opening = '[') (closes : closing = ')' ∨ closing = ']')
    (blank : Text.isBlank blanks = true) (leftValid : Version.isValid left = true)
    (rightValid : Version.isValid right = true) (below : Version.isBelow left right = true) :
    Atom (blanks ++ opening :: (left ++ ',' :: ' ' :: (right ++ closing :: rest)))
      (bounded left right (opening = '[') (closing = ']')) rest :=
  .braced (symbol_append blanks blank (isIndentCharacter_of_opens opens))
    (.bounded opens closes
      (number_append [] rfl leftValid (ends_cons (by decide)))
      (symbol_append [] rfl (by decide))
      (number_append [' '] rfl rightValid (ends_cons (isNumberCharacter_of_closes closes)))
      (symbol_append [] rfl (isIndentCharacter_of_closes closes)) below)

theorem derivesAtom_bounded {left right : Text} (leftIncluded rightIncluded : Bool)
    (leftValid : Version.isValid left = true) (rightValid : Version.isValid right = true)
    (below : Version.isBelow left right = true) :
    (bounded left right leftIncluded rightIncluded).DerivesAtom := by
  intro blanks rest blank ends
  cases leftIncluded <;> cases rightIncluded <;> simp only [toText_bounded, List.append_assoc]
  · exact atom_bounded '(' ')' (Or.inl rfl) (Or.inl rfl) blank
      leftValid rightValid below
  · exact atom_bounded '(' ']' (Or.inl rfl) (Or.inr rfl) blank
      leftValid rightValid below
  · exact atom_bounded '[' ')' (Or.inr rfl) (Or.inl rfl) blank
      leftValid rightValid below
  · exact atom_bounded '[' ']' (Or.inr rfl) (Or.inr rfl) blank
      leftValid rightValid below

theorem derivesAtom_unsatisfiable : unsatisfiable.DerivesAtom := by
  intro blanks rest blank ends
  exact .unsatisfiable (symbol_append blanks blank (by decide))
    (symbol_append [] rfl (by decide))

/-- The texts of the members with bars between them derive the members up to a closing brace. -/
theorem alternatives_append {members : List Range} (nonempty : members ≠ [])
    (derives : ∀ member ∈ members, member.DerivesFactors) (blanks rest : Text)
    (blank : Text.isBlank blanks = true) :
    Alternatives (blanks ++ (Text.joinWith " | " (members.map toText) ++ '\x7d' :: rest))
      members rest := by
  induction members generalizing blanks with
  | nil => contradiction
  | cons member members ih =>
      have derivesMember := derives member List.mem_cons_self
      rcases members with _ | ⟨next, others⟩
      · rcases derivesMember blanks ('\x7d' :: rest) blank (ends_cons (by decide))
          (by simp [Symbol, skipBlanks, Text.isIndentCharacter]) with ⟨factors, first, rfl⟩
        exact .last first (symbol_append [] rfl (by decide))
      · have following := ih (List.cons_ne_nil _ _)
          (fun other otherMem => derives other (List.mem_cons_of_mem _ otherMem)) [' '] rfl
        rcases derivesMember blanks (' ' :: '|' ::
            ([' '] ++ (Text.joinWith " | " ((next :: others).map toText) ++ '\x7d' :: rest)))
          blank (ends_cons (by decide)) (by simp [Symbol, skipBlanks, Text.isIndentCharacter])
          with ⟨factors, first, rfl⟩
        simp only [List.map_cons, Text.joinWith, List.append_assoc] at first following ⊢
        exact .more first (symbol_append [' '] rfl (by decide)) following

/-- The texts of the members with ampersands between them derive the members. -/
theorem factors_append {members : List Range} (nonempty : members ≠ [])
    (derives : ∀ member ∈ members, member.DerivesAtom) (blanks rest : Text)
    (blank : Text.isBlank blanks = true) (ends : Ends rest)
    (noAmpersand : ∀ after, ¬Symbol '&' rest after) :
    Factors (blanks ++ (Text.joinWith " & " (members.map toText) ++ rest)) members rest := by
  induction members generalizing blanks with
  | nil => contradiction
  | cons member members ih =>
      have derivesMember := derives member List.mem_cons_self
      rcases members with _ | ⟨next, others⟩
      · exact .last (derivesMember blanks rest blank ends) noAmpersand
      · have following := ih (List.cons_ne_nil _ _)
          (fun other otherMem => derives other (List.mem_cons_of_mem _ otherMem)) [' '] rfl
        have first := derivesMember blanks
          (' ' :: '&' :: ([' '] ++ (Text.joinWith " & " ((next :: others).map toText) ++ rest)))
          blank (ends_cons (by decide))
        simp only [List.map_cons, Text.joinWith, List.append_assoc] at first following ⊢
        exact .more first (symbol_append [' '] rfl (by decide)) following

theorem derivesAtom_union {members : List Range} (several : 2 ≤ members.length)
    (sorted : members.Pairwise (· < ·))
    (flat : ∀ member ∈ members, unionMembers member = [member])
    (derives : ∀ member ∈ members, member.DerivesFactors) : (union members).DerivesAtom := by
  intro blanks rest blank ends
  have nonempty := Combination.ne_nil_of_two_le several
  have alternatives := alternatives_append nonempty derives [] rest rfl
  have made : unionOf members = union members :=
    Combination.unions.combine_eq_make several sorted flat
  rw [toText_union, List.cons_append, List.append_assoc, ← made]
  exact .union (symbol_append blanks blank (by decide)) alternatives

theorem derivesFactors_intersection {members : List Range} (several : 2 ≤ members.length)
    (sorted : members.Pairwise (· < ·))
    (flat : ∀ member ∈ members, intersectionMembers member = [member])
    (derives : ∀ member ∈ members, member.DerivesAtom) :
    (intersection members).DerivesFactors := by
  intro blanks rest blank ends noAmpersand
  refine ⟨members, ?_, Combination.intersections.combine_eq_make several sorted flat⟩
  have nonempty := Combination.ne_nil_of_two_le several
  rw [toText_intersection]
  exact factors_append nonempty derives blanks rest blank ends noAmpersand

/-- A range in normal form is derived from its text. -/
theorem Normal.derives {range : Range} (normal : range.Normal) :
    (intersectionMembers range = [range] → range.DerivesAtom) ∧ range.DerivesFactors := by
  induction normal with
  | base valid =>
      have atom := derivesAtom_base valid
      exact ⟨fun _ => atom, atom.derivesFactors rfl⟩
  | exact valid =>
      have atom := derivesAtom_exact valid
      exact ⟨fun _ => atom, atom.derivesFactors rfl⟩
  | minimum valid =>
      have atom := derivesAtom_minimum valid
      exact ⟨fun _ => atom, atom.derivesFactors rfl⟩
  | maximum valid =>
      have atom := derivesAtom_maximum valid
      exact ⟨fun _ => atom, atom.derivesFactors rfl⟩
  | bounded leftIncluded rightIncluded leftValid rightValid below =>
      have atom := derivesAtom_bounded leftIncluded rightIncluded leftValid rightValid below
      exact ⟨fun _ => atom, atom.derivesFactors rfl⟩
  | unsatisfiable =>
      exact ⟨fun _ => derivesAtom_unsatisfiable, derivesAtom_unsatisfiable.derivesFactors rfl⟩
  | @union members several sorted flat _ ih =>
      have atom := derivesAtom_union several sorted flat
        fun member contained => (ih member contained).2
      exact ⟨fun _ => atom, atom.derivesFactors rfl⟩
  | @intersection members several sorted flat _ ih =>
      refine ⟨fun alone => absurd alone (intersectionMembers_ne_singleton members), ?_⟩
      apply derivesFactors_intersection several sorted flat
      intro member contained
      exact (ih member contained).1 (flat member contained)

/-- The text of a range in normal form denotes that range, also with blanks before it. -/
theorem Normal.ofText_append {range : Range} (normal : range.Normal) {blanks : Text}
    (blank : Text.isBlank blanks = true) : ofText (blanks ++ range.toText) = .ok range := by
  rcases normal.derives.2 blanks [] blank ends_nil (by simp [Symbol, skipBlanks]) with
    ⟨factors, derivation, same⟩
  rw [List.append_nil] at derivation
  exact ofText_eq_ok_iff.2 ⟨factors, [], derivation, rfl, same.symm⟩

theorem Normal.ofText_eq_ok {range : Range} (normal : range.Normal) :
    ofText range.toText = .ok range := by
  have read : ofText ([] ++ range.toText) = .ok range := normal.ofText_append rfl
  exact read

theorem Normal.toText_ne_nil {range : Range} (normal : range.Normal) : range.toText ≠ [] := by
  intro empty
  have read := normal.ofText_eq_ok
  rw [empty] at read
  rcases ofText_eq_ok_iff.1 read with ⟨factors, rest, derivation, -, -⟩
  rcases derivation.exists_first with ⟨first, tail, start, -⟩
  contradiction

/-- The characters that the text of a range may hold. -/
def isTextCharacter (character : Char) : Bool :=
  isNumberCharacter character ||
    [' ', ',', '[', ']', '(', ')', '\x7b', '\x7d', '|', '&'].contains character

theorem isTextCharacter_of_isValid {version : Text} (valid : Version.isValid version = true)
    {character : Char} (member : character ∈ version) : isTextCharacter character = true := by
  simp [isTextCharacter, isNumberCharacter_of_isValid valid member]

theorem isTextCharacter_of_joinWith {separator : Text} {members : List Range}
    (separates : separator.all isTextCharacter = true)
    (texts : ∀ member ∈ members, ∀ character ∈ member.toText,
      isTextCharacter character = true)
    {character : Char} (contained : character ∈ Text.joinWith separator (members.map toText)) :
    isTextCharacter character = true := by
  rcases Text.mem_joinWith contained with inSeparator | ⟨piece, pieceMem, inPiece⟩
  · exact List.all_eq_true.1 separates character inSeparator
  · rcases List.mem_map.1 pieceMem with ⟨member, memberMem, rfl⟩
    exact texts member memberMem character inPiece

theorem isTextCharacter_of_single {opening closing : Char} {version : Text}
    (opens : isTextCharacter opening = true) (closes : isTextCharacter closing = true)
    (valid : Version.isValid version = true) {character : Char}
    (member : character ∈ opening :: (version ++ [closing])) :
    isTextCharacter character = true := by
  rw [List.mem_cons, List.mem_append, List.mem_singleton] at member
  rcases member with rfl | inVersion | rfl
  · exact opens
  · exact isTextCharacter_of_isValid valid inVersion
  · exact closes

theorem isTextCharacter_of_bounded {left right : Text} {leftIncluded rightIncluded : Bool}
    (leftValid : Version.isValid left = true) (rightValid : Version.isValid right = true)
    {character : Char}
    (member : character ∈ (bounded left right leftIncluded rightIncluded).toText) :
    isTextCharacter character = true := by
  simp only [toText_bounded, List.mem_append] at member
  rcases member with (((member | member) | member) | member) | member
  · cases leftIncluded <;> exact List.all_eq_true.1 (by decide) character member
  · exact isTextCharacter_of_isValid leftValid member
  · exact List.all_eq_true.1 (by decide) character member
  · exact isTextCharacter_of_isValid rightValid member
  · cases rightIncluded <;> exact List.all_eq_true.1 (by decide) character member

/-- The text of a range in normal form holds digits, dots, blanks, braces and separators only. -/
theorem Normal.isTextCharacter_of_mem {range : Range} (normal : range.Normal) :
    ∀ character ∈ range.toText, isTextCharacter character = true := by
  induction normal with
  | base valid => exact fun character member => isTextCharacter_of_isValid valid member
  | exact valid | minimum valid | maximum valid =>
      intro character member
      exact isTextCharacter_of_single (by decide) (by decide) valid member
  | bounded leftIncluded rightIncluded leftValid rightValid below =>
      intro character member
      exact isTextCharacter_of_bounded leftValid rightValid member
  | unsatisfiable =>
      intro character member
      exact List.all_eq_true.1 (by decide) character member
  | union _ _ _ _ ih =>
      intro character member
      rw [toText_union, List.mem_cons, List.mem_append, List.mem_singleton] at member
      rcases member with rfl | inMembers | rfl
      · decide
      · exact isTextCharacter_of_joinWith (by decide) ih inMembers
      · decide
  | intersection _ _ _ _ ih =>
      intro character member
      rw [toText_intersection] at member
      exact isTextCharacter_of_joinWith (by decide) ih member

/-- Well-formed ranges are equal if and only if their texts are. -/
theorem WellFormed.eq_iff_toText_eq {left right : Range} (leftFormed : left.WellFormed)
    (rightFormed : right.WellFormed) : left = right ↔ left.toText = right.toText := by
  constructor
  · rintro rfl
    rfl
  · intro same
    have read : ofText left.toText = .ok right := by
      rw [same]
      exact rightFormed.normal.ofText_eq_ok
    exact Except.ok.inj (leftFormed.normal.ofText_eq_ok.symm.trans read)

/-- The text of a well-formed range is its canonical form. It is read as that range, no other
well-formed range has the same text, and every text that is read becomes canonical at once. -/
theorem ofText_toText_of_wellFormed :
    (∀ range : Range, range.WellFormed → ofText range.toText = .ok range) ∧
      (∀ left right : Range, left.WellFormed → right.WellFormed →
        (left = right ↔ left.toText = right.toText)) ∧
      ∀ text range, ofText text = .ok range →
        range.WellFormed ∧ ofText range.toText = .ok range := by
  refine ⟨?_, ?_, ?_⟩
  · intro range wellFormed
    exact wellFormed.normal.ofText_eq_ok
  · intro left right leftFormed rightFormed
    exact leftFormed.eq_iff_toText_eq rightFormed
  · intro text range read
    have wellFormed := wellFormed_of_ofText read
    exact ⟨wellFormed, wellFormed.normal.ofText_eq_ok⟩

theorem ofText_toText_of_wellFormed_nested :
    let union := unionOf [unionOf [minimum ['1'], exact "0.10".toList], unsatisfiable]
    let range := intersectionOf [union, maximum ['3'], union]
    range.toText = "(3] & \x7b[0.10] | [1) | \x7b\x7d\x7d".toList ∧
      ofText range.toText = .ok range := by
  intro union range
  have simple : (unionOf [minimum ['1'], exact "0.10".toList]).WellFormed := by
    apply WellFormed.unionOf
    simpa using ⟨.minimum rfl, .exact rfl⟩
  have unionFormed : union.WellFormed := by
    apply WellFormed.unionOf
    simpa using ⟨simple, .unsatisfiable⟩
  have wellFormed : range.WellFormed := by
    apply WellFormed.intersectionOf
    simpa using ⟨unionFormed, .maximum rfl, unionFormed⟩
  exact ⟨by decide, ofText_toText_of_wellFormed.1 range wellFormed⟩

end Range

end BundleDecl
