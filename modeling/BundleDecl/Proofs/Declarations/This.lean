import BundleDecl.Proofs.Declarations.Fault
import BundleDecl.Proofs.Declarations.RoundTrip
import BundleDecl.Proofs.Identifier.Parts
import BundleDecl.Proofs.Range.Abbreviation

/-!
# The word `this` in ranges

The range text of a kind line has every `this` in it replaced by the version before it is read. What
is read then are the texts in which a number is a run of digits, dots and such words. The word
stands for a whole version number in them if it never stands next to a digit, a dot or another such
word; otherwise the version becomes a part of a longer number, which is read as well.
-/

namespace BundleDecl

namespace Declarations

open Range (thisWord SpacedAs DerivesAs Stands Abbreviates Joins Glued Punctuated Ends)

/-! ## Replacing -/

theorem replaceThis_thisWord_append (version rest : Text) :
    replaceThis version (thisWord ++ rest) = version ++ replaceThis version rest :=
  rfl

theorem replaceThis_cons {version : Text} {character : Char} (other : character ≠ 't')
    (rest : Text) :
    replaceThis version (character :: rest) = character :: replaceThis version rest := by
  rw [replaceThis]
  rintro _ rfl -
  exact other rfl

theorem replaceThis_append {version word : Text} (absent : 't' ∉ word) (rest : Text) :
    replaceThis version (word ++ rest) = word ++ replaceThis version rest := by
  induction word with
  | nil => rfl
  | cons character word ih =>
      rw [List.mem_cons, not_or] at absent
      rw [List.cons_append, replaceThis_cons (Ne.symm absent.1), ih absent.2, List.cons_append]

theorem t_notMem_of_number {number : Text}
    (numeric : ∀ character ∈ number, Range.isNumberCharacter character = true) : 't' ∉ number := by
  intro member
  exact absurd (numeric 't' member) (by decide)

theorem t_notMem_of_clear {word : Text} (clear : ∀ character ∈ word, Range.Clear character) :
    't' ∉ word := by
  intro member
  exact (clear 't' member).2.2 rfl

/-- Replacing makes of a run the number that it abbreviates. -/
theorem replaceThis_abbreviates {version word number : Text}
    (abbreviates : Abbreviates version word number) (rest : Text) :
    replaceThis version (word ++ rest) = number ++ replaceThis version rest := by
  induction abbreviates with
  | nil => rfl
  | @character character word number digit _ ih =>
      have other : character ≠ 't' := by
        rintro rfl
        exact absurd digit (by decide)
      rw [List.cons_append, replaceThis_cons other, ih, List.cons_append]
  | @this word number _ ih =>
      rw [List.append_assoc, replaceThis_thisWord_append, ih, List.append_assoc]

section Cuts

variable {version : Text} (valid : Version.isValid version = true)

include valid

theorem replaceThis_eq_nil {text : Text} (replaced : replaceThis version text = []) :
    text = [] := by
  fun_cases replaceThis version text with
  | case1 => rfl
  | case2 rest =>
      rw [replaceThis, List.append_eq_nil_iff] at replaced
      exact absurd replaced.1 (Version.ne_nil_of_isValid valid)
  | case3 character rest other =>
      rw [replaceThis.eq_3 _ _ _ other] at replaced
      contradiction

/-- What belongs to no number was there before replacing. -/
theorem exists_of_replaceThis_eq_append {word text rest : Text}
    (clear : ∀ character ∈ word, Range.Clear character)
    (replaced : replaceThis version text = word ++ rest) :
    ∃ following, text = word ++ following ∧ replaceThis version following = rest := by
  induction word generalizing text with
  | nil => exact ⟨text, rfl, replaced⟩
  | cons character word ih =>
      rw [List.forall_mem_cons] at clear
      fun_cases replaceThis version text with
      | case1 => simp [replaceThis] at replaced
      | case2 others =>
          rcases Version.exists_digit_of_isValid valid with ⟨first, digits, rfl, digit⟩
          rw [replaceThis, List.cons_append, List.cons_append] at replaced
          rcases List.cons.inj replaced with ⟨rfl, -⟩
          have noNumber := clear.1.1
          simp [Range.isNumberCharacter, digit] at noNumber
      | case3 known others other =>
          rw [replaceThis.eq_3 _ _ _ other, List.cons_append] at replaced
          rcases List.cons.inj replaced with ⟨rfl, others⟩
          rcases ih clear.2 others with ⟨following, rfl, same⟩
          exact ⟨following, rfl, same⟩

/-- A number that ends where replacing was done was a run that abbreviates it. -/
theorem exists_of_replaceThis_eq_number {number text rest : Text}
    (numeric : ∀ character ∈ number, Range.isNumberCharacter character = true) (ends : Ends rest)
    (replaced : replaceThis version text = number ++ rest) :
    ∃ word following, text = word ++ following ∧ Abbreviates version word number ∧
      replaceThis version following = rest := by
  fun_induction replaceThis version text generalizing number with
  | case1 =>
      rcases List.append_eq_nil_iff.1 replaced.symm with ⟨rfl, rfl⟩
      exact ⟨[], [], rfl, .nil, rfl⟩
  | case2 others ih =>
      -- The number cannot end within the version, whose characters would continue it.
      have longer : ∃ left, number = version ++ left ∧
          replaceThis version others = left ++ rest := by
        rcases List.append_eq_append_iff.1 replaced with
          ⟨left, same, after⟩ | ⟨left, same, rfl⟩
        · exact ⟨left, same, after⟩
        · rcases left with _ | ⟨first, left⟩
          · exact ⟨[], by simpa using same.symm, rfl⟩
          · have member : first ∈ version := by simp [same]
            have number := Range.isNumberCharacter_of_isValid valid member
            rw [ends first _ rfl] at number
            contradiction
      rcases longer with ⟨left, rfl, after⟩
      rw [List.forall_mem_append] at numeric
      rcases ih numeric.2 after with ⟨word, following, rfl, abbreviates, same⟩
      exact ⟨thisWord ++ word, following, rfl, .this abbreviates, same⟩
  | case3 character others other ih =>
      rcases number with _ | ⟨first, number⟩
      · refine ⟨[], character :: others, rfl, .nil, ?_⟩
        rw [replaceThis.eq_3 _ _ _ other]
        exact replaced
      · rcases List.cons.inj replaced with ⟨rfl, after⟩
        rw [List.forall_mem_cons] at numeric
        rcases ih numeric.2 after with ⟨word, following, rfl, abbreviates, same⟩
        exact ⟨character :: word, following, rfl, .character numeric.1 abbreviates, same⟩

end Cuts

/-! ## Reading what was replaced -/

theorem replaceThis_joins {version word symbol : Text} (joins : Joins version word symbol)
    (absent : 't' ∉ symbol) (rest : Text) :
    replaceThis version (word ++ rest) = symbol ++ replaceThis version rest := by
  rcases joins with rfl | abbreviates
  · exact replaceThis_append absent rest
  · exact replaceThis_abbreviates abbreviates rest

theorem t_notMem_of_punctuated {symbols : List Text} (punctuated : Punctuated symbols) :
    ∀ symbol ∈ symbols, 't' ∉ symbol := by
  induction punctuated with
  | nil => exact List.forall_mem_nil _
  | mark mark _ ih =>
      refine List.forall_mem_cons.2 ⟨t_notMem_of_clear ?_, ih⟩
      exact List.forall_mem_singleton.2 (Range.clear_of_isMark mark)
  | number numeric _ _ ih => exact List.forall_mem_cons.2 ⟨t_notMem_of_number numeric, ih⟩

theorem spaced_replaceThis {version : Text} {symbols : List Text} {text rest : Text}
    (absent : ∀ symbol ∈ symbols, 't' ∉ symbol)
    (spaced : SpacedAs (Joins version) symbols text rest) :
    Range.Spaced symbols (replaceThis version text) (replaceThis version rest) := by
  induction symbols generalizing text with
  | nil =>
      rcases spaced with rfl
      exact rfl
  | cons symbol symbols ih =>
      rw [List.forall_mem_cons] at absent
      rcases spaced with ⟨blanks, word, following, blank, joins, rfl, spaced⟩
      refine ⟨blanks, replaceThis version following, blank, ?_, ih absent.2 spaced⟩
      rw [replaceThis_append (t_notMem_of_clear (Range.clear_of_isBlank blank)),
        replaceThis_joins joins absent.1]

/-- A number ends where symbols follow that start with a mark. -/
theorem ends_of_marked {symbols : List Text} {text rest : Text} (marked : Range.Marked symbols)
    (spaced : Range.Spaced symbols text rest) (ends : Ends rest) : Ends text := by
  rcases symbols with _ | ⟨symbol, symbols⟩
  · rcases spaced with rfl
    exact ends
  · rcases marked symbol rfl with ⟨character, mark, rfl⟩
    exact Range.ends_of_spaced spaced (Range.clear_of_isMark mark).1

section

variable {version : Text} (valid : Version.isValid version = true)

include valid

/-- The symbols that are found after replacing were written as runs before. -/
theorem exists_of_spaced_replaceThis {symbols : List Text} {text rest : Text}
    (punctuated : Punctuated symbols) (ends : Ends rest)
    (spaced : Range.Spaced symbols (replaceThis version text) rest) :
    ∃ following, replaceThis version following = rest ∧
      SpacedAs (Joins version) symbols text following := by
  induction punctuated generalizing text with
  | nil => exact ⟨text, spaced, rfl⟩
  | @mark character symbols mark _ ih =>
      rcases spaced with ⟨blanks, following, blank, replaced, spaced⟩
      have clear : ∀ other ∈ blanks ++ [character], Range.Clear other := by
        rw [List.forall_mem_append, List.forall_mem_singleton]
        exact ⟨Range.clear_of_isBlank blank, Range.clear_of_isMark mark⟩
      rw [← List.append_assoc] at replaced
      rcases exists_of_replaceThis_eq_append valid clear replaced with ⟨tail, rfl, rfl⟩
      rcases ih spaced with ⟨left, same, spaced⟩
      exact ⟨left, same, blanks, [character], tail, blank, .inl rfl, List.append_assoc _ _ _,
        spaced⟩
  | @number number symbols numeric marked _ ih =>
      rcases spaced with ⟨blanks, following, blank, replaced, spaced⟩
      rcases exists_of_replaceThis_eq_append valid (Range.clear_of_isBlank blank) replaced with
        ⟨start, rfl, replacedStart⟩
      rcases exists_of_replaceThis_eq_number valid numeric (ends_of_marked marked spaced ends)
        replacedStart with ⟨word, tail, rfl, abbreviates, rfl⟩
      rcases ih spaced with ⟨left, same, spaced⟩
      exact ⟨left, same, blanks, word, tail, blank, .inr abbreviates, rfl, spaced⟩

/-- A text is read as a range after replacing if and only if its numbers are written as runs. -/
theorem derives_replaceThis_iff {text : Text} {tree : Range.RangeTree} :
    Range.Derives (replaceThis version text) tree ↔ DerivesAs (Joins version) text tree := by
  constructor
  · rintro ⟨blanks, blank, spaced⟩
    have ends := Range.ends_of_isBlank blank
    rcases exists_of_spaced_replaceThis valid tree.punctuated_symbols ends spaced with
      ⟨following, replaced, spaced⟩
    rw [← List.append_nil blanks] at replaced
    rcases exists_of_replaceThis_eq_append valid (Range.clear_of_isBlank blank) replaced with
      ⟨tail, rfl, nothing⟩
    rw [replaceThis_eq_nil valid nothing, List.append_nil] at spaced
    exact ⟨blanks, blank, spaced⟩
  · rintro ⟨blanks, blank, spaced⟩
    have replaced := spaced_replaceThis (t_notMem_of_punctuated tree.punctuated_symbols) spaced
    rw [replaceThis_eq_self (t_notMem_of_clear (Range.clear_of_isBlank blank))] at replaced
    exact ⟨blanks, blank, replaced⟩

end

/-! ## Kind lines -/

/-- A kind line of a target with the name of the declaring bundle is accepted exactly if its kinds
are and if the numbers of its range are written as runs of digits, dots and the word `this`; its
range is that of the numbers that the runs make. The word stands for whole numbers only exactly if
it stands next to no digit, no dot and no other such word. -/
theorem readKindLine_this {declaring target : Identifier} {version : Text}
    (made : declaring.Made) (versioned : declaring.version = some version)
    (named : declaring.name = target.name) {before : Text} (whole : ':' ∉ before)
    (text : Text) (number : Nat) :
    (∀ dependency,
      readKindLine (thisVersion (some declaring) target) number (before ++ ':' :: text) =
          .ok dependency ↔
        kindsOf before ≠ [] ∧ (∀ kind ∈ kindsOf before, Dependency.checkKind kind = .ok ()) ∧
          ∃ tree, DerivesAs (Joins version) text tree ∧ dependency =
            ⟨SortedSet.ofList (kindsOf before), Range.intersectionOf tree.ranges, []⟩) ∧
    ((¬∃ tree, DerivesAs (Joins version) text tree) →
      readKindLine (thisVersion (some declaring) target) number (before ++ ':' :: text) =
        failAt number (.malformedKindRange (Text.strip (replaceThis version text))
          (replaceThis version text))) ∧
    ∀ tree, DerivesAs (Stands version) text tree ↔
      DerivesAs (Joins version) text tree ∧ ¬Glued text := by
  have valid : Version.isValid version = true := made.canonical.isValid version versioned
  have this : thisVersion (some declaring) target = some version := by
    rw [thisVersion, if_pos named, versioned]
  rw [this]
  refine ⟨?_, ?_, ?_⟩
  · intro dependency
    rw [readKindLine_append_eq_ok_iff whole]
    simp only [rangeText, Range.ofText_eq_ok_iff_derives, derives_replaceThis_iff valid]
    apply and_congr_right'
    apply and_congr_right'
    constructor
    · rintro ⟨_, ⟨tree, derives, rfl⟩, rfl⟩
      exact ⟨tree, derives, rfl⟩
    · rintro ⟨tree, derives, rfl⟩
      exact ⟨_, ⟨tree, derives, rfl⟩, rfl⟩
  · intro noTree
    rcases outcome : Range.ofText (replaceThis version text) with failure | range
    · rw [readKindLine, Text.splitFirst?_eq_some_iff.2 ⟨rfl, whole⟩]
      simp only [rangeText, outcome]
    · rcases Range.ofText_eq_ok_iff_derives.1 outcome with ⟨tree, derives, -⟩
      exact absurd ⟨tree, (derives_replaceThis_iff valid).1 derives⟩ noTree
  · intro tree
    exact Range.derivesAs_stands_iff (fun _ => Range.isNumberCharacter_of_isValid valid)

theorem readKindLine_this_bound :
    let declaring : Identifier := ⟨"lib".toList, [], some "2.0".toList⟩
    let target : Identifier := ⟨"lib".toList, ["all".toList], none⟩
    let range : Range := .bounded ['1'] "2.0".toList true false
    declaring.Made ∧ ¬Glued " [1,this)".toList ∧
      readKindLine (thisVersion (some declaring) target) 2 "main: [1,this)".toList =
        .ok ⟨["main".toList], range, []⟩ := by
  intro declaring target range
  have made : declaring.Made := ⟨"lib".toList, ["v2.0".toList], [], rfl⟩
  have below : Version.numbers ['1'] < Version.numbers "2.0".toList := by decide
  let tree : Range.RangeTree :=
    .last (.bounded ⟨['1'], rfl⟩ ⟨"2.0".toList, rfl⟩ true false below)
  have stands : DerivesAs (Stands "2.0".toList) " [1,this)".toList tree :=
    ⟨[], rfl, [' '], ['['], _, rfl, .inl rfl, rfl, [], ['1'], _, rfl, .inl rfl, rfl,
      [], [','], _, rfl, .inl rfl, rfl, [], thisWord, _, rfl, .inr ⟨rfl, rfl⟩, rfl,
      [], [')'], _, rfl, .inl rfl, rfl, rfl⟩
  have whole : ':' ∉ "main".toList := by decide
  have named : declaring.name = target.name := rfl
  rcases readKindLine_this made rfl named whole " [1,this)".toList 2 with
    ⟨accepted, -, exact⟩
  rcases (exact tree).1 stands with ⟨joins, apart⟩
  exact ⟨made, apart, (accepted _).2 ⟨by decide, by decide, tree, joins, rfl⟩⟩

/-- With the version `0`, a `2` before the word makes `20`. -/
theorem readKindLine_glued :
    let declaring : Identifier := ⟨"lib".toList, [], some ['0']⟩
    let target : Identifier := ⟨"lib".toList, [], none⟩
    declaring.Made ∧
      readKindLine (thisVersion (some declaring) target) 2 "runtime: 2this".toList =
        .ok ⟨["runtime".toList], .base "20".toList, []⟩ ∧
      ¬∃ tree, DerivesAs (Stands ['0']) " 2this".toList tree := by
  intro declaring target
  have made : declaring.Made := ⟨"lib".toList, ["v0".toList], [], rfl⟩
  have whole : ':' ∉ "runtime".toList := by decide
  have derives : Range.Derives " 20".toList (.last (.base ⟨"20".toList, rfl⟩)) :=
    ⟨[], rfl, [' '], _, rfl, rfl, rfl⟩
  have ranged : Range.ofText " 20".toList = .ok (.base "20".toList) :=
    Range.ofText_eq_ok_iff_derives.2 ⟨_, derives, rfl⟩
  refine ⟨made, ?_, ?_⟩
  · have line : "runtime: 2this".toList = "runtime".toList ++ ':' :: " 2this".toList := rfl
    rw [line, readKindLine_append_eq_ok_iff whole]
    exact ⟨by decide, by decide, _, ranged, rfl⟩
  · rintro ⟨tree, stands⟩
    have numeric : ∀ character ∈ ['0'], Range.isNumberCharacter character = true :=
      List.forall_mem_singleton.2 rfl
    apply ((Range.derivesAs_stands_iff numeric).1 stands).2
    exact ⟨['2'], .inr ⟨'2', rfl, rfl⟩, .inr ⟨[' '], [], rfl⟩⟩

end Declarations

end BundleDecl
