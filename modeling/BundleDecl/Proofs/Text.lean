import BundleDecl.Text
import Mathlib.Data.List.DropRight

/-!
# Laws of texts

Trimming, splitting and joining are the list operations of the same meaning, so that their laws can
be used. Before them stands the lexicographic order of lists; what the later proofs need of letter
case and of blanks follows.
-/

namespace BundleDecl

/-! ## Comparing lists -/

/-- What is below something in one item comes before it in the order of lists. -/
theorem compare_eq_lt_of_lex {Item : Type} [Ord Item] [Std.ReflOrd Item]
    {Below : Item → Item → Prop}
    (below : ∀ first second, Below first second → compare first second = .lt)
    {left right : List Item} (lex : List.Lex Below left right) : compare left right = .lt := by
  induction lex with
  | nil => rfl
  | rel first => rw [List.compare_cons_cons, below _ _ first, Ordering.lt_then]
  | cons _ ih => rw [List.compare_cons_cons, Std.ReflOrd.compare_self, Ordering.eq_then, ih]

/-- The comparison of lists is the lexicographic order of their items. -/
theorem compare_eq_lt_iff_lex {Item : Type} [Ord Item] [Std.LawfulEqOrd Item]
    {Below : Item → Item → Prop}
    (below : ∀ first second, compare first second = .lt ↔ Below first second)
    {left right : List Item} : compare left right = .lt ↔ List.Lex Below left right := by
  constructor
  · intro less
    induction left generalizing right with
    | nil =>
        cases right with
        | nil => simp at less
        | cons => exact .nil
    | cons first left ih =>
        cases right with
        | nil => simp at less
        | cons second right =>
            rw [List.compare_cons_cons, Ordering.then_eq_lt, below,
              Std.LawfulEqCmp.compare_eq_iff_eq] at less
            rcases less with less | ⟨rfl, less⟩
            · exact .rel less
            · exact .cons (ih less)
  · exact compare_eq_lt_of_lex fun first second => (below first second).2

namespace Text

theorem trimEnd_append_singleton (test : Char → Bool) (text : Text) (last : Char) :
    trimEnd test (text ++ [last]) = if test last then trimEnd test text else text ++ [last] := by
  induction text with
  | nil => simp [trimEnd]
  | cons first rest ih =>
      rw [List.cons_append, trimEnd, ih]
      by_cases dropped : test last
      · simp only [dropped, if_true]
        rw [trimEnd]
      · simp only [dropped]
        cases rest <;> simp

theorem trimEnd_eq_rdropWhile (test : Char → Bool) (text : Text) :
    trimEnd test text = text.rdropWhile test := by
  induction text using List.reverseRecOn with
  | nil => rfl
  | append_singleton text last ih =>
      rw [trimEnd_append_singleton, List.rdropWhile_concat, ih]

theorem trimEnd_eq_self {test : Char → Bool} {text : Text}
    (kept : ∀ last, text.getLast? = some last → test last = false) :
    trimEnd test text = text := by
  rw [trimEnd_eq_rdropWhile, List.rdropWhile_eq_self_iff]
  intro nonempty
  simp [kept _ (List.getLast?_eq_some_getLast nonempty)]

theorem trimEnd_append_of_all {test : Char → Bool} {before after : Text}
    (dropped : after.all test = true) : trimEnd test (before ++ after) = trimEnd test before := by
  simp only [trimEnd_eq_rdropWhile]
  induction after using List.reverseRecOn with
  | nil => simp
  | append_singleton after last ih =>
      simp only [List.all_append, List.all_cons, List.all_nil, Bool.and_true,
        Bool.and_eq_true] at dropped
      rw [← List.append_assoc, List.rdropWhile_concat_pos _ _ _ dropped.2, ih dropped.1]

theorem trimEnd_eq_nil_iff {test : Char → Bool} {text : Text} :
    trimEnd test text = [] ↔ text.all test = true := by
  rw [trimEnd_eq_rdropWhile, List.rdropWhile_eq_nil_iff, List.all_eq_true]

theorem splitWhere_eq_splitOnP (test : Char → Bool) (text : Text) :
    splitWhere test text = text.splitOnP test := by
  induction text with
  | nil => simp [splitWhere]
  | cons character rest ih =>
      rw [splitWhere, List.splitOnP_cons_eq_if_modifyHead, ih]
      have nonempty := List.splitOnP_ne_nil test rest
      split
      · rfl
      · split
        · contradiction
        · rename_i pieces
          rw [pieces]
          rfl

theorem splitWhere_append_cons {test : Char → Bool} {separator : Char}
    (separates : test separator = true) (before after : Text) :
    splitWhere test (before ++ separator :: after) =
      splitWhere test before ++ splitWhere test after := by
  simp only [splitWhere_eq_splitOnP]
  exact List.splitOnP_append_cons before after separates

theorem splitWhere_eq_singleton {test : Char → Bool} {text : Text}
    (absent : ∀ character ∈ text, test character = false) : splitWhere test text = [text] := by
  rw [splitWhere_eq_splitOnP, List.splitOnP_eq_singleton absent]

theorem splitWhere_map {test : Char → Bool} {change : Char → Char}
    (kept : ∀ character, test (change character) = test character) (text : Text) :
    splitWhere test (text.map change) = (splitWhere test text).map (List.map change) := by
  induction text with
  | nil => rfl
  | cons character rest ih =>
      have nonempty := splitWhere_ne_nil test rest
      rw [List.map_cons, splitWhere, splitWhere, kept, ih]
      split
      · rfl
      · rcases pieces : splitWhere test rest with _ | ⟨piece, pieces⟩
        · contradiction
        · rfl

theorem joinWith_eq_intercalate (separator : Text) (pieces : List Text) :
    joinWith separator pieces = separator.intercalate pieces := by
  induction pieces with
  | nil => rfl
  | cons piece pieces ih =>
      cases pieces with
      | nil => simp [joinWith]
      | cons next pieces => simp [joinWith, ih, List.intercalate]

theorem splitFirst?_eq_none_iff {character : Char} {text : Text} :
    splitFirst? character text = none ↔ character ∉ text := by
  induction text with
  | nil => simp [splitFirst?]
  | cons first rest ih =>
      rw [splitFirst?, List.mem_cons, not_or]
      by_cases same : first = character
      · simp [same]
      · simp [same, ih, Ne.symm same]

/-- Splitting is the inverse of joining if no piece holds the separator. -/
theorem splitOn_joinWith {separator : Char} {pieces : List Text} (nonempty : pieces ≠ [])
    (absent : ∀ piece ∈ pieces, separator ∉ piece) :
    splitOn separator (joinWith [separator] pieces) = pieces := by
  have equal : (fun character : Char => decide (character = separator)) = (· == separator) := by
    funext character
    rfl
  rw [splitOn, equal, splitWhere_eq_splitOnP, joinWith_eq_intercalate, ← List.splitOn_eq_splitOnP]
  exact List.splitOn_intercalate separator absent nonempty

/-- One or more pieces of a kind with a separator between neighbours. -/
def Separated (separator : Char) (Piece : Text → Prop) (text : Text) : Prop :=
  ∃ pieces, pieces ≠ [] ∧ (∀ piece ∈ pieces, Piece piece) ∧ text = joinWith [separator] pieces

theorem separated_iff {separator : Char} {Piece : Text → Prop} {text : Text}
    (absent : ∀ piece, Piece piece → separator ∉ piece) :
    Separated separator Piece text ↔ ∀ piece ∈ splitOn separator text, Piece piece := by
  constructor
  · rintro ⟨pieces, nonempty, pieceOf, rfl⟩
    have apart : ∀ piece ∈ pieces, separator ∉ piece := by
      intro piece member
      exact absent piece (pieceOf piece member)
    rwa [splitOn_joinWith nonempty apart]
  · intro pieceOf
    exact ⟨splitOn separator text, splitWhere_ne_nil _ text, pieceOf,
      (joinWith_splitOn separator text).symm⟩

/-- Pieces that are joined begin with the first of them. -/
theorem joinWith_cons (separator piece : Text) (pieces : List Text) :
    ∃ rest, joinWith separator (piece :: pieces) = piece ++ rest := by
  cases pieces with
  | nil => exact ⟨[], (List.append_nil piece).symm⟩
  | cons next pieces =>
      exact ⟨separator ++ joinWith separator (next :: pieces), by rw [joinWith, List.append_assoc]⟩

theorem mem_joinWith {separator : Text} {pieces : List Text} {character : Char}
    (member : character ∈ joinWith separator pieces) :
    character ∈ separator ∨ ∃ piece ∈ pieces, character ∈ piece := by
  induction pieces with
  | nil => simp [joinWith] at member
  | cons piece pieces ih =>
      cases pieces with
      | nil => exact Or.inr ⟨piece, List.mem_cons_self, by simpa [joinWith] using member⟩
      | cons next pieces =>
          simp only [joinWith, List.mem_append] at member
          rcases member with (member | member) | member
          · exact Or.inr ⟨piece, List.mem_cons_self, member⟩
          · exact Or.inl member
          · rcases ih member with member | ⟨other, otherMem, member⟩
            · exact Or.inl member
            · exact Or.inr ⟨other, List.mem_cons_of_mem _ otherMem, member⟩

theorem mem_splitOn (separator : Char) {character : Char} {text : Text}
    (member : character ∈ text) :
    character = separator ∨ ∃ piece ∈ splitOn separator text, character ∈ piece := by
  rw [← joinWith_splitOn separator text] at member
  simpa using mem_joinWith member

theorem infix_joinWith {separator piece : Text} {pieces : List Text} (member : piece ∈ pieces) :
    piece <:+: joinWith separator pieces := by
  induction pieces with
  | nil => contradiction
  | cons first pieces ih =>
      rcases List.mem_cons.1 member with rfl | later
      · rcases joinWith_cons separator piece pieces with ⟨rest, same⟩
        rw [same]
        exact (List.prefix_append piece rest).isInfix
      · cases pieces with
        | nil => contradiction
        | cons next pieces => exact (ih later).trans (List.suffix_append _ _).isInfix

theorem infix_of_mem_splitOn {separator : Char} {text piece : Text}
    (member : piece ∈ splitOn separator text) : piece <:+: text := by
  have inside := @infix_joinWith [separator] _ _ member
  rwa [joinWith_splitOn] at inside

theorem isBlank_indentation (text : Text) : isBlank (indentation text) = true :=
  List.all_takeWhile

theorem indentation_append {before : Text} (blank : isBlank before = true) (after : Text) :
    indentation (before ++ after) = before ++ indentation after :=
  List.takeWhile_append_of_pos (List.all_eq_true.1 blank)

theorem isBlank_eq_false_of_mem {text : Text} (character : Char) (member : character ∈ text)
    (visible : isIndentCharacter character = false) : isBlank text = false := by
  rw [isBlank, List.all_eq_false]
  exact ⟨character, member, by simp [visible]⟩

theorem isWhiteSpace_of_isIndentCharacter {character : Char}
    (indent : isIndentCharacter character = true) : isWhiteSpace character = true := by
  simp only [isIndentCharacter, Bool.or_eq_true, decide_eq_true_eq] at indent
  rcases indent with rfl | rfl
  · rfl
  · rfl

theorem strip_append_of_isBlank {before : Text} (blank : isBlank before = true) (after : Text) :
    strip (before ++ after) = strip after := by
  rw [strip, trim, List.dropWhile_append_of_pos]
  · rfl
  · intro character member
    exact isWhiteSpace_of_isIndentCharacter (List.all_eq_true.1 blank character member)

theorem strip_eq_self {text : Text}
    (kept : ∀ character ∈ text, isWhiteSpace character = false) : strip text = text := by
  have started : text.dropWhile isWhiteSpace = text := by
    cases text with
    | nil => rfl
    | cons first rest => exact List.dropWhile_cons_of_neg (by simp [kept first])
  rw [strip, trim, started]
  apply trimEnd_eq_self
  intro last found
  exact kept last (List.mem_of_getLast? found)

theorem mem_of_mem_strip {text : Text} {character : Char} (member : character ∈ strip text) :
    character ∈ text := by
  rw [strip, trim, trimEnd_eq_rdropWhile] at member
  exact (List.dropWhile_sublist _).mem ((List.rdropWhile_prefix _ _).mem member)

/-- A text that is its own stripped form does not start with white space. -/
theorem isWhiteSpace_eq_false_of_strip_eq_self {first : Char} {rest : Text}
    (stripped : strip (first :: rest) = first :: rest) : isWhiteSpace first = false := by
  by_contra space
  rw [Bool.not_eq_false] at space
  have shorter : (strip (first :: rest)).length ≤ rest.length := by
    rw [strip, trim, List.dropWhile_cons_of_pos space, trimEnd_eq_rdropWhile]
    exact (List.rdropWhile_prefix _ _).length_le.trans (List.dropWhile_sublist _).length_le
  rw [stripped, List.length_cons] at shorter
  omega

/-- A text is another one between white space, and starts and ends with visible characters. -/
structure Trims (text kept : Text) : Prop where
  parts : ∃ before after, text = before ++ (kept ++ after) ∧
    before.all isWhiteSpace = true ∧ after.all isWhiteSpace = true
  starts : ∃ first rest, kept = first :: rest ∧ isWhiteSpace first = false
  ends : ∃ front last, kept = front ++ [last] ∧ isWhiteSpace last = false

theorem Trims.ne_nil {text kept : Text} (trims : Trims text kept) : kept ≠ [] := by
  rcases trims.starts with ⟨first, rest, rfl, -⟩
  exact List.cons_ne_nil first rest

/-- What stands between white space stands there alone. -/
theorem Trims.self {text kept : Text} (trims : Trims text kept) : Trims kept kept where
  parts := ⟨[], [], (List.append_nil kept).symm, rfl, rfl⟩
  starts := trims.starts
  ends := trims.ends

theorem Trims.strip_eq {text kept : Text} (trims : Trims text kept) : strip text = kept := by
  rcases trims.parts with ⟨before, after, rfl, blankBefore, blankAfter⟩
  rcases trims.starts with ⟨first, rest, split, visible⟩
  have started : (kept ++ after).dropWhile isWhiteSpace = kept ++ after := by
    rw [split, List.cons_append, List.dropWhile_cons_of_neg (by simp [visible])]
  rw [strip, trim, List.dropWhile_append_of_pos (List.all_eq_true.1 blankBefore), started,
    trimEnd_append_of_all blankAfter]
  apply trimEnd_eq_self
  intro last found
  rcases trims.ends with ⟨front, character, same, invisible⟩
  rw [same, List.getLast?_concat] at found
  rwa [← Option.some.inj found]

theorem trims_strip {text : Text} (nonempty : strip text ≠ []) : Trims text (strip text) := by
  rw [strip, trim, trimEnd_eq_rdropWhile] at nonempty ⊢
  have front : text.takeWhile isWhiteSpace ++ text.dropWhile isWhiteSpace = text :=
    List.takeWhile_append_dropWhile
  have back : (text.dropWhile isWhiteSpace).rdropWhile isWhiteSpace ++
      (text.dropWhile isWhiteSpace).rtakeWhile isWhiteSpace = text.dropWhile isWhiteSpace :=
    List.rdropWhile_append_rtakeWhile
  refine ⟨⟨_, _, by rw [back, front], List.all_takeWhile, ?_⟩, ?_, ?_⟩
  · exact List.all_eq_true.2 fun character => List.mem_rtakeWhile_imp
  · rcases List.exists_cons_of_ne_nil nonempty with ⟨first, rest, kept⟩
    have visible := List.head?_dropWhile_not isWhiteSpace text
    rw [← back, kept] at visible
    exact ⟨first, rest, kept, visible⟩
  · refine ⟨_, _, (List.dropLast_append_getLast nonempty).symm, ?_⟩
    simpa using List.rdropWhile_last_not isWhiteSpace _ nonempty

theorem strip_eq_nil_iff {text : Text} : strip text = [] ↔ text.all isWhiteSpace = true := by
  rw [strip, trim, trimEnd_eq_nil_iff]
  constructor
  · intro rest
    rw [← List.takeWhile_append_dropWhile (p := isWhiteSpace) (l := text), List.all_append, rest,
      List.all_takeWhile]
    rfl
  · intro all
    rw [List.dropWhile_eq_nil_iff.2 (List.all_eq_true.1 all)]
    rfl

theorem toNat_ofNat {codePoint : Nat} (valid : codePoint.isValidChar) :
    (Char.ofNat codePoint).toNat = codePoint := by
  rw [Char.ofNat, dif_pos valid]
  rfl

theorem isAlphanum_iff (character : Char) :
    character.isAlphanum = true ↔
      (48 ≤ character.toNat ∧ character.toNat ≤ 57) ∨
        (65 ≤ character.toNat ∧ character.toNat ≤ 90) ∨
          (97 ≤ character.toNat ∧ character.toNat ≤ 122) := by
  have parts : character.isAlphanum =
      (decide (65 ≤ character.val ∧ character.val ≤ 90) ||
          (97 ≤ character.val && character.val ≤ 122) ||
        (48 ≤ character.val && character.val ≤ 57)) := rfl
  simp [parts, UInt32.le_iff_toNat_le]
  omega

end Text

end BundleDecl
