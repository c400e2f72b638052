import BundleDecl.Proofs.Declarations.Refusal

/-!
# Lookahead

What the reader reports depends only on the lines up to the first one behind the reported line that
is not blank. Whatever follows, the report is the same: nothing is reported late, and nothing
further ahead is looked at.
-/

namespace BundleDecl

namespace Declarations

variable {declaring : Option Identifier}

/-- A line is refused on account of the lines up to the next one. -/
theorem Refused.change_rest {front rest other : List Line} {line next : Line} {cause : Cause}
    (refused : Refused declaring (front ++ next :: rest) line cause)
    (earlier : line ∉ next :: rest) :
    Refused declaring (front ++ next :: other) line cause := by
  have inFront {read unread : List Line} (split : read ++ line :: unread = front ++ next :: rest) :
      ∃ between, unread = between ++ next :: rest ∧
        read ++ line :: (between ++ next :: other) = front ++ next :: other := by
    rcases List.append_eq_append_iff.1 split with ⟨middle, rfl, later⟩ | ⟨middle, rfl, later⟩
    · cases middle with
      | nil =>
          rw [List.nil_append] at later
          apply absurd _ earlier
          simp [← later]
      | cons first middle =>
          rcases List.cons.inj later with ⟨rfl, rfl⟩
          refine ⟨middle, rfl, ?_⟩
          rw [List.append_assoc, List.cons_append]
    · apply absurd _ earlier
      simp [later]
  cases refused with
  | fault split steps fault =>
      rcases inFront split with ⟨between, _, again⟩
      exact .fault again steps fault
  | missing split steps missing =>
      rcases inFront split with ⟨between, rfl, again⟩
      have following : (between ++ next :: rest).head? = (between ++ next :: other).head? := by
        cases between <;> rfl
      rw [following] at missing
      exact .missing again steps missing

/-- What is reported for a line stays the same as long as the lines up to a later one that is not
blank do. -/
theorem ofPhysicalLines_eq_error_of_lookahead {before between rest other : List Text} {next : Text}
    {failure : Failure} (content : Text.isBlank next = false)
    (refused : ofPhysicalLines declaring (before ++ between ++ next :: rest) = .error failure)
    (located : failure.line = some (before.length : Int)) :
    ofPhysicalLines declaring (before ++ between ++ next :: other) = .error failure := by
  rw [ofPhysicalLines_eq_error_iff, Line.nonBlank_append_cons _ _ content] at refused ⊢
  rcases refused with ⟨line, cause, refused, rfl⟩
  refine ⟨line, cause, refused.change_rest ?_, rfl⟩
  have number : line.number = before.length := Int.ofNat.inj (Option.some.inj located)
  -- Every line from the next one on has a greater number than the reported one.
  intro member
  rcases List.mem_cons.1 member with rfl | member
  · simp only [List.length_append] at number
    omega
  · rcases Line.exists_split_of_mem_nonBlankFrom member with ⟨_, _, _, _, later⟩
    rw [List.length_append] at later
    omega

/-- A failure that is reported for a line depends on nothing behind the next line that is not blank,
nor behind any such line after that. -/
theorem ofText_eq_error_of_prefix {text other : Text} {failure : Failure}
    {before between after : List Text} {next : Text}
    (refused : ofText declaring text = .error failure)
    (located : failure.line = some (before.length : Int))
    (split : Text.lines text = before ++ between ++ next :: after)
    (content : Text.isBlank next = false)
    (initial : before ++ between ++ [next] <+: Text.lines other) :
    ofText declaring other = .error failure := by
  rcases initial with ⟨rest, same⟩
  rw [List.append_assoc, List.singleton_append] at same
  rw [ofText_eq_ofPhysicalLines, split] at refused
  rw [ofText_eq_ofPhysicalLines, ← same]
  exact ofPhysicalLines_eq_error_of_lookahead content refused located

theorem ofText_eq_error_of_prefix_no_colon :
    ofText none "lib\n api\n\nnext\n".toList = .error ⟨.malformedKindLine "api".toList, some 2⟩ ∧
      ofText none "lib\r\n api\n\nnext\n\" x:\n more".toList =
        .error ⟨.malformedKindLine "api".toList, some 2⟩ := by
  have refused : ofText none "lib\n api\n\nnext\n".toList =
      .error ⟨.malformedKindLine "api".toList, some 2⟩ := rfl
  have split : Text.lines "lib\n api\n\nnext\n".toList =
      ["lib".toList, " api".toList] ++ [[]] ++ "next".toList :: [] := rfl
  have initial : ["lib".toList, " api".toList] ++ [[]] ++ ["next".toList] <+:
      Text.lines "lib\r\n api\n\nnext\n\" x:\n more".toList := ⟨_, rfl⟩
  exact ⟨refused, ofText_eq_error_of_prefix refused rfl split rfl initial⟩

end Declarations

end BundleDecl
