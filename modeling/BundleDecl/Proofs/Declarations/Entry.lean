import BundleDecl.Proofs.Declarations.Completeness

/-!
# Metadata entries as they are written

What is written for a metadata entry delimits itself: in front of any other lines the reader takes
its lines and no more, and adds the entry to the dependency.
-/

namespace BundleDecl

namespace Declarations

/-- The written form of a metadata entry. -/
def entryText (indentation name value : Text) : Text :=
  indentation ++ name ++ ':' :: MetadataValue.afterColon value

section

variable {indentation name : Text}

theorem notMem_of_isBlank {character : Char} (visible : Text.isIndentCharacter character = false)
    (blank : Text.isBlank indentation = true) : character ∉ indentation := by
  intro member
  rw [List.all_eq_true.1 blank character member] at visible
  contradiction

theorem metadataLine_of_isMetadataName (blank : Text.isBlank indentation = true)
    (isName : Dependency.isMetadataName name = true)
    (notReserved : Dependency.isReserved name = false)
    (tail : Text) : MetadataLine indentation (indentation ++ name ++ ':' :: tail) name tail where
  indented := by
    rw [List.append_assoc, Text.indentation_append blank,
      Dependency.indentation_append_of_isWord isName, List.append_nil]
  split := by
    refine ⟨indentation ++ name, rfl, ?_, ?_⟩
    · rw [List.mem_append, not_or]
      exact ⟨notMem_of_isBlank (by decide) blank, Dependency.notMem_of_isWord isName (by decide)⟩
    · rw [Text.strip_append_of_isBlank blank, Dependency.strip_of_isWord isName]
  isName := isName
  notReserved := notReserved

/-- The written form of an entry has lines of the entry with line feeds as the line breaks of its
value, and none of them is blank. -/
theorem entryLines_entryText (blank : Text.isBlank indentation = true)
    (isName : Dependency.isMetadataName name = true)
    (notReserved : Dependency.isReserved name = false)
    (value : Text) :
    EntryLines indentation (Text.splitLines (entryText indentation name value))
        (name, Text.withLineFeeds value) ∧
      ∀ line ∈ Text.splitLines (entryText indentation name value), Text.isBlank line = false := by
  rcases MetadataValue.valueLines_afterColon value with
    ⟨tail, others, pieces, valueLines, notBlank⟩
  have unbroken (character : Char) (visible : Text.isIndentCharacter character = false)
      (noWord : Dependency.isWordCharacter character = false) (other : character ≠ ':') :
      character ∉ indentation ++ name ++ [':'] := by
    simp [notMem_of_isBlank visible blank, Dependency.notMem_of_isWord isName noWord, other]
  have written := Text.splitLines_append (unbroken '\r' rfl rfl (by decide))
    (unbroken '\n' rfl rfl (by decide)) pieces
  have lines : Text.splitLines (entryText indentation name value) =
      (indentation ++ name ++ ':' :: tail) :: others := by
    simpa [entryText] using written
  rw [lines]
  refine ⟨.intro (metadataLine_of_isMetadataName blank isName notReserved tail) valueLines, ?_⟩
  rw [List.forall_mem_cons]
  exact ⟨Text.isBlank_eq_false_of_mem ':' (by simp) rfl, notBlank⟩

/-- The written form of an entry delimits itself. Where it may stand, whatever its value is and
whatever lines follow it, the reader takes just its lines, adds the entry with line feeds as the
line breaks of its value, and goes on with the non-blank lines that follow. -/
theorem run_entryText {declaring : Option Identifier}
    {entries : List (Identifier × DependencyList)} {block : Block} (value : Text)
    (following : List Text) (seen : Nat) (awaits : block.Awaits indentation)
    (blank : Text.isBlank indentation = true) (isName : Dependency.isMetadataName name = true)
    (notReserved : Dependency.isReserved name = false)
    (fresh : name ∉ block.current.metadata.map Prod.fst) :
    let written := Text.splitLines (entryText indentation name value)
    let before : State := ⟨entries, .inside block⟩
    let after : State :=
      ⟨entries, .inside (block.addMetadata indentation name (Text.withLineFeeds value))⟩
    let rest := Line.nonBlankFrom (seen + written.length) following
    ∃ taken, taken.map Line.text = written ∧
      Line.nonBlankFrom seen (written ++ following) = taken ++ rest ∧
      taken.foldlM (State.step declaring) before = .ok after ∧
      run declaring before (taken ++ rest) = run declaring after rest := by
  intro written before after rest
  rcases entryLines_entryText blank isName notReserved value with ⟨entryLines, notBlank⟩
  have texts : (Line.nonBlankFrom seen written).map Line.text = written := by
    rw [Line.map_text_nonBlankFrom, List.filter_eq_self]
    intro line member
    simp [notBlank line member]
  have steps : (Line.nonBlankFrom seen written).foldlM (State.step declaring) before =
      .ok after := by
    rcases leads_of_entryLines entryLines awaits fresh _ texts with ⟨next, steps, rfl⟩
    exact steps
  exact ⟨_, texts, Line.nonBlankFrom_append seen written following, steps, run_append steps⟩

theorem run_entryText_awkward :
    let block : Block :=
      ⟨⟨"lib".toList, [], none⟩, ['\t'], [], ⟨["api".toList], .unsatisfiable, []⟩, .kindLine⟩
    let written : List Text := ["\t\tnote: \"a\"\\".toList, [' ', '\\'], "b\\\"".toList]
    run none ⟨[], .inside block⟩
        (Line.nonBlankFrom 2 (written ++ [[], ['"'], "  x".toList])) =
      run none
        ⟨[], .inside (block.addMetadata ['\t', '\t'] "note".toList "a\"\n \nb\\".toList)⟩
        [⟨7, ['"']⟩, ⟨8, "  x".toList⟩] := by
  intro block written
  have delimited := @run_entryText ['\t', '\t'] "note".toList none [] block
    "a\"\r\n \rb\\".toList [[], ['"'], "  x".toList] 2 ⟨by decide, by decide⟩ rfl (by decide)
    (by decide) (by decide)
  rcases delimited with ⟨taken, texts, lines, steps, goesOn⟩
  rw [← lines] at goesOn
  exact goesOn

end

end Declarations

end BundleDecl
