import BundleDecl.Declarations
import BundleDecl.Proofs.Declarations.Canonical
import BundleDecl.Proofs.Declarations.Entry
import BundleDecl.Proofs.Range.RoundTrip

/-!
# The text of declarations

The lines that the writer makes of declarations in canonical form follow the grammar, and they stand
for these declarations with line feeds as the line breaks of their metadata values. So the text is
read as just these, whichever bundle declares them.
-/

namespace BundleDecl

theorem Sequence.flatMap {Source Item : Type} {piece : List Text → Item → Prop}
    {write : Source → List Text} {meaning : Source → Item} {sources : List Source}
    (each : ∀ source ∈ sources, piece (write source) (meaning source)) :
    Sequence piece (sources.flatMap write) (sources.map meaning) := by
  induction sources with
  | nil => exact .nil
  | cons source sources ih =>
      rw [List.forall_mem_cons] at each
      exact .cons each.1 (ih each.2)

namespace Declarations

/-! ## Kind lines -/

theorem replaceThis_eq_self {version text : Text} (absent : 't' ∉ text) :
    replaceThis version text = text := by
  fun_induction replaceThis version text with
  | case1 => rfl
  | case2 rest ih => simp at absent
  | case3 character rest _ ih =>
      rw [List.mem_cons, not_or] at absent
      rw [ih absent.2]

theorem rangeText_eq_self (this : Option Text) {text : Text} (absent : 't' ∉ text) :
    rangeText this text = text := by
  cases this with
  | none => rfl
  | some version => exact replaceThis_eq_self absent

theorem isKindSeparator_eq_false_of_isWordCharacter {character : Char}
    (word : Dependency.isWordCharacter character = true) : isKindSeparator character = false := by
  by_contra separates
  simp only [isKindSeparator, Bool.not_eq_false, Bool.or_eq_true, decide_eq_true_eq] at separates
  rcases separates with rfl | indent
  · contradiction
  · have space := Text.isWhiteSpace_of_isIndentCharacter indent
    rw [Dependency.isWhiteSpace_eq_false_of_isWordCharacter word] at space
    contradiction

/-- The kinds that are written are the kinds that are read. -/
theorem kindsOf_joinWith {kinds : List Text}
    (isKind : ∀ kind ∈ kinds, Dependency.isKind kind = true) :
    kindsOf (Text.joinWith [',', ' '] kinds) = kinds := by
  have piece (kind : Text) (member : kind ∈ kinds) :
      Text.splitWhere isKindSeparator kind = [kind] ∧ kind ≠ [] := by
    refine ⟨?_, Dependency.ne_nil_of_isWord (isKind kind member)⟩
    apply Text.splitWhere_eq_singleton
    intro character inKind
    exact isKindSeparator_eq_false_of_isWordCharacter
      (Dependency.isWordCharacter_of_mem (isKind kind member) inKind)
  clear isKind
  fun_induction Text.joinWith [',', ' '] kinds with
  | case1 => rfl
  | case2 kind =>
      rcases piece kind List.mem_cons_self with ⟨single, nonempty⟩
      simp [kindsOf, single, nonempty]
  | case3 kind next rest ih =>
      rw [List.forall_mem_cons] at piece
      rcases piece.1 with ⟨single, nonempty⟩
      have pieces (text : Text) : Text.splitWhere isKindSeparator (kind ++ ',' :: ' ' :: text) =
          kind :: [] :: Text.splitWhere isKindSeparator text := by
        rw [Text.splitWhere_append_cons rfl, single, List.singleton_append]
        rfl
      have written : kind ++ [',', ' '] ++ Text.joinWith [',', ' '] (next :: rest) =
          kind ++ ',' :: ' ' :: Text.joinWith [',', ' '] (next :: rest) := List.append_assoc _ _ _
      have others := ih piece.2
      rw [kindsOf] at others
      rw [written, kindsOf, pieces]
      simp [nonempty, others]

theorem indentation_kindLine {dependency : Dependency} (canonical : dependency.Canonical) :
    Text.indentation dependency.kindLine = ['\t'] := by
  have isWord := canonical.parts.isKind
  rcases kinds : dependency.kinds with _ | ⟨kind, others⟩
  · exact absurd kinds canonical.nonempty
  · rcases Text.joinWith_cons [',', ' '] kind others with ⟨rest, joined⟩
    have line : dependency.kindLine =
        ['\t'] ++ (kind ++ (rest ++ [':', ' '] ++ dependency.range.toText)) := by
      simp [Dependency.kindLine, kinds, joined]
    rw [line, Text.indentation_append rfl, Dependency.indentation_append_of_isWord, List.append_nil]
    exact isWord kind (by rw [kinds]; exact List.mem_cons_self)

theorem letter_notMem_toText {range : Range} (normal : range.Normal) : 't' ∉ range.toText := by
  intro member
  exact absurd (normal.isTextCharacter_of_mem 't' member) (by decide)

/-- The kind line of a dependency is read as its kinds and its range. -/
theorem kindLine_of_canonical {dependency : Dependency} (canonical : dependency.Canonical)
    (this : Option Text) :
    KindLine this ['\t'] dependency.kindLine dependency.kinds dependency.range where
  indented := indentation_kindLine canonical
  split := by
    refine ⟨Text.joinWith [',', ' '] dependency.kinds, ' ' :: dependency.range.toText, ?_, ?_,
      (kindsOf_joinWith canonical.parts.isKind).symm, ?_⟩
    · simp [Dependency.kindLine]
    · intro member
      rcases Text.mem_joinWith member with separator | ⟨kind, kindMem, inKind⟩
      · exact absurd separator (by decide)
      · exact Dependency.notMem_of_isWord (canonical.parts.isKind kind kindMem) (by decide) inKind
    · rw [rangeText_eq_self]
      · have read : Range.ofText ([' '] ++ dependency.range.toText) = .ok dependency.range :=
          canonical.normal.ofText_append rfl
        exact read
      · simp [letter_notMem_toText canonical.normal]
  nonempty := canonical.nonempty
  isKind := canonical.parts.isKind
  notReserved := canonical.parts.kindNotReserved

theorem notMem_kindLine {dependency : Dependency} (canonical : dependency.Canonical)
    {character : Char} (noSeparator : character ∉ ['\t', ',', ' ', ':'])
    (noWord : Dependency.isWordCharacter character = false)
    (noRange : Range.isTextCharacter character = false) : character ∉ dependency.kindLine := by
  have kinds : character ∉ Text.joinWith [',', ' '] dependency.kinds := by
    intro member
    rcases Text.mem_joinWith member with separator | ⟨kind, kindMem, inKind⟩
    · simp_all
    · exact Dependency.notMem_of_isWord (canonical.parts.isKind kind kindMem) noWord inKind
  have range : character ∉ dependency.range.toText := by
    intro member
    rw [canonical.normal.isTextCharacter_of_mem character member] at noRange
    contradiction
  simp_all [Dependency.kindLine]

/-! ## Dependencies -/

theorem metadataLine_eq_entryText (name value : Text) :
    Dependency.metadataLine name value = entryText ['\t', '\t'] name value := by
  rw [Dependency.metadataLine, entryText, MetadataValue.afterColon]
  split
  · rename_i empty
    rw [MetadataValue.render_eq_nil_iff] at empty
    simp [empty]
  · rename_i nonempty
    have nonempty' : value ≠ [] := fun empty =>
      nonempty (MetadataValue.render_eq_nil_iff.2 empty)
    simp [nonempty']

theorem return_notMem_entryText {indentation name : Text} (blank : Text.isBlank indentation = true)
    (isName : Dependency.isMetadataName name = true) (value : Text) :
    '\r' ∉ entryText indentation name value := by
  have clean : '\r' ∉ MetadataValue.afterColon value := by
    rw [MetadataValue.afterColon]
    split
    · exact List.not_mem_nil
    · simp [MetadataValue.return_notMem_render]
  have noIndent : '\r' ∉ indentation := notMem_of_isBlank rfl blank
  have noName : '\r' ∉ name := Dependency.notMem_of_isWord isName rfl
  simp [entryText, clean, noIndent, noName]

/-- The physical lines of a dependency. -/
def dependencyLines (dependency : Dependency) : List Text :=
  dependency.toLines.flatMap Text.splitLines

theorem splitLines_kindLine {dependency : Dependency} (canonical : dependency.Canonical) :
    Text.splitLines dependency.kindLine = [dependency.kindLine] :=
  Text.splitLines_eq_singleton
    (notMem_kindLine canonical (by decide) (by decide) (by decide))
    (notMem_kindLine canonical (by decide) (by decide) (by decide))

theorem dependencyLines_eq {dependency : Dependency} (canonical : dependency.Canonical) :
    dependencyLines dependency = dependency.kindLine :: dependency.metadata.flatMap
      fun (name, value) => Text.splitLines (entryText ['\t', '\t'] name value) := by
  simp only [dependencyLines, Dependency.toLines, List.flatMap_cons, List.flatMap_map,
    splitLines_kindLine canonical, List.singleton_append, metadataLine_eq_entryText]

/-- The written lines of a dependency are lines of the dependency. -/
theorem dependencyLines_of_canonical {dependency : Dependency} (canonical : dependency.Canonical)
    (this : Option Text) :
    DependencyLines this ['\t'] (dependencyLines dependency) dependency.withLineFeeds := by
  rw [dependencyLines_eq canonical]
  have entries : Sequence (EntryLines ['\t', '\t'])
      (dependency.metadata.flatMap fun (name, value) =>
        Text.splitLines (entryText ['\t', '\t'] name value))
      (dependency.metadata.map fun (name, value) => (name, Text.withLineFeeds value)) := by
    apply Sequence.flatMap
    rintro ⟨name, value⟩ member
    have nameMem := List.mem_map_of_mem (f := Prod.fst) member
    exact (entryLines_entryText rfl (canonical.parts.isMetadataName name nameMem)
      (canonical.parts.nameNotReserved name nameMem) value).1
  have distinct : ((dependency.metadata.map fun (name, value) =>
      (name, Text.withLineFeeds value)).map Prod.fst).Nodup := by
    rw [List.map_map]
    exact canonical.parts.distinct
  have deepens : Deepens ['\t'] ['\t', '\t'] := ⟨by decide, by decide⟩
  have lines :=
    DependencyLines.intro (kindLine_of_canonical canonical this) deepens entries distinct
  rwa [SortedSet.ofList_eq_self canonical.parts.sorted] at lines

theorem isBlank_of_mem_dependencyLines {dependency : Dependency} (canonical : dependency.Canonical)
    {line : Text} (member : line ∈ dependencyLines dependency) : Text.isBlank line = false := by
  rw [dependencyLines_eq canonical] at member
  rcases List.mem_cons.1 member with rfl | member
  · exact Text.isBlank_eq_false_of_mem ':' (by simp [Dependency.kindLine]) rfl
  · rcases List.mem_flatMap.1 member with ⟨⟨name, value⟩, entryMem, lineMem⟩
    have nameMem := List.mem_map_of_mem (f := Prod.fst) entryMem
    exact (entryLines_entryText rfl (canonical.parts.isMetadataName name nameMem)
      (canonical.parts.nameNotReserved name nameMem) value).2 line lineMem

theorem return_notMem_of_mem_toLines {dependency : Dependency} (canonical : dependency.Canonical)
    {line : Text} (member : line ∈ dependency.toLines) : '\r' ∉ line := by
  rcases List.mem_cons.1 member with rfl | member
  · exact notMem_kindLine canonical (by decide) (by decide) (by decide)
  · rcases List.mem_map.1 member with ⟨⟨name, value⟩, entryMem, rfl⟩
    have nameMem := List.mem_map_of_mem (f := Prod.fst) entryMem
    change '\r' ∉ Dependency.metadataLine name value
    rw [metadataLine_eq_entryText]
    exact return_notMem_entryText rfl (canonical.parts.isMetadataName name nameMem) value

/-! ## Targets -/

theorem isWhiteSpace_eq_false_of_mem_toText {target : Identifier} (canonical : target.Canonical)
    {character : Char} (member : character ∈ target.toText) :
    Text.isWhiteSpace character = false := by
  have dotOrWord : character = '.' ∨ Dependency.isWordCharacter character = true := by
    rcases canonical.mem_toText member with rfl | qualifier
    · exact Or.inr rfl
    · simp only [Identifier.isQualifierCharacter, Identifier.isNameCharacter, Bool.or_eq_true,
        decide_eq_true_eq] at qualifier
      simp only [Dependency.isWordCharacter, Bool.or_eq_true, decide_eq_true_eq]
      tauto
  rcases dotOrWord with rfl | word
  · rfl
  · exact Dependency.isWhiteSpace_eq_false_of_isWordCharacter word

theorem notMem_toText {target : Identifier} (canonical : target.Canonical) {character : Char}
    (space : Text.isWhiteSpace character = true) : character ∉ target.toText := by
  intro member
  rw [isWhiteSpace_eq_false_of_mem_toText canonical member] at space
  contradiction

theorem isIndentCharacter_eq_false_of_mem_toText {target : Identifier}
    (canonical : target.Canonical) {character : Char} (member : character ∈ target.toText) :
    Text.isIndentCharacter character = false := by
  by_contra indent
  rw [Bool.not_eq_false] at indent
  exact notMem_toText canonical (Text.isWhiteSpace_of_isIndentCharacter indent) member

/-- The line of a target without a version. -/
theorem targetLine_of_canonical {target : Identifier} (canonical : target.Canonical)
    (unversioned : target.version = none) : TargetLine target.toText target where
  flush := by
    rw [Text.indentation]
    rcases text : target.toText with _ | ⟨first, rest⟩
    · rfl
    · have member : first ∈ target.toText := by
        rw [text]
        exact List.mem_cons_self
      apply List.takeWhile_cons_of_neg
      simp [isIndentCharacter_eq_false_of_mem_toText canonical member]
  named := by
    rw [Text.trimEnd_eq_self]
    · exact canonical.ofText_eq_ok
    · intro last found
      exact isIndentCharacter_eq_false_of_mem_toText canonical (List.mem_of_getLast? found)
  unversioned := unversioned

theorem isBlank_toText {target : Identifier} (canonical : target.Canonical) :
    Text.isBlank target.toText = false := by
  rcases named : target.name with _ | ⟨first, name⟩
  · have isName := canonical.isName
    rw [named] at isName
    exact absurd isName (by decide)
  · have member : first ∈ target.toText := by
      rcases Text.joinWith_cons ['-'] target.name (target.qualifiers ++ target.metaQualifiers)
        with ⟨rest, joined⟩
      have text : target.toText = target.name ++ rest := joined
      simp [text, named]
    exact Text.isBlank_eq_false_of_mem first member
      (isIndentCharacter_eq_false_of_mem_toText canonical member)

end Declarations

/-- The list of the dependencies with line feeds as the line breaks of their metadata values. -/
def DependencyList.withLineFeeds (list : DependencyList) : DependencyList :=
  .ofList (list.dependencies.map Dependency.withLineFeeds)

namespace Declarations

/-- The physical lines of a target. -/
def entryLines (entry : Identifier × DependencyList) : List Text :=
  (targetLines entry.1 entry.2).flatMap Text.splitLines

variable {declaring : Option Identifier}

theorem entryLines_eq {target : Identifier} {list : DependencyList}
    (canonical : CanonicalEntry target list) :
    entryLines (target, list) = target.toText :: list.dependencies.flatMap dependencyLines := by
  have described : list.isEmpty = false := by
    simp [DependencyList.isEmpty, canonical.nonempty]
  have single : Text.splitLines target.toText = [target.toText] :=
    Text.splitLines_eq_singleton (notMem_toText canonical.canonical (by decide))
      (notMem_toText canonical.canonical (by decide))
  simp only [entryLines, targetLines, described, Bool.false_eq_true, if_false, List.flatMap_cons,
    single, List.singleton_append, List.flatMap_assoc]
  rfl

/-- The written lines of a target are lines of the target. -/
theorem targetLines_of_canonical {target : Identifier} {list : DependencyList}
    (canonical : CanonicalEntry target list) :
    TargetLines declaring (entryLines (target, list)) (target, list.withLineFeeds) := by
  rw [entryLines_eq canonical]
  have nonempty : list.dependencies.map Dependency.withLineFeeds ≠ [] := by
    simp [canonical.nonempty]
  refine .intro (targetLine_of_canonical canonical.canonical canonical.unversioned)
    (List.cons_ne_nil '\t' []) nonempty (Sequence.flatMap ?_)
  intro dependency member
  exact dependencyLines_of_canonical (canonical.dependency dependency member) _

theorem isBlank_of_mem_entryLines {target : Identifier} {list : DependencyList}
    (canonical : CanonicalEntry target list) {line : Text}
    (member : line ∈ entryLines (target, list)) :
    Text.isBlank line = false := by
  rw [entryLines_eq canonical] at member
  rcases List.mem_cons.1 member with rfl | member
  · exact isBlank_toText canonical.canonical
  · rcases List.mem_flatMap.1 member with ⟨dependency, dependencyMem, lineMem⟩
    exact isBlank_of_mem_dependencyLines (canonical.dependency dependency dependencyMem) lineMem

theorem return_notMem_of_mem_targetLines {target : Identifier} {list : DependencyList}
    (canonical : CanonicalEntry target list) {line : Text}
    (member : line ∈ targetLines target list) : '\r' ∉ line := by
  rw [targetLines] at member
  split at member
  · simp at member
  · rcases List.mem_cons.1 member with rfl | member
    · exact notMem_toText canonical.canonical (by decide)
    · rcases List.mem_flatMap.1 member with ⟨dependency, dependencyMem, lineMem⟩
      exact return_notMem_of_mem_toLines (canonical.dependency dependency dependencyMem) lineMem

/-! ## Declarations -/

/-- The declarations with line feeds as the line breaks of their metadata values. Dependencies that
become the same by this are listed once. -/
def withLineFeeds (declarations : Declarations) : Declarations :=
  ⟨declarations.entries.map fun (target, list) => (target, list.withLineFeeds)⟩

theorem contentLines_toText {declarations : Declarations} (canonical : declarations.Canonical) :
    contentLines declarations.toText = declarations.entries.flatMap entryLines := by
  have noReturn : ∀ line ∈ declarations.toLines, '\r' ∉ line := by
    intro line member
    rcases List.mem_flatMap.1 member with ⟨entry, entryMem, lineMem⟩
    exact return_notMem_of_mem_targetLines (canonical.entry entry entryMem) lineMem
  have lines : Text.lines declarations.toText = declarations.entries.flatMap entryLines := by
    rw [toText, Text.lines_flatMap noReturn, toLines, List.flatMap_assoc]
    rfl
  rw [contentLines, lines, List.filter_eq_self]
  intro line member
  rcases List.mem_flatMap.1 member with ⟨entry, entryMem, lineMem⟩
  simp [isBlank_of_mem_entryLines (canonical.entry entry entryMem) lineMem]

/-- Declarations in canonical form are read from their text, whichever bundle declares them. -/
theorem Canonical.ofText_toText_eq_ok {declarations : Declarations}
    (canonical : declarations.Canonical) :
    ofText declaring declarations.toText = .ok declarations.withLineFeeds := by
  rw [ofText_eq_ok_iff, contentLines_toText canonical]
  constructor
  · apply Sequence.flatMap
    intro entry member
    exact targetLines_of_canonical (canonical.entry entry member)
  · rw [withLineFeeds, List.map_map]
    exact canonical.distinct

/-! ## Line breaks -/

theorem map_eq_self {Item : Type} {change : Item → Item} {items : List Item}
    (kept : ∀ item ∈ items, change item = item) : items.map change = items :=
  (List.map_congr_left kept).trans (List.map_id items)

theorem withLineFeeds_eq_self_of_noReturn {dependency : Dependency}
    (noReturn : dependency.NoReturn) : dependency.withLineFeeds = dependency := by
  have kept : (dependency.metadata.map fun (name, value) => (name, Text.withLineFeeds value)) =
      dependency.metadata := by
    apply map_eq_self
    rintro ⟨name, value⟩ member
    have clean := noReturn value (List.mem_map_of_mem (f := Prod.snd) member)
    simp only [Text.withLineFeeds_eq_self clean]
  rw [Dependency.withLineFeeds, kept]

/-- Declarations without carriage returns have no other line breaks than line feeds. -/
theorem Canonical.withLineFeeds_eq_self {declarations : Declarations}
    (canonical : declarations.Canonical) (noReturn : declarations.NoReturn) :
    declarations.withLineFeeds = declarations := by
  rw [withLineFeeds, map_eq_self]
  rintro ⟨target, list⟩ member
  have kept : list.dependencies.map Dependency.withLineFeeds = list.dependencies := by
    apply map_eq_self
    intro dependency dependencyMem
    exact withLineFeeds_eq_self_of_noReturn (noReturn _ member dependency dependencyMem)
  simp only [DependencyList.withLineFeeds, kept,
    DependencyList.ofList_eq_self (canonical.entry _ member).separate]

/-! ## Reading what was written -/

/-- Declarations that were made of identifiers, builders and well-formed ranges are read from their
text, whichever bundle declares them, but for the line breaks of their metadata values: these come
back as line feeds. -/
theorem ofText_toText {declarations : Declarations} (wellFormed : declarations.WellFormed)
    (declaring : Option Identifier) :
    ofText declaring declarations.toText = .ok declarations.withLineFeeds ∧
      (declarations.NoReturn → ofText declaring declarations.toText = .ok declarations) := by
  have canonical := wellFormed.canonical
  have read : ofText declaring declarations.toText = .ok declarations.withLineFeeds :=
    canonical.ofText_toText_eq_ok
  refine ⟨read, ?_⟩
  intro noReturn
  rwa [canonical.withLineFeeds_eq_self noReturn] at read

theorem ofText_toText_two_lines :
    let dependency (value : Text) : Dependency :=
      ⟨["api".toList], .minimum ['1'], [("note".toList, value)]⟩
    let declarations (value : Text) : Declarations :=
      ⟨[(⟨"lib".toList, [], none⟩, ⟨[dependency value]⟩)]⟩
    ofText none (declarations "a \r\n\r\"".toList).toText =
      .ok (declarations "a \n\n\"".toList) := by
  intro dependency declarations
  have kinds : Builder.Reachable ⟨["api".toList], some (.minimum ['1']), []⟩ :=
    @Builder.Reachable.addKind _ _ "api".toList (.setRange (some (.minimum ['1'])) .empty) rfl
  have reachable : Builder.Reachable
      ⟨["api".toList], some (.minimum ['1']), [("note".toList, "a \r\n\r\"".toList)]⟩ :=
    @Builder.Reachable.addMetadata _ _ "note".toList "a \r\n\r\"".toList kinds rfl
  have wellFormed : (declarations "a \r\n\r\"".toList).WellFormed := by
    refine ⟨(declarations "a \r\n\r\"".toList).entries, ⟨by decide, ?_, ?_⟩, rfl⟩
    · intro entry member
      rcases List.mem_singleton.1 member with rfl
      exact ⟨"lib".toList, [], rfl⟩
    · intro entry member
      rcases List.mem_singleton.1 member with rfl
      refine ⟨[dependency "a \r\n\r\"".toList], rfl, ?_⟩
      intro built builtMem
      rcases List.mem_singleton.1 builtMem with rfl
      exact ⟨⟨_, reachable, rfl⟩, .minimum rfl⟩
  exact (ofText_toText wellFormed none).1

/-- The text of declarations that were read is their only form: it is read as the same declarations
and written as the same text, whichever bundle declares them, and none of its ranges holds the word
that stands for the version of the declaring bundle. -/
theorem ofText_toText_of_read {declaring : Option Identifier} {text : Text}
    {declarations : Declarations} (read : ofText declaring text = .ok declarations) :
    (∀ other, ofText other declarations.toText = .ok declarations ∧
      (ofText other declarations.toText).map toText = .ok declarations.toText) ∧
    ∀ entry ∈ declarations.entries, ∀ dependency ∈ entry.2.dependencies,
      ¬"this".toList <:+: dependency.range.toText := by
  rcases canonical_of_ofText read with ⟨canonical, noReturn⟩
  have again (other : Option Identifier) :
      ofText other declarations.toText = .ok declarations := by
    have written : ofText other declarations.toText = .ok declarations.withLineFeeds :=
      canonical.ofText_toText_eq_ok
    rwa [canonical.withLineFeeds_eq_self noReturn] at written
  refine ⟨fun other => ⟨again other, by rw [again other]; rfl⟩, ?_⟩
  intro entry member dependency dependencyMem this
  have normal := ((canonical.entry entry member).dependency dependency dependencyMem).normal
  exact letter_notMem_toText normal (this.mem (by decide))

theorem ofText_toText_of_read_this :
    let declaring : Identifier := ⟨"lib".toList, [], some ['1']⟩
    let target : Identifier := ⟨"lib".toList, [], none⟩
    let declarations : Declarations := ⟨[(target, ⟨[⟨["api".toList], .minimum ['1'], []⟩]⟩)]⟩
    ofText (some declaring) "lib\n api:[this)".toList = .ok declarations ∧
      ofText none declarations.toText = .ok declarations ∧
      (ofText (some declaring) declarations.toText).map toText = .ok declarations.toText := by
  intro declaring target declarations
  have normal : Range.Normal (.minimum ['1']) := .minimum rfl
  have range : Range.ofText ([] ++ "[1)".toList) = .ok (.minimum ['1']) := normal.ofText_append rfl
  have kindLine : KindLine (some ['1']) [' '] " api:[this)".toList ["api".toList]
      (.minimum ['1']) :=
    ⟨rfl, ⟨"api".toList, "[this)".toList, rfl, by decide, rfl, range⟩, by decide, by decide,
      by decide⟩
  have deepens : Deepens [' '] [' ', ' '] := ⟨by decide, by decide⟩
  have dependency : DependencyLines (thisVersion (some declaring) target) [' ']
      [" api:[this)".toList] ⟨["api".toList], .minimum ['1'], []⟩ :=
    .intro kindLine deepens .nil .nil
  have targetLine : TargetLine "lib".toList target := ⟨rfl, rfl, rfl⟩
  have block := TargetLines.intro targetLine (List.cons_ne_nil ' ' []) (List.cons_ne_nil _ [])
    (Sequence.cons dependency .nil)
  have read : ofText (some declaring) "lib\n api:[this)".toList = .ok declarations :=
    ofText_eq_ok_iff.2 ⟨Sequence.cons block .nil, by decide⟩
  have fixed := ofText_toText_of_read read
  exact ⟨read, (fixed.1 none).1, (fixed.1 (some declaring)).2⟩

end Declarations

end BundleDecl
