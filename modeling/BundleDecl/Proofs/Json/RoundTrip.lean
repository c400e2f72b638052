import BundleDecl.Proofs.Entries
import BundleDecl.Proofs.Json.Strings

/-!
# Values that are read as they are printed

Strings, and arrays and objects of them to any depth, are read from their text as the same values,
whatever the indentation. Reading is described by what it leaves: one lemma for each form that a
text may have, and one induction over the values that puts them together.
-/

namespace BundleDecl

namespace Json

/-- A value made of strings, arrays and objects whose names are all different. -/
inductive Textual : Json → Prop where
  | string (text : Text) : Textual (string text)
  | array {items : List Json} (parts : ∀ item ∈ items, Textual item) : Textual (array items)
  | object {members : List (Text × Json)} (distinct : (members.map Prod.fst).Nodup)
      (parts : ∀ member ∈ members, Textual member.2) : Textual (object members)

/-- What a step of the reader returns: a value and the text that follows. -/
def Leaves {Value : Type} {text : Text} (outcome : Option (Value × Text.Rest text))
    (value : Value) (rest : Text) : Prop :=
  ∃ shorter, outcome = some (value, ⟨rest, shorter⟩)

/-! ## Space -/

theorem skipSpace_append {space : Text} (blank : space.all isSpace = true) (text : Text) :
    skipSpace (space ++ text) = skipSpace text :=
  List.dropWhile_append_of_pos (List.all_eq_true.1 blank)

theorem skipSpace_cons {first : Char} (visible : isSpace first = false) (text : Text) :
    skipSpace (first :: text) = first :: text := by
  simp [skipSpace, visible]

theorem all_isSpace_lineBreak (indent : Option Nat) (depth : Nat) :
    (lineBreak indent depth).all isSpace = true := by
  cases indent with
  | none => rfl
  | some width => simp [lineBreak, isSpace, List.all_replicate]

/-- Two items have a comma and space between them. -/
theorem exists_itemSeparator_eq (indent : Option Nat) (depth : Nat) :
    ∃ space, itemSeparator indent depth = ',' :: space ∧ space.all isSpace = true := by
  cases indent with
  | none => exact ⟨[' '], rfl, rfl⟩
  | some width => exact ⟨_, rfl, all_isSpace_lineBreak (some width) depth⟩

/-! ## Forms -/

variable {text inner after rest : Text}

theorem leaves_readValue_string {content : Text} (start : skipSpace text = '"' :: inner)
    (read : readString inner = some (content, rest)) :
    Leaves (readValue text) (string content) rest := by
  rw [readValue]
  split
  case h_1 start' =>
    rcases List.cons.inj (start.symm.trans start') with ⟨-, rfl⟩
    split
    · rename_i read'
      rcases Prod.mk.inj (Option.some.inj (read.symm.trans read')) with ⟨rfl, rfl⟩
      exact ⟨_, rfl⟩
    · rename_i refused
      simp [read] at refused
  all_goals simp_all

theorem leaves_readValue_array_nil (start : skipSpace text = '[' :: inner)
    (closing : skipSpace inner = ']' :: rest) : Leaves (readValue text) (array []) rest := by
  rw [readValue]
  split
  case h_2 start' =>
    rcases List.cons.inj (start.symm.trans start') with ⟨-, rfl⟩
    split
    · rename_i closing'
      rcases List.cons.inj (closing.symm.trans closing') with ⟨-, rfl⟩
      exact ⟨_, rfl⟩
    · rename_i other
      exact absurd closing (other rest)
  all_goals simp_all

theorem leaves_readValue_array {first : Char} {tail : Text} {items : List Json}
    (start : skipSpace text = '[' :: inner) (opens : skipSpace inner = first :: tail)
    (notClosing : first ≠ ']') (read : Leaves (readItems inner) items rest) :
    Leaves (readValue text) (array items) rest := by
  rcases read with ⟨shorter, read⟩
  rw [readValue]
  split
  case h_2 start' =>
    rcases List.cons.inj (start.symm.trans start') with ⟨-, rfl⟩
    split
    · rename_i closing
      exact absurd (List.cons.inj (opens.symm.trans closing)).1 notClosing
    · rw [read]
      exact ⟨_, rfl⟩
  all_goals simp_all

theorem leaves_readValue_object_nil (start : skipSpace text = '\x7b' :: inner)
    (closing : skipSpace inner = '\x7d' :: rest) : Leaves (readValue text) (object []) rest := by
  rw [readValue]
  split
  case h_3 start' =>
    rcases List.cons.inj (start.symm.trans start') with ⟨-, rfl⟩
    split
    · rename_i closing'
      rcases List.cons.inj (closing.symm.trans closing') with ⟨-, rfl⟩
      exact ⟨_, rfl⟩
    · rename_i other
      exact absurd closing (other rest)
  all_goals simp_all

theorem leaves_readValue_object {first : Char} {tail : Text} {members : List (Text × Json)}
    (start : skipSpace text = '\x7b' :: inner) (opens : skipSpace inner = first :: tail)
    (notClosing : first ≠ '\x7d') (read : Leaves (readMembers inner) members rest) :
    Leaves (readValue text) (ofMembers members) rest := by
  rcases read with ⟨shorter, read⟩
  rw [readValue]
  split
  case h_3 start' =>
    rcases List.cons.inj (start.symm.trans start') with ⟨-, rfl⟩
    split
    · rename_i closing
      exact absurd (List.cons.inj (opens.symm.trans closing)).1 notClosing
    · rw [read]
      exact ⟨_, rfl⟩
  all_goals simp_all

theorem leaves_readItems_last {item : Json} (read : Leaves (readValue text) item after)
    (closing : skipSpace after = ']' :: rest) : Leaves (readItems text) [item] rest := by
  rcases read with ⟨shorter, read⟩
  rw [readItems, read]
  dsimp only
  split
  · rename_i closing'
    rcases List.cons.inj (closing.symm.trans closing') with ⟨-, rfl⟩
    exact ⟨_, rfl⟩
  all_goals simp_all

theorem leaves_readItems_more {item : Json} {items : List Json}
    (read : Leaves (readValue text) item after) (comma : skipSpace after = ',' :: inner)
    (following : Leaves (readItems inner) items rest) :
    Leaves (readItems text) (item :: items) rest := by
  rcases read with ⟨shorter, read⟩
  rcases following with ⟨shorterStill, following⟩
  rw [readItems, read]
  dsimp only
  split
  case h_2 comma' =>
    rcases List.cons.inj (comma.symm.trans comma') with ⟨-, rfl⟩
    rw [following]
    exact ⟨_, rfl⟩
  all_goals simp_all

theorem leaves_readMembers_last {name valueOn : Text} {value : Json}
    (named : readName text = some (name, valueOn)) (read : Leaves (readValue valueOn) value after)
    (closing : skipSpace after = '\x7d' :: rest) :
    Leaves (readMembers text) [(name, value)] rest := by
  rcases read with ⟨shorter, read⟩
  rw [readMembers]
  split
  · simp_all
  · rename_i named'
    rcases Prod.mk.inj (Option.some.inj (named.symm.trans named')) with ⟨rfl, rfl⟩
    rw [read]
    dsimp only
    split
    · rename_i closing'
      rcases List.cons.inj (closing.symm.trans closing') with ⟨-, rfl⟩
      exact ⟨_, rfl⟩
    all_goals simp_all

theorem leaves_readMembers_more {name valueOn : Text} {value : Json}
    {members : List (Text × Json)} (named : readName text = some (name, valueOn))
    (read : Leaves (readValue valueOn) value after) (comma : skipSpace after = ',' :: inner)
    (following : Leaves (readMembers inner) members rest) :
    Leaves (readMembers text) ((name, value) :: members) rest := by
  rcases read with ⟨shorter, read⟩
  rcases following with ⟨shorterStill, following⟩
  rw [readMembers]
  split
  · simp_all
  · rename_i named'
    rcases Prod.mk.inj (Option.some.inj (named.symm.trans named')) with ⟨rfl, rfl⟩
    rw [read]
    dsimp only
    split
    case h_2 comma' =>
      rcases List.cons.inj (comma.symm.trans comma') with ⟨-, rfl⟩
      rw [following]
      exact ⟨_, rfl⟩
    all_goals simp_all

theorem readName_eq_some {content : Text} (start : skipSpace text = '"' :: inner)
    (read : readString inner = some (content, after)) (colon : skipSpace after = ':' :: rest) :
    readName text = some (content, rest) := by
  simp [readName, start, read, colon]

/-! ## Values -/

/-- A value is read from its text wherever that stands, also with space before it. -/
def ReadsBack (value : Json) : Prop :=
  ∀ indent depth (space rest : Text), space.all isSpace = true →
    Leaves (readValue (space ++ (print indent depth value ++ rest))) value rest

theorem skipSpace_printString {space : Text} (blank : space.all isSpace = true)
    (text rest : Text) :
    skipSpace (space ++ (printString text ++ rest)) =
      '"' :: (text.flatMap printCharacter ++ '"' :: rest) := by
  rw [skipSpace_append blank, printString, List.cons_append, List.cons_append,
    skipSpace_cons (by decide), List.append_assoc, List.singleton_append]

theorem readsBack_string (text : Text) : ReadsBack (string text) := by
  intro indent depth space rest blank
  rw [print]
  exact leaves_readValue_string (skipSpace_printString blank text rest)
    (readString_flatMap_printCharacter text rest)

/-- A printed name is read with the colon behind it. -/
theorem readName_printString {space : Text} (blank : space.all isSpace = true)
    (name rest : Text) :
    readName (space ++ (printString name ++ (": ".toList ++ rest))) = some (name, ' ' :: rest) :=
  readName_eq_some (skipSpace_printString blank name _)
    (readString_flatMap_printCharacter name _) (skipSpace_cons (by decide) _)

theorem skipSpace_closing {space : Text} (blank : space.all isSpace = true) {closing : Char}
    (visible : isSpace closing = false) (rest : Text) :
    skipSpace (space ++ [closing] ++ rest) = closing :: rest := by
  rw [List.append_assoc, skipSpace_append blank, List.singleton_append, skipSpace_cons visible]

/-- No value starts with a closing bracket. -/
theorem Textual.exists_first {value : Json} (textual : Textual value) (indent : Option Nat)
    (depth : Nat) : ∃ first tail, print indent depth value = first :: tail ∧
      isSpace first = false ∧ first ≠ ']' := by
  cases textual with
  | string text => exact ⟨'"', _, by rw [print, printString]; rfl, by decide, by decide⟩
  | @array items =>
      rcases items with _ | ⟨item, items⟩
      · exact ⟨'[', _, by rw [print]; rfl, by decide, by decide⟩
      · exact ⟨'[', _, by rw [print]; rfl, by decide, by decide⟩
  | @object members =>
      rcases members with _ | ⟨member, members⟩
      · exact ⟨'\x7b', _, by rw [print]; rfl, by decide, by decide⟩
      · exact ⟨'\x7b', _, by rw [print]; rfl, by decide, by decide⟩

/-- Printed items are read up to the bracket behind them. -/
theorem leaves_readItems_print {item : Json} {items : List Json}
    (readsBack : ∀ part ∈ item :: items, ReadsBack part) (indent : Option Nat) (depth : Nat)
    {space : Text} (blank : space.all isSpace = true) (rest : Text) :
    Leaves (readItems (space ++ (print indent (depth + 1) item ++
      (printItems indent depth items ++ rest)))) (item :: items) rest := by
  induction items generalizing item space with
  | nil =>
      have first := readsBack item List.mem_cons_self indent (depth + 1) space
        (printItems indent depth [] ++ rest) blank
      apply leaves_readItems_last first
      rw [printItems]
      exact skipSpace_closing (all_isSpace_lineBreak indent depth) (by decide) rest
  | cons next items ih =>
      rw [List.forall_mem_cons] at readsBack
      have first := readsBack.1 indent (depth + 1) space
        (printItems indent depth (next :: items) ++ rest) blank
      rcases exists_itemSeparator_eq indent (depth + 1) with ⟨gap, separator, gapBlank⟩
      apply leaves_readItems_more first _ (ih readsBack.2 gapBlank)
      rw [printItems, separator]
      simp [skipSpace_cons, isSpace]

/-- Printed members are read up to the bracket behind them. -/
theorem leaves_readMembers_print {name : Text} {value : Json} {members : List (Text × Json)}
    (readsBack : ∀ member ∈ (name, value) :: members, ReadsBack member.2) (indent : Option Nat)
    (depth : Nat) {space : Text} (blank : space.all isSpace = true) (rest : Text) :
    Leaves (readMembers (space ++ (printString name ++ (": ".toList ++
      (print indent (depth + 1) value ++ (printMembers indent depth members ++ rest))))))
      ((name, value) :: members) rest := by
  induction members generalizing name value space with
  | nil =>
      have read := readsBack (name, value) List.mem_cons_self indent (depth + 1) [' ']
        (printMembers indent depth [] ++ rest) rfl
      apply leaves_readMembers_last (readName_printString blank name _) read
      rw [printMembers]
      exact skipSpace_closing (all_isSpace_lineBreak indent depth) (by decide) rest
  | cons next members ih =>
      rw [List.forall_mem_cons] at readsBack
      have read := readsBack.1 indent (depth + 1) [' ']
        (printMembers indent depth (next :: members) ++ rest) rfl
      rcases exists_itemSeparator_eq indent (depth + 1) with ⟨gap, separator, gapBlank⟩
      apply leaves_readMembers_more (readName_printString blank name _) read _
        (ih readsBack.2 gapBlank)
      rw [printMembers, separator]
      simp [skipSpace_cons, isSpace]

theorem readsBack_array {items : List Json} (textual : ∀ item ∈ items, Textual item)
    (readsBack : ∀ item ∈ items, ReadsBack item) : ReadsBack (array items) := by
  intro indent depth space rest blank
  rcases items with _ | ⟨item, items⟩
  · have start : skipSpace (space ++ (print indent depth (array []) ++ rest)) =
        '[' :: ']' :: rest := by
      rw [skipSpace_append blank, print]
      exact skipSpace_cons (by decide) _
    exact leaves_readValue_array_nil start (skipSpace_cons (by decide) rest)
  · have start : skipSpace (space ++ (print indent depth (array (item :: items)) ++ rest)) =
        '[' :: (lineBreak indent (depth + 1) ++ (print indent (depth + 1) item ++
          (printItems indent depth items ++ rest))) := by
      rw [skipSpace_append blank, print]
      simp [skipSpace_cons, isSpace]
    have gap := all_isSpace_lineBreak indent (depth + 1)
    rcases (textual item List.mem_cons_self).exists_first indent (depth + 1) with
      ⟨first, tail, printed, visible, notClosing⟩
    -- The first item must not look like the bracket behind an empty array.
    apply leaves_readValue_array start _ notClosing
      (leaves_readItems_print readsBack indent depth gap rest)
    · exact tail ++ (printItems indent depth items ++ rest)
    · rw [skipSpace_append gap, printed, List.cons_append, skipSpace_cons visible]

theorem readsBack_object {members : List (Text × Json)}
    (distinct : (members.map Prod.fst).Nodup)
    (readsBack : ∀ member ∈ members, ReadsBack member.2) : ReadsBack (object members) := by
  intro indent depth space rest blank
  rcases members with _ | ⟨⟨name, value⟩, members⟩
  · have start : skipSpace (space ++ (print indent depth (object []) ++ rest)) =
        '\x7b' :: '\x7d' :: rest := by
      rw [skipSpace_append blank, print]
      exact skipSpace_cons (by decide) _
    exact leaves_readValue_object_nil start (skipSpace_cons (by decide) rest)
  · have start : skipSpace (space ++ (print indent depth (object ((name, value) :: members)) ++
        rest)) = '\x7b' :: (lineBreak indent (depth + 1) ++ (printString name ++ (": ".toList ++
          (print indent (depth + 1) value ++ (printMembers indent depth members ++ rest))))) := by
      rw [skipSpace_append blank, print]
      simp [skipSpace_cons, isSpace]
    have gap := all_isSpace_lineBreak indent (depth + 1)
    have read := leaves_readValue_object start (skipSpace_printString gap name _) (by decide)
      (leaves_readMembers_print readsBack indent depth gap rest)
    rwa [ofMembers, Entries.ofPairs_eq_self distinct] at read

theorem Textual.readsBack {value : Json} (textual : Textual value) : ReadsBack value := by
  induction textual with
  | string text => exact readsBack_string text
  | array parts ih => exact readsBack_array parts ih
  | object distinct _ ih => exact readsBack_object distinct ih

/-- A value made of strings is read from its text, whatever the indentation. -/
theorem Textual.ofText?_toText {value : Json} (textual : Textual value) (indent : Option Nat) :
    ofText? (value.toText indent) = some value := by
  have leaves := textual.readsBack indent 0 [] [] rfl
  rw [List.nil_append, List.append_nil] at leaves
  rcases leaves with ⟨shorter, read⟩
  rw [ofText?, toText, read]
  rfl

/-! ## Characters -/

theorem toNat_lt_of_all {text : Text} (ascii : text.all (·.toNat < 128) = true) {character : Char}
    (member : character ∈ text) : character.toNat < 128 := by
  simpa using List.all_eq_true.1 ascii character member

theorem toNat_lt_of_mem_lineBreak {indent : Option Nat} {depth : Nat} {character : Char}
    (member : character ∈ lineBreak indent depth) : character.toNat < 128 := by
  cases indent with
  | none => contradiction
  | some width =>
      rcases List.mem_cons.1 member with rfl | member
      · decide
      · rw [List.eq_of_mem_replicate member]
        decide

theorem toNat_lt_of_mem_itemSeparator {indent : Option Nat} {depth : Nat} {character : Char}
    (member : character ∈ itemSeparator indent depth) : character.toNat < 128 := by
  cases indent with
  | none => exact toNat_lt_of_all rfl member
  | some width =>
      rcases List.mem_cons.1 member with rfl | member
      · decide
      · exact toNat_lt_of_mem_lineBreak member

theorem toNat_lt_of_mem_printItems {items : List Json} {indent : Option Nat} {depth : Nat}
    (ascii : ∀ item ∈ items, ∀ depth, ∀ character ∈ print indent depth item, character.toNat < 128)
    {character : Char} (member : character ∈ printItems indent depth items) :
    character.toNat < 128 := by
  induction items with
  | nil =>
      rw [printItems, List.mem_append] at member
      rcases member with gap | closing
      · exact toNat_lt_of_mem_lineBreak gap
      · rcases List.mem_singleton.1 closing with rfl
        decide
  | cons item items ih =>
      rw [List.forall_mem_cons] at ascii
      rw [printItems, List.mem_append, List.mem_append] at member
      rcases member with (gap | first) | following
      · exact toNat_lt_of_mem_itemSeparator gap
      · exact ascii.1 (depth + 1) character first
      · exact ih ascii.2 following

theorem toNat_lt_of_mem_printMembers {members : List (Text × Json)} {indent : Option Nat}
    {depth : Nat} (ascii : ∀ member ∈ members, ∀ depth, ∀ character ∈ print indent depth member.2,
      character.toNat < 128)
    {character : Char} (member : character ∈ printMembers indent depth members) :
    character.toNat < 128 := by
  induction members with
  | nil =>
      rw [printMembers, List.mem_append] at member
      rcases member with gap | closing
      · exact toNat_lt_of_mem_lineBreak gap
      · rcases List.mem_singleton.1 closing with rfl
        decide
  | cons first members ih =>
      rw [List.forall_mem_cons] at ascii
      simp only [printMembers, List.mem_append] at member
      rcases member with (((gap | named) | colon) | value) | following
      · exact toNat_lt_of_mem_itemSeparator gap
      · exact toNat_lt_of_mem_printString named
      · exact toNat_lt_of_all rfl colon
      · exact ascii.1 (depth + 1) character value
      · exact ih ascii.2 following

/-- A value made of strings is printed in ASCII. -/
theorem Textual.toNat_lt_of_mem_print {value : Json} (textual : Textual value)
    {indent : Option Nat} :
    ∀ depth, ∀ character ∈ print indent depth value, character.toNat < 128 := by
  induction textual with
  | string text =>
      intro depth character member
      rw [print] at member
      exact toNat_lt_of_mem_printString member
  | @array items _ ih =>
      intro depth character member
      rcases items with _ | ⟨item, items⟩
      · rw [print] at member
        exact toNat_lt_of_all rfl member
      · rw [List.forall_mem_cons] at ih
        simp only [print, List.cons_append, List.mem_cons, List.mem_append] at member
        rcases member with rfl | (gap | first) | following
        · decide
        · exact toNat_lt_of_mem_lineBreak gap
        · exact ih.1 (depth + 1) character first
        · exact toNat_lt_of_mem_printItems ih.2 following
  | @object members _ _ ih =>
      intro depth character member
      rcases members with _ | ⟨first, members⟩
      · rw [print] at member
        exact toNat_lt_of_all rfl member
      · rw [List.forall_mem_cons] at ih
        simp only [print, List.cons_append, List.mem_cons, List.mem_append] at member
        rcases member with rfl | (((gap | named) | colon) | value) | following
        · decide
        · exact toNat_lt_of_mem_lineBreak gap
        · exact toNat_lt_of_mem_printString named
        · exact toNat_lt_of_all rfl colon
        · exact ih.1 (depth + 1) character value
        · exact toNat_lt_of_mem_printMembers ih.2 following

end Json

end BundleDecl
