import BundleDecl.Json.Parser
import BundleDecl.Proofs.Entries

/-!
# Names of members

In a JSON value every object has each name once. Values that are read from a text are such values:
a name that comes up again has its last value in its first place.
-/

namespace BundleDecl

namespace Json

/-- A value whose objects have each name once. -/
inductive Keyed : Json → Prop where
  | null : Keyed null
  | boolean (value : Bool) : Keyed (boolean value)
  | integer (value : Int) : Keyed (integer value)
  | real (value : Binary64) : Keyed (real value)
  | string (text : Text) : Keyed (string text)
  | array {items : List Json} (parts : ∀ item ∈ items, Keyed item) : Keyed (array items)
  | object {members : List (Text × Json)} (distinct : (members.map Prod.fst).Nodup)
      (parts : ∀ member ∈ members, Keyed member.2) : Keyed (object members)

attribute [simp] Keyed.string

@[simp]
theorem keyed_array_iff {items : List Json} : (array items).Keyed ↔ ∀ item ∈ items, item.Keyed :=
  ⟨fun | .array parts => parts, .array⟩

@[simp]
theorem keyed_object_iff {members : List (Text × Json)} :
    (object members).Keyed ↔
      (members.map Prod.fst).Nodup ∧ ∀ member ∈ members, member.2.Keyed :=
  ⟨fun | .object distinct parts => ⟨distinct, parts⟩, fun ⟨distinct, parts⟩ =>
    .object distinct parts⟩

theorem keyed_ofMembers {members : List (Text × Json)}
    (parts : ∀ member ∈ members, member.2.Keyed) :
    (ofMembers members).Keyed := by
  rcases Entries.nodup_and_subset_ofPairs members with ⟨distinct, contained⟩
  refine .object distinct ?_
  intro member memberMem
  exact parts member (contained memberMem)

theorem keyed_of_readNumber {text after : Text} {value : Json}
    (read : readNumber text = some (value, after)) : value.Keyed := by
  have unsigned {negative : Bool} {text : Text}
      (read : readUnsigned negative text = some (value, after)) : value.Keyed := by
    unfold readUnsigned at read
    split at read
    · contradiction
    · dsimp only at read
      split at read <;>
        · rcases Option.some.inj read with ⟨rfl, -⟩
          constructor
  unfold readNumber at read
  split at read <;> exact unsigned read

theorem keyed_of_readWord {text after : Text} {value : Json}
    (read : readWord text = some (value, after)) : value.Keyed := by
  unfold readWord at read
  split at read
  all_goals first
    | contradiction
    | (rcases Option.some.inj read with ⟨rfl, -⟩; constructor)

/-- What follows the first character that is no space is shorter than the text. -/
theorem length_lt_of_skipSpace {text rest : Text} {first : Char}
    (start : skipSpace text = first :: rest) : rest.length < text.length := by
  have skipped := skipSpace_length_le text
  rw [start, List.length_cons] at skipped
  omega

mutual

theorem keyed_of_readValue {text : Text} {value : Json} {after : Text.Rest text}
    (read : readValue text = some (value, after)) : value.Keyed := by
  rw [readValue] at read
  split at read
  · split at read
    · rcases Option.some.inj read with ⟨rfl, -⟩
      exact .string _
    · contradiction
  · rename_i rest start
    have shorter := length_lt_of_skipSpace start
    split at read
    · rcases Option.some.inj read with ⟨rfl, -⟩
      exact .array (List.forall_mem_nil _)
    · split at read
      · rename_i itemsRead
        rcases Option.some.inj read with ⟨rfl, -⟩
        exact .array (keyed_of_readItems itemsRead)
      · contradiction
  · rename_i rest start
    have shorter := length_lt_of_skipSpace start
    split at read
    · rcases Option.some.inj read with ⟨rfl, -⟩
      exact .object .nil (List.forall_mem_nil _)
    · split at read
      · rename_i membersRead
        rcases Option.some.inj read with ⟨rfl, -⟩
        exact keyed_ofMembers (keyed_of_readMembers membersRead)
      · contradiction
  · split at read
    · rename_i found
      rcases Option.some.inj read with ⟨rfl, -⟩
      rcases Option.or_eq_some_iff.1 found with word | ⟨-, number⟩
      · exact keyed_of_readWord word
      · exact keyed_of_readNumber number
    · contradiction
termination_by (text.length, 0)
decreasing_by
  all_goals
    apply Prod.Lex.left
    assumption

theorem keyed_of_readItems {text : Text} {items : List Json} {after : Text.Rest text}
    (read : readItems text = some (items, after)) : ∀ item ∈ items, item.Keyed := by
  rw [readItems] at read
  split at read
  · contradiction
  · rename_i item afterItem itemRead
    have first := keyed_of_readValue itemRead
    split at read
    · rcases Option.some.inj read with ⟨rfl, -⟩
      exact List.forall_mem_singleton.2 first
    · rename_i rest next
      have shorter := Nat.lt_trans (length_lt_of_skipSpace next) afterItem.2
      split at read
      · rename_i itemsRead
        rcases Option.some.inj read with ⟨rfl, -⟩
        exact List.forall_mem_cons.2 ⟨first, keyed_of_readItems itemsRead⟩
      · contradiction
    · contradiction
termination_by (text.length, 1)
decreasing_by
  · apply Prod.Lex.right
    omega
  · apply Prod.Lex.left
    assumption

theorem keyed_of_readMembers {text : Text} {members : List (Text × Json)} {after : Text.Rest text}
    (read : readMembers text = some (members, after)) : ∀ member ∈ members, member.2.Keyed := by
  rw [readMembers] at read
  split at read
  · contradiction
  · rename_i name valueOn named
    have valueShorter := readName_length named
    split at read
    · contradiction
    · rename_i value afterValue valueRead
      have first := keyed_of_readValue valueRead
      split at read
      · rcases Option.some.inj read with ⟨rfl, -⟩
        exact List.forall_mem_singleton.2 first
      · rename_i rest next
        have shorter :=
          Nat.lt_trans (Nat.lt_trans (length_lt_of_skipSpace next) afterValue.2) valueShorter
        split at read
        · rename_i membersRead
          rcases Option.some.inj read with ⟨rfl, -⟩
          exact List.forall_mem_cons.2 ⟨first, keyed_of_readMembers membersRead⟩
        · contradiction
      · contradiction
termination_by (text.length, 1)
decreasing_by
  all_goals
    apply Prod.Lex.left
    assumption

end

/-- Every value that is read from a text has each name once in each object. -/
theorem keyed_of_ofText? {text : Text} {value : Json} (read : ofText? text = some value) :
    value.Keyed := by
  rw [ofText?] at read
  split at read
  · rename_i found
    split at read
    · rcases Option.some.inj read with rfl
      exact keyed_of_readValue found
    · contradiction
  · contradiction

end Json

end BundleDecl
