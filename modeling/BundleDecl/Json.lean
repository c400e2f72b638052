import BundleDecl.Binary64
import BundleDecl.Entries
import BundleDecl.Text.Quoted

/-!
# JSON values

The members of an object are kept in order, each name once. Whole numbers are exact; numbers with a
fraction or an exponent are binary floating-point numbers.

In messages a value is shown as a listing of its parts, on one line and with quoted texts.
-/

namespace BundleDecl

/-- A JSON value. -/
inductive Json where
  /-- The value `null`. -/
  | null
  /-- A truth value. -/
  | boolean (value : Bool)
  /-- A number without fraction and exponent. -/
  | integer (value : Int)
  /-- A number with a fraction or an exponent. -/
  | real (value : Binary64)
  | string (text : Text)
  | array (items : List Json)
  /-- An object with its members in order. -/
  | object (members : List (Text × Json))
  deriving Repr

namespace Json

/-- The object whose members are set one after the other. -/
def ofMembers (members : List (Text × Json)) : Json :=
  .object (Entries.ofPairs members)

/-- The words that stand for the numbers without digits in a listing. -/
def shownWords : Binary64.Words := ⟨"inf", "nan"⟩

mutual

/-- A value as it is shown in a message. -/
def shown : Json → Text
  | null => "None"
  | boolean true => "True"
  | boolean false => "False"
  | integer value => Text.ofInt value
  | real value => value.toText shownWords
  | string text => Text.quoted text
  | array items => "[" ++ Text.joinWith ", " (shownItems items) ++ "]"
  | object members => "\x7b" ++ Text.joinWith ", " (shownMembers members) ++ "\x7d"

/-- The items of an array as they are shown. -/
def shownItems : List Json → List Text
  | [] => []
  | item :: items => shown item :: shownItems items

/-- The members of an object as they are shown. -/
def shownMembers : List (Text × Json) → List Text
  | [] => []
  | (name, value) :: members => (Text.quoted name ++ ": " ++ shown value) :: shownMembers members

end

end Json

end BundleDecl
