/-!
# Entries

Entries are pairs of a key and a value in the order in which their keys first came up. Main
statements: setting the value of a key changes the value of that key alone, and a known key keeps
its place.
-/

namespace BundleDecl

namespace Entries

variable {Key Value : Type} [DecidableEq Key]

/-- The entries with a value set: a new key comes last, a known key keeps its place. -/
def set (key : Key) (value : Value) : List (Key × Value) → List (Key × Value)
  | [] => [(key, value)]
  | (known, old) :: rest =>
    if known = key then (known, value) :: rest else (known, old) :: set key value rest

def get? (key : Key) : List (Key × Value) → Option Value
  | [] => none
  | (known, value) :: rest => if known = key then some value else get? key rest

/-- Whether a key has a value. -/
def has (key : Key) (entries : List (Key × Value)) : Bool :=
  (get? key entries).isSome

/-- The entries that result from setting the values of pairs one after the other. -/
def ofPairs (pairs : List (Key × Value)) : List (Key × Value) :=
  pairs.foldl (fun entries (key, value) => set key value entries) []

theorem get?_set (key other : Key) (value : Value) (entries : List (Key × Value)) :
    get? other (set key value entries) =
      if other = key then some value else get? other entries := by
  fun_induction set key value entries <;> grind [get?]

theorem has_eq_true_iff {key : Key} {entries : List (Key × Value)} :
    has key entries = true ↔ key ∈ entries.map Prod.fst := by
  induction entries with
  | nil => simp [has, get?]
  | cons entry rest ih => grind [has, get?]

/-- Setting a value keeps the keys in their places and puts a new key last. -/
theorem keys_set (key : Key) (value : Value) (entries : List (Key × Value)) :
    (set key value entries).map Prod.fst =
      if has key entries then entries.map Prod.fst else entries.map Prod.fst ++ [key] := by
  fun_induction set key value entries <;> grind [has, get?]

end Entries

end BundleDecl
