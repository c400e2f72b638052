import BundleDecl.Entries
import Mathlib.Data.List.Nodup

/-!
# Laws of entries

Entries whose keys are distinct stay so when a value is set or an entry with a new key is added.
-/

namespace BundleDecl

namespace Entries

variable {Key Value : Type}

theorem nodup_concat_iff {entries : List (Key × Value)} {key : Key} {value : Value} :
    ((entries ++ [(key, value)]).map Prod.fst).Nodup ↔
      (entries.map Prod.fst).Nodup ∧ key ∉ entries.map Prod.fst := by
  rw [List.map_append, List.map_cons, List.map_nil, List.nodup_append_comm, List.singleton_append,
    List.nodup_cons, and_comm]

theorem nodup_of_append {before after : List (Key × Value)}
    (distinct : ((before ++ after).map Prod.fst).Nodup) : (before.map Prod.fst).Nodup := by
  rw [List.map_append, List.nodup_append] at distinct
  exact distinct.1

/-- Entries are split in front of the first of them whose key has a property. -/
theorem exists_first {entries : List (Key × Value)} (property : Key → Prop)
    (some : ∃ key ∈ entries.map Prod.fst, property key) :
    ∃ earlier entry later, entries = earlier ++ entry :: later ∧ property entry.1 ∧
      ∀ key ∈ earlier.map Prod.fst, ¬property key := by
  induction entries with
  | nil => simp at some
  | cons entry entries ih =>
      by_cases holds : property entry.1
      · exact ⟨[], entry, entries, rfl, holds, nofun⟩
      · simp only [List.map_cons, List.exists_mem_cons_iff, holds, false_or] at some
        rcases ih some with ⟨earlier, found, later, rfl, foundHolds, before⟩
        refine ⟨entry :: earlier, found, later, rfl, foundHolds, ?_⟩
        exact List.forall_mem_cons.2 ⟨holds, before⟩

/-- If no key comes up twice, every entry is the one that is found. -/
theorem get?_of_mem [DecidableEq Key] {entries : List (Key × Value)} {key : Key} {value : Value}
    (distinct : (entries.map Prod.fst).Nodup) (member : (key, value) ∈ entries) :
    get? key entries = some value := by
  induction entries with
  | nil => contradiction
  | cons entry entries ih =>
      rw [List.map_cons, List.nodup_cons] at distinct
      rcases List.mem_cons.1 member with rfl | member
      · rw [get?, if_pos rfl]
      · have other : entry.1 ≠ key := by
          rintro rfl
          exact distinct.1 (List.mem_map.2 ⟨_, member, rfl⟩)
        rw [get?, if_neg other, ih distinct.2 member]

theorem mem_of_get?_eq_some [DecidableEq Key] {entries : List (Key × Value)} {key : Key}
    {value : Value} (found : get? key entries = some value) : (key, value) ∈ entries := by
  induction entries with
  | nil => contradiction
  | cons entry entries ih =>
      rw [get?] at found
      split at found
      · rename_i same
        rcases Option.some.inj found with rfl
        rw [← same]
        exact List.mem_cons_self
      · exact List.mem_cons_of_mem _ (ih found)

theorem get?_eq_some_iff [DecidableEq Key] {entries : List (Key × Value)} {key : Key}
    {value : Value} (distinct : (entries.map Prod.fst).Nodup) :
    get? key entries = some value ↔ (key, value) ∈ entries :=
  ⟨mem_of_get?_eq_some, get?_of_mem distinct⟩

/-- If no key comes up twice, the order of the entries does not matter. -/
theorem get?_eq_of_perm [DecidableEq Key] {left right : List (Key × Value)}
    (distinct : (left.map Prod.fst).Nodup) (perm : left.Perm right) (key : Key) :
    get? key left = get? key right := by
  apply Option.ext
  intro value
  rw [get?_eq_some_iff distinct, get?_eq_some_iff ((perm.map Prod.fst).nodup_iff.1 distinct),
    perm.mem_iff]

/-- Entries with the same keys and the same value for each are the same in another order. -/
theorem perm_of_get?_eq_some [DecidableEq Key] {left right : List (Key × Value)}
    (leftDistinct : (left.map Prod.fst).Nodup) (rightDistinct : (right.map Prod.fst).Nodup)
    (keys : ∀ key ∈ left.map Prod.fst, key ∈ right.map Prod.fst)
    (found : ∀ entry ∈ right, get? entry.1 left = some entry.2) : left.Perm right := by
  rw [List.perm_ext_iff_of_nodup leftDistinct.of_map rightDistinct.of_map]
  rintro ⟨key, value⟩
  constructor
  · intro member
    rcases List.mem_map.1 (keys key (List.mem_map.2 ⟨_, member, rfl⟩)) with ⟨entry, entryMem, rfl⟩
    have same := (get?_of_mem leftDistinct member).symm.trans (found entry entryMem)
    rwa [Option.some.inj same]
  · intro member
    exact mem_of_get?_eq_some (found _ member)

theorem get?_map_value [DecidableEq Key] {Other : Type} (change : Value → Other) (key : Key)
    (entries : List (Key × Value)) :
    get? key (entries.map fun entry => (entry.1, change entry.2)) =
      (get? key entries).map change := by
  induction entries with
  | nil => rfl
  | cons entry entries ih =>
      rw [List.map_cons, get?, get?]
      split
      · rfl
      · exact ih

theorem set_of_notMem [DecidableEq Key] {entries : List (Key × Value)} {key : Key}
    (fresh : key ∉ entries.map Prod.fst) (value : Value) :
    set key value entries = entries ++ [(key, value)] := by
  fun_induction set key value entries with
  | case1 => rfl
  | case2 old rest => simp at fresh
  | case3 known old rest differs ih =>
      rw [List.map_cons, List.mem_cons, not_or] at fresh
      rw [ih fresh.2, List.cons_append]

theorem foldl_set [DecidableEq Key] {entries pairs : List (Key × Value)}
    (distinct : ((entries ++ pairs).map Prod.fst).Nodup) :
    pairs.foldl (fun entries pair => set pair.1 pair.2 entries) entries = entries ++ pairs := by
  induction pairs generalizing entries with
  | nil => simp
  | cons pair pairs ih =>
      rw [List.append_cons] at distinct ⊢
      have fresh := (nodup_concat_iff.1 (nodup_of_append distinct)).2
      rw [List.foldl_cons, set_of_notMem fresh]
      exact ih distinct

/-- Pairs with different keys are entries as they stand. -/
theorem ofPairs_eq_self [DecidableEq Key] {pairs : List (Key × Value)}
    (distinct : (pairs.map Prod.fst).Nodup) : ofPairs pairs = pairs := by
  have added : pairs.foldl (fun entries pair => set pair.1 pair.2 entries) [] = [] ++ pairs :=
    foldl_set distinct
  exact added

theorem nodup_set [DecidableEq Key] {entries : List (Key × Value)}
    (distinct : (entries.map Prod.fst).Nodup) (key : Key) (value : Value) :
    ((set key value entries).map Prod.fst).Nodup := by
  rw [keys_set]
  split
  · exact distinct
  · rename_i fresh
    rw [has_eq_true_iff] at fresh
    exact List.nodup_append_comm.1 (List.nodup_cons.2 ⟨fresh, distinct⟩)

theorem mem_set [DecidableEq Key] {entries : List (Key × Value)} {entry : Key × Value} {key : Key}
    {value : Value} (member : entry ∈ set key value entries) :
    entry = (key, value) ∨ entry ∈ entries := by
  fun_induction set key value entries <;> grind

/-- Setting the values of pairs one after the other makes entries of distinct keys, each of them one
of the pairs. -/
theorem nodup_and_subset_ofPairs [DecidableEq Key] (pairs : List (Key × Value)) :
    ((ofPairs pairs).map Prod.fst).Nodup ∧ ofPairs pairs ⊆ pairs := by
  have steps (entries : List (Key × Value)) (distinct : (entries.map Prod.fst).Nodup) :
      ((pairs.foldl (fun entries pair => set pair.1 pair.2 entries) entries).map Prod.fst).Nodup ∧
        pairs.foldl (fun entries pair => set pair.1 pair.2 entries) entries ⊆ entries ++ pairs := by
    induction pairs generalizing entries with
    | nil => simpa using distinct
    | cons pair pairs ih =>
        rcases ih (set pair.1 pair.2 entries) (nodup_set distinct pair.1 pair.2) with
          ⟨kept, contained⟩
        refine ⟨kept, ?_⟩
        intro entry member
        rcases List.mem_append.1 (contained member) with known | later
        · rcases mem_set known with rfl | earlier
          · simp
          · simp [earlier]
        · simp [later]
  exact steps [] .nil

end Entries

end BundleDecl
