/-!
# Sorted sets

A finite set is the strictly increasing list of its elements. Main statement: lists make the same
set exactly when they have the same elements, so order and repetition of the elements that went in
leave no trace.
-/

namespace BundleDecl

namespace SortedSet

/-- Strictly increasing lists with the same elements are equal. -/
theorem eq_of_mem_iff {Element : Type} [LT Element] [@Std.Asymm Element (· < ·)]
    {left right : List Element} (leftSorted : left.Pairwise (· < ·))
    (rightSorted : right.Pairwise (· < ·)) (same : ∀ element, element ∈ left ↔ element ∈ right) :
    left = right := by
  induction left generalizing right with
  | nil =>
    cases right with
    | nil => rfl
    | cons second others => simpa using same second
  | cons first rest ih =>
    cases right with
    | nil => simpa using same first
    | cons second others =>
      obtain ⟨leftLeast, leftRest⟩ := List.pairwise_cons.1 leftSorted
      obtain ⟨rightLeast, rightRest⟩ := List.pairwise_cons.1 rightSorted
      have irreflexive (element : Element) : ¬ element < element :=
        fun below => Std.Asymm.asymm _ _ below below
      have heads : first = second := by
        rcases List.mem_cons.1 ((same first).1 List.mem_cons_self) with equal | firstMem
        · exact equal
        · rcases List.mem_cons.1 ((same second).2 List.mem_cons_self) with equal | secondMem
          · exact equal.symm
          · have below := rightLeast first firstMem
            exact absurd (leftLeast second secondMem) (Std.Asymm.asymm _ _ below)
      subst heads
      refine congrArg _ (ih leftRest rightRest fun element => ⟨fun mem => ?_, fun mem => ?_⟩)
      · rcases List.mem_cons.1 ((same element).1 (List.mem_cons_of_mem _ mem)) with equal | found
        · exact absurd (leftLeast element mem) (equal ▸ irreflexive element)
        · exact found
      · rcases List.mem_cons.1 ((same element).2 (List.mem_cons_of_mem _ mem)) with equal | found
        · exact absurd (rightLeast element mem) (equal ▸ irreflexive element)
        · exact found

variable {Element : Type} [LT Element] [DecidableLT Element]

/-- The set with one more element; an element that is already there is not repeated. -/
def insert (element : Element) : List Element → List Element
  | [] => [element]
  | first :: rest =>
    if element < first then
      element :: first :: rest
    else if first < element then
      first :: insert element rest
    else
      first :: rest

def ofList (elements : List Element) : List Element :=
  elements.foldr insert []

section Laws

variable [@Std.Trichotomous Element (· < ·)]

theorem mem_insert {element other : Element} {elements : List Element} :
    other ∈ insert element elements ↔ other = element ∨ other ∈ elements := by
  induction elements with
  | nil => simp [insert]
  | cons first rest ih =>
    rw [insert]
    split
    · simp
    · split
      · simp [ih, or_left_comm]
      · rename_i notBelow notAbove
        have : element = first := Std.Trichotomous.trichotomous _ _ notBelow notAbove
        simp [this]

/-- A set has the elements that went into it. -/
theorem mem_ofList {element : Element} {elements : List Element} :
    element ∈ ofList elements ↔ element ∈ elements := by
  induction elements with
  | nil => simp [ofList]
  | cons first rest ih => simpa [ofList, mem_insert] using or_congr_right ih

theorem ofList_ne_nil {elements : List Element} (nonempty : elements ≠ []) :
    ofList elements ≠ [] := by
  rcases List.exists_mem_of_ne_nil elements nonempty with ⟨element, member⟩
  exact List.ne_nil_of_mem (mem_ofList.2 member)

variable [@Trans Element Element Element (· < ·) (· < ·) (· < ·)]

theorem pairwise_insert (element : Element) {elements : List Element}
    (sorted : elements.Pairwise (· < ·)) : (insert element elements).Pairwise (· < ·) := by
  induction elements with
  | nil => simp [insert]
  | cons first rest ih =>
    obtain ⟨least, others⟩ := List.pairwise_cons.1 sorted
    rw [insert]
    split
    · rename_i below
      refine List.pairwise_cons.2 ⟨fun other mem => ?_, sorted⟩
      rcases List.mem_cons.1 mem with rfl | mem
      · exact below
      · exact Trans.trans below (least other mem)
    · split
      · rename_i above
        refine List.pairwise_cons.2 ⟨fun other mem => ?_, ih others⟩
        rcases mem_insert.1 mem with rfl | mem
        · exact above
        · exact least other mem
      · exact sorted

/-- A set is strictly increasing. -/
theorem pairwise_ofList (elements : List Element) : (ofList elements).Pairwise (· < ·) := by
  induction elements with
  | nil => simp [ofList]
  | cons first rest ih => exact pairwise_insert first ih

variable [@Std.Asymm Element (· < ·)]

/-- Lists make the same set exactly when they have the same elements. -/
theorem ofList_eq_ofList_iff {left right : List Element} :
    ofList left = ofList right ↔ ∀ element, element ∈ left ↔ element ∈ right := by
  refine ⟨fun same element => ?_, fun same => ?_⟩
  · rw [← mem_ofList, same, mem_ofList]
  · refine eq_of_mem_iff (pairwise_ofList left) (pairwise_ofList right) fun element => ?_
    rw [mem_ofList, mem_ofList, same]

theorem ofList_eq_self {elements : List Element} (sorted : elements.Pairwise (· < ·)) :
    ofList elements = elements :=
  eq_of_mem_iff (pairwise_ofList elements) sorted fun _ => mem_ofList

/-- Elements may be put in one after the other. -/
theorem foldl_insert {set elements : List Element} (sorted : set.Pairwise (· < ·)) :
    elements.foldl (fun set element => insert element set) set = ofList (set ++ elements) := by
  induction elements generalizing set with
  | nil => rw [List.foldl_nil, List.append_nil, ofList_eq_self sorted]
  | cons element elements ih =>
    rw [List.foldl_cons, ih (pairwise_insert element sorted), ofList_eq_ofList_iff]
    intro other
    simp only [List.mem_append, mem_insert, List.mem_cons]
    rw [or_left_comm, or_assoc]

end Laws

end SortedSet

end BundleDecl
