import BundleDecl.DependencyList

/-!
# Laws of dependency lists

A dependency list holds no two dependencies that are the same, and making a list of its dependencies
again changes nothing. Being the same is an equivalence: two lists are the same if and only if they
hold the same dependencies, whatever the order.
-/

namespace BundleDecl

namespace Dependency

theorem same_refl (dependency : Dependency) : dependency.same dependency = true := by
  simp [same, List.isPerm_iff]

theorem same_eq_true_iff {left right : Dependency} :
    left.same right = true ↔
      left.kinds = right.kinds ∧ left.range = right.range ∧ left.metadata.Perm right.metadata := by
  simp [same, List.isPerm_iff, and_assoc]

theorem same_comm (left right : Dependency) : left.same right = right.same left := by
  rw [Bool.eq_iff_iff, same_eq_true_iff, same_eq_true_iff, eq_comm, @eq_comm _ left.range,
    List.perm_comm]

theorem same_trans {first second third : Dependency} (left : first.same second = true)
    (right : second.same third = true) : first.same third = true := by
  rw [same_eq_true_iff] at left right ⊢
  exact ⟨left.1.trans right.1, left.2.1.trans right.2.1, left.2.2.trans right.2.2⟩

end Dependency

namespace DependencyList

/-- No dependency is the same as an earlier one. -/
def Separate (dependencies : List Dependency) : Prop :=
  dependencies.Pairwise fun earlier later => later.same earlier = false

theorem mem_of_mem_distinctFrom {seen dependencies : List Dependency} {dependency : Dependency}
    (member : dependency ∈ distinctFrom seen dependencies) : dependency ∈ dependencies := by
  fun_induction distinctFrom seen dependencies with
  | case1 => exact member
  | case2 seen first rest known ih => exact List.mem_cons_of_mem _ (ih member)
  | case3 seen first rest fresh ih =>
      rcases List.mem_cons.1 member with rfl | member
      · exact List.mem_cons_self
      · exact List.mem_cons_of_mem _ (ih member)

theorem same_eq_false_of_mem_distinctFrom {seen dependencies : List Dependency}
    {earlier dependency : Dependency} (earlierMem : earlier ∈ seen)
    (member : dependency ∈ distinctFrom seen dependencies) : dependency.same earlier = false := by
  fun_induction distinctFrom seen dependencies with
  | case1 => simp at member
  | case2 seen first rest known ih => exact ih earlierMem member
  | case3 seen first rest fresh ih =>
      rcases List.mem_cons.1 member with rfl | member
      · simp only [List.any_eq_true, not_exists, not_and, Bool.not_eq_true] at fresh
        exact fresh earlier earlierMem
      · exact ih (List.mem_cons_of_mem _ earlierMem) member

theorem separate_distinctFrom (seen dependencies : List Dependency) :
    Separate (distinctFrom seen dependencies) := by
  fun_induction distinctFrom seen dependencies with
  | case1 => exact .nil
  | case2 seen first rest known ih => exact ih
  | case3 seen first rest fresh ih =>
      refine List.pairwise_cons.2 ⟨?_, ih⟩
      intro later member
      exact same_eq_false_of_mem_distinctFrom List.mem_cons_self member

theorem distinctFrom_eq_self {seen dependencies : List Dependency}
    (separate : Separate dependencies)
    (fresh : ∀ dependency ∈ dependencies, ∀ earlier ∈ seen, dependency.same earlier = false) :
    distinctFrom seen dependencies = dependencies := by
  induction dependencies generalizing seen with
  | nil => rfl
  | cons first rest ih =>
      rcases List.pairwise_cons.1 separate with ⟨differs, separate⟩
      rw [List.forall_mem_cons] at fresh
      have unknown : seen.any (first.same ·) = false := by
        rw [List.any_eq_false]
        intro earlier member
        simp [fresh.1 earlier member]
      rw [distinctFrom, unknown]
      simp only [Bool.false_eq_true, if_false]
      rw [ih separate]
      intro dependency member earlier earlierMem
      rcases List.mem_cons.1 earlierMem with rfl | earlierMem
      · exact differs dependency member
      · exact fresh.2 dependency member earlier earlierMem

/-- A test that does not tell same dependencies apart may come before or after leaving repetitions
out. -/
theorem filter_distinctFrom (test : Dependency → Bool) {seen dependencies : List Dependency}
    (respects : ∀ dependency ∈ dependencies, ∀ other ∈ seen ++ dependencies,
      dependency.same other = true → test dependency = test other) :
    (distinctFrom seen dependencies).filter test =
      distinctFrom (seen.filter test) (dependencies.filter test) := by
  fun_induction distinctFrom seen dependencies with
  | case1 => rfl
  | case2 seen first rest known ih =>
      have others := ih fun dependency member other otherMem =>
        respects dependency (List.mem_cons_of_mem _ member) other (by grind)
      rcases List.any_eq_true.1 known with ⟨earlier, earlierMem, same⟩
      have agrees := respects first List.mem_cons_self earlier
        (List.mem_append_left _ earlierMem) same
      rw [others, List.filter_cons]
      split
      · rename_i passes
        have again : (seen.filter test).any (first.same ·) = true :=
          List.any_eq_true.2 ⟨earlier, List.mem_filter.2 ⟨earlierMem, agrees ▸ passes⟩, same⟩
        rw [distinctFrom, if_pos again]
      · rfl
  | case3 seen first rest fresh ih =>
      have others := ih fun dependency member other otherMem =>
        respects dependency (List.mem_cons_of_mem _ member) other (by grind)
      have unknown : ¬(seen.filter test).any (first.same ·) = true := by
        rw [List.any_eq_true] at fresh ⊢
        rintro ⟨earlier, earlierMem, same⟩
        exact fresh ⟨earlier, (List.mem_filter.1 earlierMem).1, same⟩
      cases passes : test first with
      | true =>
          rw [List.filter_cons_of_pos passes, List.filter_cons_of_pos passes, distinctFrom,
            if_neg unknown, others, List.filter_cons_of_pos passes]
      | false =>
          have fails : ¬test first = true := by simp [passes]
          rw [List.filter_cons_of_neg fails, List.filter_cons_of_neg fails, others,
            List.filter_cons_of_neg fails]

theorem isEmpty_ofList {dependencies : List Dependency} (nonempty : dependencies ≠ []) :
    (ofList dependencies).isEmpty = false := by
  cases dependencies with
  | nil => contradiction
  | cons dependency dependencies => rfl

theorem ofList_eq_self {list : DependencyList} (separate : Separate list.dependencies) :
    ofList list.dependencies = list := by
  rw [ofList, distinctFrom_eq_self separate (by simp)]

/-! ## What a list holds -/

theorem holds_eq_true_iff {list : DependencyList} {dependency : Dependency} :
    list.holds dependency = true ↔ ∃ known ∈ list.dependencies, dependency.same known = true := by
  rw [holds, List.any_eq_true]

theorem holds_of_mem {list : DependencyList} {dependency : Dependency}
    (member : dependency ∈ list.dependencies) : list.holds dependency = true :=
  holds_eq_true_iff.2 ⟨dependency, member, dependency.same_refl⟩

/-- Two lists are the same if and only if they hold the same dependencies. -/
theorem same_eq_true_iff {left right : DependencyList} :
    left.same right = true ↔
      ∀ dependency, left.holds dependency = true ↔ right.holds dependency = true := by
  have held {list other : DependencyList}
      (all : ∀ dependency ∈ list.dependencies, other.holds dependency = true)
      (dependency : Dependency) (holds : list.holds dependency = true) :
      other.holds dependency = true := by
    rcases holds_eq_true_iff.1 holds with ⟨known, member, same⟩
    rcases holds_eq_true_iff.1 (all known member) with ⟨found, foundMem, alike⟩
    exact holds_eq_true_iff.2 ⟨found, foundMem, Dependency.same_trans same alike⟩
  rw [same, Bool.and_eq_true, List.all_eq_true, List.all_eq_true]
  constructor
  · rintro ⟨forward, backward⟩ dependency
    exact ⟨held forward dependency, held backward dependency⟩
  · intro same
    exact ⟨fun dependency member => (same dependency).1 (holds_of_mem member),
      fun dependency member => (same dependency).2 (holds_of_mem member)⟩

theorem same_refl (list : DependencyList) : list.same list = true :=
  same_eq_true_iff.2 fun _ => Iff.rfl

theorem same_symm {left right : DependencyList} (same : left.same right = true) :
    right.same left = true := by
  rw [same_eq_true_iff] at same ⊢
  exact fun dependency => (same dependency).symm

theorem same_trans {first second third : DependencyList} (left : first.same second = true)
    (right : second.same third = true) : first.same third = true := by
  rw [same_eq_true_iff] at left right ⊢
  exact fun dependency => (left dependency).trans (right dependency)

theorem exists_mem_distinctFrom (seen : List Dependency) {dependencies : List Dependency}
    {dependency : Dependency} (member : dependency ∈ dependencies) :
    ∃ known ∈ seen ++ distinctFrom seen dependencies, dependency.same known = true := by
  fun_induction distinctFrom seen dependencies with
  | case1 => contradiction
  | case2 seen first rest known ih =>
      rcases List.mem_cons.1 member with rfl | member
      · rcases List.any_eq_true.1 known with ⟨earlier, earlierMem, same⟩
        exact ⟨earlier, List.mem_append_left _ earlierMem, same⟩
      · exact ih member
  | case3 seen first rest fresh ih =>
      rcases List.mem_cons.1 member with rfl | member
      · exact ⟨dependency, by simp, dependency.same_refl⟩
      · rcases ih member with ⟨known, knownMem, same⟩
        exact ⟨known, by simpa [or_left_comm] using knownMem, same⟩

/-- A list holds what it was made of. -/
theorem holds_ofList_eq_true_iff {dependencies : List Dependency} {dependency : Dependency} :
    (ofList dependencies).holds dependency = true ↔
      ∃ known ∈ dependencies, dependency.same known = true := by
  rw [holds_eq_true_iff]
  constructor
  · rintro ⟨known, member, same⟩
    exact ⟨known, mem_of_mem_distinctFrom member, same⟩
  · rintro ⟨known, member, same⟩
    rcases exists_mem_distinctFrom [] member with ⟨found, foundMem, alike⟩
    exact ⟨found, foundMem, Dependency.same_trans same alike⟩

theorem isEmpty_eq_of_same {left right : DependencyList} (same : left.same right = true) :
    left.isEmpty = right.isEmpty := by
  have exists_iff (list : DependencyList) :
      list.isEmpty = false ↔ ∃ dependency, list.holds dependency = true := by
    rw [isEmpty, List.isEmpty_eq_false_iff]
    constructor
    · intro nonempty
      rcases List.exists_mem_of_ne_nil _ nonempty with ⟨dependency, member⟩
      exact ⟨dependency, holds_of_mem member⟩
    · rintro ⟨dependency, holds⟩
      rcases holds_eq_true_iff.1 holds with ⟨known, member, -⟩
      exact List.ne_nil_of_mem member
  rw [Bool.eq_iff_iff, ← Bool.not_eq_false, ← Bool.not_eq_false, exists_iff, exists_iff]
  simp only [same_eq_true_iff.1 same]

/-! ## Filtering -/

theorem keeps_eq_true_iff {dependency : Dependency} {replacement : Option Dependency} :
    keeps dependency replacement = true ↔
      ∃ kept, replacement = some kept ∧ kept.same dependency = true := by
  simp [keeps, Option.any_eq_true]

/-- Filtering looks at each dependency once. -/
theorem filter_eq (transformation : Dependency → Option Dependency) (list : DependencyList) :
    list.filter transformation =
      if list.dependencies.all fun dependency => keeps dependency (transformation dependency) then
        ⟨list, true⟩
      else
        ⟨ofList (list.dependencies.filterMap transformation), false⟩ := by
  rw [filter, replace, ← List.map_prod_left_eq_zip, List.all_map, List.filterMap_map]
  rfl

theorem unchanged_filter_iff {transformation : Dependency → Option Dependency}
    {list : DependencyList} :
    (list.filter transformation).unchanged = true ↔ ∀ dependency ∈ list.dependencies,
      ∃ kept, transformation dependency = some kept ∧ kept.same dependency = true := by
  simp only [← keeps_eq_true_iff, ← List.all_eq_true, filter_eq]
  split <;> simp_all

theorem value_filter_of_unchanged {transformation : Dependency → Option Dependency}
    {list : DependencyList} (unchanged : (list.filter transformation).unchanged = true) :
    (list.filter transformation).value = list := by
  rw [filter_eq] at unchanged ⊢
  split at unchanged
  · rw [if_pos (by assumption)]
  · contradiction

theorem value_filter_of_changed {transformation : Dependency → Option Dependency}
    {list : DependencyList} (changed : (list.filter transformation).unchanged = false) :
    (list.filter transformation).value =
      ofList (list.dependencies.filterMap transformation) := by
  rw [filter_eq] at changed ⊢
  split at changed
  · contradiction
  · rw [if_neg (by assumption)]

/-- A filtered list holds what the transformation makes of its dependencies, whether the list itself
was kept or not. -/
theorem holds_filter_eq_true_iff {transformation : Dependency → Option Dependency}
    {list : DependencyList} {dependency : Dependency} :
    (list.filter transformation).value.holds dependency = true ↔ ∃ known ∈ list.dependencies,
      ∃ kept, transformation known = some kept ∧ dependency.same kept = true := by
  rcases unchanged : (list.filter transformation).unchanged with _ | _
  · rw [value_filter_of_changed unchanged, holds_ofList_eq_true_iff]
    simp only [List.mem_filterMap]
    constructor
    · rintro ⟨kept, ⟨known, member, transformed⟩, same⟩
      exact ⟨known, member, kept, transformed, same⟩
    · rintro ⟨known, member, kept, transformed, same⟩
      exact ⟨kept, ⟨known, member, transformed⟩, same⟩
  · rw [value_filter_of_unchanged unchanged, holds_eq_true_iff]
    rw [unchanged_filter_iff] at unchanged
    constructor
    · rintro ⟨known, member, same⟩
      rcases unchanged known member with ⟨kept, transformed, alike⟩
      rw [Dependency.same_comm] at alike
      exact ⟨known, member, kept, transformed, Dependency.same_trans same alike⟩
    · rintro ⟨known, member, kept, transformed, same⟩
      rcases unchanged known member with ⟨_, again, alike⟩
      rcases Option.some.inj (transformed.symm.trans again) with rfl
      exact ⟨known, member, Dependency.same_trans same alike⟩

end DependencyList

end BundleDecl
