import Mathlib.Data.List.Sort
import Mathlib.Order.Basic

/-!
# Sweeps through sorted lists

A sweep visits the elements of a list one after the other until a visit ends it, and collects what
the visits leave behind. In a sorted list the visit that ends the sweep is that of the least element
whose visit ends one, so the sweep of a sorted list says nothing about the order in which its
elements were given.
-/

namespace Sweep

variable {α β ρ : Type*}

/-- The result of the first visit that has one, and what all visits up to it leave behind. -/
def sweep (visit : α → Option ρ × List β) : List α → Option ρ × List β
  | [] => (none, [])
  | one :: rest =>
      match visit one with
      | (some result, left) => (some result, left)
      | (none, left) => ((sweep visit rest).1, left ++ (sweep visit rest).2)

def sorted [LinearOrder α] (names : List α) : List α :=
  names.mergeSort fun first second ↦ first ≤ second

variable {visit : α → Option ρ × List β}

theorem sweep_fst (list : List α) :
    (sweep visit list).1 = list.findSome? fun one ↦ (visit one).1 := by
  induction list with
  | nil => rfl
  | cons one rest ih =>
      rw [sweep, List.findSome?_cons]
      rcases hvisit : visit one with ⟨_ | result, left⟩
      · exact ih
      · rfl

theorem sweep_eq_none_iff (list : List α) :
    (sweep visit list).1 = none ↔ ∀ one ∈ list, (visit one).1 = none := by
  rw [sweep_fst, List.findSome?_eq_none_iff]

section Sorted

variable [LinearOrder α] {list : List α} {names : List α}

theorem pairwise_sorted (names : List α) : (sorted names).Pairwise (· ≤ ·) := by
  have hsorted := @List.pairwise_mergeSort α (fun first second ↦ decide (first ≤ second))
    (by simpa using fun _ _ _ ↦ le_trans) (by simpa using le_total) names
  simpa [sorted] using hsorted

@[simp]
theorem mem_sorted {one : α} : one ∈ sorted names ↔ one ∈ names :=
  List.mem_mergeSort

/-- Every element before `one` is passed without a result. -/
def Passed (visit : α → Option ρ × List β) (names : List α) (one : α) : Prop :=
  ∀ other ∈ names, other < one → (visit other).1 = none

variable {one : α} {rest : List α}

theorem passed_head (hleast : ∀ other ∈ rest, one ≤ other) : Passed visit (one :: rest) one := by
  intro other hother hless
  rcases List.mem_cons.mp hother with rfl | hrest
  · exact absurd hless (lt_irrefl _)
  · exact absurd hless (not_lt.mpr (hleast other hrest))

theorem passed_cons (hvisit : (visit one).1 = none) {later : α} :
    Passed visit (one :: rest) later ↔ Passed visit rest later := by
  simp [Passed, hvisit]

/-- A visit with a result ends the sweep, so nothing after it is reached. -/
theorem eq_head_of_passed {later : α} (hvisit : (visit one).1 ≠ none)
    (hleast : ∀ other ∈ rest, one ≤ other) (hmem : later ∈ one :: rest)
    (hpassed : Passed visit (one :: rest) later) : later = one := by
  rcases List.mem_cons.mp hmem with rfl | hrest
  · rfl
  · by_contra hother
    have hless : one < later := lt_of_le_of_ne (hleast later hrest) (Ne.symm hother)
    exact hvisit (hpassed one List.mem_cons_self hless)

/-- The result of a sweep is that of the least element whose visit has one. -/
theorem sweep_eq_some_iff (hsorted : list.Pairwise (· ≤ ·)) {result : ρ} :
    (sweep visit list).1 = some result ↔
      ∃ one ∈ list, (visit one).1 = some result ∧ Passed visit list one := by
  induction list with
  | nil => simp [sweep]
  | cons one rest ih =>
      obtain ⟨hleast, hrest⟩ := List.pairwise_cons.mp hsorted
      rw [sweep]
      rcases hvisit : visit one with ⟨_ | found, left⟩
      · have hnone : (visit one).1 = none := by rw [hvisit]
        simp [ih hrest, passed_cons hnone, hnone]
      · have hsome : (visit one).1 = some found := by rw [hvisit]
        constructor
        · rintro ⟨⟩
          exact ⟨one, List.mem_cons_self, hsome, passed_head hleast⟩
        · rintro ⟨later, hmem, hresult, hpassed⟩
          obtain rfl := eq_head_of_passed (by simp [hsome]) hleast hmem hpassed
          exact hsome.symm.trans hresult

/-- What is left behind comes from the elements up to the one that ends the sweep. -/
theorem mem_sweep_iff (hsorted : list.Pairwise (· ≤ ·)) {item : β} :
    item ∈ (sweep visit list).2 ↔
      ∃ one ∈ list, item ∈ (visit one).2 ∧ Passed visit list one := by
  induction list with
  | nil => simp [sweep]
  | cons one rest ih =>
      obtain ⟨hleast, hrest⟩ := List.pairwise_cons.mp hsorted
      rw [sweep]
      rcases hvisit : visit one with ⟨_ | found, left⟩
      · have hnone : (visit one).1 = none := by rw [hvisit]
        have hhead : Passed visit rest one := (passed_cons hnone).mp (passed_head hleast)
        simp [ih hrest, passed_cons hnone, hvisit, hhead]
      · have hsome : (visit one).1 = some found := by rw [hvisit]
        constructor
        · intro hleft
          exact ⟨one, List.mem_cons_self, by rwa [hvisit], passed_head hleast⟩
        · rintro ⟨later, hmem, hitem, hpassed⟩
          obtain rfl := eq_head_of_passed (by simp [hsome]) hleast hmem hpassed
          rwa [hvisit] at hitem

end Sorted

end Sweep
