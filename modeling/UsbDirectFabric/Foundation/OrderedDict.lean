import Mathlib.Data.List.Nodup

/-!
# Dictionaries that remember the order of insertion

A dictionary is the list of its entries, one for each key. Assigning to a key that is there keeps
its place, a new key goes to the end, and deleting a key closes the gap.
-/

structure OrderedDict (κ ν : Type*) where
  entries : List (κ × ν)
  nodup_keys : (entries.map Prod.fst).Nodup

namespace OrderedDict

variable {κ ν : Type*}

def empty : OrderedDict κ ν := ⟨[], List.nodup_nil⟩

@[simp]
theorem mem_entries_empty {entry : κ × ν} : entry ∈ (empty : OrderedDict κ ν).entries ↔ False := by
  simp [empty]

variable [DecidableEq κ]

/-- The entries after an assignment `dict[key] = value`. -/
def assigned (key : κ) (value : ν) (entries : List (κ × ν)) : List (κ × ν) :=
  if key ∈ entries.map Prod.fst then
    entries.map fun entry ↦ if entry.1 = key then (key, value) else entry
  else entries ++ [(key, value)]

theorem keys_assigned (key : κ) (value : ν) (entries : List (κ × ν)) :
    (assigned key value entries).map Prod.fst =
      if key ∈ entries.map Prod.fst then entries.map Prod.fst
      else entries.map Prod.fst ++ [key] := by
  unfold assigned
  split
  · rw [List.map_map]
    apply List.map_congr_left
    intro entry _
    simp only [Function.comp_apply]
    split
    · rename_i hkey
      exact hkey.symm
    · rfl
  · rw [List.map_append, List.map_singleton]

/-- `dict[key] = value`. -/
def insert (dict : OrderedDict κ ν) (key : κ) (value : ν) : OrderedDict κ ν where
  entries := assigned key value dict.entries
  nodup_keys := by
    rw [keys_assigned]
    split
    · exact dict.nodup_keys
    · rename_i hnew
      rw [← List.concat_eq_append]
      exact dict.nodup_keys.concat hnew

/-- `dict.pop(key, None)`. -/
def erase (dict : OrderedDict κ ν) (key : κ) : OrderedDict κ ν where
  entries := dict.entries.filter (·.1 ≠ key)
  nodup_keys := dict.nodup_keys.sublist (List.filter_sublist.map Prod.fst)

theorem mem_entries_insert (dict : OrderedDict κ ν) {key other : κ} {value found : ν} :
    (other, found) ∈ (dict.insert key value).entries ↔
      if other = key then found = value else (other, found) ∈ dict.entries := by
  simp only [insert, assigned]
  split
  · rename_i hkey
    rw [List.mem_map]
    constructor
    · rintro ⟨entry, hentry, hequal⟩
      split at hequal
      · cases hequal
        simp
      · rename_i hother
        subst hequal
        rwa [if_neg hother]
    · intro hfound
      split at hfound
      · rename_i hother
        obtain ⟨entry, hentry, hfst⟩ := List.mem_map.mp hkey
        exact ⟨entry, hentry, by rw [if_pos hfst, hother, hfound]⟩
      · rename_i hother
        exact ⟨(other, found), hfound, if_neg hother⟩
  · rename_i hnew
    rw [List.mem_append, List.mem_singleton, Prod.mk.injEq]
    split
    · rename_i hother
      subst hother
      have habsent : (other, found) ∉ dict.entries := fun hmem ↦
        hnew (List.mem_map.mpr ⟨_, hmem, rfl⟩)
      simp [habsent]
    · rename_i hother
      simp [hother]

theorem mem_entries_erase (dict : OrderedDict κ ν) {key other : κ} {found : ν} :
    (other, found) ∈ (dict.erase key).entries ↔ other ≠ key ∧ (other, found) ∈ dict.entries := by
  simp [erase, and_comm]

/-- Deleting keys one after the other removes their entries and no others. -/
theorem mem_entries_foldl_erase (dict : OrderedDict κ ν) {keys : List κ} {other : κ} {found : ν} :
    (other, found) ∈ (keys.foldl erase dict).entries ↔
      other ∉ keys ∧ (other, found) ∈ dict.entries := by
  induction keys generalizing dict with
  | nil => simp
  | cons key keys ih =>
      rw [List.foldl_cons, ih, mem_entries_erase, List.mem_cons, not_or]
      tauto

end OrderedDict
