import Mathlib
import AlgebraicModel.Proofs.Grouping
import AlgebraicModel.Variable

/-!
# First occurrences

Leaving out repeated identities loses no identity, and leaves none twice.

## Main results

* `Variable.exists_mem_distinct`: every identity is kept
* `Variable.nodup_distinct`: no identity is kept twice
-/

namespace AlgebraicModel.Variable

/-- What is kept of a list are the leaders of the identities. -/
theorem distinct_eq_leaders (vs : List Variable) : distinct vs = Grouping.leaders (·.id) vs := by
  induction vs with
  | nil => rfl
  | cons v vs ih => rw [distinct, Grouping.leaders, ih]

theorem distinct_subset {vs : List Variable} : distinct vs ⊆ vs := by
  rw [distinct_eq_leaders]
  exact Grouping.leaders_subset

theorem exists_mem_distinct {vs : List Variable} {v : Variable} (hv : v ∈ vs) :
    ∃ u ∈ distinct vs, u.id = v.id := by
  have hid : v.id ∈ (Grouping.leaders (·.id) vs).map (·.id) :=
    Grouping.key_mem_leaders.mpr (List.mem_map_of_mem hv)
  rw [distinct_eq_leaders]
  exact List.mem_map.mp hid

/-- What holds of the identities that are kept holds of all. -/
theorem forall_distinct_iff {vs : List Variable} {p : VariableId → Prop} :
    (∀ v ∈ distinct vs, p v.id) ↔ ∀ v ∈ vs, p v.id := by
  constructor
  · intro h v hv
    obtain ⟨u, hu, hid⟩ := exists_mem_distinct hv
    exact hid ▸ h u hu
  · intro h v hv
    exact h v (distinct_subset hv)

theorem nodup_distinct (vs : List Variable) : ((distinct vs).map (·.id)).Nodup := by
  rw [distinct_eq_leaders]
  exact Grouping.nodup_leaders (·.id) vs

end AlgebraicModel.Variable
