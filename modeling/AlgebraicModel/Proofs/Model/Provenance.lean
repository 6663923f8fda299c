import Mathlib
import AlgebraicModel.Proofs.Model.Reachable

/-!
# Where the contents of a model come from

Along a run, a model holds no expression but those that an operation came with. Its variables have
identities as long as the supply has not started over, for only then does it give out zero.

## Main definitions

* `Model.Holds`: the sides of the constraints, and the objective
* `IdSupply.given`: how many identities have been given out

## Main results

* `Workspace.exists_brings_of_holds`: every expression came with an operation
* `Workspace.isInitialized_of_mem_run`: every variable has an identity
-/

namespace AlgebraicModel

variable {α μ : Type}

/-! ## Identities from the supply -/

namespace IdSupply

/-- How many identities have been given out, as long as the supply has not started over. -/
def given (s : IdSupply) : ℕ :=
  (s.next - 1).toNat

/-- Short of the last one, the next identity is not zero. -/
theorem take_spec {s : IdSupply} (h : s.given + 1 < 2 ^ 64) :
    s.take.1.isInitialized ∧ s.take.2.given = s.given + 1 := by
  have hgiven : s.given = (2 ^ 64 - 1 + s.next.toNat) % 2 ^ 64 := UInt64.toNat_sub _ _
  have hlt := s.next.toNat_lt
  have hnext : s.next.toNat = s.given + 1 := by omega
  constructor
  · have hne : s.next ≠ 0 := by
      intro hzero
      rw [hzero] at hnext
      simp at hnext
    simpa [take, VariableId.isInitialized] using hne
  · rw [← hnext, take, given]
    simp

/-- The same for several identities at once. -/
theorem vector_spec {s : IdSupply} {n : ℕ} (h : s.given + n < 2 ^ 64) :
    (∀ id ∈ (s.vector n).1.map (·.id), id.isInitialized) ∧
      (s.vector n).2.given = s.given + n := by
  induction n generalizing s with
  | zero => simp [vector]
  | succ n ih =>
    obtain ⟨hfirst, htake⟩ := take_spec (s := s) (by omega)
    obtain ⟨hrest, hvector⟩ := ih (s := s.take.2) (by omega)
    constructor
    · exact List.forall_mem_cons.mpr ⟨hfirst, hrest⟩
    · calc (s.vector (n + 1)).2.given = s.take.2.given + n := hvector
        _ = s.given + (n + 1) := by rw [htake, add_assoc, add_comm 1 n]

end IdSupply

/-- The expressions of a model: the sides of its constraints, and its objective. -/
def Model.Holds (m : Model α μ) (e : Expression α) : Prop :=
  (∃ p ∈ m.constraints, e = p.2.lhs ∨ e = p.2.rhs) ∨ ∃ o, m.objective? = some o ∧ e = o.expression

namespace Workspace

variable [Scalar α] {w w' : Workspace α μ} {a : Action α μ} {vs : List Variable}

/-! ## Variables with an identity -/

/-- An action gives out no more identities than it draws. -/
theorem Effect.given_le (h : w.Effect a vs w') (hids : w.ids.given + a.draws < 2 ^ 64) :
    w'.ids.given ≤ w.ids.given + a.draws := by
  cases h with
  | draw vs hsubset hvs => exact (IdSupply.vector_spec hids).2.le
  | adopt | constrain | objective | label => exact Nat.le_add_right _ _

theorem Effect.isInitialized (h : w.Effect a vs w') (hids : w.ids.given + a.draws < 2 ^ 64)
    (hw : ∀ v ∈ w.model.vars, v.id.isInitialized) : ∀ v ∈ w'.model.vars, v.id.isInitialized := by
  cases h with
  | draw vs hsubset hvs =>
    have hvector := (IdSupply.vector_spec hids).1
    exact List.forall_mem_append.mpr
      ⟨hw, fun v hv => hvector v.id (hsubset (List.mem_map_of_mem hv))⟩
  | adopt v hcheck hnew =>
    refine List.forall_mem_append.mpr ⟨hw, List.forall_mem_singleton.mpr ?_⟩
    exact (Variable.check_eq_ok_iff.mp hcheck).1
  | constrain | objective | label => exact hw

/-- **Every variable has an identity** as long as the supply has not started over. -/
theorem isInitialized_of_mem_run {history : List (Action α μ)}
    (hids : w.ids.given + (history.map (·.draws)).sum < 2 ^ 64)
    (hw : ∀ v ∈ w.model.vars, v.id.isInitialized) :
    ∀ v ∈ (w.run history).model.vars, v.id.isInitialized := by
  -- What has been given out and what is still to be drawn stay within the bound.
  induction history generalizing w with
  | nil => exact hw
  | cons a history ih =>
    rw [List.map_cons, List.sum_cons] at hids
    have heffect := effect_step w a
    have hgiven := heffect.given_le (by omega)
    exact ih (by omega) (heffect.isInitialized (by omega) hw)

/-! ## Expressions -/

/-- An expression of the model was there before, or came with the action. -/
theorem Effect.holds (h : w.Effect a vs w') {e : Expression α} (he : w'.model.Holds e) :
    w.model.Holds e ∨ a.Brings e := by
  cases h with
  | draw | adopt | label => exact .inl he
  | constrain c hbrings hcheck hregistered hlast =>
    rcases he with ⟨p, hp, hside⟩ | hobjective
    · rcases List.mem_append.mp hp with hp | hp
      · exact .inl (.inl ⟨p, hp, hside⟩)
      · obtain rfl := List.mem_singleton.mp hp
        rcases hside with rfl | rfl
        · exact .inr hbrings.1
        · exact .inr hbrings.2
    · exact .inl (.inr hobjective)
  | objective direction e' hbrings hadmits =>
    rcases he with hside | ⟨o, ho, rfl⟩
    · exact .inl (.inl hside)
    · obtain rfl := Option.some.inj ho
      exact .inr hbrings

/-- **Every expression of a model came with an operation.** -/
theorem exists_brings_of_holds (hw : w.Initial) {history : List (Action α μ)} {e : Expression α}
    (he : (w.run history).model.Holds e) : ∃ a ∈ history, a.Brings e := by
  induction history using List.reverseRecOn with
  | nil =>
    obtain ⟨config, -, hmodel⟩ := hw.exists_config
    simp [Model.Holds, hmodel] at he
  | append_singleton history a ih =>
    rw [run_concat] at he
    rcases (effect_step _ a).holds he with he | hbrings
    · obtain ⟨b, hb, hbrings⟩ := ih he
      exact ⟨b, by simp [hb], hbrings⟩
    · exact ⟨a, by simp, hbrings⟩

end Workspace

end AlgebraicModel
