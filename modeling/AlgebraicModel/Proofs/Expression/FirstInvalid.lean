import Mathlib
import AlgebraicModel.Proofs.Except.Failure
import AlgebraicModel.Proofs.Expression.Validity
import AlgebraicModel.Scalar.Double

/-!
# The first invalid occurrence

The check of an expression wraps an error once for each level that it passes on the way out: with
the term of a polynomial, then with the slot of a vector. A scalar has no slots and a monomial no
terms, so the six kinds of nodes wrap in different ways. All of them are one rule on the list of
the occurrences of variables: find the first invalid record, and report where it stands.

Other inspections list every identity once. The check does not: a second record of an identity is
an occurrence of its own, and it may be the only one with bounds out of order.

## Main definitions

* `Expression.Occurrence`: a record of a variable with the slot and the term where it stands
* `Expression.occurrences`: all of them, in the order of slots, terms and factors
* `Expression.Occurrence.locate`, `place`: an error at an occurrence, and how its message begins
* `Expression.Error.Reports`: an error that is the place of another one

## Main results

* `Expression.records_occurrences`: every record of a variable occurs, repeated ones included
* `Expression.failure?_check`: the check finds the first invalid occurrence
* `Expression.Occurrence.reports_locate`, `message_locate`: its error unwinds to the cause
* `Expression.check_pinpoints_first_invalid`: what the check answers
-/

namespace AlgebraicModel

namespace Expression

variable {α : Type}

/-! ## Occurrences -/

/-- A record of a variable and where it stands: in a slot of a vector or in a scalar, in a term of
a polynomial or by itself. -/
structure Occurrence where
  slot? : Option ℕ
  term? : Option ℕ
  record : Variable

/-- The factors of a monomial, at one place. -/
def monomialOccurrences (slot? term? : Option ℕ) (m : Monomial α) : List Occurrence :=
  m.bases.map fun v => ⟨slot?, term?, v⟩

/-- The factors of the terms of a polynomial, term by term. -/
def polynomialOccurrences (slot? : Option ℕ) (p : Polynomial α) : List Occurrence :=
  p.terms.zipIdx.flatMap fun (t, j) => monomialOccurrences slot? (some j) t

/-- What occurs in a scalar, or in a vector slot by slot. -/
def slotOccurrences {β : Type} (inside : Option ℕ → β → List Occurrence) :
    Slots β → List Occurrence
  | .scalar x => inside none x
  | .vector xs => xs.zipIdx.flatMap fun (x, i) => inside (some i) x

/-- The occurrences of variables in an expression, in the order of slots, terms and factors. -/
def occurrences : Expression α → List Occurrence
  | const _ => []
  | var vs => slotOccurrences (fun slot? v => [⟨slot?, none, v⟩]) vs
  | mono ms => slotOccurrences (fun slot? m => monomialOccurrences slot? none m) ms
  | poly ps => slotOccurrences polynomialOccurrences ps

section Records

variable {β : Type}

theorem records_monomialOccurrences (slot? term? : Option ℕ) (m : Monomial α) :
    (monomialOccurrences slot? term? m).map (·.record) = m.bases := by
  rw [monomialOccurrences, List.map_map]
  exact List.map_id _

/-- Numbering the elements of a list does not change what is found in them. -/
theorem flatMap_zipIdx {γ : Type} (f : β → List γ) (xs : List β) :
    xs.zipIdx.flatMap (fun p => f p.1) = xs.flatMap f := by
  rw [← List.flatMap_map Prod.fst f, List.zipIdx_map_fst]

theorem records_polynomialOccurrences (slot? : Option ℕ) (p : Polynomial α) :
    (polynomialOccurrences slot? p).map (·.record) = p.terms.flatMap (·.bases) := by
  rw [polynomialOccurrences, List.map_flatMap]
  simp only [records_monomialOccurrences]
  exact flatMap_zipIdx (·.bases) p.terms

theorem records_slotOccurrences {inside : Option ℕ → β → List Occurrence}
    {bases : β → List Variable} (h : ∀ slot? x, (inside slot? x).map (·.record) = bases x)
    (s : Slots β) : (slotOccurrences inside s).map (·.record) = s.toList.flatMap bases := by
  cases s with
  | scalar x =>
    show (inside none x).map (·.record) = [x].flatMap bases
    rw [h, List.flatMap_singleton]
  | vector xs =>
    rw [slotOccurrences, List.map_flatMap]
    simp only [h]
    exact flatMap_zipIdx bases xs

end Records

/-- **Every record of a variable occurs**, repeated identities included. -/
theorem records_occurrences (e : Expression α) : e.occurrences.map (·.record) = e.bases := by
  cases e with
  | const xs => rfl
  | var vs =>
    have hrecord (slot? : Option ℕ) (v : Variable) :
        [(⟨slot?, none, v⟩ : Occurrence)].map (·.record) = [v] := rfl
    exact (records_slotOccurrences hrecord vs).trans (List.flatMap_singleton' _)
  | mono ms =>
    have hrecords (slot? : Option ℕ) (m : Monomial α) :=
      records_monomialOccurrences slot? none m
    exact records_slotOccurrences hrecords ms
  | poly ps => exact records_slotOccurrences records_polynomialOccurrences ps

/-! ## Errors at an occurrence -/

/-- An error in a slot of a vector; a scalar has no slots to report. -/
def inSlot : Option ℕ → Error α → Error α
  | none, cause => cause
  | some i, cause => .element i cause

/-- An error in a term of a polynomial; outside of one there is no term to report. -/
def inTerm : Option ℕ → Error α → Error α
  | none, cause => cause
  | some j, cause => .term j cause

/-- An error is the place of another one, which it has as its source. -/
def Error.Reports (e cause : Error α) : Prop :=
  e.source? = some cause

namespace Occurrence

/-- An error at an occurrence, wrapped with its term and then with its slot. -/
def locate (o : Occurrence) (cause : Error α) : Error α :=
  inSlot o.slot? (inTerm o.term? cause)

/-- How the message of an error at an occurrence begins. -/
def place (o : Occurrence) : String :=
  o.slot?.elim "" (fun i => s!"element {i} has an issue: ") ++
    o.term?.elim "" (fun j => s!"term {j} has an issue: ")

/-- The error of the check at an occurrence, if its record is invalid. -/
def error? (o : Occurrence) : Option (Error α) :=
  (failure? o.record.check).map fun fault => o.locate (.invalidVariable fault)

/-- From the error at an occurrence, the sources lead to the cause. -/
theorem reports_locate (o : Occurrence) (cause : Error α) :
    Relation.ReflTransGen Error.Reports (o.locate cause) cause := by
  obtain ⟨slot?, term?, v⟩ := o
  have hterm : Relation.ReflTransGen Error.Reports (inTerm term? cause) cause := by
    cases term? with
    | none => exact .refl
    | some j => exact .single rfl
  cases slot? with
  | none => exact hterm
  | some i => exact .head rfl hterm

/-- The message of an error at an occurrence is that of its cause, after the place. -/
theorem message_locate (o : Occurrence) (cause : Error α) :
    (o.locate cause).message = o.place ++ cause.message := by
  obtain ⟨slot?, term?, v⟩ := o
  have hterm : (inTerm term? cause).message =
      term?.elim "" (fun j => s!"term {j} has an issue: ") ++ cause.message := by
    cases term? with
    | none => exact (String.empty_append).symm
    | some j => rfl
  rw [place, String.append_assoc, ← hterm]
  cases slot? with
  | none => exact (String.empty_append).symm
  | some i => rfl

theorem error?_eq_none_iff {o : Occurrence} :
    (o.error? : Option (Error α)) = none ↔ o.record.check = .ok () := by
  rw [error?, Option.map_eq_none_iff, failure?_eq_none_iff, Unique.exists_iff]

theorem error?_eq_some_iff {o : Occurrence} {cause : Error α} :
    o.error? = some cause ↔
      ∃ fault, o.record.check = .error fault ∧ o.locate (.invalidVariable fault) = cause := by
  simp only [error?, Option.map_eq_some_iff, failure?_eq_some_iff]

end Occurrence

/-! ## The check -/

section Check

variable {β : Type}

theorem failure?_checkEach {ε : Type} (wrap : ℕ → ε → ε) (check : β → Except ε Unit)
    (xs : List β) : failure? (checkEach wrap check xs) =
      xs.zipIdx.findSome? fun p => (failure? (check p.1)).map (wrap p.2) := by
  rw [checkEach, failure?_forM]
  simp only [failure?_mapError]

/-- One monomial: its first invalid factor is reported as it is, and the levels around it add the
term and the slot. -/
theorem findSome?_monomialOccurrences (slot? term? : Option ℕ) (m : Monomial α) :
    (monomialOccurrences slot? term? m).findSome? Occurrence.error? =
      (failure? (checkMonomial m)).map fun cause => inSlot slot? (inTerm term? cause) := by
  rw [monomialOccurrences, List.findSome?_map, checkMonomial, failure?_mapError, Option.map_map,
    Monomial.check, failure?_forM, List.map_findSome?]
  rfl

/-- One polynomial: the number of the first invalid term is added. -/
theorem findSome?_polynomialOccurrences (slot? : Option ℕ) (p : Polynomial α) :
    (polynomialOccurrences slot? p).findSome? Occurrence.error? =
      (failure? (checkPolynomial p)).map (inSlot slot?) := by
  rw [polynomialOccurrences, findSome?_flatMap, checkPolynomial, failure?_checkEach,
    List.map_findSome?]
  simp only [findSome?_monomialOccurrences]
  apply findSome?_congr
  intro q hq
  exact (Option.map_map (inSlot slot?) (Error.term q.2) _).symm

/-- The slots of an expression: the number of the first invalid slot is added in a vector. -/
theorem failure?_slotsCheck {check : β → Except (Error α) Unit}
    {inside : Option ℕ → β → List Occurrence}
    (h : ∀ slot? x, (inside slot? x).findSome? Occurrence.error? =
      (failure? (check x)).map (inSlot slot?)) (s : Slots β) :
    failure? (s.check check) = (slotOccurrences inside s).findSome? Occurrence.error? := by
  cases s with
  | scalar x => exact ((h none x).trans Option.map_id').symm
  | vector xs =>
    rw [Slots.check, failure?_checkEach, slotOccurrences, findSome?_flatMap]
    simp only [h]
    rfl

/-- **The check finds the first invalid occurrence**, and reports its place. -/
theorem failure?_check (e : Expression α) :
    failure? e.check = e.occurrences.findSome? Occurrence.error? := by
  cases e with
  | const xs => rfl
  | var vs =>
    rw [check, occurrences]
    apply failure?_slotsCheck
    intro slot? v
    rw [checkVariable, failure?_mapError, Option.map_map, List.findSome?_singleton]
    rfl
  | mono ms =>
    exact failure?_slotsCheck (fun slot? m => findSome?_monomialOccurrences slot? none m) ms
  | poly ps => exact failure?_slotsCheck findSome?_polynomialOccurrences ps

theorem check_eq_error_iff {e : Expression α} {cause : Error α} :
    e.check = .error cause ↔ ∃ before o after fault, e.occurrences = before ++ o :: after ∧
      (∀ p ∈ before, p.record.check = .ok ()) ∧ o.record.check = .error fault ∧
        cause = o.locate (.invalidVariable fault) := by
  rw [← failure?_eq_some_iff, failure?_check, List.findSome?_eq_some_iff]
  simp only [Occurrence.error?_eq_none_iff, Occurrence.error?_eq_some_iff]
  constructor
  · rintro ⟨before, o, after, hsplit, ⟨fault, hfault, rfl⟩, hbefore⟩
    exact ⟨before, o, after, fault, hsplit, hbefore, hfault, rfl⟩
  · rintro ⟨before, o, after, fault, hsplit, hbefore, hfault, rfl⟩
    exact ⟨before, o, after, hsplit, ⟨fault, hfault, rfl⟩, hbefore⟩

end Check

/-- The check is passed if every record has an identity, and two bounds in order. -/
theorem check_eq_ok_iff_forall_occurrences {e : Expression α} :
    e.check = .ok () ↔ ∀ o ∈ e.occurrences, o.record.id.value ≠ 0 ∧
      o.record.bounds.lower.isNaN = false ∧ o.record.bounds.upper.isNaN = false ∧
      o.record.bounds.lower ≤ o.record.bounds.upper := by
  rw [check_eq_ok_iff, ← records_occurrences, List.forall_mem_map]
  apply forall₂_congr
  intro o ho
  rw [Variable.check_eq_ok_iff, VariableId.isInitialized, Bounds.isValid]
  simp [and_assoc]

/-- **The check pinpoints the first invalid occurrence.** The occurrences are the records of
variables in the order of slots, terms and factors, repeated identities included. The check is
passed if and only if every one of them has an identity, no bound that is missing, and bounds in
order. Otherwise its error is what is wrong with the first record for which that fails, wrapped
with its term if it stands in a polynomial and then with its slot if it stands in a vector. The
sources of that error lead to its cause and end there, and its message is that of the cause after
the places. -/
theorem check_pinpoints_first_invalid (e : Expression α) :
    e.occurrences.map (·.record) = e.bases ∧
    (e.check = .ok () ↔ ∀ o ∈ e.occurrences, o.record.id.value ≠ 0 ∧
      o.record.bounds.lower.isNaN = false ∧ o.record.bounds.upper.isNaN = false ∧
      o.record.bounds.lower ≤ o.record.bounds.upper) ∧
    (∀ err, e.check = .error err ↔
      ∃ before o after fault, e.occurrences = before ++ o :: after ∧
        (∀ p ∈ before, p.record.check = .ok ()) ∧ o.record.check = .error fault ∧
        err = o.locate (.invalidVariable fault)) ∧
    ∀ (o : Occurrence) (fault : Variable.Fault), let cause : Error α := .invalidVariable fault
      Relation.ReflTransGen Error.Reports (o.locate cause) cause ∧ cause.source? = none ∧
        (o.locate cause).message = o.place ++ cause.message := by
  refine ⟨e.records_occurrences, check_eq_ok_iff_forall_occurrences, ?_, ?_⟩
  · intro err
    exact check_eq_error_iff
  · intro o fault cause
    exact ⟨o.reports_locate cause, rfl, o.message_locate cause⟩

/-- Bounds out of order are found in the second record of a variable, which is not listed among
the variables of the expression. -/
example :
    let x : Variable := ⟨⟨1⟩, {}, .integer⟩
    let y : Variable := ⟨⟨1⟩, ⟨3, 1⟩, .integer⟩
    let e : Expression Float := poly (.vector [⟨[⟨2, []⟩]⟩, ⟨[⟨2, [⟨x, 1⟩]⟩, ⟨5, [⟨y, 2⟩]⟩]⟩])
    (e.vars == [x]) = true ∧ (failure? e.check).map Error.message = some
      ("element 1 has an issue: term 1 has an issue: [VARIABLE_INVALID_BOUNDS] " ++
        "Variable 1 bounds invalid: lower (3) > upper (1)") := by
  decide +kernel

end Expression

end AlgebraicModel
