import Tenancy.Proofs.Store.Error

/-!
# Errors of errors

Errors that are put together again and again could be nested to any depth.  `ErrorTree` lets them,
and allows for lists of one error or none; `ErrorTree.aggregate` looks into a list but not into the
lists of that list.  All the same, what it makes of plain errors is flat, however often it is
applied: an error is made in this way exactly if it is the tree of a `StoreError`
(`ErrorTree.isMade_iff`), of which the causes stand in one list, and aggregation is then
`StoreError.combine` (`ErrorTree.aggregate_toTree`).  Hence what holds of aggregation
(`aggregation_keeps_causes`).
-/

namespace Tenancy

inductive ErrorTree where
  | plain (cause : Cause)
  | list (errors : List ErrorTree)

namespace ErrorTree

def parts : ErrorTree → List ErrorTree
  | .plain cause => [.plain cause]
  | .list errors => errors

/-- The error of all given errors, if there are any: the lists among them are opened, and one error
alone is that error. -/
def aggregate (given : List (Option ErrorTree)) : Option ErrorTree :=
  match (given.filterMap id).flatMap parts with
  | [] => none
  | [e] => some e
  | errors => some (.list errors)

mutual

/-- The plain errors, from left to right. -/
def causes : ErrorTree → List Cause
  | .plain cause => [cause]
  | .list errors => causesOfAll errors

def causesOfAll : List ErrorTree → List Cause
  | [] => []
  | e :: errors => e.causes ++ causesOfAll errors

end

/-- The status of the first error; there is a status for a list without errors. -/
def status : ErrorTree → Nat
  | .plain cause => cause.status
  | .list [] => 500
  | .list (first :: _) => first.status

/-- The error has been made from plain ones by aggregation. -/
inductive IsMade : ErrorTree → Prop
  | plain (cause : Cause) : IsMade (.plain cause)
  | aggregated {given : List (Option ErrorTree)} {e : ErrorTree}
      (hGiven : ∀ part, some part ∈ given → IsMade part) (hResult : aggregate given = some e) :
      IsMade e

end ErrorTree

def StoreError.toTree : StoreError → ErrorTree
  | .one cause => .plain cause
  | .many causes _ => .list (causes.map .plain)

namespace ErrorTree

open StoreError (toTree)

theorem causesOfAll_map_plain (causes : List Cause) : causesOfAll (causes.map plain) = causes := by
  induction causes with
  | nil => rfl
  | cons cause rest ih =>
    rw [List.map_cons, causesOfAll, ErrorTree.causes, ih, List.singleton_append]

theorem causes_toTree (e : StoreError) : e.toTree.causes = e.causes := by
  cases e with
  | one cause => rfl
  | many causes several => exact causesOfAll_map_plain causes

theorem status_toTree (e : StoreError) : e.toTree.status = e.status := by
  match e with
  | .one cause => rfl
  | .many (first :: second :: rest) several => rfl

theorem parts_toTree (e : StoreError) : e.toTree.parts = e.causes.map plain := by
  cases e <;> rfl

theorem parts_of_all (errors : List (Option StoreError)) :
    ((errors.map (Option.map toTree)).filterMap id).flatMap parts =
      (errors.flatMap fun e => (e.map StoreError.causes).getD []).map plain := by
  induction errors with
  | nil => rfl
  | cons e rest ih =>
    cases e with
    | none => exact ih
    | some e => simpa [parts_toTree] using ih

/-- On flat errors aggregation combines their causes. -/
theorem aggregate_toTree (errors : List (Option StoreError)) :
    aggregate (errors.map (Option.map toTree)) = (StoreError.combine errors).map toTree := by
  rw [aggregate, parts_of_all, StoreError.combine]
  generalize errors.flatMap _ = causes
  rcases causes with _ | ⟨first, _ | ⟨second, rest⟩⟩ <;> rfl

/-! ## What can be made -/

theorem exists_errors {given : List (Option ErrorTree)}
    (hTrees : ∀ part, some part ∈ given → ∃ e : StoreError, e.toTree = part) :
    ∃ errors : List (Option StoreError), given = errors.map (Option.map toTree) := by
  induction given with
  | nil => exact ⟨[], rfl⟩
  | cons first rest ih =>
    obtain ⟨errors, rfl⟩ := ih fun part hMem => hTrees part (List.mem_cons_of_mem _ hMem)
    cases first with
    | none => exact ⟨none :: errors, rfl⟩
    | some part =>
      obtain ⟨e, rfl⟩ := hTrees part List.mem_cons_self
      exact ⟨some e :: errors, rfl⟩

/-- The trees of flat errors are made by aggregation, and nothing else is. -/
theorem isMade_iff {e : ErrorTree} : e.IsMade ↔ ∃ flat : StoreError, flat.toTree = e := by
  constructor
  · intro hMade
    induction hMade with
    | plain cause => exact ⟨.one cause, rfl⟩
    | aggregated _ hResult ih =>
      obtain ⟨errors, rfl⟩ := exists_errors ih
      rw [aggregate_toTree] at hResult
      obtain ⟨flat, -, hTree⟩ := Option.map_eq_some_iff.1 hResult
      exact ⟨flat, hTree⟩
  · rintro ⟨flat, rfl⟩
    -- any flat error is what its causes, each alone, are combined to
    have hResult := aggregate_toTree (flat.causes.map fun cause => some (.one cause))
    rw [StoreError.combine_map_one, StoreError.ofCauses_causes, Option.map_some] at hResult
    refine IsMade.aggregated (fun part hMem => ?_) hResult
    simp only [List.map_map, List.mem_map] at hMem
    obtain ⟨cause, -, hPart⟩ := hMem
    cases hPart
    exact .plain cause

theorem aggregate_of_alone {given : List (Option ErrorTree)} {e : StoreError}
    (hAlone : given.filterMap id = [e.toTree]) : aggregate given = some e.toTree := by
  rw [aggregate, hAlone, List.flatMap_singleton, parts_toTree]
  match e with
  | .one _ => rfl
  | .many (_ :: _ :: _) _ => rfl

theorem exists_errors_of_made {given : List (Option ErrorTree)}
    (hMade : ∀ e, some e ∈ given → e.IsMade) :
    ∃ errors : List (Option StoreError), given = errors.map (Option.map toTree) :=
  exists_errors fun e hMem => isMade_iff.1 (hMade e hMem)

/-- What holds of the error of all given errors. -/
structure KeepsCauses (given : List (Option ErrorTree)) : Prop where
  eq_none_iff : aggregate given = none ↔ ∀ e ∈ given, e = none
  causes_eq : ((aggregate given).map causes).getD [] =
    given.flatMap fun e => (e.map causes).getD []
  /-- One error alone comes back as it is, a plain one above all. -/
  alone : ∀ e, given.filterMap id = [e] → aggregate given = some e
  flat : ∀ errors, aggregate given = some (.list errors) →
    2 ≤ errors.length ∧ errors.isEmpty = false ∧ ∀ e ∈ errors, ∃ cause, e = .plain cause
  status_eq : ∀ e, aggregate given = some e →
    ∃ first rest, e.causes = first :: rest ∧ e.status = first.status

theorem keepsCauses (errors : List (Option StoreError)) :
    KeepsCauses (errors.map (Option.map toTree)) where
  eq_none_iff := by
    rw [aggregate_toTree, Option.map_eq_none_iff, StoreError.combine_eq_none_iff]
    simp
  causes_eq := by
    have hCauses : causes ∘ toTree = StoreError.causes := funext causes_toTree
    rw [aggregate_toTree, Option.map_map, hCauses, StoreError.getD_causes_combine,
      List.flatMap_map]
    simp only [Option.map_map, hCauses]
  alone e hAlone := by
    have hMem : e ∈ (errors.map (Option.map toTree)).filterMap id :=
      hAlone ▸ List.mem_singleton_self e
    obtain ⟨_, hGiven, rfl⟩ := List.mem_filterMap.1 hMem
    obtain ⟨found, -, hFound⟩ := List.mem_map.1 hGiven
    obtain ⟨flat, -, rfl⟩ := Option.map_eq_some_iff.1 hFound
    exact aggregate_of_alone hAlone
  flat nested hResult := by
    rw [aggregate_toTree] at hResult
    obtain ⟨e, -, hTree⟩ := Option.map_eq_some_iff.1 hResult
    cases e with
    | one cause => cases hTree
    | many causes several =>
      cases hTree
      refine ⟨by rwa [List.length_map], ?_, fun e hMem => ?_⟩
      · cases causes with
        | nil => cases several
        | cons first rest => rfl
      · obtain ⟨cause, -, rfl⟩ := List.mem_map.1 hMem
        exact ⟨cause, rfl⟩
  status_eq e hResult := by
    rw [aggregate_toTree] at hResult
    obtain ⟨flat, -, rfl⟩ := Option.map_eq_some_iff.1 hResult
    obtain ⟨first, rest, hCauses⟩ := List.exists_cons_of_ne_nil (StoreError.causes_ne_nil flat)
    exact ⟨first, rest, (causes_toTree flat).trans hCauses,
      (status_toTree flat).trans (StoreError.status_of_causes hCauses)⟩

/-- Errors that are aggregated in two groups first are aggregated all the same. -/
theorem aggregate_append (xs ys : List (Option StoreError)) :
    aggregate [aggregate (xs.map (Option.map toTree)), aggregate (ys.map (Option.map toTree))] =
      aggregate (xs.map (Option.map toTree) ++ ys.map (Option.map toTree)) := by
  have hGroups := StoreError.combine_map_combine [xs, ys]
  rw [List.flatten_cons, List.flatten_cons, List.flatten_nil, List.append_nil] at hGroups
  rw [← List.map_append, aggregate_toTree xs, aggregate_toTree ys, aggregate_toTree (xs ++ ys),
    ← hGroups]
  exact aggregate_toTree [StoreError.combine xs, StoreError.combine ys]

end ErrorTree

/-- **Aggregation keeps every cause, in order, and stays flat**: what it is given and what it gives
can be told as errors of causes in one list, which are combined. -/
theorem aggregation_keeps_causes (given later : List (Option ErrorTree))
    (hGiven : ∀ e, some e ∈ given → e.IsMade) (hLater : ∀ e, some e ∈ later → e.IsMade) :
    ErrorTree.KeepsCauses given ∧
      ErrorTree.aggregate [ErrorTree.aggregate given, ErrorTree.aggregate later] =
        ErrorTree.aggregate (given ++ later) ∧
      ∃ errors : List (Option StoreError), given = errors.map (Option.map StoreError.toTree) ∧
        ErrorTree.aggregate given = (StoreError.combine errors).map StoreError.toTree ∧
        ∀ e : StoreError, e.toTree.causes = e.causes ∧ e.toTree.status = e.status := by
  obtain ⟨errors, rfl⟩ := ErrorTree.exists_errors_of_made hGiven
  obtain ⟨others, rfl⟩ := ErrorTree.exists_errors_of_made hLater
  exact ⟨ErrorTree.keepsCauses errors, ErrorTree.aggregate_append errors others, errors, rfl,
    ErrorTree.aggregate_toTree errors,
    fun e => ⟨ErrorTree.causes_toTree e, ErrorTree.status_toTree e⟩⟩

/-- A plain error, no error, and an error that has been aggregated before. -/
theorem aggregation_keeps_causes_nested :
    let nested := ErrorTree.list [.plain (.internal "b"), .plain (.internal "c")]
    let given := [some (.plain (.internal "a")), none, some nested]
    ErrorTree.KeepsCauses given ∧
      ErrorTree.aggregate [ErrorTree.aggregate given, ErrorTree.aggregate [some nested]] =
        ErrorTree.aggregate (given ++ [some nested]) ∧
      ∃ errors : List (Option StoreError), given = errors.map (Option.map StoreError.toTree) ∧
        ErrorTree.aggregate given = (StoreError.combine errors).map StoreError.toTree ∧
        ∀ e : StoreError, e.toTree.causes = e.causes ∧ e.toTree.status = e.status := by
  intro nested given
  have hNested : nested.IsMade := by
    have hResult : ErrorTree.aggregate
        [some (.plain (.internal "b")), some (.plain (.internal "c"))] = some nested := rfl
    refine ErrorTree.IsMade.aggregated (fun part hMem => ?_) hResult
    rcases hMem with _ | ⟨_, _ | ⟨_, ⟨⟩⟩⟩ <;> exact .plain _
  refine aggregation_keeps_causes given [some nested] (fun e hMem => ?_) fun e hMem => ?_
  · simp only [given, List.mem_cons, Option.some.injEq, reduceCtorEq, false_or, List.not_mem_nil,
      or_false] at hMem
    rcases hMem with rfl | rfl
    · exact .plain _
    · exact hNested
  · obtain rfl := Option.some.inj (List.mem_singleton.1 hMem)
    exact hNested

end Tenancy
