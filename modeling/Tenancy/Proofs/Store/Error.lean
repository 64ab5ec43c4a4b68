import Tenancy.Store.Error

/-!
# Putting errors together

An error is determined by its causes, of which it has at least one, and its status is that of the
first.  So an error combined from a first one and others has the status of the first, and is the
first if there are no others.  What is combined in groups can be combined at once
(`StoreError.combine_map_combine`).
-/

namespace Tenancy

namespace StoreError

theorem ofCauses_causes (e : StoreError) : ofCauses e.causes = some e := by
  match e with
  | .one _ => rfl
  | .many (_ :: _ :: _) _ => rfl

theorem causes_ne_nil (e : StoreError) : e.causes ≠ [] := by
  intro hNil
  have hSome := ofCauses_causes e
  rw [hNil] at hSome
  cases hSome

theorem status_ofCauses {cause : Cause} {causes : List Cause} {e : StoreError}
    (hError : ofCauses (cause :: causes) = some e) : e.status = cause.status := by
  cases causes with
  | nil =>
    obtain rfl := Option.some.inj hError
    rfl
  | cons second rest =>
    obtain rfl := Option.some.inj hError
    rfl

theorem status_of_causes {e : StoreError} {cause : Cause} {causes : List Cause}
    (hCauses : e.causes = cause :: causes) : e.status = cause.status :=
  status_ofCauses (hCauses ▸ ofCauses_causes e)

theorem exists_ofCauses {causes : List Cause} (hSome : causes ≠ []) :
    ∃ e, ofCauses causes = some e := by
  match causes with
  | [] => exact absurd rfl hSome
  | [_] => exact ⟨_, rfl⟩
  | _ :: _ :: _ => exact ⟨_, rfl⟩

variable {first e : StoreError} {others : List (Option StoreError)}

theorem combine_cons (first : StoreError) (others : List (Option StoreError)) :
    combine (some first :: others) =
      ofCauses (first.causes ++ others.flatMap fun e => (e.map causes).getD []) := rfl

theorem exists_combine (first : StoreError) (others : List (Option StoreError)) :
    ∃ e, combine (some first :: others) = some e :=
  exists_ofCauses (List.append_ne_nil_of_left_ne_nil (causes_ne_nil first) _)

theorem status_combine (hError : combine (some first :: others) = some e) :
    e.status = first.status := by
  obtain ⟨cause, causes, hCauses⟩ := List.exists_cons_of_ne_nil (causes_ne_nil first)
  rw [status_of_causes hCauses]
  rw [combine_cons, hCauses] at hError
  exact status_ofCauses hError

theorem combine_of_forall_none (first : StoreError) (hNone : ∀ e ∈ others, e = none) :
    combine (some first :: others) = some first := by
  have hOthers : (others.flatMap fun e => (e.map causes).getD []) = [] := by
    refine List.flatMap_eq_nil_iff.2 fun e hMem => ?_
    rw [hNone e hMem]
    rfl
  rw [combine_cons, hOthers, List.append_nil, ofCauses_causes]

/-! ## Lists of errors -/

theorem ofCauses_eq_none_iff {causes : List Cause} : ofCauses causes = none ↔ causes = [] := by
  match causes with
  | [] => exact iff_of_true rfl rfl
  | [_] => exact iff_of_false nofun nofun
  | _ :: _ :: _ => exact iff_of_false nofun nofun

theorem getD_causes_combine (errors : List (Option StoreError)) :
    ((combine errors).map causes).getD [] = errors.flatMap fun e => (e.map causes).getD [] := by
  rw [combine]
  generalize errors.flatMap _ = causes
  match causes with
  | [] => rfl
  | [_] => rfl
  | _ :: _ :: _ => rfl

theorem combine_eq_none_iff {errors : List (Option StoreError)} :
    combine errors = none ↔ ∀ e ∈ errors, e = none := by
  rw [combine, ofCauses_eq_none_iff, List.flatMap_eq_nil_iff]
  refine forall₂_congr fun e _ => ?_
  cases e with
  | none => simp
  | some e => simp [causes_ne_nil]

theorem combine_map_one (causes : List Cause) :
    combine (causes.map fun cause => some (.one cause)) = ofCauses causes := by
  rw [combine, List.flatMap_map]
  exact congrArg ofCauses (List.flatMap_singleton' causes)

/-- Errors that are combined in groups first are combined all the same. -/
theorem combine_map_combine (groups : List (List (Option StoreError))) :
    combine (groups.map combine) = combine groups.flatten := by
  rw [combine, combine, List.flatMap_map, ← List.flatMap_id, List.flatMap_assoc]
  simp only [getD_causes_combine, id]

end StoreError

end Tenancy
