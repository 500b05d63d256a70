import Mathlib.Data.List.Basic
import TemplateUsage.Scope

set_option autoImplicit false

/-!
# Names bound by a scope

Pushing a declaration binds exactly the declared names besides those bound
before, and adds one frame unless no name is declared. Main statements:
`Scope.binds_foldl_push_iff` and `Scope.depth_foldl_push`, for any number of
declarations one inside the other.
-/

namespace TemplateUsage

namespace Text

theorem mem_insertSorted {name s : String} {texts : List String} :
    name ∈ insertSorted s texts ↔ name = s ∨ name ∈ texts := by
  induction texts with
  | nil => simp [insertSorted]
  | cons t rest ih =>
      unfold insertSorted
      split
      · simp
      · split
        · rename_i heq
          subst heq
          simp
        · rw [List.mem_cons, ih, List.mem_cons]
          exact or_left_comm

theorem mem_sortedDistinct {name : String} {texts : List String} :
    name ∈ sortedDistinct texts ↔ name ∈ texts := by
  induction texts with
  | nil => rfl
  | cons s rest ih =>
      have hcons : sortedDistinct (s :: rest) = insertSorted s (sortedDistinct rest) := rfl
      rw [hcons, mem_insertSorted, ih, List.mem_cons]

end Text

namespace Scope

/-- A scope binds the names in its frames. -/
theorem binds_iff {scope : Scope} {name : String} :
    scope.binds name = true ↔ ∃ frame ∈ scope.frames, name ∈ frame := by
  simp [binds]

/-- A scope that is pushed binds what it bound and the names. -/
theorem binds_push_iff {scope : Scope} {names : List String} {name : String} :
    (scope.push names).binds name = true ↔ scope.binds name = true ∨ name ∈ names := by
  unfold push
  split
  · rename_i hempty
    rw [List.isEmpty_iff] at hempty
    subst hempty
    simp
  · rw [binds_iff, binds_iff]
    simp only [List.exists_mem_cons_iff, Text.mem_sortedDistinct]
    exact or_comm

theorem depth_push (scope : Scope) (names : List String) :
    (scope.push names).depth = scope.depth + if names = [] then 0 else 1 := by
  unfold push
  by_cases hempty : names = []
  · subst hempty
    rfl
  · rw [if_neg (by simpa using hempty), if_neg hempty]
    rfl

/-- Inside declarations, outermost first, a name is bound if it was bound around
them or if one of them lists it. -/
theorem binds_foldl_push_iff {declared : List (List String)} {scope : Scope} {name : String} :
    (declared.foldl push scope).binds name = true ↔
      scope.binds name = true ∨ ∃ names ∈ declared, name ∈ names := by
  induction declared generalizing scope with
  | nil => simp
  | cons names rest ih =>
      rw [List.foldl_cons, ih, binds_push_iff, List.exists_mem_cons_iff, or_assoc]

/-- Every declaration with a name adds one frame. -/
theorem depth_foldl_push (declared : List (List String)) (scope : Scope) :
    (declared.foldl push scope).depth = scope.depth + declared.countP (· ≠ []) := by
  induction declared generalizing scope with
  | nil => rfl
  | cons names rest ih =>
      rw [List.foldl_cons, ih, depth_push, List.countP_cons]
      by_cases hempty : names = []
      · simp [hempty]
      · simp only [hempty, if_false, ne_eq, not_false_eq_true, decide_true, if_true]
        omega

end Scope

end TemplateUsage
