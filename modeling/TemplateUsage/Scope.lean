import TemplateUsage.Text.Order

set_option autoImplicit false

/-!
# Scopes

A scope is a stack of frames. A frame is the set of names that one declaration
of block parameters binds. Scopes are values: entering a body makes a new scope
and leaving it needs no undoing.
-/

namespace TemplateUsage

/-- The frames that are open, innermost first. -/
structure Scope where
  frames : List (List String)
  deriving DecidableEq, Repr, Inhabited

namespace Scope

/-- The scope that binds nothing. -/
def empty : Scope := ⟨[]⟩

/-- The scope inside a declaration of these names; without names it is the same scope. -/
def push (scope : Scope) (names : List String) : Scope :=
  if names.isEmpty then scope else ⟨Text.sortedDistinct names :: scope.frames⟩

/-- The scope around the innermost frame; `none` if no frame is open. -/
def pop? (scope : Scope) : Option Scope :=
  match scope.frames with
  | [] => none
  | _ :: frames => some ⟨frames⟩

/-- Whether some frame binds a name. Case matters. -/
def binds (scope : Scope) (name : String) : Bool :=
  scope.frames.any fun frame => frame.contains name

/-- The number of open frames. -/
def depth (scope : Scope) : Nat := scope.frames.length

/-- All names that are bound, in code point order. -/
def names (scope : Scope) : List String := Text.sortedDistinct scope.frames.flatten

/-- Message of leaving a body when none is open. -/
def underflowMessage : String := "cannot pop scope: no block-parameter frame is active"

end Scope

end TemplateUsage
