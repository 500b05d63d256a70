import TemplateUsage.Name
import TemplateUsage.Scope

set_option autoImplicit false

/-!
# Classification of paths

Whether a path names something that is invoked, and the token it contributes.
Arguments, names bound by block parameters and plain tags contribute nothing.
-/

namespace TemplateUsage

/-- What a path contributes. -/
inductive Classification where
  | skip
  | component (token : String)
  | invocable (token : String)
  deriving DecidableEq, Repr, Inhabited

namespace Classification

/-- Whether a tag name is that of a plain element or of a named block. -/
def isPlainTag (path : String) : Bool :=
  match path.toList with
  | [] => false
  | c :: _ => Text.isLowercase c || c == ':'

/-- What a path contributes where it is written. -/
def ofPath (path : String) (context : Name.Context) (scope : Scope) : Classification :=
  if path.isEmpty || path.toList.head? == some '@' then .skip
  else if scope.binds (Name.headSegment path context) then .skip
  else
    match context with
    | .tagName => if isPlainTag path then .skip else .component (Name.ofTag path)
    | .curlyPath => .invocable path

end Classification

end TemplateUsage
