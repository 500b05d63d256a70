import TemplateUsage.Node

set_option autoImplicit false

/-!
# Equality of trees

Two trees are the same when they differ in locations only. Numbers are compared
by value.
-/

namespace TemplateUsage.Node

mutual

/-- Equality apart from locations. -/
def same : Node → Node → Bool
  | .template _ as, .template _ bs => sameList as bs
  | .element _ tagA attrsA modsA paramsA childrenA closingA,
      .element _ tagB attrsB modsB paramsB childrenB closingB =>
      tagA == tagB && sameList attrsA attrsB && sameList modsA modsB && paramsA == paramsB &&
        sameList childrenA childrenB && closingA == closingB
  | .attribute _ nameA a, .attribute _ nameB b => nameA == nameB && a.same b
  | .text _ a, .text _ b => a == b
  | .htmlComment _ a, .htmlComment _ b => a == b
  | .curlyComment _ a, .curlyComment _ b => a == b
  | .concat _ as, .concat _ bs => sameList as bs
  | .invocation _ formA calleeA paramsA namedA, .invocation _ formB calleeB paramsB namedB =>
      formA == formB && calleeA.same calleeB && sameList paramsA paramsB && namedA.same namedB
  | .block _ calleeA paramsA namedA programA inverseA,
      .block _ calleeB paramsB namedB programB inverseB =>
      calleeA.same calleeB && sameList paramsA paramsB && namedA.same namedB &&
        programA.same programB && sameOption inverseA inverseB
  | .body _ paramsA as chainedA, .body _ paramsB bs chainedB =>
      paramsA == paramsB && sameList as bs && chainedA == chainedB
  | .hash _ as, .hash _ bs => sameList as bs
  | .pair _ keyA a, .pair _ keyB b => keyA == keyB && a.same b
  | .path _ a, .path _ b => a == b
  | .literal _ a, .literal _ b => a.same b
  | .unknown paramsA partsA childrenA membersA, .unknown paramsB partsB childrenB membersB =>
      sameList paramsA paramsB && sameList partsA partsB && sameList childrenA childrenB &&
        sameList membersA membersB
  | _, _ => false

/-- Equality of lists of nodes, member by member. -/
def sameList : List Node → List Node → Bool
  | [], [] => true
  | a :: as, b :: bs => a.same b && sameList as bs
  | _, _ => false

/-- Equality of nodes that may be missing. -/
def sameOption : Option Node → Option Node → Bool
  | none, none => true
  | some a, some b => a.same b
  | _, _ => false

end

end TemplateUsage.Node
