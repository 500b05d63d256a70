import TemplateUsage.Literal

set_option autoImplicit false

/-!
# Nodes

The tree of a template. Trees may also be put together by hand, with any node in
any place, and with nodes of a kind this library does not know.
-/

namespace TemplateUsage

/-- Forms of an invocation that is not a block. -/
inductive InvocationForm where
  | mustache (trusting : Bool)
  | subExpression
  | modifier
  deriving DecidableEq, Repr, Inhabited

/-- A node of a tree. -/
inductive Node where
  | template (location : Option Location) (body : List Node)
  | element (location : Option Location) (tag : String) (attributes modifiers : List Node)
      (blockParams : List String) (children : List Node) (selfClosing : Bool)
  | attribute (location : Option Location) (name : String) (value : Node)
  | text (location : Option Location) (chars : String)
  | htmlComment (location : Option Location) (value : String)
  | curlyComment (location : Option Location) (value : String)
  | concat (location : Option Location) (parts : List Node)
  | invocation (location : Option Location) (form : InvocationForm) (callee : Node)
      (params : List Node) (hash : Node)
  | block (location : Option Location) (callee : Node) (params : List Node) (hash : Node)
      (program : Node) (inverse : Option Node)
  /-- The program or the inverse of a block; `chained` when it holds the block
  that an else goes on with. -/
  | body (location : Option Location) (blockParams : List String) (statements : List Node)
      (chained : Bool)
  | hash (location : Option Location) (pairs : List Node)
  | pair (location : Option Location) (key : String) (value : Node)
  | path (location : Option Location) (original : String)
  | literal (location : Option Location) (value : Literal)
  /-- A node of another kind, with the lists of nodes it shows. -/
  | unknown (params parts children body : List Node)
  deriving Inhabited

/-- Location of a node. -/
def Node.location? : Node → Option Location
  | .template location _ => location
  | .element location _ _ _ _ _ _ => location
  | .attribute location _ _ => location
  | .text location _ => location
  | .htmlComment location _ => location
  | .curlyComment location _ => location
  | .concat location _ => location
  | .invocation location _ _ _ _ => location
  | .block location _ _ _ _ _ => location
  | .body location _ _ _ => location
  | .hash location _ => location
  | .pair location _ _ => location
  | .path location _ => location
  | .literal location _ => location
  | .unknown _ _ _ _ => none

/-- Values of a hash, in the order written. -/
def Node.hashValues : Node → List Node
  | .hash _ pairs =>
      pairs.filterMap fun
        | .pair _ _ value => some value
        | _ => none
  | _ => []

/-- The hash of an invocation or a block. -/
def Node.hash? : Node → Option Node
  | .invocation _ _ _ _ named => some named
  | .block _ _ _ named _ _ => some named
  | _ => none

/-- Statements of a template. -/
def Node.statements : Node → List Node
  | .template _ members => members
  | _ => []

end TemplateUsage
