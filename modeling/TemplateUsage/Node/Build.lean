import TemplateUsage.Node
import TemplateUsage.Rejection
import TemplateUsage.Text.Blank

set_option autoImplicit false

/-!
# From phrases to nodes

A node is located from the first to the last token of its phrase. Three things
are checked on the way, in the order in which the phrases end: that an element
is closed under its own name, that a block is closed under its own path, and
that integers are not too long.
-/

namespace TemplateUsage

/-- Why no tree is built. -/
inductive BuildError where
  | rejected (rejection : Rejection)
  | numeral (error : NumeralError)
  deriving DecidableEq, Repr, Inhabited

namespace Phrase

/-! ## Spans -/

/-- Span of an expression. -/
def Expression.span : Expression → Span
  | .atom _ lexeme => lexeme.span
  | .nested opening _ closing => opening.span.cover closing.span

/-- Span of a pair. -/
def Pair.span : Pair → Span
  | .mk key value => key.span.cover value.span

/-- Span of a mustache. -/
def Mustache.span (mustache : Mustache) : Span := mustache.opening.span.cover mustache.closing.span

/-- Span of a value. -/
def Value.span : Value → Span
  | .text lexeme => lexeme.span
  | .mustache curly => curly.span
  | .quoted opening _ closing => opening.span.cover closing.span

/-- Span of a statement. -/
def Statement.span : Statement → Span
  | .text lexeme => lexeme.span
  | .htmlComment lexeme => lexeme.span
  | .curlyComment lexeme => lexeme.span
  | .mustache curly => curly.span
  | .block head _ _ close => head.opening.span.cover close.closing.span
  | .element tag _ _ endTag => tag.name.span.cover endTag.span
  | .selfClosing tag tagEnd => tag.name.span.cover tagEnd.span
  | .void tag tagEnd => tag.name.span.cover tagEnd.span

/-- Span of a list of phrases: from its first to its last; none if it is empty. -/
def listSpan? {α : Type} (span : α → Span) (phrases : List α) : Option Span :=
  match phrases.head?, phrases.getLast? with
  | some first, some last => some ((span first).cover (span last))
  | _, _ => none

/-- Location of a list of phrases. -/
def listLocation? {α : Type} (file : String) (span : α → Span) (phrases : List α) :
    Option Location :=
  (listSpan? span phrases).map (Span.inFile file)

/-- Span of the last phrase of an inverse. -/
def Inverse.lastSpan? : Inverse → Option Span
  | .absent => none
  | .otherwise _ closing program =>
      some ((program.getLast?.map Statement.span).getD closing.span)
  | .chained head program inverse =>
      some (inverse.lastSpan?.getD ((program.getLast?.map Statement.span).getD head.closing.span))

/-- Span of an inverse that starts with the given token. -/
def Inverse.spanFrom (inverse : Inverse) (opening : Lexeme) : Span :=
  opening.span.cover (inverse.lastSpan?.getD opening.span)

/-! ## Names -/

/-- Names declared by block parameters. -/
def paramNames (lexeme : Lexeme) : List String :=
  (Text.words lexeme.value.toList).map String.ofList

/-- What a message calls a callee: its path, or the sort of expression it is. -/
def Expression.title : Expression → String
  | .atom .path lexeme => lexeme.value
  | .atom .string _ => "StringLiteral"
  | .atom .number _ => "NumberLiteral"
  | .atom .boolean _ => "BooleanLiteral"
  | .atom .null _ => "NullLiteral"
  | .atom .undefined _ => "UndefinedLiteral"
  | .nested _ _ _ => "SubExpression"

/-- The callee of a call. -/
def Call.callee : Call → Expression
  | .mk callee _ _ => callee

/-- Whether a block with this callee is closed by this path. -/
def Expression.closedBy (callee : Expression) (path : Lexeme) : Bool :=
  match callee with
  | .atom .path lexeme => lexeme.value == path.value
  | _ => false

/-! ## Expressions -/

/-- A callee, its positional arguments and its hash. -/
structure Invoked where
  callee : Node
  params : List Node
  hash : Node
  deriving Inhabited

mutual

/-- Node of an expression. -/
def Expression.build (file : String) : Expression → Except BuildError Node
  | .atom sort lexeme =>
      let location := some (lexeme.span.inFile file)
      match Literal.read sort lexeme.value with
      | .ok value => .ok (.literal location value)
      | .error (.numeral error) => .error (.numeral error)
      | .error (.notLiteral _) => .ok (.path location lexeme.value)
  | .nested opening call closing => do
      let invoked ← call.build file
      return .invocation (some ((opening.span.cover closing.span).inFile file)) .subExpression
        invoked.callee invoked.params invoked.hash

/-- Nodes of a call. -/
def Call.build (file : String) : Call → Except BuildError Invoked
  | .mk callee arguments pairs => do
      let calleeNode ← callee.build file
      let params ← buildExpressions file arguments
      let pairNodes ← buildPairs file pairs
      let location := listLocation? file Pair.span pairs
      return ⟨calleeNode, params, .hash location pairNodes⟩

/-- Nodes of positional arguments. -/
def buildExpressions (file : String) : List Expression → Except BuildError (List Node)
  | [] => .ok []
  | expression :: rest => do
      let node ← expression.build file
      return node :: (← buildExpressions file rest)

/-- Node of a pair. -/
def Pair.build (file : String) : Pair → Except BuildError Node
  | .mk key value => do
      let node ← value.build file
      return .pair (some ((key.span.cover value.span).inFile file)) key.value node

/-- Nodes of pairs. -/
def buildPairs (file : String) : List Pair → Except BuildError (List Node)
  | [] => .ok []
  | pair :: rest => do
      let node ← pair.build file
      return node :: (← buildPairs file rest)

end

/-- Node of a mustache. -/
def Mustache.build (file : String) (mustache : Mustache) : Except BuildError Node := do
  let invoked ← mustache.call.build file
  return .invocation (some (mustache.span.inFile file)) (.mustache mustache.trusting)
    invoked.callee invoked.params invoked.hash

/-! ## Opening tags -/

/-- Node of a part of a quoted value. -/
def QuotedPart.build (file : String) : QuotedPart → Except BuildError Node
  | .text lexeme => .ok (.text (some (lexeme.span.inFile file)) lexeme.value)
  | .mustache curly => curly.build file

/-- The text of a part of a quoted value, if it is text. -/
def QuotedPart.text? : QuotedPart → Option String
  | .text lexeme => some lexeme.value
  | .mustache _ => none

/-- Node of a value. A quoted value without mustaches is one text. -/
def Value.build (file : String) (value : Value) : Except BuildError Node :=
  let location := some (value.span.inFile file)
  match value with
  | .text lexeme => .ok (.text location lexeme.value)
  | .mustache curly => curly.build file
  | .quoted _ parts _ => do
      let nodes ← parts.mapM (QuotedPart.build file)
      match parts.mapM QuotedPart.text? with
      | some texts => return .text location (String.join texts)
      | none => return .concat location nodes

/-- What a part of an opening tag adds to its element. -/
inductive BuiltPart where
  | attribute (node : Node)
  | modifier (node : Node)
  | params (names : List String)
  | nothing

/-- What a part of an opening tag adds to its element. -/
def TagPart.build (file : String) : TagPart → Except BuildError BuiltPart
  | .flag name =>
      .ok (.attribute (.attribute (some (name.span.inFile file)) name.value (.text none "")))
  | .attribute name _ value => do
      let node ← value.build file
      let location := some ((name.span.cover value.span).inFile file)
      return .attribute (.attribute location name.value node)
  | .modifier opening call closing => do
      let invoked ← call.build file
      return .modifier (.invocation (some ((opening.span.cover closing.span).inFile file)) .modifier
        invoked.callee invoked.params invoked.hash)
  | .params lexeme => .ok (.params (paramNames lexeme))
  | .comment _ => .ok .nothing

/-- The attributes among the parts of a tag. -/
def BuiltPart.attribute? : BuiltPart → Option Node
  | .attribute node => some node
  | _ => none

/-- The modifiers among the parts of a tag. -/
def BuiltPart.modifier? : BuiltPart → Option Node
  | .modifier node => some node
  | _ => none

/-- The names a part of a tag declares. -/
def BuiltPart.names : BuiltPart → List String
  | .params names => names
  | _ => []

/-- Node of an element with the given parts and children. -/
def elementNode (location : Location) (tag : String) (parts : List BuiltPart)
    (children : List Node) (selfClosing : Bool) : Node :=
  .element (some location) tag (parts.filterMap BuiltPart.attribute?)
    (parts.filterMap BuiltPart.modifier?) (parts.flatMap BuiltPart.names) children selfClosing

/-! ## Statements -/

/-- Names declared by the head of a section. -/
def Head.names (head : Head) : List String := (head.params.map paramNames).getD []

mutual

/-- Node of a statement. -/
def Statement.build (file : String) : Statement → Except BuildError Node
  | .text lexeme => .ok (.text (some (lexeme.span.inFile file)) lexeme.value)
  | .htmlComment lexeme => .ok (.htmlComment (some (lexeme.span.inFile file)) lexeme.value)
  | .curlyComment lexeme => .ok (.curlyComment (some (lexeme.span.inFile file)) lexeme.value)
  | .mustache curly => curly.build file
  | .block head program inverse close => do
      let invoked ← head.call.build file
      let statements ← buildStatements file program
      let inverseNode ← inverse.build file
      let callee := head.call.callee
      if callee.closedBy close.path then
        return .block (some ((head.opening.span.cover close.closing.span).inFile file))
          invoked.callee invoked.params invoked.hash
          (.body (listLocation? file Statement.span program) head.names statements false)
          inverseNode
      else
        throw (.rejected ⟨.blockMismatch callee.title close.path.value, close.path.span⟩)
  | .element tag _ body endTag => do
      let parts ← tag.parts.mapM (TagPart.build file)
      let children ← buildStatements file body
      if tag.name.value == endTag.value then
        return elementNode ((tag.name.span.cover endTag.span).inFile file) tag.name.value parts
          children false
      else
        throw (.rejected ⟨.tagMismatch tag.name.value endTag.value, endTag.span⟩)
  | .selfClosing tag tagEnd => do
      let parts ← tag.parts.mapM (TagPart.build file)
      let location := (tag.name.span.cover tagEnd.span).inFile file
      return elementNode location tag.name.value parts [] true
  | .void tag tagEnd => do
      let parts ← tag.parts.mapM (TagPart.build file)
      let location := (tag.name.span.cover tagEnd.span).inFile file
      return elementNode location tag.name.value parts [] false

/-- Node of an inverse. -/
def Inverse.build (file : String) : Inverse → Except BuildError (Option Node)
  | .absent => .ok none
  | .otherwise opening closing program => do
      let statements ← buildStatements file program
      let span := (Inverse.otherwise opening closing program).spanFrom opening
      return some (.body (some (span.inFile file)) [] statements false)
  | .chained head program inverse => do
      let invoked ← head.call.build file
      let statements ← buildStatements file program
      let inverseNode ← inverse.build file
      let span := (Inverse.chained head program inverse).spanFrom head.opening
      let location := some (span.inFile file)
      let block := Node.block location invoked.callee invoked.params invoked.hash
        (.body (listLocation? file Statement.span program) head.names statements false)
        inverseNode
      return some (.body location [] [block] true)

/-- Nodes of statements. -/
def buildStatements (file : String) : List Statement → Except BuildError (List Node)
  | [] => .ok []
  | statement :: rest => do
      let node ← statement.build file
      return node :: (← buildStatements file rest)

end

/-- Node of a template. -/
def buildTemplate (file : String) (statements : List Statement) : Except BuildError Node := do
  let nodes ← buildStatements file statements
  return .template (listLocation? file Statement.span statements) nodes

end Phrase

end TemplateUsage
