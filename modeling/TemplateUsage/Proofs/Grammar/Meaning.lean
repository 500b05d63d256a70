import TemplateUsage.Node.Build
import TemplateUsage.Proofs.Grammar.Derivation

set_option autoImplicit false

/-!
# Meaning of a derivation

Each production has a method, which makes the meaning of a phrase from the meanings
of its parts and from where the phrase stands. Punctuation has no meaning; an
optional phrase that is not there is `absent` to the method; a phrase that is taken
as another keeps its meaning. The meaning of a derivation (`ParseTree.meanings`) comes of
applying the methods bottom-up, the parts of a phrase from left to right. A method
may stop it: the two checks of closing names and the reading of numbers do.
-/

namespace TemplateUsage

namespace Grammar

open Phrase

/-- What a phrase, or a token, stands for in the tree of a template. -/
inductive Meaning where
  | token (token : Token)
  | node (node : Node)
  /-- A call. -/
  | invoked (invoked : Invoked)
  /-- Declared names. -/
  | names (names : List String)
  /-- What the parts of an opening tag add to its element. -/
  | parts (attributes modifiers : List Node) (names : List String)
  /-- The children of an element. -/
  | nodes (nodes : List Node)
  /-- An optional phrase that is not there. -/
  | absent

/-- Why a derivation has no meaning. -/
inductive Stop where
  | raised (fault : Fault) (location : Option Location)
  | numeral (error : NumeralError)
  /-- A method does not take such parts. -/
  | misfit

/-- Kinds of token that only hold phrases together. -/
def isPunctuation : Kind → Bool
  | .openCurly | .closeCurly | .openTriple | .closeTriple | .openBlock | .openEndBlock
  | .openElse | .openParen | .closeParen | .tagEnd | .tagSelfClose | .voidTagEnd | .equals
  | .quoteOpen | .quoteClose => true
  | _ => false

/-! ## Methods -/

/-- The nodes of parts that are all nodes. -/
def nodesOf : List Meaning → Except Stop (List Node)
  | [] => .ok []
  | .node node :: rest => do return node :: (← nodesOf rest)
  | _ :: _ => .error .misfit

/-- The node of an invocation that is not a block. -/
def invocationNode (location : Option Location) (form : InvocationForm) (invoked : Invoked) :
    Node :=
  .invocation location form invoked.callee invoked.params invoked.hash

/-- The node of a token that is kept as it is written. -/
def tokenMethod (node : String → Node) : List Meaning → Except Stop (List Meaning)
  | [.token token] => .ok [.node (node token.lexeme.value)]
  | _ => .error .misfit

/-- The node of an invocation that is not a block. -/
def invocationMethod (location : Option Location) (form : InvocationForm) :
    List Meaning → Except Stop (List Meaning)
  | [.invoked invoked] => .ok [.node (invocationNode location form invoked)]
  | _ => .error .misfit

/-- What is made of a phrase whose parts are nodes. -/
def nodesMethod (make : List Node → Meaning) (parts : List Meaning) :
    Except Stop (List Meaning) := do
  return [make (← nodesOf parts)]

/-- The literal, or the path, of an atom. -/
def atomMethod (location : Option Location) (sort : Atom) :
    List Meaning → Except Stop (List Meaning)
  | [.token token] =>
      if sort = .path then .ok [.node (.path location token.lexeme.value)]
      else
        match Literal.read sort token.lexeme.value with
        | .ok value => .ok [.node (.literal location value)]
        | .error (.numeral error) => .error (.numeral error)
        | .error (.notLiteral _) => .error .misfit
  | _ => .error .misfit

/-- Whether a node is a pair. -/
def isPair : Node → Bool
  | .pair _ _ _ => true
  | _ => false

/-- From the start of one location to the stop of another. -/
def coverLocation (first last : Location) : Location :=
  { first with stop := last.stop, endLine := last.endLine, endColumn := last.endColumn }

/-- Location of a hash: from its first pair to its last. -/
def hashLocation (pairs : List Node) : Option Location :=
  match pairs.head?.bind Node.location?, pairs.getLast?.bind Node.location? with
  | some first, some last => some (coverLocation first last)
  | _, _ => none

/-- A call: its arguments are told from its pairs. -/
def callMethod : List Meaning → Except Stop (List Meaning)
  | .node callee :: arguments => do
      let nodes ← nodesOf arguments
      let pairs := nodes.filter isPair
      return [.invoked ⟨callee, nodes.filter (fun node => !isPair node),
        .hash (hashLocation pairs) pairs⟩]
  | _ => .error .misfit

/-- A pair. -/
def pairMethod (location : Option Location) : List Meaning → Except Stop (List Meaning)
  | [.token key, .node value] => .ok [.node (.pair location key.lexeme.value value)]
  | _ => .error .misfit

/-- The declared names of an optional part. -/
def Meaning.names? : Meaning → Option (List String)
  | .names found => some found
  | .absent => some []
  | _ => none

/-- The node of an optional part. -/
def Meaning.node? : Meaning → Option (Option Node)
  | .node found => some (some found)
  | .absent => some none
  | _ => none

/-- The body with declared names. -/
def declareNames (names : List String) : Node → Node
  | .body location _ statements chained => .body location names statements chained
  | node => node

/-- The body at a location. -/
def relocateBody (location : Option Location) : Node → Node
  | .body _ names statements chained => .body location names statements chained
  | node => node

/-- The node of a section, with what follows it. -/
def sectionNode (location : Option Location) (invoked : Invoked) (names : List String)
    (program : Node) (inverse : Option Node) : Node :=
  .block location invoked.callee invoked.params invoked.hash (declareNames names program) inverse

/-- What a message calls a callee: its path, or the sort of expression it is. -/
def calleeTitle : Node → String
  | .path _ original => original
  | .literal _ (.string _) => "StringLiteral"
  | .literal _ (.number _) => "NumberLiteral"
  | .literal _ (.boolean _) => "BooleanLiteral"
  | .literal _ .null => "NullLiteral"
  | .literal _ .undefined => "UndefinedLiteral"
  | _ => "SubExpression"

/-- Whether a node is a path. -/
def isPath : Node → Bool
  | .path _ _ => true
  | _ => false

/-- A block, which is closed under its own path. -/
def blockMethod (location : Option Location) : List Meaning → Except Stop (List Meaning)
  | [.invoked invoked, params, .node program, ending, .node (.path closeLocation closed)] =>
      match params.names?, ending.node? with
      | some names, some inverse =>
          let opened := calleeTitle invoked.callee
          if isPath invoked.callee && opened == closed then
            .ok [.node (sectionNode location invoked names program inverse)]
          else .error (.raised (.blockMismatch opened closed) closeLocation)
      | _, _ => .error .misfit
  | _ => .error .misfit

/-- A plain else: its program, where the else stands. -/
def otherwiseMethod (location : Option Location) : List Meaning → Except Stop (List Meaning)
  | [.node program] => .ok [.node (relocateBody location program)]
  | _ => .error .misfit

/-- A chained else: a body that holds the block the else goes on with. -/
def chainedMethod (location : Option Location) : List Meaning → Except Stop (List Meaning)
  | [.invoked invoked, params, .node program, ending] =>
      match params.names?, ending.node? with
      | some names, some inverse =>
          .ok [.node (.body location [] [sectionNode location invoked names program inverse] true)]
      | _, _ => .error .misfit
  | _ => .error .misfit

/-- Block parameters. -/
def paramsMethod : List Meaning → Except Stop (List Meaning)
  | [.token token] => .ok [.names (paramNames token.lexeme)]
  | _ => .error .misfit

/-- The attributes among the parts of a tag. -/
def Meaning.attribute? : Meaning → Option Node
  | .node (.attribute location name value) => some (.attribute location name value)
  | _ => none

/-- The modifiers among the parts of a tag. -/
def Meaning.modifier? : Meaning → Option Node
  | .node (.invocation location .modifier callee params hash) =>
      some (.invocation location .modifier callee params hash)
  | _ => none

/-- The names a part of a tag declares. -/
def Meaning.declared : Meaning → List String
  | .names found => found
  | _ => []

/-- The parts of an opening tag. -/
def tagPartsMethod (parts : List Meaning) : Except Stop (List Meaning) :=
  .ok [.parts (parts.filterMap Meaning.attribute?) (parts.filterMap Meaning.modifier?)
    (parts.flatMap Meaning.declared)]

/-- An element that is closed under its own name. -/
def elementMethod (file : String) (location : Option Location) :
    List Meaning → Except Stop (List Meaning)
  | [.token startTag, .parts attributes modifiers names, .nodes children, .token endTag] =>
      if startTag.lexeme.value == endTag.lexeme.value then
        .ok [.node (.element location startTag.lexeme.value attributes modifiers names children
          false)]
      else
        .error (.raised (.tagMismatch startTag.lexeme.value endTag.lexeme.value)
          (some (endTag.lexeme.span.inFile file)))
  | _ => .error .misfit

/-- An element without children. -/
def emptyElementMethod (location : Option Location) (selfClosing : Bool) :
    List Meaning → Except Stop (List Meaning)
  | [.token startTag, .parts attributes modifiers names] =>
      .ok [.node (.element location startTag.lexeme.value attributes modifiers names []
        selfClosing)]
  | _ => .error .misfit

/-- An attribute; one without a value is an empty text. -/
def attributeMethod (location : Option Location) : List Meaning → Except Stop (List Meaning)
  | [.token name, value] =>
      match value.node? with
      | some found =>
          .ok [.node (.attribute location name.lexeme.value (found.getD (.text none "")))]
      | none => .error .misfit
  | _ => .error .misfit

/-- The characters of a text. -/
def textChars? : Node → Option String
  | .text _ chars => some chars
  | _ => none

/-- The node of a quoted value: one text if it has only texts. -/
def quotedNode (location : Option Location) (nodes : List Node) : Node :=
  match nodes.mapM textChars? with
  | some texts => .text location (String.join texts)
  | none => .concat location nodes

/-- The method of a production. -/
def Production.method (file : String) (location : Option Location) :
    Production → List Meaning → Except Stop (List Meaning)
  | .start => nodesMethod (fun nodes => .node (.template location nodes))
  | .choice _ _ _ => .ok
  | .text | .unquotedValue | .attributeText => tokenMethod (.text location)
  | .htmlComment => tokenMethod (.htmlComment location)
  | .curlyComment => tokenMethod (.curlyComment location)
  | .mustache trusting => invocationMethod location (.mustache trusting)
  | .block _ _ => blockMethod location
  | .program => nodesMethod (fun nodes => .node (.body location [] nodes false))
  | .otherwise => otherwiseMethod location
  | .chained _ _ => chainedMethod location
  | .blockParams => paramsMethod
  | .call => callMethod
  | .pair => pairMethod location
  | .atom sort => atomMethod location sort
  | .nested => invocationMethod location .subExpression
  | .element => elementMethod file location
  | .selfClosing => emptyElementMethod location true
  | .void => emptyElementMethod location false
  | .tagParts => tagPartsMethod
  | .elementBody => nodesMethod .nodes
  | .modifier => invocationMethod location .modifier
  | .attribute _ => attributeMethod location
  | .quotedValue => nodesMethod (fun nodes => .node (quotedNode location nodes))

/-! ## Meaning -/

/-- The part at an index, or `absent` in its place. -/
def fillSlot (index : Nat) (present : Bool) (parts : List Meaning) : List Meaning :=
  if present then parts else parts.take index ++ .absent :: parts.drop index

/-- The parts of a production, each optional one in its place. -/
def Production.slots : Production → List Meaning → List Meaning
  | .block params inverse, parts | .chained params inverse, parts =>
      fillSlot 3 inverse (fillSlot 1 params parts)
  | .attribute valued, parts => fillSlot 1 valued parts
  | _, parts => parts

/-- Span of tokens: from the first to the last; none if there is no token. -/
def tokensSpan? (tokens : List Token) : Option Span :=
  listSpan? (fun token => token.lexeme.span) tokens

/-- Location of tokens. -/
def tokensLocation? (file : String) (tokens : List Token) : Option Location :=
  (tokensSpan? tokens).map (Span.inFile file)

mutual

/-- The meaning of a tree; none for punctuation, several for a phrase of parts. -/
def ParseTree.meanings (file : String) : ParseTree → Except Stop (List Meaning)
  | .leaf token => .ok (if isPunctuation token.kind then [] else [.token token])
  | .node production children => do
      let parts ← forestMeanings file children
      production.method file (tokensLocation? file (forestTokens children))
        (production.slots parts)

/-- The meanings of trees, one after the other. -/
def forestMeanings (file : String) : List ParseTree → Except Stop (List Meaning)
  | [] => .ok []
  | tree :: rest => do
      let first ← tree.meanings file
      let others ← forestMeanings file rest
      return first ++ others

end

end Grammar

end TemplateUsage
