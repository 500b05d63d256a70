import TemplateUsage.Node.Build

set_option autoImplicit false

/-!
# What nodes are built from

If a phrase is built to a node, then its parts were built first, the check on it was
passed, and the node is made of what the parts were built to. There is one statement for
each form of phrase that has parts.
-/

namespace TemplateUsage.Phrase

variable {file : String}

/-- Two builds in turn succeed only if both do. -/
theorem exists_of_bind_eq_ok {α β : Type} {built : Except BuildError α}
    {next : α → Except BuildError β} {result : β} (h : (built >>= next) = .ok result) :
    ∃ value, built = .ok value ∧ next value = .ok result := by
  cases built with
  | error error => cases h
  | ok value => exact ⟨value, rfl, h⟩

/-- What is built from phrases one by one. -/
theorem exists_of_mapM_cons {α β : Type} {build : α → Except BuildError β} {phrase : α}
    {rest : List α} {results : List β} (h : (phrase :: rest).mapM build = .ok results) :
    ∃ built others, build phrase = .ok built ∧ rest.mapM build = .ok others ∧
      results = built :: others := by
  rw [List.mapM_cons] at h
  obtain ⟨built, hbuilt, h⟩ := exists_of_bind_eq_ok h
  obtain ⟨others, hothers, h⟩ := exists_of_bind_eq_ok h
  cases h
  exact ⟨built, others, hbuilt, hothers, rfl⟩

/-! ## Expressions -/

/-- An atom is a literal, or a path if it cannot be read as one. -/
theorem Expression.of_build_atom {sort : Atom} {lexeme : Lexeme} {node : Node}
    (h : (Expression.atom sort lexeme).build file = .ok node) :
    (∃ value, Literal.read sort lexeme.value = .ok value ∧
      node = .literal (some (lexeme.span.inFile file)) value) ∨
    ∃ name, Literal.read sort lexeme.value = .error (.notLiteral name) ∧
      node = .path (some (lexeme.span.inFile file)) lexeme.value := by
  rw [Expression.build] at h
  split at h
  · rename_i value hread
    cases h
    exact .inl ⟨value, hread, rfl⟩
  · cases h
  · rename_i name hread
    cases h
    exact .inr ⟨name, hread, rfl⟩

/-- A parenthesised call becomes an invocation over the parentheses. -/
theorem Expression.exists_of_build_nested {opening closing : Lexeme} {call : Call} {node : Node}
    (h : (Expression.nested opening call closing).build file = .ok node) :
    ∃ invoked, call.build file = .ok invoked ∧
      node = .invocation (some ((opening.span.cover closing.span).inFile file)) .subExpression
        invoked.callee invoked.params invoked.hash := by
  rw [Expression.build] at h
  obtain ⟨invoked, hinvoked, h⟩ := exists_of_bind_eq_ok h
  cases h
  exact ⟨invoked, hinvoked, rfl⟩

/-- A call is built from its callee, its arguments and its pairs, each on its own. -/
theorem Call.exists_of_build {callee : Expression} {arguments : List Expression}
    {pairs : List Pair} {invoked : Invoked}
    (h : (Call.mk callee arguments pairs).build file = .ok invoked) :
    ∃ calleeNode params pairNodes, callee.build file = .ok calleeNode ∧
      buildExpressions file arguments = .ok params ∧ buildPairs file pairs = .ok pairNodes ∧
      invoked = ⟨calleeNode, params, .hash (listLocation? file Pair.span pairs) pairNodes⟩ := by
  rw [Call.build] at h
  obtain ⟨calleeNode, hcallee, h⟩ := exists_of_bind_eq_ok h
  obtain ⟨params, hparams, h⟩ := exists_of_bind_eq_ok h
  obtain ⟨pairNodes, hpairs, h⟩ := exists_of_bind_eq_ok h
  cases h
  exact ⟨calleeNode, params, pairNodes, hcallee, hparams, hpairs, rfl⟩

theorem exists_of_buildExpressions_cons {expression : Expression} {rest : List Expression}
    {nodes : List Node} (h : buildExpressions file (expression :: rest) = .ok nodes) :
    ∃ node others, expression.build file = .ok node ∧ buildExpressions file rest = .ok others ∧
      nodes = node :: others := by
  rw [buildExpressions] at h
  obtain ⟨node, hnode, h⟩ := exists_of_bind_eq_ok h
  obtain ⟨others, hothers, h⟩ := exists_of_bind_eq_ok h
  cases h
  exact ⟨node, others, hnode, hothers, rfl⟩

theorem Pair.exists_of_build {key : Lexeme} {value : Expression} {node : Node}
    (h : (Pair.mk key value).build file = .ok node) :
    ∃ valueNode, value.build file = .ok valueNode ∧
      node = .pair (some ((key.span.cover value.span).inFile file)) key.value valueNode := by
  rw [Pair.build] at h
  obtain ⟨valueNode, hvalue, h⟩ := exists_of_bind_eq_ok h
  cases h
  exact ⟨valueNode, hvalue, rfl⟩

theorem exists_of_buildPairs_cons {pair : Pair} {rest : List Pair} {nodes : List Node}
    (h : buildPairs file (pair :: rest) = .ok nodes) :
    ∃ node others, pair.build file = .ok node ∧ buildPairs file rest = .ok others ∧
      nodes = node :: others := by
  rw [buildPairs] at h
  obtain ⟨node, hnode, h⟩ := exists_of_bind_eq_ok h
  obtain ⟨others, hothers, h⟩ := exists_of_bind_eq_ok h
  cases h
  exact ⟨node, others, hnode, hothers, rfl⟩

/-- A mustache becomes an invocation over its braces, trusting if there are three. -/
theorem Mustache.exists_of_build {mustache : Mustache} {node : Node}
    (h : mustache.build file = .ok node) :
    ∃ invoked, mustache.call.build file = .ok invoked ∧
      node = .invocation (some (mustache.span.inFile file)) (.mustache mustache.trusting)
        invoked.callee invoked.params invoked.hash := by
  rw [Mustache.build] at h
  obtain ⟨invoked, hinvoked, h⟩ := exists_of_bind_eq_ok h
  cases h
  exact ⟨invoked, hinvoked, rfl⟩

/-! ## Opening tags -/

/-- A quoted value is a text if all its parts are. -/
theorem Value.exists_of_build_quoted {opening closing : Lexeme} {parts : List QuotedPart}
    {node : Node} (h : (Value.quoted opening parts closing).build file = .ok node) :
    ∃ nodes, parts.mapM (QuotedPart.build file) = .ok nodes ∧
      ((∃ texts, parts.mapM QuotedPart.text? = some texts ∧
        node = .text (some ((opening.span.cover closing.span).inFile file)) (String.join texts)) ∨
      parts.mapM QuotedPart.text? = none ∧
        node = .concat (some ((opening.span.cover closing.span).inFile file)) nodes) := by
  rw [Value.build] at h
  obtain ⟨nodes, hnodes, h⟩ := exists_of_bind_eq_ok h
  refine ⟨nodes, hnodes, ?_⟩
  split at h
  · rename_i texts htexts
    cases h
    exact .inl ⟨texts, htexts, rfl⟩
  · rename_i htexts
    cases h
    exact .inr ⟨htexts, rfl⟩

theorem TagPart.exists_of_build_attribute {name equals : Lexeme} {value : Value}
    {built : BuiltPart} (h : (TagPart.attribute name equals value).build file = .ok built) :
    ∃ node, value.build file = .ok node ∧
      built = .attribute
        (.attribute (some ((name.span.cover value.span).inFile file)) name.value node) := by
  rw [TagPart.build] at h
  obtain ⟨node, hnode, h⟩ := exists_of_bind_eq_ok h
  cases h
  exact ⟨node, hnode, rfl⟩

/-- Braces among the parts of a tag become a modifier. -/
theorem TagPart.exists_of_build_modifier {opening closing : Lexeme} {call : Call}
    {built : BuiltPart} (h : (TagPart.modifier opening call closing).build file = .ok built) :
    ∃ invoked, call.build file = .ok invoked ∧
      built = .modifier (.invocation (some ((opening.span.cover closing.span).inFile file))
        .modifier invoked.callee invoked.params invoked.hash) := by
  rw [TagPart.build] at h
  obtain ⟨invoked, hinvoked, h⟩ := exists_of_bind_eq_ok h
  cases h
  exact ⟨invoked, hinvoked, rfl⟩

/-! ## Statements -/

/-- A block that can be built is closed by the path it was opened with. -/
theorem Statement.exists_of_build_block {head : Head} {program : List Statement}
    {inverse : Inverse} {close : BlockEnd} {node : Node}
    (h : (Statement.block head program inverse close).build file = .ok node) :
    ∃ invoked statements inverseNode, head.call.build file = .ok invoked ∧
      buildStatements file program = .ok statements ∧ inverse.build file = .ok inverseNode ∧
      head.call.callee.closedBy close.path = true ∧
      node = .block (some ((head.opening.span.cover close.closing.span).inFile file))
        invoked.callee invoked.params invoked.hash
        (.body (listLocation? file Statement.span program) head.names statements false)
        inverseNode := by
  rw [Statement.build] at h
  obtain ⟨invoked, hinvoked, h⟩ := exists_of_bind_eq_ok h
  obtain ⟨statements, hprogram, h⟩ := exists_of_bind_eq_ok h
  obtain ⟨inverseNode, hinverse, h⟩ := exists_of_bind_eq_ok h
  dsimp only at h
  split at h
  · rename_i hclosed
    cases h
    exact ⟨invoked, statements, inverseNode, hinvoked, hprogram, hinverse, hclosed, rfl⟩
  · cases h

/-- An element that can be built is closed by the tag name it was opened with. -/
theorem Statement.exists_of_build_element {tag : Tag} {tagEnd endTag : Lexeme}
    {body : List Statement} {node : Node}
    (h : (Statement.element tag tagEnd body endTag).build file = .ok node) :
    ∃ parts members, tag.parts.mapM (TagPart.build file) = .ok parts ∧
      buildStatements file body = .ok members ∧ (tag.name.value == endTag.value) = true ∧
      node = elementNode ((tag.name.span.cover endTag.span).inFile file) tag.name.value parts
        members false := by
  rw [Statement.build] at h
  obtain ⟨parts, hparts, h⟩ := exists_of_bind_eq_ok h
  obtain ⟨members, hmembers, h⟩ := exists_of_bind_eq_ok h
  split at h
  · rename_i hsame
    cases h
    exact ⟨parts, members, hparts, hmembers, hsame, rfl⟩
  · cases h

theorem Inverse.exists_of_build_otherwise {opening closing : Lexeme} {program : List Statement}
    {node : Option Node} (h : (Inverse.otherwise opening closing program).build file = .ok node) :
    ∃ statements, buildStatements file program = .ok statements ∧
      node = some (.body
        (some (((Inverse.otherwise opening closing program).spanFrom opening).inFile file)) []
        statements false) := by
  rw [Inverse.build] at h
  obtain ⟨statements, hprogram, h⟩ := exists_of_bind_eq_ok h
  cases h
  exact ⟨statements, hprogram, rfl⟩

/-- An else that goes on with a section holds one block, located as itself. -/
theorem Inverse.exists_of_build_chained {head : Head} {program : List Statement}
    {ending : Inverse} {node : Option Node}
    (h : (Inverse.chained head program ending).build file = .ok node) :
    ∃ invoked statements endingNode, head.call.build file = .ok invoked ∧
      buildStatements file program = .ok statements ∧ ending.build file = .ok endingNode ∧
      node = some (.body
        (some (((Inverse.chained head program ending).spanFrom head.opening).inFile file)) []
        [.block (some (((Inverse.chained head program ending).spanFrom head.opening).inFile file))
          invoked.callee invoked.params invoked.hash
          (.body (listLocation? file Statement.span program) head.names statements false)
          endingNode] true) := by
  rw [Inverse.build] at h
  obtain ⟨invoked, hinvoked, h⟩ := exists_of_bind_eq_ok h
  obtain ⟨statements, hprogram, h⟩ := exists_of_bind_eq_ok h
  obtain ⟨endingNode, hending, h⟩ := exists_of_bind_eq_ok h
  cases h
  exact ⟨invoked, statements, endingNode, hinvoked, hprogram, hending, rfl⟩

theorem exists_of_buildStatements_cons {statement : Statement} {rest : List Statement}
    {nodes : List Node} (h : buildStatements file (statement :: rest) = .ok nodes) :
    ∃ node others, statement.build file = .ok node ∧ buildStatements file rest = .ok others ∧
      nodes = node :: others := by
  rw [buildStatements] at h
  obtain ⟨node, hnode, h⟩ := exists_of_bind_eq_ok h
  obtain ⟨others, hothers, h⟩ := exists_of_bind_eq_ok h
  cases h
  exact ⟨node, others, hnode, hothers, rfl⟩

/-- The root covers the statements of the template. -/
theorem exists_of_buildTemplate {statements : List Statement} {root : Node}
    (h : buildTemplate file statements = .ok root) :
    ∃ nodes, buildStatements file statements = .ok nodes ∧
      root = .template (listLocation? file Statement.span statements) nodes := by
  rw [buildTemplate] at h
  obtain ⟨nodes, hnodes, h⟩ := exists_of_bind_eq_ok h
  cases h
  exact ⟨nodes, hnodes, rfl⟩

end TemplateUsage.Phrase
