import TemplateUsage.Node.Build

set_option autoImplicit false

/-!
# Where the building of a tree fails

Only two things are checked while a tree is built: that the closing of an element or of a
block matches its opening, and that a number can be read. So a rejection stands at a
closing tag or at the path of a block's closing, and any other failure is that of a
number. Main statements: `buildTemplate_mismatched` and `exists_number_of_buildTemplate`.
-/

namespace TemplateUsage

/-- The fault is that a closing does not match its opening. -/
def Fault.IsMismatch : Fault → Prop
  | .tagMismatch _ _ | .blockMismatch _ _ => True
  | _ => False

theorem Fault.IsMismatch.code_ne {fault : Fault} (h : fault.IsMismatch) :
    fault.code ≠ .unexpectedEnd := by
  cases fault with
  | tagMismatch opened closed => exact nofun
  | blockMismatch opened closed => exact nofun
  | _ => exact h.elim

namespace Phrase

/-- The rejection stands at one of the tokens, a closing tag or a path that does not match. -/
def Mismatched (tokens : List Token) (rejection : Rejection) : Prop :=
  rejection.fault.IsMismatch ∧
    ∃ token ∈ tokens, (token.kind = .endTag ∨ token.kind = .path) ∧
      token.lexeme.span = rejection.span

/-- The error is that of one of the tokens: a closing that does not match or a number that
is not read. -/
def Explained (tokens : List Token) : BuildError → Prop
  | .rejected rejection => Mismatched tokens rejection
  | .numeral error =>
      ∃ token ∈ tokens, token.kind = .number ∧ Numeral.read token.lexeme.value = .error error

/-- If building fails, then with an error of the tokens. -/
def Explains {α : Type} (tokens : List Token) (built : Except BuildError α) : Prop :=
  ∀ error, built = .error error → Explained tokens error

variable {α β : Type} {tokens : List Token} {file : String}

/-- A build that succeeds has no failure to explain. -/
theorem explains_ok (value : α) : Explains tokens (.ok value : Except BuildError α) := nofun

/-- A failure of two builds in turn is a failure of one of them. -/
theorem Explains.bind {built : Except BuildError α} {next : α → Except BuildError β}
    (hbuilt : Explains tokens built) (hnext : ∀ value, Explains tokens (next value)) :
    Explains tokens (built >>= next) := by
  intro error h
  cases built with
  | ok value => exact hnext value error h
  | error error =>
      cases h
      exact hbuilt error rfl

/-- A failure over a list of phrases is a failure at one of them. -/
theorem explains_mapM {build : α → Except BuildError β} {phrases : List α}
    (hbuild : ∀ phrase ∈ phrases, Explains tokens (build phrase)) :
    Explains tokens (phrases.mapM build) := by
  induction phrases with
  | nil => exact explains_ok _
  | cons phrase rest ih =>
      obtain ⟨hphrase, hrest⟩ := List.forall_mem_cons.1 hbuild
      rw [List.mapM_cons]
      exact hphrase.bind fun _ => (ih hrest).bind fun _ => explains_ok _

theorem subset_of_flatMap_subset {phrases : List α} {tokensOf : α → List Token}
    (h : phrases.flatMap tokensOf ⊆ tokens) : ∀ phrase ∈ phrases, tokensOf phrase ⊆ tokens :=
  fun _ hphrase _ htoken => h (List.mem_flatMap.2 ⟨_, hphrase, htoken⟩)

/-! ## Calls and tags -/

/-- Of the literals only a number may fail to be read. -/
theorem explains_atom {sort : Atom} {lexeme : Lexeme} (h : ⟨sort.kind, lexeme⟩ ∈ tokens) :
    Explains tokens ((Expression.atom sort lexeme).build file) := by
  intro error herror
  rw [Expression.build] at herror
  cases sort with
  | number =>
      rw [Literal.read] at herror
      cases hread : Numeral.read lexeme.value with
      | ok value =>
          rw [hread] at herror
          cases herror
      | error fault =>
          rw [hread] at herror
          cases herror
          exact ⟨_, h, rfl, hread⟩
  | _ => cases herror

mutual

/-- A failure to build an expression is explained by the tokens of the expression. Calls and
pairs hold expressions, so this goes with the same of them. -/
theorem Expression.explains (expression : Expression) (h : expression.tokens ⊆ tokens) :
    Explains tokens (expression.build file) := by
  cases expression with
  | atom sort lexeme => exact explains_atom (h List.mem_cons_self)
  | nested opening call closing =>
      rw [Expression.tokens, List.append_subset, List.cons_subset] at h
      rw [Expression.build]
      exact (Call.explains call h.1.2).bind fun _ => explains_ok _
termination_by structural expression

/-- Only the callee, the arguments and the pairs of a call can fail. -/
theorem Call.explains (call : Call) (h : call.tokens ⊆ tokens) :
    Explains tokens (call.build file) := by
  cases call with
  | mk callee arguments pairs =>
      rw [Call.tokens, List.append_subset, List.append_subset] at h
      rw [Call.build]
      exact (Expression.explains callee h.1.1).bind fun _ =>
        (explains_expressions arguments h.1.2).bind fun _ =>
          (explains_pairs pairs h.2).bind fun _ => explains_ok _
termination_by structural call

theorem explains_expressions (expressions : List Expression)
    (h : argumentTokens expressions ⊆ tokens) :
    Explains tokens (buildExpressions file expressions) := by
  cases expressions with
  | nil => exact explains_ok _
  | cons expression rest =>
      rw [argumentTokens, List.append_subset] at h
      rw [buildExpressions]
      exact (Expression.explains expression h.1).bind fun _ =>
        (explains_expressions rest h.2).bind fun _ => explains_ok _
termination_by structural expressions

theorem Pair.explains (pair : Pair) (h : pair.tokens ⊆ tokens) :
    Explains tokens (pair.build file) := by
  cases pair with
  | mk key value =>
      rw [Pair.tokens, List.cons_subset] at h
      rw [Pair.build]
      exact (Expression.explains value h.2).bind fun _ => explains_ok _
termination_by structural pair

theorem explains_pairs (pairs : List Pair) (h : pairTokens pairs ⊆ tokens) :
    Explains tokens (buildPairs file pairs) := by
  cases pairs with
  | nil => exact explains_ok _
  | cons pair rest =>
      rw [pairTokens, List.append_subset] at h
      rw [buildPairs]
      exact (Pair.explains pair h.1).bind fun _ =>
        (explains_pairs rest h.2).bind fun _ => explains_ok _
termination_by structural pairs

end

theorem Mustache.explains (mustache : Mustache) (h : mustache.tokens ⊆ tokens) :
    Explains tokens (mustache.build file) := by
  rw [Mustache.tokens, List.append_subset, List.cons_subset] at h
  exact (mustache.call.explains h.1.2).bind fun _ => explains_ok _

theorem QuotedPart.explains (part : QuotedPart) (h : part.tokens ⊆ tokens) :
    Explains tokens (part.build file) := by
  cases part with
  | text lexeme => exact explains_ok _
  | mustache curly => exact curly.explains h

/-- A failure to build a value is one of its mustache or of a part between its quotes. -/
theorem Value.explains (value : Value) (h : value.tokens ⊆ tokens) :
    Explains tokens (value.build file) := by
  cases value with
  | text lexeme => exact explains_ok _
  | mustache curly => exact curly.explains h
  | quoted opening parts closing =>
      rw [Value.tokens, List.append_subset, List.cons_subset] at h
      rw [Value.build.eq_def]
      refine (explains_mapM fun part hpart =>
        part.explains (subset_of_flatMap_subset h.1.2 part hpart)).bind fun nodes => ?_
      split <;> exact explains_ok _

/-- A failure to build a part of a tag is one of its value or of its call. -/
theorem TagPart.explains (part : TagPart) (h : part.tokens ⊆ tokens) :
    Explains tokens (part.build file) := by
  cases part with
  | «attribute» name equals value =>
      rw [TagPart.tokens, List.cons_subset, List.cons_subset] at h
      exact (value.explains h.2.2).bind fun _ => explains_ok _
  | modifier opening call closing =>
      rw [TagPart.tokens, List.append_subset, List.cons_subset] at h
      exact (call.explains h.1.2).bind fun _ => explains_ok _
  | _ => exact explains_ok _

theorem Tag.explains (tag : Tag) (h : tag.tokens ⊆ tokens) :
    Explains tokens (tag.parts.mapM (TagPart.build file)) :=
  explains_mapM fun part hpart =>
    part.explains (subset_of_flatMap_subset (List.cons_subset.1 h).2 part hpart)

theorem Head.explains {kind : Kind} (head : Head) (h : head.tokens kind ⊆ tokens) :
    Explains tokens (head.call.build file) := by
  rw [Head.tokens, List.append_subset, List.append_subset, List.cons_subset] at h
  exact head.call.explains h.1.1.2

/-! ## Statements -/

mutual

/-- A block fails at its call, at what it holds, or when its end names another path; an element
likewise at its end tag. -/
theorem Statement.explains (statement : Statement) (h : statement.tokens ⊆ tokens) :
    Explains tokens (statement.build file) := by
  cases statement with
  | text lexeme => exact explains_ok _
  | htmlComment lexeme => exact explains_ok _
  | curlyComment lexeme => exact explains_ok _
  | mustache curly => exact curly.explains h
  | block head program inverse close =>
      rw [Statement.tokens, List.append_subset, List.append_subset, List.append_subset] at h
      obtain ⟨⟨⟨hhead, hprogram⟩, hinverse⟩, hclose⟩ := h
      rw [Statement.build]
      refine (head.explains hhead).bind fun _ => (explains_statements program hprogram).bind
        fun _ => (inverse.explains hinverse).bind fun _ => ?_
      -- the path of the closing is compared last, when everything inside is built
      dsimp only
      split
      · exact explains_ok _
      · rintro error ⟨⟩
        exact ⟨trivial, ⟨.path, close.path⟩, hclose (by simp [BlockEnd.tokens]), .inr rfl, rfl⟩
  | element tag tagEnd body endTag =>
      rw [Statement.tokens, List.append_subset, List.append_subset, List.cons_subset] at h
      obtain ⟨⟨htag, -, hbody⟩, hend⟩ := h
      rw [Statement.build]
      refine (tag.explains htag).bind fun _ => (explains_statements body hbody).bind fun _ => ?_
      split
      · exact explains_ok _
      · rintro error ⟨⟩
        exact ⟨trivial, ⟨.endTag, endTag⟩, hend List.mem_cons_self, .inl rfl, rfl⟩
  | selfClosing tag tagEnd =>
      rw [Statement.tokens, List.append_subset] at h
      rw [Statement.build]
      exact (tag.explains h.1).bind fun _ => explains_ok _
  | void tag tagEnd =>
      rw [Statement.tokens, List.append_subset] at h
      rw [Statement.build]
      exact (tag.explains h.1).bind fun _ => explains_ok _
termination_by structural statement

/-- What comes after `else` fails only where a block would. -/
theorem Inverse.explains (inverse : Inverse) (h : inverse.tokens ⊆ tokens) :
    Explains tokens (inverse.build file) := by
  cases inverse with
  | absent => exact explains_ok _
  | otherwise opening closing program =>
      rw [Inverse.tokens, List.cons_subset, List.cons_subset] at h
      rw [Inverse.build]
      exact (explains_statements program h.2.2).bind fun _ => explains_ok _
  | chained head program inverse =>
      rw [Inverse.tokens, List.append_subset, List.append_subset] at h
      rw [Inverse.build]
      exact (head.explains h.1.1).bind fun _ => (explains_statements program h.1.2).bind
        fun _ => (inverse.explains h.2).bind fun _ => explains_ok _
termination_by structural inverse

theorem explains_statements (statements : List Statement)
    (h : statementTokens statements ⊆ tokens) :
    Explains tokens (buildStatements file statements) := by
  cases statements with
  | nil => exact explains_ok _
  | cons statement rest =>
      rw [statementTokens, List.append_subset] at h
      rw [buildStatements]
      exact (statement.explains h.1).bind fun _ =>
        (explains_statements rest h.2).bind fun _ => explains_ok _
termination_by structural statements

end

/-- A template that cannot be built has a token to show for it. -/
theorem explains_buildTemplate (statements : List Statement) :
    Explains (statementTokens statements) (buildTemplate file statements) :=
  (explains_statements statements (List.Subset.refl _)).bind fun _ => explains_ok _

/-- The building of a tree is rejected only at a closing tag or at the path of a
block's closing. -/
theorem buildTemplate_mismatched {statements : List Statement} {rejection : Rejection}
    (h : buildTemplate file statements = .error (.rejected rejection)) :
    Mismatched (statementTokens statements) rejection :=
  explains_buildTemplate statements _ h

/-- Where the building of a tree fails otherwise, there is a number that is not read. -/
theorem exists_number_of_buildTemplate {statements : List Statement} {error : NumeralError}
    (h : buildTemplate file statements = .error (.numeral error)) :
    ∃ token ∈ statementTokens statements, token.kind = .number ∧
      Numeral.read token.lexeme.value = .error error :=
  explains_buildTemplate statements _ h

end Phrase

end TemplateUsage
