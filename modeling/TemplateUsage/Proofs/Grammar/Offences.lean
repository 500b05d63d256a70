import TemplateUsage.Node.Build
import TemplateUsage.Proofs.Grammar.PhraseTree
import TemplateUsage.Proofs.Numerals

set_option autoImplicit false

/-!
# Phrases that fail a check

Three sorts of phrase are checked while a tree is built: an element must be closed under
its own name, a block under its own path, and an integer must not have too many digits.
`ParseTree.Offends` says which subtrees of a derivation fail, and with which error. Building
fails at the first of the subtrees that does, each subtree coming after those inside it.
Main statement: `reports_buildTemplate`.
-/

namespace TemplateUsage

open Grammar Phrase

namespace Grammar

/-! ## Subtrees -/

mutual

/-- The subtrees of a tree, each after those inside it and before those to its right. -/
def ParseTree.subtrees : ParseTree → List ParseTree
  | .leaf token => [.leaf token]
  | .node production children => forestSubtrees children ++ [.node production children]

/-- The subtrees of trees, from left to right. -/
def forestSubtrees : List ParseTree → List ParseTree
  | [] => []
  | tree :: rest => tree.subtrees ++ forestSubtrees rest

end

theorem forestSubtrees_append (front back : List ParseTree) :
    forestSubtrees (front ++ back) = forestSubtrees front ++ forestSubtrees back := by
  induction front with
  | nil => rfl
  | cons tree rest ih =>
      rw [List.cons_append, forestSubtrees, forestSubtrees, ih, List.append_assoc]

/-! ## Offences -/

/-- The tree fails a check of its own, with the error it is reported by. -/
inductive ParseTree.Offends : ParseTree → BuildError → Prop where
  /-- An element closed under another name, at its closing tag. -/
  | element {startTag tagEnd endTag : Lexeme} {parts body : ParseTree} :
      startTag.value ≠ endTag.value →
      Offends
        (.node .element
          [.word .startTag startTag, parts, .word .tagEnd tagEnd, body, .word .endTag endTag])
        (.rejected ⟨.tagMismatch startTag.value endTag.value, endTag.span⟩)
  /-- A block whose callee is not a path, or another than that of its closing, at the path
  of its closing. -/
  | block {params inverse : Bool} {opening mark path closing : Lexeme} {callee : Expression}
      {arguments middle : List ParseTree} :
      (∀ name : Lexeme, callee = .atom .path name → name.value ≠ path.value) →
      Offends
        (.node (.block params inverse)
          (.word .openBlock opening :: .node .call (callee.tree :: arguments) ::
            (middle ++
              [.word .openEndBlock mark, atomTree .path path, .word .closeCurly closing])))
        (.rejected ⟨.blockMismatch callee.title path.value, path.span⟩)
  /-- An integer of too many digits. -/
  | integer {lexeme : Lexeme} {count : Nat} :
      Numeral.Overlong lexeme.value.toList count →
      Offends (atomTree .number lexeme) (.numeral (.tooManyDigits count))

/-- Productions whose phrases are checked. -/
def Production.isChecked : Production → Bool
  | .element | .block _ _ | .atom .number => true
  | _ => false

/-- None of the trees fails a check of its own. -/
def Sound (trees : List ParseTree) : Prop := ∀ tree ∈ trees, ∀ error, ¬ tree.Offends error

theorem ParseTree.not_offends_leaf (token : Token) (error : BuildError) :
    ¬ (ParseTree.leaf token).Offends error := by
  intro h
  cases h

theorem ParseTree.not_offends_node {production : Production} (h : production.isChecked = false)
    (children : List ParseTree) (error : BuildError) :
    ¬ (ParseTree.node production children).Offends error := by
  intro hoffends
  cases hoffends <;> cases h

/-! ## Reports -/

/-- Building fails exactly when one of the trees fails a check, and with the error of the
first that does. -/
def Reports {α : Type} (trees : List ParseTree) : Except BuildError α → Prop
  | .ok _ => Sound trees
  | .error error => ∃ front tree back, trees = front ++ tree :: back ∧ Sound front ∧
      tree.Offends error

variable {α β : Type} {trees front back : List ParseTree}

theorem reports_nil (value : α) : Reports [] (.ok value : Except BuildError α) := nofun

/-- A tree that fails no check may come first. -/
theorem Reports.cons {built : Except BuildError α} {tree : ParseTree}
    (htree : ∀ error, ¬ tree.Offends error) (h : Reports trees built) :
    Reports (tree :: trees) built := by
  cases built with
  | ok value => exact List.forall_mem_cons.2 ⟨htree, h⟩
  | error error =>
      obtain ⟨front, found, back, rfl, hfront, hfound⟩ := h
      exact ⟨tree :: front, found, back, rfl, List.forall_mem_cons.2 ⟨htree, hfront⟩, hfound⟩

/-- What is built first reports the first trees; only if they are sound do the others count. -/
theorem Reports.bind {built : Except BuildError α} {next : α → Except BuildError β}
    (hbuilt : Reports front built) (hnext : ∀ value, Reports back (next value)) :
    Reports (front ++ back) (built >>= next) := by
  cases built with
  | error error =>
      obtain ⟨others, found, rest, rfl, hothers, hfound⟩ := hbuilt
      exact ⟨others, found, rest ++ back, by simp, hothers, hfound⟩
  | ok value =>
      have hback := hnext value
      show Reports (front ++ back) (next value)
      cases hresult : next value with
      | ok result =>
          rw [hresult] at hback
          exact List.forall_mem_append.2 ⟨hbuilt, hback⟩
      | error error =>
          rw [hresult] at hback
          obtain ⟨others, found, rest, rfl, hothers, hfound⟩ := hback
          exact ⟨front ++ others, found, rest, by simp,
            List.forall_mem_append.2 ⟨hbuilt, hothers⟩, hfound⟩

/-- Building goes on to a value: only the first trees count. -/
theorem Reports.map {built : Except BuildError α} {next : α → β} (h : Reports trees built) :
    Reports trees (built >>= fun value => .ok (next value)) := by
  rw [← List.append_nil trees]
  exact h.bind fun value => reports_nil (next value)

/-! ## Forests

A phrase is built from its parts, and then checked itself. The lemmas below take the parts
of a phrase one after the other; `own` is the phrase as a whole, which comes last. -/

section Parts

variable {own : List ParseTree}

theorem reports_word {built : Except BuildError α} {kind : Kind} {lexeme : Lexeme}
    (h : Reports (forestSubtrees trees ++ own) built) :
    Reports (forestSubtrees (.word kind lexeme :: trees) ++ own) built :=
  h.cons (ParseTree.not_offends_leaf _)

/-- Building a phrase and then the rest reports the first offence in either. -/
theorem reports_phrase {built : Except BuildError α} {next : α → Except BuildError β}
    {tree : ParseTree} (htree : Reports tree.subtrees built)
    (hnext : ∀ value, Reports (forestSubtrees trees ++ own) (next value)) :
    Reports (forestSubtrees (tree :: trees) ++ own) (built >>= next) := by
  rw [forestSubtrees, List.append_assoc]
  exact htree.bind hnext

/-- A part that is not built, and holds nothing to check. -/
theorem reports_unbuilt {built : Except BuildError α} {tree : ParseTree}
    (htree : Sound tree.subtrees) (h : Reports (forestSubtrees trees ++ own) built) :
    Reports (forestSubtrees (tree :: trees) ++ own) built := by
  have hunit : Reports tree.subtrees (.ok () : Except BuildError Unit) := htree
  exact reports_phrase hunit fun _ => h

theorem reports_phrases {built : Except BuildError α} {next : α → Except BuildError β}
    (hfront : Reports (forestSubtrees front) built)
    (hnext : ∀ value, Reports (forestSubtrees back ++ own) (next value)) :
    Reports (forestSubtrees (front ++ back) ++ own) (built >>= next) := by
  rw [forestSubtrees_append, List.append_assoc]
  exact hfront.bind hnext

/-- At the end stands a phrase that is not checked. -/
theorem reports_own {production : Production} (h : production.isChecked = false)
    (children : List ParseTree) (value : α) :
    Reports (forestSubtrees [] ++ [.node production children])
      (.ok value : Except BuildError α) :=
  (reports_nil value).cons (ParseTree.not_offends_node h children)

end Parts

/-- A phrase that is not checked reports what its parts report. -/
theorem reports_node {built : Except BuildError α} {production : Production}
    {children : List ParseTree} (hproduction : production.isChecked = false)
    (h : Reports (forestSubtrees children) built) :
    Reports (ParseTree.node production children).subtrees built := by
  rw [ParseTree.subtrees, ← bind_pure built]
  exact h.bind fun value => reports_own hproduction children value

theorem reports_chosen {whole part : Nonterminal} {mem : part ∈ whole.choices}
    {tree : ParseTree} {built : Except BuildError α} (h : Reports tree.subtrees built) :
    Reports (ParseTree.chosen whole part mem tree).subtrees built := by
  refine reports_node rfl ?_
  rwa [forestSubtrees, forestSubtrees, List.append_nil]

/-- A phrase of a single token that is not a number is not checked. -/
theorem sound_single {production : Production} (h : production.isChecked = false) (kind : Kind)
    (lexeme : Lexeme) : Sound (ParseTree.node production [.word kind lexeme]).subtrees :=
  reports_word (reports_own h _ ())

theorem reports_mapM {γ : Type} {tree : γ → ParseTree} {build : γ → Except BuildError β}
    {phrases : List γ} (h : ∀ phrase ∈ phrases, Reports (tree phrase).subtrees (build phrase)) :
    Reports (forestSubtrees (phrases.map tree)) (phrases.mapM build) := by
  induction phrases with
  | nil => exact reports_nil _
  | cons phrase rest ih =>
      obtain ⟨hphrase, hrest⟩ := List.forall_mem_cons.1 h
      rw [List.map_cons, forestSubtrees, List.mapM_cons]
      exact hphrase.bind fun _ => (ih hrest).map

end Grammar

namespace Phrase

variable {file : String}

/-- The token, if it is a number, is a numeral. -/
def Legible (token : Token) : Prop :=
  token.kind = .number → IsNumeral token.lexeme.value.toList

/-! ## Expressions -/

/-- Of the atoms only a number is checked. -/
theorem reports_atom {sort : Atom} {lexeme : Lexeme} (h : Legible ⟨sort.kind, lexeme⟩) :
    Reports (atomTree sort lexeme).subtrees ((Expression.atom sort lexeme).build file) := by
  rw [atomTree, ParseTree.subtrees, Expression.build]
  refine reports_word ?_
  cases sort with
  | number =>
      have hnumeral : IsNumeral lexeme.value.toList := h rfl
      have hread : ∀ error, Numeral.read lexeme.value = .error error ↔
          ∃ count, error = .tooManyDigits count ∧ Numeral.Overlong lexeme.value.toList count := by
        intro error
        rw [← Numeral.read_eq_error_iff hnumeral, String.ofList_toList]
      rw [Literal.read]
      cases hvalue : Numeral.read lexeme.value with
      | ok value =>
          rintro tree htree error herror
          rw [List.mem_singleton.1 htree] at herror
          cases herror with
          | integer hlong =>
              have hfails := (hread _).2 ⟨_, rfl, hlong⟩
              rw [hvalue] at hfails
              cases hfails
      | error error =>
          obtain ⟨count, rfl, hlong⟩ := (hread error).1 hvalue
          exact ⟨[], _, [], rfl, List.forall_mem_nil _, .integer hlong⟩
  | _ => exact reports_own rfl _ _

mutual

theorem Expression.reports (expression : Expression)
    (h : ∀ token ∈ expression.tokens, Legible token) :
    Reports expression.tree.subtrees (expression.build file) := by
  cases expression with
  | atom sort lexeme => exact reports_chosen (reports_atom (h _ List.mem_cons_self))
  | nested opening call closing =>
      rw [Expression.tokens, List.forall_mem_append, List.forall_mem_cons] at h
      rw [Expression.tree, Expression.build]
      refine reports_chosen ?_
      rw [ParseTree.subtrees]
      exact reports_word (reports_phrase (Call.reports call h.1.2) fun _ =>
        reports_word (reports_own rfl _ _))
termination_by structural expression

theorem Call.reports (call : Call) (h : ∀ token ∈ call.tokens, Legible token) :
    Reports call.tree.subtrees (call.build file) := by
  cases call with
  | mk callee arguments pairs =>
      rw [Call.tokens, List.forall_mem_append, List.forall_mem_append] at h
      rw [Call.tree, Call.build, ParseTree.subtrees, ← List.append_nil (pairTrees pairs)]
      exact reports_phrase (Expression.reports callee h.1.1) fun _ =>
        reports_phrases (reports_arguments arguments h.1.2) fun _ =>
          reports_phrases (reports_pairs pairs h.2) fun _ => reports_own rfl _ _
termination_by structural call

theorem reports_arguments (arguments : List Expression)
    (h : ∀ token ∈ argumentTokens arguments, Legible token) :
    Reports (forestSubtrees (argumentTrees arguments)) (buildExpressions file arguments) := by
  cases arguments with
  | nil => exact reports_nil _
  | cons argument rest =>
      rw [argumentTokens, List.forall_mem_append] at h
      rw [argumentTrees, forestSubtrees, buildExpressions]
      exact (Expression.reports argument h.1).bind fun _ => (reports_arguments rest h.2).map
termination_by structural arguments

theorem Pair.reports (pair : Pair) (h : ∀ token ∈ pair.tokens, Legible token) :
    Reports pair.tree.subtrees (pair.build file) := by
  cases pair with
  | mk key value =>
      rw [Pair.tokens, List.forall_mem_cons] at h
      rw [Pair.tree, Pair.build, ParseTree.subtrees]
      exact reports_word (reports_phrase (Expression.reports value h.2) fun _ =>
        reports_own rfl _ _)
termination_by structural pair

theorem reports_pairs (pairs : List Pair) (h : ∀ token ∈ pairTokens pairs, Legible token) :
    Reports (forestSubtrees (pairTrees pairs)) (buildPairs file pairs) := by
  cases pairs with
  | nil => exact reports_nil _
  | cons pair rest =>
      rw [pairTokens, List.forall_mem_append] at h
      rw [pairTrees, forestSubtrees, buildPairs]
      exact (Pair.reports pair h.1).bind fun _ => (reports_pairs rest h.2).map
termination_by structural pairs

end

theorem Mustache.reports (mustache : Mustache) (h : ∀ token ∈ mustache.tokens, Legible token) :
    Reports mustache.tree.subtrees (mustache.build file) := by
  rw [Mustache.tokens, List.forall_mem_append, List.forall_mem_cons] at h
  rw [Mustache.tree, Mustache.build, ParseTree.subtrees]
  exact reports_word (reports_phrase (mustache.call.reports h.1.2) fun _ =>
    reports_word (reports_own rfl _ _))

/-! ## Opening tags -/

/-- What holds of the tokens of phrases holds of those of each. -/
theorem legible_of_flatMap {α : Type} {tokens : α → List Token} {phrases : List α}
    (h : ∀ token ∈ phrases.flatMap tokens, Legible token) :
    ∀ phrase ∈ phrases, ∀ token ∈ tokens phrase, Legible token :=
  fun _ hphrase _ htoken => h _ (List.mem_flatMap.2 ⟨_, hphrase, htoken⟩)

theorem QuotedPart.reports (part : QuotedPart) (h : ∀ token ∈ part.tokens, Legible token) :
    Reports part.tree.subtrees (part.build file) := by
  cases part with
  | text lexeme => exact reports_chosen (sound_single rfl _ _)
  | mustache curly => exact reports_chosen (curly.reports h)

theorem Value.reports (value : Value) (h : ∀ token ∈ value.tokens, Legible token) :
    Reports value.tree.subtrees (value.build file) := by
  cases value with
  | text lexeme => exact sound_single rfl _ _
  | mustache curly => exact reports_chosen (curly.reports h)
  | quoted opening parts closing =>
      rw [Value.tokens, List.forall_mem_append, List.forall_mem_cons] at h
      rw [Value.tree, Value.build.eq_def, ParseTree.subtrees]
      refine reports_word (reports_phrases (reports_mapM fun part hpart =>
        part.reports (legible_of_flatMap h.1.2 part hpart)) fun nodes => reports_word ?_)
      split <;> exact reports_own rfl _ _

theorem TagPart.reports (part : TagPart) (h : ∀ token ∈ part.tokens, Legible token) :
    Reports part.tree.subtrees (part.build file) := by
  cases part with
  | flag name => exact reports_chosen (sound_single rfl _ _)
  | «attribute» name equals value =>
      rw [TagPart.tokens, List.forall_mem_cons, List.forall_mem_cons] at h
      rw [TagPart.tree, TagPart.build]
      refine reports_chosen ?_
      rw [ParseTree.subtrees]
      exact reports_word (reports_word (reports_phrase (value.reports h.2.2) fun _ =>
        reports_own rfl _ _))
  | modifier opening call closing =>
      rw [TagPart.tokens, List.forall_mem_append, List.forall_mem_cons] at h
      rw [TagPart.tree, TagPart.build]
      refine reports_chosen ?_
      rw [ParseTree.subtrees]
      exact reports_word (reports_phrase (call.reports h.1.2) fun _ =>
        reports_word (reports_own rfl _ _))
  | params lexeme => exact reports_chosen (sound_single rfl _ _)
  | comment lexeme => exact reports_chosen (sound_single rfl _ _)

section Parts

variable {β : Type} {rest own : List ParseTree}

/-- The parts of a tag are built, then what comes after the tag. -/
theorem Tag.reports {next : List BuiltPart → Except BuildError β} (tag : Tag)
    (h : ∀ token ∈ tag.tokens, Legible token)
    (hnext : ∀ parts, Reports (forestSubtrees rest ++ own) (next parts)) :
    Reports (forestSubtrees (tag.trees rest) ++ own)
      (tag.parts.mapM (TagPart.build file) >>= next) := by
  rw [Tag.tokens, List.forall_mem_cons] at h
  exact reports_word (reports_phrase (reports_node rfl (reports_mapM fun part hpart =>
    part.reports (legible_of_flatMap h.2 part hpart))) hnext)

/-- The call of a head is built, then what comes after the head. -/
theorem Head.reports {kind : Kind} {next : Invoked → Except BuildError β} (head : Head)
    (h : ∀ token ∈ head.tokens kind, Legible token)
    (hnext : ∀ invoked, Reports (forestSubtrees rest ++ own) (next invoked)) :
    Reports (forestSubtrees (head.trees kind rest) ++ own) (head.call.build file >>= next) := by
  rw [Head.tokens, List.forall_mem_append, List.forall_mem_append, List.forall_mem_cons] at h
  refine reports_word (reports_phrase (head.call.reports h.1.1.2) fun invoked => ?_)
  cases head.params with
  | none => exact reports_word (hnext invoked)
  | some params => exact reports_unbuilt (sound_single rfl _ _) (reports_word (hnext invoked))

end Parts

/-! ## Statements -/

theorem Expression.closedBy_iff (callee : Expression) (path : Lexeme) :
    callee.closedBy path = true ↔
      ∃ name : Lexeme, callee = .atom .path name ∧ name.value = path.value := by
  cases callee with
  | atom sort lexeme => cases sort <;> simp [Expression.closedBy]
  | nested opening call closing => simp [Expression.closedBy]

/-- The tree of a callee tells what a block is called by and what closes it. -/
theorem Expression.title_of_tree_eq {callee other : Expression} (h : callee.tree = other.tree) :
    callee.title = other.title ∧ ∀ path, callee.closedBy path = other.closedBy path := by
  cases callee with
  | atom sort lexeme =>
      cases other with
      | atom sort' lexeme' =>
          rw [Expression.tree, Expression.tree, ParseTree.chosen, ParseTree.chosen] at h
          injection h with hproduction hchildren
          injection hproduction with _ hsort
          injection hsort with hsort
          subst hsort
          injection hchildren with hatom
          injection hatom with _ hleaves
          injection hleaves with hleaf
          injection hleaf with htoken
          injection htoken with _ hlexeme
          subst hlexeme
          exact ⟨rfl, fun _ => rfl⟩
      | nested =>
          rw [Expression.tree, Expression.tree, ParseTree.chosen, ParseTree.chosen] at h
          injection h with hproduction
          injection hproduction with _ hpart
          cases hpart
  | nested opening call closing =>
      cases other with
      | atom =>
          rw [Expression.tree, Expression.tree, ParseTree.chosen, ParseTree.chosen] at h
          injection h with hproduction
          injection hproduction with _ hpart
          cases hpart
      | nested => exact ⟨rfl, fun _ => rfl⟩

/-- The tree of a block. -/
def blockTree (head : Head) (program : List Statement) (inverse : Inverse) (close : BlockEnd) :
    ParseTree :=
  .node (.block head.params.isSome inverse.isPresent)
    (head.trees .openBlock (.node .program (statementTrees program) ::
      (inverse.tree?.toList ++ close.trees)))

/-- The call comes second in a block, and the closing is its last three parts. -/
theorem exists_blockTree_eq (head : Head) (program : List Statement) (inverse : Inverse)
    (close : BlockEnd) :
    ∃ arguments middle, blockTree head program inverse close =
      .node (.block head.params.isSome inverse.isPresent)
        (.word .openBlock head.opening :: .node .call (head.call.callee.tree :: arguments) ::
          (middle ++ close.trees)) := by
  obtain ⟨opening, ⟨callee, arguments, pairs⟩, params, closing⟩ := head
  refine ⟨argumentTrees arguments ++ pairTrees pairs,
    (params.map paramsTree).toList ++ .word .closeCurly closing ::
      .node .program (statementTrees program) :: inverse.tree?.toList, ?_⟩
  rw [blockTree, Head.trees, Call.tree, List.append_assoc]
  rfl

/-- A block fails its check exactly when its callee is not the path of its closing. -/
theorem offends_blockTree_iff {head : Head} {program : List Statement} {inverse : Inverse}
    {close : BlockEnd} {error : BuildError} :
    (blockTree head program inverse close).Offends error ↔
      head.call.callee.closedBy close.path = false ∧
        error = .rejected ⟨.blockMismatch head.call.callee.title close.path.value,
          close.path.span⟩ := by
  obtain ⟨arguments, middle, htree⟩ := exists_blockTree_eq head program inverse close
  rw [htree]
  constructor
  · intro h
    -- the children of a block fix its callee and, from the end, the path of its closing
    generalize hnode : ParseTree.node _ _ = tree at h
    cases h with
    | element | integer => cases hnode
    | @block _ _ _ _ path _ callee _ _ hcallee =>
        injection hnode with _ hchildren
        injection hchildren with _ hrest
        injection hrest with hcall hrest
        injection hcall with _ hparts
        injection hparts with hcallees
        obtain ⟨-, hclose⟩ := List.append_inj' hrest rfl
        injection hclose with _ hclose
        injection hclose with hpath
        injection hpath with _ hleaves
        injection hleaves with hleaf
        injection hleaf with htoken
        injection htoken with _ hpath
        subst hpath
        obtain ⟨htitle, hclosed⟩ := Expression.title_of_tree_eq hcallees
        rw [htitle, hclosed, ← Bool.not_eq_true, Expression.closedBy_iff]
        refine ⟨?_, rfl⟩
        rintro ⟨name, hname, hvalue⟩
        exact hcallee name hname hvalue
  · rintro ⟨hclosed, rfl⟩
    refine .block fun name hname hvalue => ?_
    have hfound := (Expression.closedBy_iff _ close.path).2 ⟨name, hname, hvalue⟩
    rw [hclosed] at hfound
    cases hfound

/-- The tree of an element with a closing tag. -/
def elementTree (tag : Tag) (tagEnd : Lexeme) (body : List Statement) (endTag : Lexeme) :
    ParseTree :=
  .node .element (tag.trees [.word .tagEnd tagEnd, .node .elementBody (statementTrees body),
    .word .endTag endTag])

/-- An element fails its check exactly when its closing tag has another name. -/
theorem offends_elementTree_iff {tag : Tag} {tagEnd endTag : Lexeme} {body : List Statement}
    {error : BuildError} :
    (elementTree tag tagEnd body endTag).Offends error ↔
      tag.name.value ≠ endTag.value ∧
        error = .rejected ⟨.tagMismatch tag.name.value endTag.value, endTag.span⟩ := by
  constructor
  · intro h
    cases h with
    | element hnames => exact ⟨hnames, rfl⟩
  · rintro ⟨hnames, rfl⟩
    exact .element hnames

mutual

/-- Building a statement reports the first offence in its derivation. -/
theorem Statement.reports (statement : Statement)
    (h : ∀ token ∈ statement.tokens, Legible token) :
    Reports statement.tree.subtrees (statement.build file) := by
  cases statement with
  | text lexeme => exact reports_chosen (sound_single rfl _ _)
  | htmlComment lexeme => exact reports_chosen (sound_single rfl _ _)
  | curlyComment lexeme => exact reports_chosen (sound_single rfl _ _)
  | mustache curly => exact reports_chosen (curly.reports h)
  | block head program inverse close =>
      rw [Statement.tokens, List.forall_mem_append, List.forall_mem_append,
        List.forall_mem_append] at h
      obtain ⟨⟨⟨hhead, hprogram⟩, hinverse⟩, -⟩ := h
      rw [Statement.tree, Statement.build]
      refine reports_chosen ?_
      rw [ParseTree.subtrees]
      refine head.reports hhead fun invoked => reports_phrase
        (reports_node rfl (reports_statements program hprogram)) fun statements =>
          reports_phrases (Inverse.reports inverse hinverse) fun inverseNode => ?_
      refine reports_word (reports_unbuilt (sound_single rfl _ _) (reports_word ?_))
      -- the path of the closing is compared last, when everything inside is built
      show Reports [blockTree head program inverse close] _
      dsimp only
      split
      · rename_i hclosed
        intro tree htree error herror
        rw [List.mem_singleton.1 htree, offends_blockTree_iff, hclosed] at herror
        cases herror.1
      · rename_i hclosed
        exact ⟨[], _, [], rfl, nofun,
          offends_blockTree_iff.2 ⟨Bool.eq_false_iff.2 hclosed, rfl⟩⟩
  | element tag tagEnd body endTag =>
      rw [Statement.tokens, List.forall_mem_append, List.forall_mem_append,
        List.forall_mem_cons] at h
      obtain ⟨⟨htag, -, hbody⟩, -⟩ := h
      rw [Statement.tree, Statement.build]
      refine reports_chosen ?_
      rw [ParseTree.subtrees]
      refine tag.reports htag fun parts => reports_word (reports_phrase
        (reports_node rfl (reports_statements body hbody)) fun children => reports_word ?_)
      show Reports [elementTree tag tagEnd body endTag] _
      split
      · rename_i hnames
        intro tree htree error herror
        rw [List.mem_singleton.1 htree, offends_elementTree_iff] at herror
        exact herror.1 (beq_iff_eq.1 hnames)
      · rename_i hnames
        exact ⟨[], _, [], rfl, nofun,
          offends_elementTree_iff.2 ⟨fun heq => hnames (beq_iff_eq.2 heq), rfl⟩⟩
  | selfClosing tag tagEnd =>
      rw [Statement.tokens, List.forall_mem_append] at h
      rw [Statement.tree, Statement.build]
      refine reports_chosen ?_
      rw [ParseTree.subtrees]
      exact tag.reports h.1 fun parts => reports_word (reports_own rfl _ _)
  | void tag tagEnd =>
      rw [Statement.tokens, List.forall_mem_append] at h
      rw [Statement.tree, Statement.build]
      refine reports_chosen ?_
      rw [ParseTree.subtrees]
      exact tag.reports h.1 fun parts => reports_word (reports_own rfl _ _)
termination_by structural statement

theorem Inverse.reports (inverse : Inverse) (h : ∀ token ∈ inverse.tokens, Legible token) :
    Reports (forestSubtrees inverse.tree?.toList) (inverse.build file) := by
  cases inverse with
  | absent => exact reports_nil _
  | otherwise opening closing program =>
      rw [Inverse.tokens, List.forall_mem_cons, List.forall_mem_cons] at h
      rw [Inverse.tree?, Inverse.build, Option.toList_some, forestSubtrees, forestSubtrees,
        List.append_nil, ParseTree.subtrees]
      exact reports_word (reports_word (reports_phrase
        (reports_node rfl (reports_statements program h.2.2)) fun _ => reports_own rfl _ _))
  | chained head program inverse =>
      rw [Inverse.tokens, List.forall_mem_append, List.forall_mem_append] at h
      rw [Inverse.tree?, Inverse.build, Option.toList_some, forestSubtrees, forestSubtrees,
        List.append_nil, ParseTree.subtrees, ← List.append_nil inverse.tree?.toList]
      exact head.reports h.1.1 fun _ => reports_phrase
        (reports_node rfl (reports_statements program h.1.2)) fun _ =>
          reports_phrases (Inverse.reports inverse h.2) fun _ => reports_own rfl _ _
termination_by structural inverse

theorem reports_statements (statements : List Statement)
    (h : ∀ token ∈ statementTokens statements, Legible token) :
    Reports (forestSubtrees (statementTrees statements)) (buildStatements file statements) := by
  cases statements with
  | nil => exact reports_nil _
  | cons statement rest =>
      rw [statementTokens, List.forall_mem_append] at h
      rw [statementTrees, forestSubtrees, buildStatements]
      exact (Statement.reports statement h.1).bind fun _ => (reports_statements rest h.2).map
termination_by structural statements

end

end Phrase

end TemplateUsage
