import TemplateUsage.Phrase

set_option autoImplicit false

/-!
# The template grammar and its derivations

The grammar is data: a production has a phrase on its left and, on its right, items
that stand once or any number of times. An optional phrase gives two productions,
one with it and one without. `Derives` is derivability of kinds of token from the
symbols of the grammar. A derivation tree (`ParseTree`) has tokens at its leaves and
productions at its nodes; it is valid when each production is applied as the
grammar has it. Main statement: `derives_iff_exists_tree`, the kinds of some tokens
are derivable exactly when the tokens are the leaves of a valid tree.
-/

namespace TemplateUsage.Grammar

/-! ## Productions -/

/-- Names of phrases. -/
inductive Nonterminal where
  | start
  | statement
  | text
  | htmlComment
  | curlyComment
  | mustache
  | block
  | program
  | inverse
  | blockParams
  | call
  | pair
  | expression
  | atom (sort : Atom)
  | nested
  | element
  | tagParts
  | elementBody
  | tagPart
  | modifier
  | attribute
  | attributeValue
  | quotedPart
  | attributeText
  deriving DecidableEq, Repr

/-- A kind of token or a phrase. -/
inductive Symbol where
  | token (kind : Kind)
  | phrase (name : Nonterminal)
  deriving DecidableEq, Repr

/-- What stands on the right of a production: a symbol, or any number of them. -/
inductive Item where
  | one (symbol : Symbol)
  | many (symbol : Symbol)
  deriving DecidableEq, Repr

/-- The phrases another phrase may simply be. -/
def Nonterminal.choices : Nonterminal → List Nonterminal
  | .statement => [.text, .htmlComment, .curlyComment, .mustache, .block, .element]
  | .expression =>
      [.atom .path, .nested, .atom .string, .atom .number, .atom .boolean, .atom .null,
        .atom .undefined]
  | .tagPart => [.attribute, .modifier, .blockParams, .curlyComment]
  | .attributeValue => [.mustache]
  | .quotedPart => [.attributeText, .mustache]
  | _ => []

/-- The productions of the grammar. -/
inductive Production where
  | start
  | choice (whole part : Nonterminal) (mem : part ∈ whole.choices)
  | text
  | htmlComment
  | curlyComment
  | mustache (trusting : Bool)
  | block (params inverse : Bool)
  | program
  | otherwise
  | chained (params inverse : Bool)
  | blockParams
  | call
  | pair
  | atom (sort : Atom)
  | nested
  | element
  | selfClosing
  | void
  | tagParts
  | elementBody
  | modifier
  | attribute (valued : Bool)
  | unquotedValue
  | quotedValue
  | attributeText

/-- The phrase on the left of a production. -/
def Production.left : Production → Nonterminal
  | .start => .start
  | .choice whole _ _ => whole
  | .text => .text
  | .htmlComment => .htmlComment
  | .curlyComment => .curlyComment
  | .mustache _ => .mustache
  | .block _ _ => .block
  | .program => .program
  | .otherwise | .chained _ _ => .inverse
  | .blockParams => .blockParams
  | .call => .call
  | .pair => .pair
  | .atom sort => .atom sort
  | .nested => .nested
  | .element | .selfClosing | .void => .element
  | .tagParts => .tagParts
  | .elementBody => .elementBody
  | .modifier => .modifier
  | .attribute _ => .attribute
  | .unquotedValue | .quotedValue => .attributeValue
  | .attributeText => .attributeText

/-- A token, once. -/
def Item.token (kind : Kind) : Item := .one (.token kind)

/-- A phrase, once. -/
def Item.phrase (name : Nonterminal) : Item := .one (.phrase name)

/-- A phrase that is there or not. -/
def Item.optional (present : Bool) (name : Nonterminal) : List Item :=
  if present then [.phrase name] else []

/-- The items on the right of a production. -/
def Production.right : Production → List Item
  | .start | .program | .elementBody => [.many (.phrase .statement)]
  | .choice _ part _ => [.phrase part]
  | .text => [.token .text]
  | .htmlComment => [.token .htmlComment]
  | .curlyComment => [.token .curlyComment]
  | .mustache false => [.token .openCurly, .phrase .call, .token .closeCurly]
  | .mustache true => [.token .openTriple, .phrase .call, .token .closeTriple]
  | .block params inverse =>
      .token .openBlock :: .phrase .call :: (Item.optional params .blockParams ++
        .token .closeCurly :: .phrase .program :: (Item.optional inverse .inverse ++
          [.token .openEndBlock, .phrase (.atom .path), .token .closeCurly]))
  | .otherwise => [.token .openElse, .token .closeCurly, .phrase .program]
  | .chained params inverse =>
      .token .openElse :: .phrase .call :: (Item.optional params .blockParams ++
        .token .closeCurly :: .phrase .program :: Item.optional inverse .inverse)
  | .blockParams => [.token .blockParams]
  | .call => [.phrase .expression, .many (.phrase .expression), .many (.phrase .pair)]
  | .pair => [.token .hashKey, .phrase .expression]
  | .atom sort => [.token sort.kind]
  | .nested => [.token .openParen, .phrase .call, .token .closeParen]
  | .element =>
      [.token .startTag, .phrase .tagParts, .token .tagEnd, .phrase .elementBody, .token .endTag]
  | .selfClosing => [.token .startTag, .phrase .tagParts, .token .tagSelfClose]
  | .void => [.token .startTag, .phrase .tagParts, .token .voidTagEnd]
  | .tagParts => [.many (.phrase .tagPart)]
  | .modifier => [.token .openCurly, .phrase .call, .token .closeCurly]
  | .attribute false => [.token .attributeName]
  | .attribute true => [.token .attributeName, .token .equals, .phrase .attributeValue]
  | .unquotedValue => [.token .attributeText]
  | .quotedValue => [.token .quoteOpen, .many (.phrase .quotedPart), .token .quoteClose]
  | .attributeText => [.token .attributeText]

/-! ## Derivability -/

/-- The symbols that items may stand for. -/
inductive Expands : List Item → List Symbol → Prop where
  | nil : Expands [] []
  | one {symbol : Symbol} {items : List Item} {symbols : List Symbol} :
      Expands items symbols → Expands (.one symbol :: items) (symbol :: symbols)
  | enough {symbol : Symbol} {items : List Item} {symbols : List Symbol} :
      Expands items symbols → Expands (.many symbol :: items) symbols
  | again {symbol : Symbol} {items : List Item} {symbols : List Symbol} :
      Expands (.many symbol :: items) symbols →
      Expands (.many symbol :: items) (symbol :: symbols)

/-- The kinds of token are derivable from the symbols: the first symbol is always
the next to be matched or expanded. -/
inductive Derives : List Symbol → List Kind → Prop where
  | nil : Derives [] []
  | token {kind : Kind} {symbols : List Symbol} {kinds : List Kind} :
      Derives symbols kinds → Derives (.token kind :: symbols) (kind :: kinds)
  | expand (production : Production) {body symbols : List Symbol} {kinds : List Kind} :
      Expands production.right body → Derives (body ++ symbols) kinds →
      Derives (.phrase production.left :: symbols) kinds

/-! ## Derivation trees -/

/-- A tree with tokens at its leaves and productions at its nodes. -/
inductive ParseTree where
  | leaf (token : Token)
  | node (production : Production) (children : List ParseTree)

/-- The symbol at the root of a tree. -/
def ParseTree.root : ParseTree → Symbol
  | .leaf token => .token token.kind
  | .node production _ => .phrase production.left

mutual

/-- The leaves of a tree, left to right. -/
def ParseTree.tokens : ParseTree → List Token
  | .leaf token => [token]
  | .node _ children => forestTokens children

/-- The leaves of trees, left to right. -/
def forestTokens : List ParseTree → List Token
  | [] => []
  | tree :: rest => tree.tokens ++ forestTokens rest

end

/-- Every production is applied to children that its right-hand side allows. -/
inductive ParseTree.Valid : ParseTree → Prop where
  | leaf (token : Token) : Valid (.leaf token)
  | node {production : Production} {children : List ParseTree} :
      Expands production.right (children.map ParseTree.root) →
      (∀ child ∈ children, Valid child) → Valid (.node production children)

/-- A derivation of the tokens from the start of the grammar. -/
structure ParseTree.Derivation (tree : ParseTree) (tokens : List Token) : Prop where
  valid : tree.Valid
  root_eq : tree.root = .phrase .start
  tokens_eq : tree.tokens = tokens

@[simp] theorem forestTokens_append (front back : List ParseTree) :
    forestTokens (front ++ back) = forestTokens front ++ forestTokens back := by
  induction front with
  | nil => rfl
  | cons tree rest ih => rw [List.cons_append, forestTokens, forestTokens, ih, List.append_assoc]

/-- A forest of one tree is written with the tokens of the tree. -/
theorem forestTokens_singleton (tree : ParseTree) : forestTokens [tree] = tree.tokens := by
  rw [forestTokens, forestTokens, List.append_nil]

/-- A valid tree derives its leaves from its root. -/
theorem ParseTree.Valid.derives {tree : ParseTree} (h : tree.Valid) {symbols : List Symbol}
    {kinds : List Kind} (hrest : Derives symbols kinds) :
    Derives (tree.root :: symbols) (tree.tokens.map Token.kind ++ kinds) := by
  induction h generalizing symbols kinds with
  | leaf token => exact .token hrest
  | @node production children hright hvalid ih =>
      refine .expand production hright ?_
      rw [ParseTree.tokens]
      clear hright hvalid
      -- Inner induction on the children: each one derives its own leaves.
      induction children with
      | nil => exact hrest
      | cons child rest hchildren =>
          rw [forestTokens, List.map_append, List.append_assoc]
          exact ih child List.mem_cons_self
            (hchildren fun other hother => ih other (List.mem_cons_of_mem child hother))

/-- Derivable kinds are those of the leaves of valid trees, whatever the tokens carry. -/
theorem Derives.exists_forest {symbols : List Symbol} {kinds : List Kind}
    (h : Derives symbols kinds) (tokens : List Token) (hkinds : tokens.map Token.kind = kinds) :
    ∃ trees : List ParseTree, trees.map ParseTree.root = symbols ∧ (∀ tree ∈ trees, tree.Valid) ∧
      forestTokens trees = tokens := by
  induction h generalizing tokens with
  | nil =>
      obtain rfl := List.map_eq_nil_iff.1 hkinds
      exact ⟨[], rfl, nofun, rfl⟩
  | token _ ih =>
      obtain ⟨token, rest, rfl, rfl, hrest⟩ := List.map_eq_cons_iff.1 hkinds
      obtain ⟨trees, rfl, hvalid, rfl⟩ := ih rest hrest
      refine ⟨.leaf token :: trees, rfl, ?_, rfl⟩
      intro tree hmem
      rcases List.mem_cons.1 hmem with rfl | hmem
      · exact .leaf token
      · exact hvalid tree hmem
  | expand production hright _ ih =>
      obtain ⟨trees, hroots, hvalid, rfl⟩ := ih tokens hkinds
      obtain ⟨children, rest, rfl, rfl, rfl⟩ := List.map_eq_append_iff.1 hroots
      refine ⟨.node production children :: rest, rfl, ?_, ?_⟩
      · intro tree hmem
        rcases List.mem_cons.1 hmem with rfl | hmem
        · exact .node hright fun child hchild => hvalid child (List.mem_append_left rest hchild)
        · exact hvalid tree (List.mem_append_right children hmem)
      · rw [forestTokens, ParseTree.tokens, forestTokens_append]

/-- The kinds of the tokens are derivable from the start exactly when the tokens have
a derivation tree. -/
theorem derives_iff_exists_tree (tokens : List Token) :
    Derives [.phrase .start] (tokens.map Token.kind) ↔
      ∃ tree : ParseTree, tree.Derivation tokens := by
  constructor
  · intro h
    obtain ⟨trees, hroots, hvalid, htokens⟩ := h.exists_forest tokens rfl
    obtain ⟨tree, rest, rfl, hroot, hrest⟩ := List.map_eq_cons_iff.1 hroots
    obtain rfl := List.map_eq_nil_iff.1 hrest
    refine ⟨tree, hvalid tree List.mem_cons_self, hroot, ?_⟩
    rw [← htokens, forestTokens_singleton]
  · rintro ⟨tree, hvalid, hroot, rfl⟩
    have h := hvalid.derives Derives.nil
    rwa [hroot, List.append_nil] at h

/-! ## Children of a node -/

/-- Trees with a property, whose roots the items allow. -/
structure Fills (P : ParseTree → Prop) (items : List Item) (trees : List ParseTree) : Prop where
  expands : Expands items (trees.map ParseTree.root)
  all : ∀ tree ∈ trees, P tree

/-- A node is valid when valid trees fill the right side of its production. -/
theorem ParseTree.valid_node_iff {production : Production} {children : List ParseTree} :
    (ParseTree.node production children).Valid ↔
      Fills ParseTree.Valid production.right children := by
  constructor
  · intro h
    cases h with
    | node hright hvalid => exact ⟨hright, hvalid⟩
  · intro h
    exact .node h.expands h.all

namespace Fills

variable {P : ParseTree → Prop} {symbol : Symbol} {items : List Item} {trees : List ParseTree}

theorem nil : Fills P [] [] := ⟨.nil, nofun⟩

/-- A tree of the right root fills a symbol that occurs once. -/
theorem one {tree : ParseTree} (hroot : tree.root = symbol) (htree : P tree)
    (h : Fills P items trees) : Fills P (.one symbol :: items) (tree :: trees) := by
  subst hroot
  exact ⟨.one h.expands, List.forall_mem_cons.2 ⟨htree, h.all⟩⟩

/-- Any number of trees of the right root fill a symbol that may be repeated. -/
theorem many {front : List ParseTree} (hfront : ∀ tree ∈ front, tree.root = symbol ∧ P tree)
    (h : Fills P items trees) : Fills P (.many symbol :: items) (front ++ trees) := by
  induction front with
  | nil => exact ⟨.enough h.expands, h.all⟩
  | cons tree rest ih =>
      obtain ⟨⟨rfl, htree⟩, hrest⟩ := List.forall_mem_cons.1 hfront
      obtain ⟨hexpands, hall⟩ := ih hrest
      exact ⟨.again hexpands, List.forall_mem_cons.2 ⟨htree, hall⟩⟩

theorem only_many (h : ∀ tree ∈ trees, tree.root = symbol ∧ P tree) :
    Fills P [.many symbol] trees := by
  rw [← List.append_nil trees]
  exact many h nil

/-- A tree that may be missing fills an optional symbol. -/
theorem optional {found : Option ParseTree} {name : Nonterminal}
    (hfound : ∀ tree ∈ found, tree.root = .phrase name ∧ P tree) (h : Fills P items trees) :
    Fills P (Item.optional found.isSome name ++ items) (found.toList ++ trees) := by
  cases found with
  | none => exact h
  | some tree =>
      obtain ⟨hroot, htree⟩ := hfound tree rfl
      exact .one hroot htree h

theorem eq_nil (h : Fills P [] trees) : trees = [] := by
  cases trees with
  | nil => rfl
  | cons tree rest => cases h.expands

/-- What fills a symbol that occurs once begins with a tree of that root. -/
theorem exists_one (h : Fills P (.one symbol :: items) trees) :
    ∃ tree rest, trees = tree :: rest ∧ tree.root = symbol ∧ P tree ∧ Fills P items rest := by
  obtain ⟨hexpands, hall⟩ := h
  cases trees with
  | nil => cases hexpands
  | cons tree rest =>
      obtain ⟨htree, hrest⟩ := List.forall_mem_cons.1 hall
      cases hexpands with
      | one hitems => exact ⟨tree, rest, rfl, rfl, htree, hitems, hrest⟩

/-- What fills a symbol that may be repeated begins with trees of that root. -/
theorem exists_many (h : Fills P (.many symbol :: items) trees) :
    ∃ front rest, trees = front ++ rest ∧ (∀ tree ∈ front, tree.root = symbol ∧ P tree) ∧
      Fills P items rest := by
  obtain ⟨hexpands, hall⟩ := h
  induction trees with
  | nil =>
      cases hexpands with
      | enough hitems => exact ⟨[], [], rfl, nofun, hitems, nofun⟩
  | cons tree rest ih =>
      obtain ⟨htree, hrest⟩ := List.forall_mem_cons.1 hall
      cases hexpands with
      | enough hitems => exact ⟨[], tree :: rest, rfl, nofun, hitems, hall⟩
      | again hitems =>
          obtain ⟨front, back, rfl, hfront, hback⟩ := ih hitems hrest
          exact ⟨tree :: front, back, rfl,
            List.forall_mem_cons.2 ⟨⟨rfl, htree⟩, hfront⟩, hback⟩

theorem all_many (h : Fills P [.many symbol] trees) :
    ∀ tree ∈ trees, tree.root = symbol ∧ P tree := by
  obtain ⟨front, rest, rfl, hfront, hrest⟩ := h.exists_many
  rwa [hrest.eq_nil, List.append_nil]

/-- What fills a token begins with a leaf of that kind. -/
theorem exists_token {kind : Kind} (h : Fills P (.token kind :: items) trees) :
    ∃ lexeme rest, trees = .leaf ⟨kind, lexeme⟩ :: rest ∧ Fills P items rest := by
  obtain ⟨tree, rest, rfl, hroot, -, hrest⟩ := h.exists_one
  cases tree with
  | leaf token =>
      obtain ⟨found, lexeme⟩ := token
      cases hroot
      exact ⟨lexeme, rest, rfl, hrest⟩
  | node production children => cases hroot

/-- What fills an optional symbol begins with a tree of that root exactly when the symbol is
present. -/
theorem exists_optional {present : Bool} {name : Nonterminal}
    (h : Fills P (Item.optional present name ++ items) trees) :
    ∃ (found : Option ParseTree) (rest : List ParseTree), trees = found.toList ++ rest ∧
      found.isSome = present ∧ (∀ tree ∈ found, tree.root = .phrase name ∧ P tree) ∧
      Fills P items rest := by
  cases present with
  | false => exact ⟨none, trees, rfl, rfl, nofun, h⟩
  | true =>
      obtain ⟨tree, rest, rfl, hroot, htree, hrest⟩ := h.exists_one
      refine ⟨some tree, rest, rfl, rfl, ?_, hrest⟩
      rintro _ ⟨⟩
      exact ⟨hroot, htree⟩

end Fills

end TemplateUsage.Grammar
