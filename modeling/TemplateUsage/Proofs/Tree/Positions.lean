import TemplateUsage.Proofs.Parsing
import TemplateUsage.Proofs.Tree.Placement

set_option autoImplicit false

/-!
# The places of the nodes of a template

Every node of a parsed text is well placed: statements stand end to end, those of an
element, a program or an else fill the text between the tokens around them, and the
statements of the template fill the whole text. Main statement:
`parse_wellPlaced`.
-/

namespace TemplateUsage

open Grammar Scan

/-! ## Statements among the tokens of a text -/

/-- The tokens stand together among all those of the text, where no construct is
open. -/
def Stands (scanned tokens : List Token) : Prop :=
  ∃ before after, scanned = before ++ (tokens ++ after) ∧ openAfter [] before = []

section

variable {text : List Char} {scanned : List Token}

theorem Stands.middle (front : List Token) {tokens : List Token} (back : List Token)
    (h : Stands scanned (front ++ (tokens ++ back))) (hfront : openAfter [] front = []) :
    Stands scanned tokens := by
  obtain ⟨before, after, rfl, hbefore⟩ := h
  refine ⟨before ++ front, back ++ after, ?_, ?_⟩
  · simp only [List.append_assoc]
  · rw [openAfter_append, hbefore, hfront]

theorem Stands.exists_laid {tokens : List Token} (hlaid : Laid text [] 0 scanned)
    (h : Stands scanned tokens) : ∃ offset, Laid text [] offset tokens := by
  obtain ⟨before, after, rfl, hbefore⟩ := h
  obtain ⟨-, hlaid⟩ := laid_append.1 hlaid
  rw [hbefore] at hlaid
  exact ⟨_, (laid_append.1 hlaid).1⟩

/-- A token before statements ends as its kind says. -/
theorem fence_isSuffix {token : Token} (h : Located text token)
    (hkind : token.kind = .tagEnd ∨ token.kind = .closeCurly) :
    token.kind.fence <:+ text.take token.stop := by
  have hslice : slice text token.start token.stop <:+ text.take token.stop := by
    rw [slice, ← List.drop_take]
    exact List.drop_suffix _ _
  obtain ⟨⟨-, -, hwritten⟩, -, hspelled⟩ := h
  rcases hkind with hkind | hkind
  · rw [hkind] at hwritten hspelled ⊢
    rw [show slice text token.start token.stop = ['>'] from hwritten.trans hspelled] at hslice
    exact hslice
  · rw [hkind] at hwritten hspelled ⊢
    rw [show slice text token.start token.stop = token.lexeme.value.toList from hwritten] at hslice
    exact hspelled.trans hslice

/-- A token after statements begins as its kind says. -/
theorem fence_isPrefix {token : Token} (h : Located text token)
    (hkind : token.kind = .endTag ∨ token.kind = .openElse ∨ token.kind = .openEndBlock) :
    token.kind.fence <+: text.drop token.start := by
  have hslice : slice text token.start token.stop <+: text.drop token.start :=
    List.take_prefix _ _
  obtain ⟨⟨-, -, hwritten⟩, -, hspelled⟩ := h
  rcases hkind with hkind | hkind | hkind
  · rw [hkind] at hwritten ⊢
    obtain ⟨blanks, after, -, -, -, -, hwritten⟩ := hwritten
    rw [hwritten] at hslice
    simp only [List.append_assoc] at hslice
    exact (List.prefix_append _ _).trans hslice
  · rw [hkind] at hwritten hspelled ⊢
    rw [show slice text token.start token.stop = token.lexeme.value.toList from hwritten] at hslice
    exact hspelled.trans hslice
  · rw [hkind] at hwritten hspelled ⊢
    rw [show slice text token.start token.stop = token.lexeme.value.toList from hwritten] at hslice
    exact hspelled.trans hslice

end

namespace Phrase

open Node

variable {file : String} {text : List Char} {scanned : List Token}

theorem Statement.covers_build {statement : Statement} {node : Node}
    (h : statement.build file = .ok node) : Covers file statement.tokens node := by
  refine ⟨statement.span, statement.tokensSpan?_tokens, ?_⟩
  cases statement with
  | text lexeme | htmlComment lexeme | curlyComment lexeme =>
      rw [Statement.build] at h
      cases h
      rfl
  | mustache curly =>
      rw [Statement.build] at h
      obtain ⟨invoked, -, rfl⟩ := Mustache.exists_of_build h
      rfl
  | block head program inverse close =>
      obtain ⟨invoked, statements, inverseNode, -, -, -, -, rfl⟩ :=
        Statement.exists_of_build_block h
      rfl
  | element tag tagEnd body endTag =>
      obtain ⟨parts, members, -, -, -, rfl⟩ := Statement.exists_of_build_element h
      rfl
  | selfClosing tag tagEnd | void tag tagEnd =>
      rw [Statement.build] at h
      obtain ⟨parts, -, h⟩ := exists_of_bind_eq_ok h
      cases h
      rfl

theorem spread_buildStatements {statements : List Statement} {nodes : List Node}
    (h : buildStatements file statements = .ok nodes) :
    Spread file (statementTokens statements) nodes := by
  induction statements generalizing nodes with
  | nil =>
      rw [buildStatements] at h
      cases h
      exact .nil _
  | cons statement rest ih =>
      obtain ⟨node, others, hnode, hothers, rfl⟩ := exists_of_buildStatements_cons h
      rw [statementTokens]
      exact (Statement.covers_build hnode).spread.append (ih hothers)

/-- Where no construct is open statements stand end to end. -/
theorem endToEnd_buildStatements {statements : List Statement} {nodes : List Node}
    (h : buildStatements file statements = .ok nodes) {offset : Nat}
    (hlaid : Laid text [] offset (statementTokens statements)) :
    EndToEnd offset nodes (stopAfter offset (statementTokens statements)) := by
  induction statements generalizing nodes offset with
  | nil =>
      rw [buildStatements] at h
      cases h
      rfl
  | cons statement rest ih =>
      obtain ⟨node, others, hnode, hothers, rfl⟩ := exists_of_buildStatements_cons h
      rw [statementTokens] at hlaid ⊢
      obtain ⟨hfirst, hrest⟩ := laid_append.1 hlaid
      rw [statement.openAfter_tokens] at hrest
      obtain ⟨token, tail, htokens, hlocation, -⟩ :=
        (Statement.covers_build hnode).exists_location hfirst
      rw [htokens] at hfirst
      refine ⟨_, hlocation, ?_, ?_⟩
      · rw [start_locationAt, hfirst.2.1 rfl]
      · rw [stopAfter_append]
        exact ih hothers hrest

/-- Statements that stand between two tokens fill the text between them. -/
theorem encloses_buildStatements (opening : List Token) (last : Token) {first next : Token}
    {program : List Statement} {nodes : List Node} (hscanned : Laid text [] 0 scanned)
    (hstands : Stands scanned (opening ++ last :: (statementTokens program ++ [next])))
    (hfirst : opening.head? = some first) (hopen : openAfter [] (opening ++ [last]) = [])
    (hopening : ∀ token ∈ opening, token.kind ≠ last.kind)
    (hlast : last.kind = .tagEnd ∨ last.kind = .closeCurly)
    (hnext : next.kind = .endTag ∨ next.kind = .openElse ∨ next.kind = .openEndBlock)
    (hbuild : buildStatements file program = .ok nodes) :
    Encloses text scanned first.start last.kind nodes next := by
  -- after `last` no construct is open, so the first statement starts where it ends
  obtain ⟨offset, hlaid⟩ := hstands.exists_laid hscanned
  obtain ⟨before, after, rfl, -⟩ := hstands
  rw [← List.singleton_append, ← List.append_assoc] at hlaid
  obtain ⟨hfront, hback⟩ := laid_append.1 hlaid
  rw [hopen, stopAfter_append, stopAfter_cons, stopAfter_nil] at hback
  obtain ⟨hprogram, hend⟩ := laid_append.1 hback
  rw [openAfter_statementTokens] at hend
  obtain ⟨-, hstart, hlocated, -⟩ := hend
  refine ⟨before, opening, statementTokens program, after, first, last, ?_, hfirst, rfl, hopening,
    rfl, ?_, ?_, ?_⟩
  · simp
  · exact fence_isSuffix (hfront.located last (by simp)) hlast
  · exact fence_isPrefix hlocated hnext
  · rw [hstart rfl]
    exact endToEnd_buildStatements hbuild hprogram

/-! ## Elements -/

/-- An element is placed right if the nodes it holds are. -/
theorem everywhere_elementNode {tag : Tag} {rest : List Token} {location : Location}
    {parts : List BuiltPart} {members : List Node} {selfClosing : Bool} {offset : Nat}
    (hlaid : Laid text [] offset (tag.tokens ++ rest))
    (hcovers : Covers file (tag.tokens ++ rest)
      (elementNode location tag.name.value parts members selfClosing))
    (hparts : tag.parts.mapM (TagPart.build file) = .ok parts) (hspread : Spread file rest members)
    (hmembers : ∀ member ∈ members, member.Everywhere (WellPlaced file text scanned))
    (hfilled :
      Filled text scanned (elementNode location tag.name.value parts members selfClosing)) :
    Everywhere (WellPlaced file text scanned)
      (elementNode location tag.name.value parts members selfClosing) := by
  have hattribute : ∀ {built : BuiltPart} {node : Node}, built.attribute? = some node →
      built.node? = some node := by
    intro built node h
    cases built <;> cases h
    rfl
  have hmodifier : ∀ {built : BuiltPart} {node : Node}, built.modifier? = some node →
      built.node? = some node := by
    intro built node h
    cases built <;> cases h
    rfl
  have hbuilt : ∀ built ∈ parts, ∀ node ∈ built.node?,
      node.Everywhere (WellPlaced file text scanned) :=
    forall_of_mapM (fun _ _ => TagPart.everywhere_build) hparts (laid_append.1 hlaid).1.2.2.2
  refine .intro (.of_arranged hlaid hcovers ?_ ?_ hfilled) ?_
  · simp only [elementNode, childLists, List.forall_mem_cons]
    refine ⟨.inl ?_, .inl ?_, .inl (hspread.after _), nofun⟩
    · exact ((spread_filterMap hattribute hparts).after [⟨.startTag, tag.name⟩]).before rest
    · exact ((spread_filterMap hmodifier hparts).after [⟨.startTag, tag.name⟩]).before rest
  · rintro child ⟨hhash⟩
    cases hhash
  · intro child hmem
    simp only [elementNode, children, childLists, List.flatten_cons, List.flatten_nil,
      List.append_nil, List.mem_append, List.mem_filterMap] at hmem
    rcases hmem with ⟨built, hmem, hnode⟩ | ⟨built, hmem, hnode⟩ | hmem
    · exact hbuilt built hmem child (hattribute hnode)
    · exact hbuilt built hmem child (hmodifier hnode)
    · exact hmembers child hmem

/-! ## Sections -/

/-- The program of a section is placed right if its statements are. -/
theorem everywhere_program {program : List Statement} {statements : List Node} {offset : Nat}
    (names : List String) (hbuild : buildStatements file program = .ok statements)
    (hlaid : Laid text [] offset (statementTokens program))
    (hstatements : ∀ node ∈ statements, node.Everywhere (WellPlaced file text scanned)) :
    Everywhere (WellPlaced file text scanned)
      (.body (listLocation? file Statement.span program) names statements false) := by
  refine .intro ?_ ?_
  · cases program with
    | nil =>
        rw [buildStatements] at hbuild
        cases hbuild
        exact .of_bare rfl (List.forall_mem_singleton.2 rfl) trivial
    | cons statement rest =>
        refine .of_arranged hlaid (covers_of_listLocation? (List.cons_ne_nil statement rest)
          (tokensSpan?_statementTokens _) rfl)
          (List.forall_mem_singleton.2 (.inl (spread_buildStatements hbuild))) ?_ trivial
        rintro child ⟨hhash⟩
        cases hhash
  · intro child hmem
    exact hstatements child (by simpa [children, childLists] using hmem)

theorem Inverse.covers_build {inverse : Inverse} {node : Node}
    (h : inverse.build file = .ok (some node)) : Covers file inverse.tokens node := by
  cases inverse with
  | absent =>
      rw [Inverse.build] at h
      cases h
  | otherwise opening closing program =>
      obtain ⟨statements, -, ⟨⟩⟩ := Inverse.exists_of_build_otherwise h
      refine ⟨_, Inverse.tokensSpan?_tokens ?_ rfl, rfl⟩
      rw [Inverse.tokens]
      exact StartsAt.cons _ _
  | chained head program ending =>
      obtain ⟨invoked, statements, endingNode, -, -, -, ⟨⟩⟩ := Inverse.exists_of_build_chained h
      refine ⟨_, Inverse.tokensSpan?_tokens ?_ rfl, rfl⟩
      rw [Inverse.tokens]
      exact StartsAt.append (StartsAt.append (head.startsAt_tokens _) _) _

/-- The tokens of an inverse start with an else; the statements of a plain else fill the
text up to the closing of the block. -/
theorem Inverse.exists_body {inverse : Inverse} {node : Node} {close : Token}
    (hbuild : inverse.build file = .ok (some node)) (hscanned : Laid text [] 0 scanned)
    (hclose : close.kind = .openEndBlock) (hstands : Stands scanned (inverse.tokens ++ [close])) :
    ∃ first rest location others chained,
      inverse.tokens = first :: rest ∧ first.kind = .openElse ∧
      node = .body (some location) [] others chained ∧ (first.start : Int) = location.start ∧
      (chained = false → Encloses text scanned location.start .closeCurly others close) := by
  cases inverse with
  | absent =>
      rw [Inverse.build] at hbuild
      cases hbuild
  | otherwise opening closing program =>
      obtain ⟨statements, hstatements, ⟨⟩⟩ := Inverse.exists_of_build_otherwise hbuild
      rw [Inverse.tokens] at hstands ⊢
      refine ⟨_, _, _, _, _, rfl, rfl, rfl, rfl, fun _ => ?_⟩
      exact encloses_buildStatements [⟨.openElse, opening⟩] ⟨.closeCurly, closing⟩ hscanned
        hstands rfl rfl (List.forall_mem_singleton.2 nofun) (.inr rfl) (.inr (.inr hclose))
        hstatements
  | chained head program ending =>
      obtain ⟨invoked, statements, endingNode, -, -, -, ⟨⟩⟩ :=
        Inverse.exists_of_build_chained hbuild
      rw [Inverse.tokens]
      exact ⟨_, _, _, _, _, rfl, rfl, rfl, rfl, nofun⟩

/-- The program of a section fills the text between its head and the next token. -/
theorem Head.encloses_program {kind : Kind} {head : Head} {program : List Statement}
    {statements : List Node} {next : Token}
    (hkind : ∀ opened, kind.reshape opened = .expression :: opened)
    (hscanned : Laid text [] 0 scanned)
    (hstands : Stands scanned (head.tokens kind ++ (statementTokens program ++ [next])))
    (hnext : next.kind = .openElse ∨ next.kind = .openEndBlock)
    (hbuild : buildStatements file program = .ok statements) :
    Encloses text scanned head.opening.span.start.offset .closeCurly statements next := by
  have hopen := head.openAfter_tokens hkind []
  rw [Head.tokens] at hopen hstands
  rw [List.append_assoc] at hstands
  refine encloses_buildStatements _ ⟨.closeCurly, head.closing⟩ hscanned hstands rfl hopen ?_
    (.inr rfl) (.inr hnext) hbuild
  rw [List.forall_mem_append, List.forall_mem_cons]
  refine ⟨⟨?_, head.call.kind_ne_closeCurly⟩, fun token hmem => ?_⟩
  · intro hcurly
    have hreshape := hkind []
    rw [show kind = .closeCurly from hcurly] at hreshape
    cases hreshape
  · obtain ⟨lexeme, -, rfl⟩ := List.mem_map.1 hmem
    rintro ⟨⟩

theorem eq_nil_of_buildStatements {statements : List Statement}
    (h : buildStatements file statements = .ok []) : statements = [] := by
  cases statements with
  | nil => rfl
  | cons statement rest =>
      obtain ⟨node, others, -, -, ⟨⟩⟩ := exists_of_buildStatements_cons h

/-- What stands around the statements of a section and of its else. -/
theorem filled_section {kind : Kind} {head : Head} {program : List Statement} {inverse : Inverse}
    {close : Token} {place : Location} {callee named : Node} {params statements : List Node}
    {inner : Option Location} {names : List String} {inverseNode : Option Node}
    (hkind : ∀ opened, kind.reshape opened = .expression :: opened)
    (hscanned : Laid text [] 0 scanned) (hclose : close.kind = .openEndBlock)
    (hclosed : Stands scanned
      (head.tokens kind ++ (statementTokens program ++ (inverse.tokens ++ [close]))))
    (hplace : place.start = head.opening.span.start.offset)
    (hprogram : buildStatements file program = .ok statements)
    (hinverse : inverse.build file = .ok inverseNode) :
    Filled text scanned (.block (some place) callee params named
      (.body inner names statements false) inverseNode) := by
  -- the program ends at the closing of the block, or at the else if there is one
  cases inverseNode with
  | none =>
      have hpresent := Inverse.isSome_of_build hinverse
      cases inverse with
      | otherwise | chained => cases hpresent
      | absent =>
          rw [Inverse.tokens] at hclosed
          refine ⟨place, rfl, close, inner, names, statements, rfl, ?_, hclose⟩
          rw [hplace]
          exact Head.encloses_program hkind hscanned hclosed (.inr hclose) hprogram
  | some node =>
      have hbefore : openAfter [] (head.tokens kind ++ statementTokens program) = [] := by
        rw [openAfter_append, head.openAfter_tokens hkind, openAfter_statementTokens]
      have hinverseStands : Stands scanned (inverse.tokens ++ [close]) := by
        refine Stands.middle _ [] ?_ hbefore
        simpa using hclosed
      obtain ⟨first, rest, location, others, chained, htokens, hfirst, rfl, hstart, hothers⟩ :=
        Inverse.exists_body hinverse hscanned hclose hinverseStands
      rw [htokens] at hclosed
      have hprogramStands : Stands scanned
          (head.tokens kind ++ (statementTokens program ++ [first])) := by
        refine Stands.middle [] (rest ++ [close]) ?_ rfl
        simpa using hclosed
      refine ⟨place, rfl, first, inner, names, statements, rfl, ?_, hfirst, location, [], others,
        chained, rfl, hstart, fun hplain => ⟨close, hclose, hothers hplain⟩⟩
      rw [hplace]
      exact Head.encloses_program hkind hscanned hprogramStands (.inl hfirst) hprogram

/-- A section is placed right if the nodes it holds are. Its tokens end in `tail`,
which is the closing of the block unless an else goes on with the section. -/
theorem everywhere_section {kind : Kind} {head : Head} {program : List Statement}
    {inverse : Inverse} {close : Token} {tail : List Token} {location : Option Location}
    {invoked : Invoked} {statements : List Node} {inverseNode : Option Node}
    (hkind : ∀ opened, kind.reshape opened = .expression :: opened)
    (hscanned : Laid text [] 0 scanned) (hclose : close.kind = .openEndBlock)
    (hclosed : Stands scanned
      (head.tokens kind ++ (statementTokens program ++ (inverse.tokens ++ [close]))))
    (hstands : Stands scanned
      (head.tokens kind ++ (statementTokens program ++ (inverse.tokens ++ tail))))
    (hcovers : Covers file
      (head.tokens kind ++ (statementTokens program ++ (inverse.tokens ++ tail)))
      (.block location invoked.callee invoked.params invoked.hash
        (.body (listLocation? file Statement.span program) head.names statements false)
        inverseNode))
    (hinvoked : head.call.build file = .ok invoked)
    (hprogram : buildStatements file program = .ok statements)
    (hinverse : inverse.build file = .ok inverseNode)
    (hstatements : ∀ node ∈ statements, node.Everywhere (WellPlaced file text scanned))
    (hother : ∀ node ∈ inverseNode, node.Everywhere (WellPlaced file text scanned)) :
    Everywhere (WellPlaced file text scanned)
      (.block location invoked.callee invoked.params invoked.hash
        (.body (listLocation? file Statement.span program) head.names statements false)
        inverseNode) := by
  obtain ⟨offset, hlaid⟩ := hstands.exists_laid hscanned
  obtain ⟨hhead, hrest⟩ := laid_append.1 hlaid
  rw [head.openAfter_tokens hkind] at hrest
  obtain ⟨hprogramLaid, -⟩ := laid_append.1 hrest
  have hcall : Laid text (kind.reshape []) head.opening.span.stop.offset head.call.tokens := by
    rw [Head.tokens] at hhead
    exact (laid_append.1 (laid_append.1 hhead).1).1.2.2.2
  have hover : invoked.Over file
      (head.tokens kind ++ (statementTokens program ++ (inverse.tokens ++ tail))) := by
    rw [Head.tokens, List.append_assoc, List.append_assoc]
    exact (Call.over_build hinvoked).append [⟨kind, head.opening⟩] _
  -- the block is located from the token that opens its head on, whatever `tail` is
  have hplace : ∃ place, location = some place ∧
      place.start = head.opening.span.start.offset := by
    obtain ⟨first, rest, htokens, hlocation, -⟩ := hcovers.exists_location hlaid
    rw [Head.tokens] at htokens
    cases htokens
    exact ⟨_, hlocation, rfl⟩
  obtain ⟨place, rfl, hplace⟩ := hplace
  refine .intro (.of_arranged hlaid hcovers ?_ ?_
    (filled_section hkind hscanned hclose hclosed hplace hprogram hinverse)) ?_
  · simp only [childLists, List.forall_mem_cons]
    refine ⟨hover.arranged rfl _ (by simp), hover.arranged rfl _ (by simp),
      hover.arranged rfl _ (by simp), ?_, .inl ?_, List.forall_mem_nil _⟩
    · -- a program without statements is not written, so it has no location
      cases program with
      | nil =>
          rw [buildStatements] at hprogram
          cases hprogram
          exact .inr ⟨_, rfl, rfl, .program⟩
      | cons statement rest =>
          refine .inl ((Covers.spread ?_ |>.before _).after _)
          exact covers_of_listLocation? (List.cons_ne_nil statement rest)
            (tokensSpan?_statementTokens _) rfl
    · cases inverseNode with
      | none => exact .nil _
      | some node =>
          have hnode := (Inverse.covers_build hinverse).spread
          exact ((hnode.before tail).after (statementTokens program)).after (head.tokens kind)
  · intro child homits
    cases homits with
    | pairs hhash => exact hover.location_eq_none (Option.some.inj hhash)
    | program =>
        rw [eq_nil_of_buildStatements hprogram]
        rfl
  · intro child hmem
    have hcallNodes : ∀ part ∈ invoked.callee :: (invoked.params ++ [invoked.hash]),
        part.Everywhere (WellPlaced file text scanned) := Call.everywhere_build hinvoked hcall
    have hprogramNode := everywhere_program head.names hprogram hprogramLaid hstatements
    simp only [children, childLists, List.flatten_cons, List.flatten_nil, List.append_nil,
      List.mem_append, List.mem_singleton, Option.mem_toList] at hmem
    rcases hmem with rfl | hparam | rfl | rfl | hinverseNode
    · exact hcallNodes _ (by simp)
    · exact hcallNodes _ (by simp [hparam])
    · exact hcallNodes _ (by simp)
    · exact hprogramNode
    · exact hother child hinverseNode

/-! ## Trees -/

mutual

theorem Statement.everywhere_build {statement : Statement} {node : Node}
    (hbuild : statement.build file = .ok node) (hscanned : Laid text [] 0 scanned)
    (hstands : Stands scanned statement.tokens) :
    node.Everywhere (WellPlaced file text scanned) := by
  have hcovers := Statement.covers_build hbuild
  obtain ⟨offset, hlaid⟩ := hstands.exists_laid hscanned
  cases statement with
  | text lexeme | htmlComment lexeme | curlyComment lexeme =>
      rw [Statement.build] at hbuild
      cases hbuild
      exact everywhere_leaf hlaid hcovers rfl nofun trivial
  | mustache curly =>
      rw [Statement.build] at hbuild
      rw [Statement.tokens] at hlaid
      exact Mustache.everywhere_build hbuild hlaid
  | block head program inverse close =>
      obtain ⟨invoked, statements, inverseNode, hinvoked, hprogram, hinverse, -, rfl⟩ :=
        Statement.exists_of_build_block hbuild
      rw [Statement.tokens, List.append_assoc, List.append_assoc] at hstands hcovers
      have hhead : openAfter [] (head.tokens .openBlock) = [] :=
        head.openAfter_tokens (fun _ => rfl) []
      have hbefore : openAfter [] (head.tokens .openBlock ++ statementTokens program) = [] := by
        rw [openAfter_append, hhead, openAfter_statementTokens]
      have hinverseStands : Stands scanned
          (inverse.tokens ++ [⟨.openEndBlock, close.opening⟩]) := by
        refine .middle _ [⟨.path, close.path⟩, ⟨.closeCurly, close.closing⟩] ?_ hbefore
        simpa [BlockEnd.tokens] using hstands
      have hclosed : Stands scanned (head.tokens .openBlock ++ (statementTokens program ++
          (inverse.tokens ++ [⟨.openEndBlock, close.opening⟩]))) := by
        refine .middle [] [⟨.path, close.path⟩, ⟨.closeCurly, close.closing⟩] ?_ rfl
        simpa [BlockEnd.tokens] using hstands
      have hstatements := everywhere_buildStatements hprogram hscanned
        (.middle _ _ hstands hhead)
      refine everywhere_section (fun _ => rfl) hscanned rfl hclosed hstands hcovers hinvoked
        hprogram hinverse hstatements fun other hother => ?_
      obtain rfl := hother
      exact Inverse.everywhere_build hinverse hscanned rfl hinverseStands
  | element tag tagEnd body endTag =>
      obtain ⟨parts, members, hparts, hmembers, -, rfl⟩ := Statement.exists_of_build_element hbuild
      rw [Statement.tokens, List.append_assoc, List.cons_append] at hlaid hcovers hstands
      have hopen : openAfter [] (tag.tokens ++ [⟨.tagEnd, tagEnd⟩]) = [] := by
        rw [openAfter_append, tag.openAfter_tokens]
        rfl
      have hbody : Stands scanned (statementTokens body) := by
        refine .middle _ [⟨.endTag, endTag⟩] ?_ hopen
        simpa using hstands
      refine everywhere_elementNode hlaid hcovers hparts
        (((spread_buildStatements hmembers).before [⟨.endTag, endTag⟩]).after
          [⟨.tagEnd, tagEnd⟩])
        (everywhere_buildStatements hmembers hscanned hbody)
        fun _ => ⟨_, rfl, ⟨.endTag, endTag⟩, rfl, rfl, ?_⟩
      exact encloses_buildStatements tag.tokens ⟨.tagEnd, tagEnd⟩ hscanned hstands rfl hopen
        tag.kind_ne_tagEnd (.inl rfl) (.inl rfl) hmembers
  | selfClosing tag tagEnd | void tag tagEnd =>
      rw [Statement.build] at hbuild
      obtain ⟨parts, hparts, hbuild⟩ := exists_of_bind_eq_ok hbuild
      cases hbuild
      rw [Statement.tokens] at hlaid hcovers
      exact everywhere_elementNode hlaid hcovers hparts (.nil _) nofun fun hne => absurd rfl hne
termination_by structural statement

theorem Inverse.everywhere_build {inverse : Inverse} {node : Node} {close : Token}
    (hbuild : inverse.build file = .ok (some node)) (hscanned : Laid text [] 0 scanned)
    (hclose : close.kind = .openEndBlock) (hstands : Stands scanned (inverse.tokens ++ [close])) :
    node.Everywhere (WellPlaced file text scanned) := by
  have hcovers := Inverse.covers_build hbuild
  cases inverse with
  | absent =>
      rw [Inverse.build] at hbuild
      cases hbuild
  | otherwise opening closing program =>
      obtain ⟨statements, hprogram, ⟨⟩⟩ := Inverse.exists_of_build_otherwise hbuild
      have hopen : openAfter [] [⟨.openElse, opening⟩, ⟨.closeCurly, closing⟩] = [] := rfl
      rw [Inverse.tokens] at hstands hcovers
      have hprogramStands : Stands scanned (statementTokens program) :=
        .middle [⟨.openElse, opening⟩, ⟨.closeCurly, closing⟩] [close] hstands hopen
      obtain ⟨offset, hlaid⟩ := hstands.exists_laid hscanned
      have hspread := (spread_buildStatements hprogram).after
        [⟨.openElse, opening⟩, ⟨.closeCurly, closing⟩]
      refine .intro (.of_arranged (laid_append.1 hlaid).1 hcovers
        (List.forall_mem_singleton.2 (.inl hspread)) ?_ trivial) fun child hmem => ?_
      · rintro child ⟨hhash⟩
        cases hhash
      · refine everywhere_buildStatements hprogram hscanned hprogramStands child ?_
        simpa [children, childLists] using hmem
  | chained head program ending =>
      obtain ⟨invoked, statements, endingNode, hinvoked, hprogram, hending, ⟨⟩⟩ :=
        Inverse.exists_of_build_chained hbuild
      have hhead : openAfter [] (head.tokens .openElse) = [] :=
        head.openAfter_tokens (fun _ => rfl) []
      have hbefore : openAfter [] (head.tokens .openElse ++ statementTokens program) = [] := by
        rw [openAfter_append, hhead, openAfter_statementTokens]
      have hinverseStands : Stands scanned (Inverse.chained head program ending).tokens :=
        .middle [] [close] hstands rfl
      obtain ⟨offset, hlaid⟩ := hinverseStands.exists_laid hscanned
      -- the block that the else goes on with covers the same tokens as the else
      have hblock : Covers file (Inverse.chained head program ending).tokens
          (.block (some (((Inverse.chained head program ending).spanFrom head.opening).inFile file))
            invoked.callee invoked.params invoked.hash
            (.body (listLocation? file Statement.span program) head.names statements false)
            endingNode) := hcovers
      refine .intro (.of_arranged hlaid hcovers (List.forall_mem_singleton.2 (.inl hblock.spread))
        ?_ trivial) (List.forall_mem_singleton.2 ?_)
      · rintro child ⟨hhash⟩
        cases hhash
      · -- such a section has no closing of its own: `tail` is empty
        rw [Inverse.tokens, List.append_assoc] at hstands hinverseStands hblock
        rw [List.append_assoc] at hstands
        have hendingStands : Stands scanned (ending.tokens ++ [close]) := by
          refine .middle _ [] ?_ hbefore
          simpa using hstands
        rw [← List.append_nil ending.tokens] at hinverseStands hblock
        refine everywhere_section (fun _ => rfl) hscanned hclose hstands hinverseStands hblock
          hinvoked hprogram hending
          (everywhere_buildStatements hprogram hscanned (.middle _ _ hstands hhead))
          fun other hother => ?_
        obtain rfl := hother
        exact Inverse.everywhere_build hending hscanned hclose hendingStands
termination_by structural inverse

theorem everywhere_buildStatements {statements : List Statement} {nodes : List Node}
    (hbuild : buildStatements file statements = .ok nodes) (hscanned : Laid text [] 0 scanned)
    (hstands : Stands scanned (statementTokens statements)) :
    ∀ node ∈ nodes, node.Everywhere (WellPlaced file text scanned) := by
  cases statements with
  | nil =>
      rw [buildStatements] at hbuild
      cases hbuild
      nofun
  | cons statement rest =>
      obtain ⟨node, others, hnode, hothers, rfl⟩ := exists_of_buildStatements_cons hbuild
      rw [statementTokens] at hstands
      refine List.forall_mem_cons.2 ⟨?_, ?_⟩
      · exact Statement.everywhere_build hnode hscanned (.middle [] _ hstands rfl)
      · refine everywhere_buildStatements hothers hscanned ?_
        refine .middle statement.tokens [] ?_ (statement.openAfter_tokens [])
        rw [List.append_nil]
        exact hstands
termination_by structural statements

end

end Phrase

namespace Template

open Node Phrase

/-- Every node of a parsed text is well placed in it, and the statements of the
template stand end to end from the beginning of the text to its end. Only an empty
template has no location. -/
theorem parse_wellPlaced {file source : String} {root : Node}
    (h : parse file source = .ok root) :
    root.Everywhere (WellPlaced file source.toList (Scan.ofText source).tokens) ∧
      ∃ location statements, root = .template location statements ∧
        EndToEnd 0 statements source.length ∧ (location = none ↔ statements = []) := by
  obtain ⟨hscan, statements, htokens, hbuild⟩ := parse_eq_ok_iff.1 h
  obtain ⟨nodes, hnodes, hbuild⟩ := exists_of_bind_eq_ok hbuild
  cases hbuild
  have hscanned := laid_ofText source
  have hstop := stopAfter_ofText hscan
  rw [← htokens] at hscanned hstop ⊢
  have hstands : Stands (statementTokens statements) (statementTokens statements) :=
    ⟨[], [], (List.append_nil _).symm, rfl⟩
  have hplaced := everywhere_buildStatements hnodes hscanned hstands
  have hcover := endToEnd_buildStatements hnodes hscanned
  rw [hstop] at hcover
  refine ⟨.intro ?_ fun child hmem => ?_, _, nodes, rfl, hcover, ?_⟩
  · cases statements with
    | nil =>
        rw [buildStatements] at hnodes
        cases hnodes
        exact .of_bare rfl (List.forall_mem_singleton.2 rfl) trivial
    | cons statement rest =>
        refine .of_arranged hscanned (covers_of_listLocation? (List.cons_ne_nil statement rest)
          (tokensSpan?_statementTokens _) rfl)
          (List.forall_mem_singleton.2 (.inl (spread_buildStatements hnodes))) ?_ trivial
        rintro child ⟨hhash⟩
        cases hhash
  · exact hplaced child (by simpa [children, childLists] using hmem)
  · cases statements with
    | nil =>
        rw [buildStatements] at hnodes
        cases hnodes
        exact ⟨fun _ => rfl, fun _ => rfl⟩
    | cons statement rest =>
        refine ⟨fun hnone => ?_, fun hnil => ?_⟩
        · rw [listLocation?, listSpan?, List.head?_cons,
            List.getLast?_eq_some_getLast (List.cons_ne_nil statement rest)] at hnone
          cases hnone
        · subst hnil
          cases eq_nil_of_buildStatements hnodes

/-- An element with attributes around a block with an else. -/
def nestedBlock : String :=
  "<a b c='d\x7b\x7be\x7d\x7d'>\x7b\x7b#f g=h\x7d\x7d\x7b\x7belse\x7d\x7d\n\x7b\x7b/f\x7d\x7d</a>"

/-- The element is parsed, so all its nodes are well placed. -/
theorem parse_wellPlaced_block :
    ∃ root, parse "page" nestedBlock = .ok root ∧
      root.Everywhere (WellPlaced "page" nestedBlock.toList (Scan.ofText nestedBlock).tokens) ∧
      ∃ location statements, root = .template location statements ∧
        EndToEnd 0 statements nestedBlock.length ∧ (location = none ↔ statements = []) := by
  have hparsed : (parse "page" nestedBlock).isOk = true := by decide +kernel
  obtain ⟨root, hroot⟩ := exists_of_isOk hparsed
  exact ⟨root, hroot, parse_wellPlaced hroot⟩

end Template

end TemplateUsage
