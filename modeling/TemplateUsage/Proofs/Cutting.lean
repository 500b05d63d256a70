import TemplateUsage.Extraction
import TemplateUsage.Proofs.Scan.Excerpt
import TemplateUsage.Proofs.Tree.Positions
import TemplateUsage.Proofs.Tree.Rebuilding

set_option autoImplicit false

/-!
# Cutting a template between statements

A template may be cut where one of its statements starts. Both parts are templates: the
first has the statements before the cut, where they stand, and the second those after
it, with lines and columns counted from the cut. So the usages of a template are those
of its parts, one after the other. Main statement: `Template.parse_cut`.
-/

namespace TemplateUsage

/-! ## Statements of a part -/

namespace Phrase

variable {file : String}

theorem buildStatements_split {statements : List Statement} {nodes : List Node}
    (h : buildStatements file statements = .ok nodes) (k : Nat) :
    buildStatements file (statements.take k) = .ok (nodes.take k) ∧
      buildStatements file (statements.drop k) = .ok (nodes.drop k) := by
  induction statements generalizing nodes k with
  | nil =>
      cases h
      rw [List.take_nil, List.drop_nil, List.take_nil, List.drop_nil]
      exact ⟨rfl, rfl⟩
  | cons statement rest ih =>
      cases k with
      | zero => exact ⟨rfl, h⟩
      | succ k =>
          obtain ⟨node, others, hnode, hothers, rfl⟩ := exists_of_buildStatements_cons h
          obtain ⟨hfront, hback⟩ := ih hothers k
          refine ⟨?_, hback⟩
          rw [List.take_succ_cons, List.take_succ_cons, buildStatements, hnode, hfront]
          rfl

end Phrase

/-! ## Blank texts -/

namespace Scan

/-- No blank stops a text. -/
theorem halts_blank {c : Char} (rest : List Char) (hc : Text.isBlank c = true) :
    halts (c :: rest) = false := by
  have hne : ∀ {first : Char} {start : List Char}, Text.isBlank first = false →
      ¬ startsWith (first :: start) (c :: rest) = true := by
    intro first start hfirst hstarts
    obtain ⟨tail, htail⟩ := startsWith_iff.1 hstarts
    rw [List.cons_append, List.cons.injEq] at htail
    rw [htail.1, hc] at hfirst
    cases hfirst
  rw [Bool.eq_false_iff, ne_eq, halts_iff]
  rintro (h | h | ⟨h, -⟩)
  · exact hne rfl h
  · exact hne rfl h
  · exact hne rfl h

/-- A step at a blank in content reads text. -/
theorem State.step_blank {state : State} (hmodes : state.modes = []) (hne : state.rest ≠ [])
    (hblanks : ∀ c ∈ state.rest, Text.isBlank c = true) :
    state.step = .found .text (.whole (textRun state.rest)) [] := by
  obtain ⟨c, tail, hrest⟩ := List.exists_cons_of_ne_nil hne
  have hc : Text.isBlank c = true := hblanks c (hrest ▸ List.mem_cons_self)
  have hstep := state.step_text hmodes (by rw [hrest, halts_blank tail hc])
  rwa [hmodes] at hstep

theorem Run.kind_of_blanks {state final : State} {pieces : List Piece}
    (h : Run state pieces final) (hmodes : state.modes = [])
    (hblanks : ∀ c ∈ state.rest, Text.isBlank c = true) : ∀ piece ∈ pieces, piece.kind = .text := by
  induction h with
  | refl => nofun
  | @emit state final kind value width modes pieces hne hstep hrun ih =>
      cases (State.step_blank hmodes hne hblanks).symm.trans hstep
      rw [List.forall_mem_cons]
      exact ⟨rfl, ih rfl fun d hd => hblanks d (List.mem_of_mem_drop hd)⟩
  | skip hne hstep => exact absurd hstep (State.step_ne_skip hmodes _)

/-- Blanks are scanned as text, to their end. -/
theorem scanFrom_of_blanks {lines : Lines} (state : State) (hmodes : state.modes = [])
    (hblanks : ∀ c ∈ state.rest, Text.isBlank c = true) :
    (scanFrom lines state).rejection = none ∧
      ∀ token ∈ (scanFrom lines state).tokens, token.kind = .text := by
  fun_induction traceFrom lines state with
  | case1 state hnil =>
      rw [scanFrom_nil hnil, State.finish, hmodes]
      exact ⟨rfl, List.forall_mem_nil _⟩
  | case2 state hne kind value width modes hstep ih =>
      cases (State.step_blank hmodes hne hblanks).symm.trans hstep
      obtain ⟨hnone, hkinds⟩ := ih rfl fun c hc => hblanks c (List.mem_of_mem_drop hc)
      rw [scanFrom_emit hne hstep]
      exact ⟨hnone, List.forall_mem_cons.2 ⟨rfl, hkinds⟩⟩
  | case3 state hne width hstep =>
      cases (State.step_blank hmodes hne hblanks).symm.trans hstep
  | case4 state hne fault width hstep =>
      cases (State.step_blank hmodes hne hblanks).symm.trans hstep

end Scan

namespace Phrase

/-- A statement of text tokens is a text. -/
theorem Statement.exists_text {statement : Statement}
    (h : ∀ token ∈ statement.tokens, token.kind = .text) : ∃ lexeme, statement = .text lexeme := by
  have hhead : ∀ {first : Token} {rest : List Token}, statement.tokens = first :: rest →
      first.kind = .text := by
    intro first rest htokens
    exact h first (htokens ▸ List.mem_cons_self)
  cases statement with
  | text lexeme => exact ⟨lexeme, rfl⟩
  | htmlComment | curlyComment => cases hhead rfl
  | mustache curly =>
      obtain ⟨trusting, opening, call, closing⟩ := curly
      cases trusting <;> cases hhead rfl
  | block | element | selfClosing | void => cases hhead rfl

/-- Statements of text have no usages. -/
theorem walkAll_of_text {file : String} {statements : List Statement} {nodes : List Node}
    (hbuild : buildStatements file statements = .ok nodes)
    (h : ∀ token ∈ statementTokens statements, token.kind = .text) (scope : Scope) :
    Node.walkAll nodes scope = [] := by
  induction statements generalizing nodes with
  | nil =>
      cases hbuild
      rfl
  | cons statement rest ih =>
      rw [statementTokens, List.forall_mem_append] at h
      obtain ⟨node, others, hnode, hothers, rfl⟩ := exists_of_buildStatements_cons hbuild
      obtain ⟨lexeme, rfl⟩ := Statement.exists_text h.1
      cases hnode
      rw [Node.walkAll, ih hothers h.2]
      rfl

end Phrase

/-! ## Usages of a part -/

theorem Node.walkAll_append (front back : List Node) (scope : Scope) :
    walkAll (front ++ back) scope = walkAll front scope ++ walkAll back scope := by
  induction front with
  | nil => rfl
  | cons node nodes ih => rw [List.cons_append, walkAll, walkAll, ih, List.append_assoc]

theorem Node.collect_template (location : Option Location) (members : List Node) (scope : Scope) :
    (Node.template location members).collect scope = walkAll members scope := by
  rw [collect_eq_walk, walk]

namespace Template

open Phrase Scan

variable {file source : String}

/-- A text that is not parsed because it is blank has no usages when it is parsed. -/
theorem collect_of_blank {root : Node} (h : parse file source = .ok root)
    (hblank : Text.isBlankText source = true) : root.collect Scope.empty = [] := by
  obtain ⟨hscan, statements, htokens, hbuild⟩ := parse_eq_ok_iff.1 h
  obtain ⟨pieces, ⟨final, hrun, -⟩, hpieces⟩ := exists_scanned hscan
  have hkinds := hrun.kind_of_blanks rfl (List.all_eq_true.1 hblank)
  obtain ⟨nodes, hnodes, rfl⟩ := exists_of_buildTemplate hbuild
  rw [Node.collect_template]
  refine walkAll_of_text hnodes ?_ _
  rw [htokens, hpieces, List.forall_mem_map]
  exact hkinds

theorem statementTokens_texts {tokens : List Token} (h : ∀ token ∈ tokens, token.kind = .text) :
    statementTokens (tokens.map fun token => .text token.lexeme) = tokens := by
  induction tokens with
  | nil => rfl
  | cons token rest ih =>
      obtain ⟨hfirst, hrest⟩ := List.forall_mem_cons.1 h
      obtain ⟨kind, lexeme⟩ := token
      obtain rfl : kind = .text := hfirst
      rw [List.map_cons, statementTokens, ih hrest, Statement.tokens]
      rfl

theorem buildStatements_texts (file : String) (lexemes : List Lexeme) :
    ∃ nodes, buildStatements file (lexemes.map .text) = .ok nodes := by
  induction lexemes with
  | nil => exact ⟨[], rfl⟩
  | cons lexeme rest ih =>
      obtain ⟨nodes, hnodes⟩ := ih
      refine ⟨.text (some (lexeme.span.inFile file)) lexeme.value :: nodes, ?_⟩
      rw [List.map_cons, buildStatements, Statement.build, hnodes]
      rfl

/-- A text of blanks only is a template. -/
theorem parse_of_blank (file : String) {source : String}
    (hblank : Text.isBlankText source = true) : ∃ root, parse file source = .ok root := by
  obtain ⟨hnone, hkinds⟩ := Scan.scanFrom_of_blanks (Scan.State.initial source.toList) rfl
    (List.all_eq_true.1 hblank)
  obtain ⟨nodes, hnodes⟩ := buildStatements_texts file
    ((Scan.ofText source).tokens.map Token.lexeme)
  rw [List.map_map] at hnodes
  have hbuild : ∃ root, buildTemplate file
      ((Scan.ofText source).tokens.map (Statement.text ∘ Token.lexeme)) = .ok root := by
    rw [buildTemplate, hnodes]
    exact ⟨_, rfl⟩
  obtain ⟨root, hroot⟩ := hbuild
  exact ⟨root, parse_eq_ok_iff.2 ⟨hnone, _, statementTokens_texts hkinds, hroot⟩⟩

/-- A text that is not parsed because it is blank has the usages it has when it is parsed. -/
theorem collectUsages_eq (file source : String) :
    collectUsages file source =
      (parse file source).map fun root => root.collect Scope.empty := by
  unfold collectUsages
  split
  · rename_i hblank
    obtain ⟨root, hroot⟩ := parse_of_blank file hblank
    rw [hroot, Except.map, collect_of_blank hroot hblank]
  · rfl

/-- The usages of a text that is parsed are those of its tree. -/
theorem extractTokens_of_parse {root : Node} (h : parse file source = .ok root) :
    extractTokens file source = .ok ((root.collect Scope.empty).map Usage.token) := by
  rw [extractTokens, collectUsages]
  split
  · rename_i hblank
    rw [collect_of_blank h hblank]
    rfl
  · rw [h]
    rfl

/-- A text is parsed by scanning it and building the statements its tokens are those of. -/
theorem parse_of_scanned {text : List Char} {pieces : List Piece} {statements : List Statement}
    {nodes : List Node} (h : Scanned text pieces)
    (htokens : statementTokens statements = pieces.map (Piece.token (Lines.ofText text)))
    (hbuild : buildStatements file statements = .ok nodes) :
    parse file (String.ofList text) =
      .ok (.template (listLocation? file Statement.span statements) nodes) := by
  rw [parse_eq_ok_iff, h.ofText_eq]
  refine ⟨rfl, statements, htokens, ?_⟩
  rw [buildTemplate, hbuild]
  rfl

/-! ## The cut -/

/-- The statement with index `k` starts at the offset; after the last one that is the end
of the text. -/
def StartsStatement (source : String) (members : List Node) (k offset : Nat) : Prop :=
  match members[k]? with
  | some node => ∃ location, node.location? = some location ∧ location.start = offset
  | none => offset = source.length

/-- Statements whose tokens stand further on in a text are those of a part of the text,
moved along. -/
theorem exists_statements_of_part {read rest : List Char} {others : List Piece}
    {statements : List Statement} {nodes : List Node} (hscanned : Scanned rest others)
    (htokens : statementTokens statements = (others.map (Piece.shift read.length)).map
      (Piece.token (Lines.ofText (read ++ rest))))
    (hbuild : buildStatements file statements = .ok nodes) :
    ∃ part members, statementTokens part = others.map (Piece.token (Lines.ofText rest)) ∧
      buildStatements file part = .ok members ∧
      members.map (Node.relocate
        (Point.translate (Point.counted (read ++ rest) read.length))) = nodes := by
  have hbounds := hscanned.bounds
  -- the points of the statements are counted again in the part, and moved back from there
  let recount : Point → Point := fun point => Point.counted rest (point.offset - read.length)
  let translate : Point → Point := Point.translate (Point.counted (read ++ rest) read.length)
  obtain ⟨part, htokens', hmembers⟩ := exists_built_of_relocate recount hbuild
  have hpart : statementTokens part = others.map (Piece.token (Lines.ofText rest)) := by
    rw [htokens', htokens, List.map_map, List.map_map]
    refine List.map_congr_left fun piece hpiece => ?_
    obtain ⟨hstart, hstop⟩ := hbounds piece hpiece
    exact Piece.token_unshift read hstart hstop
  obtain ⟨whole, hwhole, hback⟩ := exists_built_of_relocate translate hmembers
  have heq : whole = statements := by
    refine statementTokens_injective ?_
    rw [hwhole, hpart, htokens, List.map_map, List.map_map]
    refine List.map_congr_left fun piece hpiece => ?_
    obtain ⟨hstart, hstop⟩ := hbounds piece hpiece
    exact (Piece.token_shift read hstart hstop).symm
  rw [heq, hbuild] at hback
  exact ⟨part, _, hpart, hmembers, (Except.ok.inj hback).symm⟩

theorem Statement.location_of_build {statement : Statement} {node : Node}
    (h : statement.build file = .ok node) :
    node.location? = some (statement.span.inFile file) := by
  obtain ⟨span, hspan, hlocation⟩ := Statement.covers_build h
  rw [statement.tokensSpan?_tokens] at hspan
  cases hspan
  exact hlocation

/-- The first statement after the cut starts there. -/
theorem startsStatement_of_cut {statements : List Statement} {nodes : List Node}
    {read rest : List Char} {back : List Piece} {k : Nat}
    (hsource : source.toList = read ++ rest)
    (hbuild : buildStatements file (statements.drop k) = .ok (nodes.drop k))
    (htokens : statementTokens (statements.drop k) =
      back.map (Piece.token (Lines.ofText source.toList)))
    (hstart : ∀ piece ∈ back.head?, piece.start = read.length) (hrest : back = [] → rest = []) :
    StartsStatement source nodes k read.length := by
  unfold StartsStatement
  rw [← List.head?_drop]
  cases hnodes : nodes.drop k with
  | nil =>
      rw [hnodes] at hbuild
      rw [eq_nil_of_buildStatements hbuild] at htokens
      have hback : back = [] := List.map_eq_nil_iff.1 htokens.symm
      rw [hrest hback, List.append_nil] at hsource
      rw [List.head?_nil, ← String.length_toList, hsource]
  | cons node others =>
      rw [hnodes] at hbuild
      cases hstatements : statements.drop k with
      | nil =>
          rw [hstatements] at hbuild
          cases hbuild
      | cons statement more =>
          rw [hstatements] at hbuild
          obtain ⟨first, later, hfirst, -, ⟨⟩⟩ := exists_of_buildStatements_cons hbuild
          refine ⟨_, Statement.location_of_build hfirst, ?_⟩
          obtain ⟨token, htoken, hpoint⟩ :=
            statement.startsAt_tokens.append (statementTokens more)
          rw [hstatements, statementTokens] at htokens
          rw [htokens, List.head?_map] at htoken
          obtain ⟨piece, hpiece, rfl⟩ := Option.map_eq_some_iff.1 htoken
          rw [Span.inFile, ← hpoint]
          exact congrArg Int.ofNat (hstart piece hpiece)

theorem exists_template {root : Node} (h : parse file source = .ok root) :
    ∃ location members, root = .template location members := by
  obtain ⟨-, statements, -, hbuild⟩ := parse_eq_ok_iff.1 h
  obtain ⟨nodes, -, rfl⟩ := exists_of_buildTemplate hbuild
  exact ⟨_, _, rfl⟩

/-- The two parts of a template that is cut before its statement with index `k`. -/
theorem exists_parts {location : Option Location} {members : List Node}
    (h : parse file source = .ok (.template location members)) (k : Nat) :
    ∃ read rest, source.toList = read ++ rest ∧ StartsStatement source members k read.length ∧
      ∃ frontLocation backLocation others,
        parse file (String.ofList read) = .ok (.template frontLocation (members.take k)) ∧
        parse file (String.ofList rest) = .ok (.template backLocation others) ∧
        others.map (Node.relocate (Point.translate (Point.counted source.toList read.length))) =
          members.drop k := by
  obtain ⟨hscan, statements, htokens, hbuild⟩ := parse_eq_ok_iff.1 h
  obtain ⟨nodes, hnodes, ⟨⟩⟩ := exists_of_buildTemplate hbuild
  obtain ⟨hfrontBuild, hbackBuild⟩ := buildStatements_split hnodes k
  obtain ⟨pieces, hscanned, hpieces⟩ := exists_scanned hscan
  -- the pieces are cut where the tokens of the statements are
  rw [hpieces, ← List.take_append_drop k statements, statementTokens_append] at htokens
  obtain ⟨front, back, rfl, hfront, hback⟩ := List.map_eq_append_iff.1 htokens.symm
  have hclosed : openAfter [] (front.map (Piece.token (Lines.ofText source.toList))) = [] := by
    rw [hfront, openAfter_statementTokens]
  obtain ⟨read, rest, others, hsource, hread, hrest, rfl, hstart, hempty⟩ :=
    hscanned.cut _ hclosed
  have hfrontTokens : statementTokens (statements.take k) =
      front.map (Piece.token (Lines.ofText read)) := by
    rw [← hfront, hsource]
    refine List.map_congr_left fun piece hpiece => ?_
    obtain ⟨hpieceStart, hpieceStop⟩ := hread.bounds piece hpiece
    exact Piece.token_append_left hpieceStart hpieceStop rest
  -- behind the cut the same tokens are counted from another place
  have hboundary := startsStatement_of_cut hsource hbackBuild hback.symm hstart hempty
  rw [hsource] at hback
  obtain ⟨part, partNodes, hpartTokens, hpartBuild, hmoved⟩ :=
    exists_statements_of_part hrest hback.symm hbackBuild
  rw [← hsource] at hmoved
  exact ⟨read, rest, hsource, hboundary, _, _, partNodes,
    parse_of_scanned hread hfrontTokens hfrontBuild, parse_of_scanned hrest hpartTokens hpartBuild,
    hmoved⟩

/-- Where a template stands does not matter for its tokens, and the tokens of two parts
follow each other. -/
theorem extractTokens_of_parts {front back : String} {move : Point → Point}
    {location frontLocation backLocation : Option Location} {members others : List Node}
    (h : parse file source =
      .ok (.template location (members ++ others.map (Node.relocate move))))
    (hfront : parse file front = .ok (.template frontLocation members))
    (hback : parse file back = .ok (.template backLocation others)) :
    ∃ first second, extractTokens file front = .ok first ∧ extractTokens file back = .ok second ∧
      extractTokens file source = .ok (first ++ second) := by
  refine ⟨_, _, extractTokens_of_parse hfront, extractTokens_of_parse hback, ?_⟩
  rw [extractTokens_of_parse h, Node.collect_template, Node.collect_template,
    Node.collect_template, Node.walkAll_append, ← Node.relocateAll_eq_map, Node.walkAll_relocate,
    List.map_append, List.map_map]
  rfl

/-- A template may be cut where its statement with index `k` starts, or at its end. The
first part is a template of the statements before it, at the same locations. The second is
a template of the other statements, which stand in the whole where translating each
location from the cut leads. The tokens of the template are those of the first part,
followed by those of the second. -/
theorem parse_cut {location : Option Location} {members : List Node}
    (h : parse file source = .ok (.template location members)) (k : Nat) :
    ∃ offset ≤ source.length, StartsStatement source members k offset ∧
      ∃ frontLocation backLocation others,
        parse file (String.ofList (source.toList.take offset)) =
          .ok (.template frontLocation (members.take k)) ∧
        parse file (String.ofList (source.toList.drop offset)) =
          .ok (.template backLocation others) ∧
        others.map (Node.relocate (Point.translate (Point.counted source.toList offset))) =
          members.drop k ∧
        ∃ first second,
          extractTokens file (String.ofList (source.toList.take offset)) = .ok first ∧
          extractTokens file (String.ofList (source.toList.drop offset)) = .ok second ∧
          extractTokens file source = .ok (first ++ second) := by
  obtain ⟨read, rest, hsource, hboundary, frontLocation, backLocation, others, hfront, hback,
    hmoved⟩ := exists_parts h k
  have hle : read.length ≤ source.length := by
    rw [← String.length_toList, hsource, List.length_append]
    exact Nat.le_add_right _ _
  have htake : source.toList.take read.length = read := by rw [hsource, List.take_left]
  have hdrop : source.toList.drop read.length = rest := by rw [hsource, List.drop_left]
  rw [← List.take_append_drop k members, ← hmoved] at h
  have htokens := extractTokens_of_parts h hfront hback
  rw [← htake] at hfront
  rw [← hdrop] at hback
  rw [← htake, ← hdrop] at htokens
  exact ⟨read.length, hle, hboundary, frontLocation, backLocation, others, hfront, hback, hmoved,
    htokens⟩

/-- A text over two lines, a mustache and an element. -/
def twoLines : String := "a\n b\x7b\x7bc\x7d\x7d<d>\n\\\x7b\x7be</d>"

/-- The text is cut before its mustache, on the second line. -/
theorem parse_cut_twoLines :
    ∃ location members, parse "page" twoLines = .ok (.template location members) ∧
      ∃ offset ≤ twoLines.length, StartsStatement twoLines members 1 offset ∧
        ∃ frontLocation backLocation others,
          parse "page" (String.ofList (twoLines.toList.take offset)) =
            .ok (.template frontLocation (members.take 1)) ∧
          parse "page" (String.ofList (twoLines.toList.drop offset)) =
            .ok (.template backLocation others) ∧
          others.map (Node.relocate (Point.translate (Point.counted twoLines.toList offset))) =
            members.drop 1 ∧
          ∃ first second,
            extractTokens "page" (String.ofList (twoLines.toList.take offset)) = .ok first ∧
            extractTokens "page" (String.ofList (twoLines.toList.drop offset)) = .ok second ∧
            extractTokens "page" twoLines = .ok (first ++ second) := by
  have hok : (parse "page" twoLines).isOk = true := by decide +kernel
  obtain ⟨root, hroot⟩ := exists_of_isOk hok
  obtain ⟨location, members, rfl⟩ := exists_template hroot
  exact ⟨location, members, hroot, parse_cut hroot 1⟩

end Template

end TemplateUsage
