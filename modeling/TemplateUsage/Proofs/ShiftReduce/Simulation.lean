import TemplateUsage.Proofs.ShiftReduce.Matching

set_option autoImplicit false

/-!
# The driver and the recogniser in step

The rest of the tokens: those in calls and in blocks. From what the driver does at each position
(`keepsUp_position`, `exists_matches_of_reduce`) it follows that it keeps up with the recogniser
in every configuration: it shifts what the recogniser takes in (`Matches.shift`) and makes the
same reductions before it (`Matches.settle`). Where the recogniser goes no further it expects the
same (`Matches.of_refusal`, `Matches.of_unfinished`), and where the text may end it completes it
(`Matches.of_finished`).
-/

namespace TemplateUsage.ShiftReduce

open Grammar (Nonterminal)
open Recogniser

/-! ## Calls -/

section Calls

/-- The places where a call begins. -/
def callSpots : List Place := .inside .inverse [.token .openElse] :: callPlaces

/-- The places where an expression begins. -/
def expressionSpots : List Place :=
  callSpots ++ [.inside .call (callRead false false), .inside .call (callRead true false),
    .inside .pair [.token .hashKey]]

theorem begins_callSpot : ∀ place ∈ callSpots,
    place.Begins (.phrase .expression) .call ∧
      place.next (.phrase .call) = some (place.extend (.phrase .call)) := by
  decide

theorem begins_expressionSpot : ∀ place ∈ expressionSpots,
    place.Begins (.token .openParen) .nested ∧
      (∀ choice ∈ Nonterminal.expression.choices, place.Begins (.phrase choice) .expression) ∧
      ∀ sort ∈ [Atom.path, .string, .number, .boolean, .null, .undefined],
        place.Begins (.token sort.kind) (.atom sort) := by
  decide

theorem final_expression : ∀ choice ∈ Nonterminal.expression.choices,
    (Place.inside .expression [.phrase choice]).Final := by
  decide

theorem final_atom (sort : Atom) : (Place.inside (.atom sort) [.token sort.kind]).Final := by
  cases sort <;> decide

theorem lists_argument : (Place.inside .call (callRead false false)).Lists .expression
    (.inside .call (callRead true false)) := by
  decide

theorem lists_pair : ∀ args : Bool, (Place.inside .call (callRead args false)).Lists .pair
    (.inside .call (callRead args true)) := by
  decide

/-- After each part of a call there may be a key, and before what ends it it is reduced. -/
theorem next_hashKey : ∀ args pairs : Bool,
    (Place.inside .call (callRead args pairs)).Begins (.token .hashKey) .pair ∧
      ∀ kind ∈ callEnds, (Place.inside .call (callRead args pairs)).reduction? (.token kind) =
        some ⟨.phrase .call, callRead args pairs, []⟩ := by
  decide

theorem next_pairValue : (Place.inside .pair [.token .hashKey]).next (.phrase .expression) =
    some (.inside .pair [.token .hashKey, .phrase .expression]) := by
  decide

theorem climb_arguments (args : Bool) (base : List Place) :
    climb .call (callRead args false) base =
      listed (.inside .call (callRead true false)) args
        (climb .call (callRead false false) base) := by
  cases args <;> rfl

theorem climb_pairs (args pairs : Bool) (base : List Place) :
    climb .call (callRead args pairs) base =
      listed (.inside .call (callRead args true)) pairs
        (climb .call (callRead args false) base) := by
  cases args <;> cases pairs <;> rfl

theorem top_callStack_mem (call : OpenCall) : top (callStack call) ∈ callSpots := by
  by_cases h : call.pending = [] ∧ ∃ chain, call.site = .head (.chained chain)
  · obtain ⟨hpending, chain, hsite⟩ := h
    rw [callStack, hpending, hsite]
    exact List.mem_cons_self
  · refine List.mem_cons_of_mem _ (top_callStack fun hpending chain hsite => ?_)
    exact h ⟨hpending, chain, hsite⟩

variable {call : OpenCall} {progress : Recogniser.Progress}
  {add : Phrase.Expression → Recogniser.Progress}

theorem top_progressStack_mem (call : OpenCall) (hadd : progress.add? = some add) :
    top (progressStack (callStack call) progress) ∈ expressionSpots := by
  cases progress with
  | start => exact List.mem_append_left _ (top_callStack_mem call)
  | arguments callee args =>
      rw [progressStack, top_climb _ (callRead_ne_nil _ _)]
      cases !args.isEmpty <;> decide
  | key callee args pairs key =>
      exact (by decide : Place.inside .pair [.token .hashKey] ∈ expressionSpots)
  | pairs callee args pairs => cases hadd

theorem proper_add (hcall : CallProper call) (hadd : progress.add? = some add)
    (expression : Phrase.Expression) : Proper (.call call (add expression)) := by
  cases progress with
  | pairs callee args pairs => cases hadd
  | key callee args pairs key =>
      cases hadd
      exact ⟨hcall, List.cons_ne_nil _ _⟩
  | _ =>
      cases hadd
      exact hcall

/-- A complete value becomes that of the last pair. -/
theorem matches_pair (hcall : CallProper call) (callee : Phrase.Expression)
    (args : List Phrase.Expression) (pairs : List Phrase.Pair) (key : Lexeme)
    (pair : Phrase.Pair) :
    Matches (.call call (.pairs callee args (pair :: pairs))) []
      (.inside .pair [.token .hashKey, .phrase .expression] ::
        progressStack (callStack call) (.key callee args pairs key)) := by
  have hlists : (top (climb .call (callRead (!args.isEmpty) false) (callStack call))).Lists .pair
      (.inside .call (callRead (!args.isEmpty) true)) := by
    rw [top_climb _ (callRead_ne_nil _ _)]
    exact lists_pair _
  obtain ⟨next, hnext, hlags⟩ := hlists.lags (!pairs.isEmpty)
  rw [← climb_pairs] at hnext hlags
  rw [← climb_pairs] at hlags
  have hpair : (Place.inside .pair [.token .hashKey, .phrase .expression]).Final := by
    decide
  refine .of_lags ⟨hcall, List.cons_ne_nil _ _⟩ (rfl : _ = (Category.phrase .pair).looks) ?_
  exact .reduce hpair (fun _ => rfl) rfl (Nat.le_add_left _ _) hnext hlags

/-- A complete expression becomes the callee, the last argument or the value of the last
pair. -/
theorem matches_expression (hcall : CallProper call) (hadd : progress.add? = some add)
    (expression : Phrase.Expression) (choice : Nonterminal) (read : List Symbol)
    (hchoice : choice ∈ Nonterminal.expression.choices)
    (hlooks : nameLooks choice = expressionLooks) (hfinal : (Place.inside choice read).Final) :
    Matches (.call call (add expression)) [.expression]
      (climb choice read (progressStack (callStack call) progress)) := by
  have hallows (look : Lookahead) :
      (Category.phrase .expression).allows look = (Category.phrase choice).allows look := by
    rw [Category.allows, Category.allows, Category.looks, Category.looks, hlooks]
    rfl
  have hbegins :=
    (begins_expressionSpot _ (top_progressStack_mem call hadd)).2.1 choice hchoice
  have hproper := proper_add hcall hadd expression
  have hfinal' := final_expression choice hchoice
  -- it is enough to tell what becomes of the phrase `expression`
  suffices h : ∃ next, Lags (Category.phrase .expression).allows
      (.inside .expression [.phrase choice] :: progressStack (callStack call) progress) next ∧
      Matches (.call call (add expression)) [] next by
    obtain ⟨next, hlags, hmatches⟩ := h
    have hall := Lags.reduce_climb hfinal hallows hbegins hlags
    rw [climb_of_ne_nil choice hfinal.ne_nil] at hall ⊢
    exact .of_final hfinal hallows hall hmatches
  cases progress with
  | start =>
      -- the first expression is the callee
      cases hadd
      have hnext := (begins_callSpot _ (top_callStack_mem call)).1
      exact ⟨_, .reduce hfinal' (fun _ => rfl) rfl (Nat.le_add_left _ _) hnext .refl,
        .exact hproper⟩
  | arguments callee args =>
      cases hadd
      have hlists : (top (climb .call (callRead false false) (callStack call))).Lists .expression
          (.inside .call (callRead true false)) :=
        lists_argument
      refine ⟨_, ?_, .exact hproper⟩
      rw [progressStack, climb_arguments]
      exact hlists.lags_choice _ hfinal'
  | key callee args pairs key =>
      cases hadd
      exact ⟨_, .reduce hfinal' (fun _ => rfl) rfl (Nat.le_add_left _ _) next_pairValue .refl,
        matches_pair hcall callee args pairs key _⟩
  | pairs callee args pairs => cases hadd

/-- What the recogniser takes in where an expression begins, the driver takes in. -/
theorem keepsUp_expression {kind : Kind} {next : Lexeme → Config} (hcall : CallProper call)
    (h : shiftExpression? call progress kind = some next) :
    KeepsUp (progressStack (callStack call) progress) kind next := by
  unfold shiftExpression? at h
  split at h
  · cases h
  · rename_i add hadd
    obtain ⟨hnested, -, hatom⟩ := begins_expressionSpot _ (top_progressStack_mem call hadd)
    split at h
    · -- the call waits for the one that the parenthesis opens
      cases h
      refine .of_next hnested fun lexeme => .exact ⟨?_, nofun⟩
      refine List.forall_mem_cons.2 ⟨?_, hcall⟩
      rw [hadd]
      rfl
    · obtain ⟨sort, hsort, rfl⟩ := Option.map_eq_some_iff.1 h
      obtain rfl := Atom.kind_of_ofKind? hsort
      have hmem : sort ∈ [Atom.path, .string, .number, .boolean, .null, .undefined] := by
        cases sort <;> decide
      refine .of_next (hatom sort hmem) fun lexeme => ?_
      exact matches_expression hcall hadd _ (.atom sort) [.token sort.kind]
        (by cases sort <;> decide) rfl (final_atom sort)

/-- What the recogniser takes in inside a call, the driver takes in. -/
theorem keepsUp_call {kind : Kind} {next : Lexeme → Config} (h : Proper (.call call progress))
    (hshift : shiftCall? call progress kind = some next) :
    KeepsUp (progressStack (callStack call) progress) kind next := by
  have hcall : CallProper call := by
    cases progress with
    | start | pairs => exact h.1
    | _ => exact h
  unfold shiftCall? at hshift
  split at hshift
  · obtain ⟨addKey, hadd, rfl⟩ := Option.map_eq_some_iff.1 hshift
    cases progress with
    | start | key => cases hadd
    | arguments callee args =>
        cases hadd
        refine .of_next ?_ fun lexeme => .exact hcall
        rw [progressStack, top_climb _ (callRead_ne_nil _ _)]
        exact (next_hashKey _ _).1
    | pairs callee args pairs =>
        cases hadd
        refine .of_next ?_ fun lexeme => .exact hcall
        rw [progressStack, top_climb _ (callRead_ne_nil _ _)]
        exact (next_hashKey _ _).1
  · exact keepsUp_expression hcall hshift

/-- A complete mustache becomes a statement, the value of an attribute or a part of one. -/
theorem matches_mustache (site : MustacheSite) (mustache : Phrase.Mustache) (read : List Symbol)
    (hfinal : (Place.inside .mustache read).Final) :
    Matches (site.close mustache).position (site.close mustache).checks
      (climb .mustache read (mustacheSiteStack site)) := by
  cases site with
  | statement content =>
      exact .of_climb .mustache read hfinal (begins_statement content (by decide))
        (matches_statement content _ (by decide))
  | value assignment =>
      exact .of_climb .mustache read hfinal begins_valueSpot.2.2.2.2
        (matches_value assignment _ [.phrase .mustache] (by decide))
  | quoted quote =>
      exact .of_climb .mustache read hfinal (begins_quotedPart quote (by decide))
        (.of_lags trivial rfl (lags_quotedPart quote _ (by decide)))

/-- What goes on after a complete call. -/
theorem next_call :
    (Place.inside .mustache [.token .openCurly, .phrase .call]).next (.token .closeCurly) =
        some (.inside .mustache [.token .openCurly, .phrase .call, .token .closeCurly]) ∧
      (Place.inside .mustache [.token .openTriple, .phrase .call]).next (.token .closeTriple) =
        some (.inside .mustache [.token .openTriple, .phrase .call, .token .closeTriple]) ∧
      (Place.inside .modifier [.token .openCurly, .phrase .call]).next (.token .closeCurly) =
        some (.inside .modifier [.token .openCurly, .phrase .call, .token .closeCurly]) ∧
      (Place.inside .nested [.token .openParen, .phrase .call]).next (.token .closeParen) =
        some (.inside .nested [.token .openParen, .phrase .call, .token .closeParen]) := by
  decide

/-- The place after the call of a head. -/
def headSpot (chained : Bool) : Place :=
  .inside (headName chained) [.token (headOpening chained), .phrase .call]

/-- How a head goes on after its call, with block parameters or without. -/
theorem next_headSpot : ∀ chained : Bool,
    (headSpot chained).next (.token .closeCurly) =
        some (.inside (headName chained) (headRead chained false)) ∧
      (headSpot chained).Begins (.token .blockParams) .blockParams ∧
      (headSpot chained).next (.phrase .blockParams) =
        some ((headSpot chained).extend (.phrase .blockParams)) ∧
      ((headSpot chained).extend (.phrase .blockParams)).next (.token .closeCurly) =
        some (.inside (headName chained) (headRead chained true)) := by
  decide

/-- After a head there is room for statements. -/
theorem matches_head (site : HeadSite) (head : Phrase.Head) :
    Matches (site.close head) [] (climb (headName (isChained site))
      (headRead (isChained site) head.params.isSome) (headBase site)) := by
  cases site with
  | block content => exact .exact trivial
  | chained chain => exact .exact trivial

/-- What the recogniser takes in after a call between curly braces, the driver takes in. -/
theorem keepsUp_curlyEnd {site : Recogniser.Site} {opening : Lexeme} {complete : Phrase.Call}
    {kind : Kind} {next : Lexeme → Config}
    (h : shiftCurlyEnd? site opening complete kind = some next) :
    KeepsUp (grow (.phrase .call) (siteStack site)) kind next := by
  obtain ⟨hcurly, htriple, hmodifier, -⟩ := next_call
  unfold shiftCurlyEnd? at h
  split at h
  · -- mustaches, of three braces and of two
    cases h
    exact .of_next htriple fun lexeme => matches_mustache _ _
      [.token .openTriple, .phrase .call, .token .closeTriple] (by decide)
  · cases h
    exact .of_next hcurly fun lexeme => matches_mustache _ _
      [.token .openCurly, .phrase .call, .token .closeCurly] (by decide)
  · -- a head that ends, and one that goes on with block parameters
    rename_i site
    cases h
    exact .of_next (next_headSpot (isChained site)).1 fun lexeme =>
      matches_head site ⟨opening, complete, none, lexeme⟩
  · rename_i site
    cases h
    obtain ⟨-, hparams, hnext, -⟩ := next_headSpot (isChained site)
    refine .of_next hparams fun lexeme => ?_
    exact .of_climb .params [.token .blockParams] (by decide) hnext (.exact trivial)
  · rename_i tag
    cases h
    refine .of_next hmodifier fun lexeme => ?_
    have hlags : Lags (Category.phrase .tagPart).allows
        (climb .modifier [.token .openCurly, .phrase .call, .token .closeCurly] (tagStack tag))
        (tagStack (tag.add (.modifier opening complete lexeme))) :=
      .reduce_climb (by decide) (fun _ => rfl) (begins_tagPart tag (by decide))
        (lags_tagPart tag _ (by decide))
    exact .of_lags trivial rfl hlags
  · cases h

/-- What the recogniser takes in after a call, the driver takes in. -/
theorem keepsUp_called {complete : Phrase.Call} {kind : Kind} {next : Lexeme → Config}
    (hcall : CallProper call) (h : shiftCallEnd? call complete kind = some next) :
    KeepsUp (grow (.phrase .call) (callStack call)) kind next := by
  obtain ⟨site, opening, _ | ⟨⟨progress, paren⟩, pending⟩⟩ := call
  · exact keepsUp_curlyEnd h
  · unfold shiftCallEnd? at h
    dsimp only at h
    split at h
    · obtain ⟨add, hadd, rfl⟩ := Option.map_eq_some_iff.1 h
      refine .of_next next_call.2.2.2 fun lexeme => ?_
      have hrest : CallProper ⟨site, opening, pending⟩ := (List.forall_mem_cons.1 hcall).2
      exact matches_expression hrest hadd _ .nested
        [.token .openParen, .phrase .call, .token .closeParen] (by decide) rfl (by decide)
    · cases h

end Calls

/-! ## Blocks -/

section Blocks

/-- How a section goes on after its program, and a block after its inverse. -/
theorem next_program : ∀ chained params : Bool,
    (Place.inside (headName chained) (headRead chained params ++ [.phrase .program])).Begins
        (.token .openElse) .inverse ∧
      (Place.inside (headName chained) (headRead chained params ++ [.phrase .program])).next
          (.phrase .inverse) =
        some (.inside (headName chained)
          (headRead chained params ++ [.phrase .program] ++ [.phrase .inverse])) ∧
      (Place.inside .block (headRead false params ++ [.phrase .program])).next
          (.token .openEndBlock) = some (.inside .block (endRead params false)) ∧
      (Place.inside .block (headRead false params ++ [.phrase .program] ++ [.phrase .inverse])).next
          (.token .openEndBlock) = some (.inside .block (endRead params true)) := by
  decide

/-- How the closing of a block goes on. -/
theorem next_endRead : ∀ params inverse : Bool,
    (Place.inside .block (endRead params inverse)).Begins (.token .path) (.atom .path) ∧
      (Place.inside .block (endRead params inverse)).next (.phrase (.atom .path)) =
        some (.inside .block (endRead params inverse ++ [.phrase (.atom .path)])) ∧
      (Place.inside .block (endRead params inverse ++ [.phrase (.atom .path)])).next
          (.token .closeCurly) =
        some (.inside .block
          (endRead params inverse ++ [.phrase (.atom .path)] ++ [.token .closeCurly])) ∧
      (Place.inside .block
        (endRead params inverse ++ [.phrase (.atom .path)] ++ [.token .closeCurly])).Final := by
  decide

theorem climb_endRead (params inverse : Bool) (base : List Place) :
    climb .block (endRead params inverse) base =
      .inside .block (endRead params inverse) ::
        if inverse then
          grow (.phrase .inverse) (climb .block (headRead false params ++ [.phrase .program]) base)
        else climb .block (headRead false params ++ [.phrase .program]) base := by
  cases params <;> cases inverse <;> rfl

/-- What the recogniser takes in after the sections of a block, the driver takes in. -/
theorem keepsUp_end {chain : Chain} {inverse : Phrase.Inverse} {kind : Kind}
    {next : Lexeme → Config} (h : shiftEnd? chain inverse kind = some next) :
    KeepsUp (if hasInverse inverse then grow (.phrase .inverse) (chainStack chain)
      else chainStack chain) kind next := by
  obtain ⟨outer, latest, before⟩ := chain
  unfold shiftEnd? at h
  split at h
  · -- only the first section is a block; those of an else are reduced before the closing
    rename_i hbefore
    cases h
    obtain rfl : before = [] := hbefore
    obtain ⟨-, -, habsent, hpresent⟩ := next_program false latest.head.params.isSome
    have hmatches (opening : Lexeme) :
        Matches (.endOpened ⟨outer, latest.head, latest.program, inverse, opening⟩) []
          (climb .block (endRead latest.head.params.isSome (hasInverse inverse))
            (contentStack outer)) :=
      .exact trivial
    rw [climb_endRead] at hmatches
    cases hinverse : hasInverse inverse with
    | false =>
        rw [hinverse] at hmatches
        refine .of_next ?_ hmatches
        rw [if_neg Bool.false_ne_true, top_chainStack]
        exact habsent
    | true =>
        rw [hinverse] at hmatches
        refine .of_next ?_ hmatches
        rw [if_pos rfl, grow, top_chainStack]
        exact hpresent
  · cases h

/-- What the recogniser takes in at a position, the driver takes in. -/
theorem keepsUp_position {position : Position} {kind : Kind} {next : Lexeme → Config}
    (hproper : Proper position) (h : position.shift? kind = some next) :
    KeepsUp (positionStack position) kind next := by
  cases position with
  | content content => exact keepsUp_content content h
  | tag tag => exact keepsUp_tag tag h
  | «attribute» tag name =>
      obtain ⟨rfl, ⟨⟩⟩ := Option.ite_none_right_eq_some.1 h
      have hnext : (Place.inside .attribute nameRead).next (.token .equals) =
          some valueSpot := by
        decide
      exact .of_next hnext fun lexeme => .exact trivial
  | assigned assignment => exact keepsUp_value assignment h
  | quoted quote => exact keepsUp_quoted quote h
  | call call progress => exact keepsUp_call hproper h
  | called call complete => exact keepsUp_called hproper h
  | params site opening complete names =>
      obtain ⟨rfl, ⟨⟩⟩ := Option.ite_none_right_eq_some.1 h
      obtain ⟨-, -, -, hclose⟩ := next_headSpot (isChained site)
      exact .of_next hclose fun lexeme => matches_head site ⟨opening, complete, some names, lexeme⟩
  | sectionEnd chain =>
      by_cases hkind : kind = .openElse
      · subst hkind
        cases h
        have hnext := (next_program (!chain.before.isEmpty) chain.latest.head.params.isSome).1
        rw [← top_chainStack] at hnext
        exact .of_next hnext fun lexeme => .exact trivial
      · rw [Position.shift?, if_neg hkind] at h
        exact keepsUp_end h
  | elseOpened chain opening =>
      by_cases hkind : kind = .closeCurly
      · subst hkind
        cases h
        have hnext : (Place.inside .inverse [.token .openElse]).next (.token .closeCurly) =
            some .plainElse := by
          decide
        exact .of_next hnext fun lexeme => .exact trivial
      · rw [Position.shift?, if_neg hkind] at h
        have hcall : CallProper ⟨.head (.chained chain), opening, []⟩ := List.forall_mem_nil _
        exact keepsUp_expression hcall h
  | inverse chain ending =>
      have hend := keepsUp_end h
      rw [if_pos (show hasInverse ending = true from hproper)] at hend
      exact hend
  | endOpened block =>
      obtain ⟨rfl, ⟨⟩⟩ := Option.ite_none_right_eq_some.1 h
      obtain ⟨hpath, hnext, -, -⟩ :=
        next_endRead block.head.params.isSome (hasInverse block.inverse)
      rw [← top_endStack] at hpath hnext
      refine .of_next hpath fun lexeme => ?_
      have hlags : Lags (Category.phrase .expression).allows
          (.inside (.atom .path) [.token .path] :: endStack block)
          (positionStack (.endPath block lexeme)) := by
        rw [positionStack, grow, top_endStack]
        exact .reduce (final_atom .path) (fun _ => rfl) rfl (Nat.le_add_left _ _) hnext .refl
      exact Matches.of_final (final_atom .path) (fun _ => rfl) hlags (.exact trivial)
  | endPath block path =>
      -- the closing completes the block, which is a statement
      obtain ⟨rfl, ⟨⟩⟩ := Option.ite_none_right_eq_some.1 h
      obtain ⟨-, -, hnext, hfinal⟩ :=
        next_endRead block.head.params.isSome (hasInverse block.inverse)
      have hstack : positionStack (.endPath block path) =
          climb .block _ (contentStack block.outer) :=
        grow_climb .block (endRead_ne_nil _ _) (.phrase (.atom .path)) _
      rw [← top_climb _ (List.concat_ne_nil _ _) (contentStack block.outer), ← hstack] at hnext
      refine .of_next hnext fun lexeme => ?_
      rw [hstack, ← climb_concat]
      exact matches_phrase block.outer _ .block _ (by decide) rfl hfinal

/-- Where a section or an inverse is complete, it is the inverse of the section before. -/
theorem reduction_program : ∀ params : Bool,
    (Place.inside .inverse (headRead true params ++ [.phrase .program])).reduction?
        (.token .openEndBlock) =
      some ⟨.phrase .inverse, headRead true params ++ [.phrase .program], []⟩ ∧
    (Place.inside .inverse
        (headRead true params ++ [.phrase .program] ++ [.phrase .inverse])).reduction?
          (.token .openEndBlock) =
      some ⟨.phrase .inverse, headRead true params ++ [.phrase .program] ++ [.phrase .inverse],
        []⟩ := by
  decide

theorem begins_inverse (chain : Chain) :
    (top (chainStack chain)).next (.phrase .inverse) =
      some ((top (chainStack chain)).extend (.phrase .inverse)) := by
  have hnext := (next_program (!chain.before.isEmpty) chain.latest.head.params.isSome).2.1
  rw [← top_chainStack] at hnext
  rw [hnext, top_chainStack]
  rfl

/-- Before what ends them the statements of a section and of a plain else are reduced. -/
theorem exists_matches_of_reduceContent {content : Content} {kind : Kind} {next : Position}
    (h : reduceContent? content kind = some next) :
    ∃ stack, Steps (.token kind) (contentStack content) stack ∧ Matches next [] stack := by
  obtain ⟨statements, levels⟩ := content
  unfold reduceContent? at h
  split at h
  · rename_i before head outer rest hlevels
    obtain rfl := hlevels
    obtain ⟨hkind, ⟨⟩⟩ := Option.ite_none_right_eq_some.1 h
    have hlook : Lookahead.token kind ∈ [.token .openEndBlock, .token .openElse] := by
      simpa using hkind
    have hreduces := reduces_body ⟨statements, ⟨.branch before head, outer⟩ :: rest⟩ nofun rfl hlook
    exact ⟨_, .single hreduces, .exact trivial⟩
  · rename_i latest before opening closing outer rest hlevels
    obtain rfl := hlevels
    obtain ⟨hkind, ⟨⟩⟩ := Option.ite_none_right_eq_some.1 h
    have hlook : Lookahead.token kind ∈ Ground.otherwise.ends (!statements.isEmpty) := by
      rcases hkind with rfl | ⟨rfl, hne⟩
      · exact List.mem_cons_self
      · obtain ⟨statement, others, rfl⟩ := List.exists_cons_of_ne_nil hne
        exact List.mem_cons_of_mem _ List.mem_cons_self
    have hreduces := reduces_body
      ⟨statements, ⟨.otherwise latest before opening closing, outer⟩ :: rest⟩ nofun rfl hlook
    have hfinal : (Place.inside .inverse
        [.token .openElse, .token .closeCurly, .phrase .program]).Final := by
      decide
    refine ⟨_, .single hreduces, .of_lags rfl (rfl : _ = (Category.phrase .inverse).looks) ?_⟩
    exact .reduce_climb hfinal (fun _ => rfl)
      (begins_inverse ⟨⟨outer, rest⟩, latest, before⟩) .refl
  · cases h

/-- The phrases that the recogniser completes before a token, the driver reduces. -/
theorem exists_matches_of_reduce {position next : Position} {kind : Kind}
    (hproper : Proper position) (h : position.reduce? kind = some next) :
    ∃ stack, Steps (.token kind) (positionStack position) stack ∧ Matches next [] stack := by
  cases position with
  | content content => exact exists_matches_of_reduceContent h
  | «attribute» tag name =>
      -- a name without a value is an attribute, and that a part of the tag
      obtain ⟨hkind, ⟨⟩⟩ := Option.ite_none_right_eq_some.1 h
      have hlook : (Category.phrase .tagPart).allows (.token kind) = true ∧
          (Place.inside .attribute nameRead).reduction? (.token kind) =
            some ⟨.phrase .attribute, [.token .attributeName], []⟩ := by
        revert hkind
        cases kind <;> decide
      have hreduces : Reduces (.token kind)
          (climb .attribute nameRead (tagStack tag)) _ :=
        reduces_climb (List.cons_ne_nil _ _) hlook.2 (begins_tagPart tag (by decide))
      exact ⟨_, .head hreduces ((lags_tagPart tag (.flag name) (by decide)).steps hlook.1),
        .exact trivial⟩
  | call call progress =>
      obtain ⟨hkind, hcomplete⟩ := Option.ite_none_right_eq_some.1 h
      obtain ⟨complete, hcomplete, rfl⟩ := Option.map_eq_some_iff.1 hcomplete
      have hmem : kind ∈ callEnds := by simpa using hkind
      have hnext := (begins_callSpot _ (top_callStack_mem call)).2
      cases progress with
      | start | key => cases hcomplete
      | arguments callee args =>
          exact ⟨_, .single (reduces_climb (callRead_ne_nil _ _)
            ((next_hashKey _ _).2 kind hmem) hnext), .exact hproper⟩
      | pairs callee args pairs =>
          exact ⟨_, .single (reduces_climb (callRead_ne_nil _ _)
            ((next_hashKey _ _).2 kind hmem) hnext), .exact hproper.1⟩
  | sectionEnd chain =>
      obtain ⟨outer, latest, before⟩ := chain
      rw [Position.reduce?] at h
      unfold reduceChain? at h
      split at h
      · rename_i previous rest hbefore
        obtain rfl := hbefore
        cases h
        have hitem := (reduction_program latest.head.params.isSome).1
        exact ⟨_, .single (reduces_climb (List.concat_ne_nil _ _) hitem
          (begins_inverse ⟨outer, previous, rest⟩)), .exact rfl⟩
      · cases h
  | inverse chain ending =>
      obtain ⟨outer, latest, before⟩ := chain
      rw [Position.reduce?] at h
      unfold reduceChain? at h
      split at h
      · rename_i previous rest hbefore
        obtain rfl := hbefore
        cases h
        have hitem := (reduction_program latest.head.params.isSome).2
        have hstack : positionStack (.inverse ⟨outer, latest, previous :: rest⟩ ending) =
            climb .inverse _ (chainStack ⟨outer, previous, rest⟩) :=
          grow_climb .inverse (List.concat_ne_nil _ _) (.phrase .inverse) _
        rw [hstack]
        exact ⟨_, .single (reduces_climb (List.concat_ne_nil _ _) hitem
          (begins_inverse ⟨outer, previous, rest⟩)), .exact rfl⟩
      · cases h
  | _ => cases h

end Blocks

/-! ## Steps of both -/

section Steps

variable {config : Config} {stack : List Place}

/-- While a phrase is checked there is an action on what can follow it. -/
theorem acts_check (position : Position) (follow : Follow) (checks : List Follow)
    (look : Lookahead) :
    Config.acts ⟨position, follow :: checks⟩ look = follow.allows look := by
  have hreduce : (Config.reduce? ⟨position, follow :: checks⟩ look).isSome =
      follow.allows look := by
    rw [Config.reduce?.eq_def]
    dsimp only
    cases follow.allows look <;> rfl
  rw [Config.acts.eq_def, hreduce]
  cases look <;> exact Bool.or_false _

/-- There is an action of the driver on what there is an action of the recogniser on. -/
theorem Matches.acts (h : Matches config.position config.checks stack) (look : Lookahead) :
    (top stack).acts look = config.acts look := by
  obtain ⟨position, checks⟩ := config
  cases h with
  | settled hproper hlags =>
      cases hlags with
      | refl => exact (actsOn_top hproper look look.mem_all).trans (acts_settled hproper look).symm
      | step hacts => exact hacts look
  | check hacts => exact (hacts look).trans (acts_check position _ _ look).symm

theorem Matches.expected_eq (h : Matches config.position config.checks stack) :
    expected stack = config.expected :=
  List.filter_congr fun look _ => h.acts look

/-- A phrase that the recogniser completes, the driver reduces. -/
theorem Matches.reduce (h : Matches config.position config.checks stack) {look : Lookahead}
    {next : Config} (hreduce : config.reduce? look = some next) :
    ∃ reduced, Steps look stack reduced ∧ Matches next.position next.checks reduced := by
  have hacts : config.acts look = true := by
    rw [Config.acts.eq_def, hreduce]
    rfl
  obtain ⟨position, checks⟩ := config
  cases h with
  | settled hproper hlags =>
      cases look with
      | finish => cases hreduce
      | token kind =>
          obtain ⟨position, hposition, rfl⟩ := Option.map_eq_some_iff.1 hreduce
          obtain ⟨reduced, hsteps, hmatches⟩ := exists_matches_of_reduce hproper hposition
          exact ⟨reduced, (hlags.steps hacts).trans hsteps, hmatches⟩
  | check _ hlags hmatches =>
      obtain ⟨hallows, ⟨⟩⟩ := Option.ite_none_right_eq_some.1 hreduce
      exact ⟨_, hlags.steps hallows, hmatches⟩

theorem Matches.settle (h : Matches config.position config.checks stack) (look : Lookahead) :
    ∃ settled, Steps look stack settled ∧
      Matches (config.settle look).position (config.settle look).checks settled := by
  -- on the completions of the recogniser
  fun_induction Config.settle config look generalizing stack with
  | case1 config next hreduce ih =>
      obtain ⟨reduced, hsteps, hmatches⟩ := h.reduce hreduce
      obtain ⟨settled, hmore, hsettled⟩ := ih hmatches
      exact ⟨settled, hsteps.trans hmore, hsettled⟩
  | case2 config hreduce => exact ⟨stack, .refl, h⟩

/-- A token that the recogniser takes in, the driver shifts. -/
theorem Matches.shift (h : Matches config.position config.checks stack) {kind : Kind}
    {next : Lexeme → Config} (hshift : config.shift? kind = some next) :
    KeepsUp stack kind next := by
  have hacts : config.acts (.token kind) = true := by
    rw [Config.acts, hshift]
    exact Bool.or_true _
  obtain ⟨position, checks⟩ := config
  cases h with
  | settled hproper hlags =>
      -- first the reductions that are left from before
      obtain ⟨settled, shifted, hsteps, hpush, hmatches⟩ := keepsUp_position hproper hshift
      exact ⟨settled, shifted, (hlags.steps hacts).trans hsteps, hpush, hmatches⟩
  | check => cases hshift

/-- Where there is no action of the recogniser the driver has nothing to reduce. -/
theorem Matches.reduce_eq_none (h : Matches config.position config.checks stack)
    {look : Lookahead} (hacts : config.acts look = false) : reduce? stack look = none := by
  have hnone : ((top stack).reduction? look).isSome = false := by
    rw [← h.acts, Place.acts.eq_def, Bool.or_eq_false_iff] at hacts
    exact hacts.1
  rw [reduce?, Option.not_isSome_iff_eq_none.1 (Bool.eq_false_iff.1 hnone), Option.map_none]

/-- Where the recogniser refuses a token the driver has nothing to do either, and it expects what
the recogniser expects. -/
theorem Matches.of_refusal (h : Matches config.position config.checks stack) {token : Token}
    {other : List Lookahead} (hread : config.read token = .error other) :
    ∃ settled, Steps (.token token.kind) stack settled ∧
      reduce? settled (.token token.kind) = none ∧
      push? settled (.token token.kind) = none ∧ expected settled = other := by
  obtain ⟨settled, hsteps, hmatches⟩ := h.settle (.token token.kind)
  unfold Config.read at hread
  dsimp only at hread
  split at hread
  · cases hread
  · rename_i hshift
    cases hread
    have hacts : (config.settle (.token token.kind)).acts (.token token.kind) = false := by
      rw [Config.acts.eq_def, Config.reduce_settle]
      dsimp only
      rw [hshift]
      rfl
    have hnext : ((top settled).next (.token token.kind)).isSome = false := by
      rw [← hmatches.acts, Place.acts.eq_def, Bool.or_eq_false_iff] at hacts
      exact hacts.2
    refine ⟨settled, hsteps, hmatches.reduce_eq_none hacts, ?_, hmatches.expected_eq⟩
    rw [push?, Option.not_isSome_iff_eq_none.1 (Bool.eq_false_iff.1 hnext), Option.map_none]

/-- Where the text must not end the driver has not completed it, and it expects what the
recogniser expects. -/
theorem Matches.of_unfinished (h : Matches config.position config.checks stack)
    {other : List Lookahead} (hfinish : config.finish = .error other) :
    ∃ settled, Steps .finish stack settled ∧ reduce? settled .finish = none ∧
      top settled ≠ .complete ∧ expected settled = other := by
  obtain ⟨settled, hsteps, hmatches⟩ := h.settle .finish
  unfold Config.finish at hfinish
  dsimp only at hfinish
  split at hfinish
  · cases hfinish
  · rename_i haccept
    cases hfinish
    have hacts : (config.settle .finish).acts .finish = false := by
      rw [Config.acts.eq_def, Config.reduce_settle, haccept]
      rfl
    refine ⟨settled, hsteps, hmatches.reduce_eq_none hacts, ?_, hmatches.expected_eq⟩
    intro htop
    rw [← hmatches.acts, Place.acts.eq_def, Bool.or_eq_false_iff, htop] at hacts
    cases hacts.2

/-- Where the text may end, the driver completes it. -/
theorem Matches.of_finished (h : Matches config.position config.checks stack)
    {statements : List Phrase.Statement} (hfinish : config.finish = .ok statements) :
    ∃ final, Steps .finish stack final ∧ top final = .complete := by
  obtain ⟨settled, hsteps, hmatches⟩ := h.settle .finish
  unfold Config.finish at hfinish
  dsimp only at hfinish
  split at hfinish
  · rename_i haccept
    have hacts : (config.settle .finish).acts .finish = true := by
      rw [Config.acts.eq_def, haccept]
      exact Bool.or_true _
    generalize config.settle .finish = final at hmatches haccept hacts
    obtain ⟨position, checks⟩ := final
    cases hmatches with
    | check => cases haccept
    | settled _ hlags =>
        -- the end is accepted between statements outside of all levels only
        rcases position with ⟨⟨read, _ | _⟩⟩ | _ <;> try cases haccept
        exact ⟨_, (hsteps.trans (hlags.steps hacts)).tail (reduces_whole read), rfl⟩
  · cases hfinish

end Steps

end TemplateUsage.ShiftReduce
