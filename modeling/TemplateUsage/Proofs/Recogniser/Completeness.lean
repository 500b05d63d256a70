import TemplateUsage.Proofs.Recogniser.Retention

set_option autoImplicit false

/-!
# The recogniser reads every phrase

After a phrase the recogniser may still have checks and completions to make, which
wait for the next token. `Config.At` says that a configuration goes on as if it
stood at a position: it does the same on every token that can come next there.
`Reads` says that tokens lead from one position to another in this sense. Each
phrase leads from the position before it to the position that holds it, by
induction on the phrase. Main statement: `recognises_iff`, the tokens that are
recognised as some statements are exactly the tokens of these statements.
-/

namespace TemplateUsage.Recogniser

open Phrase

/-! ## What can come next at a position -/

/-- Kinds of token that can come next in a call. -/
def Progress.follow : Progress → List Kind
  | .start | .key _ _ _ _ => expressionStarts
  | .arguments _ _ | .pairs _ _ _ => expressionStarts ++ .hashKey :: callEnds

/-- Kinds of token that can come next at a position. -/
def Position.follow : Position → List Kind
  | .content _ => statementStarts ++ contentEnds
  | .tag _ => tagPartStarts ++ tagEnds
  | .attribute _ _ => .equals :: tagPartStarts ++ tagEnds
  | .assigned _ => [.attributeText, .openCurly, .openTriple, .quoteOpen]
  | .quoted _ => [.attributeText, .openCurly, .openTriple, .quoteClose]
  | .call _ progress => progress.follow
  | .called _ _ => callEnds
  | .params _ _ _ _ => [.closeCurly]
  | .sectionEnd _ => [.openElse, .openEndBlock]
  | .elseOpened _ _ => .closeCurly :: expressionStarts
  | .inverse _ _ => [.openEndBlock]
  | .endOpened _ => [.path]
  | .endPath _ _ => [.closeCurly]

/-- Whether the template can end at a position. -/
def Position.Ends : Position → Prop
  | .content _ => True
  | _ => False

/-- The check lets pass whatever can come next at the position. -/
structure Follow.Covers (follow : Follow) (position : Position) : Prop where
  allows : ∀ kind ∈ position.follow, follow.allows (.token kind) = true
  allows_finish : position.Ends → follow.allows .finish = true

/-- No check of the configuration stops what can come next at its position. -/
def Config.Fits (config : Config) : Prop :=
  ∀ check ∈ config.checks, check.Covers config.position

theorem Position.fits_settled (position : Position) : position.settled.Fits := nofun

/-- A configuration with one check fits if the check lets pass what can come next at its
position. -/
theorem Position.fits_after {position : Position} {follow : Follow}
    (h : follow.Covers position) : (position.after follow).Fits := by
  intro check hcheck
  rw [List.mem_singleton.1 hcheck]
  exact h

/-- Where the template cannot end, a check only has to let the next tokens pass. -/
theorem Follow.covers_of_follow {follow : Follow} {position : Position} (kinds : List Kind)
    (hfollow : position.follow = kinds) (hends : ¬ position.Ends)
    (h : ∀ kind ∈ kinds, follow.allows (.token kind) = true) : follow.Covers position := by
  refine ⟨?_, fun hposition => absurd hposition hends⟩
  rw [hfollow]
  exact h

theorem Follow.covers_content {follow : Follow} (content : Content)
    (h : ∀ kind ∈ statementStarts ++ contentEnds, follow.allows (.token kind) = true)
    (hfinish : follow.allows .finish = true) : follow.Covers (.content content) :=
  ⟨h, fun _ => hfinish⟩

theorem Follow.statement_covers (content : Content) :
    Follow.statement.Covers (.content content) :=
  Follow.covers_content content (by decide) rfl

theorem Position.fits_afterStatement {content : Content} {follow : Follow}
    (h : follow.Covers (.content content)) :
    ((Position.content content).afterStatement follow).Fits := by
  intro check hcheck
  rcases List.mem_cons.1 hcheck with rfl | hcheck
  · exact h
  · rw [List.mem_singleton.1 hcheck]
    exact Follow.statement_covers content

theorem Follow.curlyComment_covers_tag (tag : OpenTag) : Follow.curlyComment.Covers (.tag tag) :=
  Follow.covers_of_follow (tagPartStarts ++ tagEnds) rfl id (by decide)

theorem Follow.params_covers_tag (tag : OpenTag) : Follow.params.Covers (.tag tag) :=
  Follow.covers_of_follow (tagPartStarts ++ tagEnds) rfl id (by decide)

theorem Follow.expression_covers_call (call : OpenCall) (progress : Progress) :
    Follow.expression.Covers (.call call progress) := by
  cases progress with
  | start | key => exact Follow.covers_of_follow expressionStarts rfl id (by decide)
  | arguments | pairs =>
      exact Follow.covers_of_follow (expressionStarts ++ .hashKey :: callEnds) rfl id (by decide)

/-- After a mustache, wherever it stands, the configuration fits. -/
theorem MustacheSite.fits_close (site : MustacheSite) (mustache : Mustache) :
    (site.close mustache).Fits := by
  cases site with
  | statement content =>
      apply Position.fits_afterStatement
      exact Follow.covers_content _ (by decide) rfl
  | value assignment =>
      apply Position.fits_after
      exact Follow.covers_of_follow (tagPartStarts ++ tagEnds) rfl id (by decide)
  | quoted quote =>
      apply Position.fits_after
      exact Follow.covers_of_follow [.attributeText, .openCurly, .openTriple, .quoteClose] rfl id
        (by decide)

/-! ## Standing at a position -/

theorem Config.settle_of_reduce {config next : Config} {look : Lookahead}
    (h : config.reduce? look = some next) : config.settle look = next.settle look := by
  rw [Config.settle]
  split
  · rename_i found hfound
    rw [h] at hfound
    cases hfound
    rfl
  · rename_i hnone
    rw [h] at hnone
    cases hnone

theorem Config.settle_of_reduce_none {config : Config} {look : Lookahead}
    (h : config.reduce? look = none) : config.settle look = config := by
  rw [Config.settle]
  split
  · rename_i found hfound
    rw [h] at hfound
    cases hfound
  · rfl

/-- Once a configuration is settled it completes nothing more. -/
theorem Config.reduce_settle (config : Config) (look : Lookahead) :
    (config.settle look).reduce? look = none := by
  fun_induction Config.settle config look with
  | case1 config next hreduce ih => exact ih
  | case2 config hreduce => exact hreduce

/-- Configurations that settle alike before a token read it alike. -/
theorem Config.read_congr {config other : Config} {token : Token}
    (h : config.settle (.token token.kind) = other.settle (.token token.kind)) :
    config.read token = other.read token := by
  unfold Config.read
  rw [h]

/-- Before a token that completes a phrase, the position with the phrase complete does the same. -/
theorem Position.read_of_reduce {position next : Position} {token : Token}
    (h : position.reduce? token.kind = some next) :
    position.settled.read token = next.settled.read token := by
  have hreduce : position.settled.reduce? (.token token.kind) = some next.settled := by
    show (position.reduce? token.kind).map Position.settled = _
    rw [h]
    rfl
  exact Config.read_congr (Config.settle_of_reduce hreduce)

theorem Position.read_of_shift {position : Position} {token : Token} {next : Lexeme → Config}
    (hreduce : position.reduce? token.kind = none)
    (hshift : position.shift? token.kind = some next) :
    position.settled.read token = .ok (next token.lexeme) := by
  have hsettle : position.settled.settle (.token token.kind) = position.settled := by
    apply Config.settle_of_reduce_none
    show (position.reduce? token.kind).map Position.settled = _
    rw [hreduce]
    rfl
  have hconfig : position.settled.shift? token.kind = some next := hshift
  unfold Config.read
  dsimp only
  rw [hsettle, hconfig]

/-- The configuration goes on as if it stood at the position. -/
structure Config.At (config : Config) (position : Position) : Prop where
  read_eq : ∀ token : Token, token.kind ∈ position.follow →
    config.read token = position.settled.read token
  finish_eq : position.Ends → config.finish = position.settled.finish

theorem Config.settle_of_allows {position : Position} {checks : List Follow} {look : Lookahead}
    (h : ∀ check ∈ checks, check.allows look = true) :
    (Config.mk position checks).settle look = position.settled.settle look := by
  induction checks with
  | nil => rfl
  | cons check checks ih =>
      have hreduce : (Config.mk position (check :: checks)).reduce? look =
          some ⟨position, checks⟩ := by
        show (if check.allows look then _ else none) = _
        rw [if_pos (h check List.mem_cons_self)]
      rw [Config.settle_of_reduce hreduce]
      exact ih fun other hother => h other (List.mem_cons_of_mem check hother)

/-- A configuration whose checks fit stands at its position. -/
theorem Config.Fits.at {config : Config} (h : config.Fits) : config.At config.position := by
  obtain ⟨position, checks⟩ := config
  constructor
  · intro token hmem
    apply Config.read_congr
    exact Config.settle_of_allows fun check hcheck => (h check hcheck).allows token.kind hmem
  · intro hends
    have hsettle : (Config.mk position checks).settle .finish = position.settled.settle .finish :=
      Config.settle_of_allows fun check hcheck => (h check hcheck).allows_finish hends
    unfold Config.finish
    rw [hsettle]

/-! ## Reading -/

/-- The tokens lead from one position to the other. -/
def Reads (position : Position) (tokens : List Token) (next : Position) : Prop :=
  ∀ config : Config, config.At position → ∃ final, config.readAll tokens = .ok final ∧
    final.At next

theorem Config.readAll_append {config middle : Config} {front : List Token}
    (h : config.readAll front = .ok middle) (back : List Token) :
    config.readAll (front ++ back) = middle.readAll back := by
  induction front generalizing config with
  | nil =>
      cases h
      rfl
  | cons token rest ih =>
      rw [List.cons_append, Config.readAll]
      rw [Config.readAll] at h
      split at h
      · exact ih h
      · cases h

/-- Reading goes on from where it ends. -/
theorem Reads.append {first second third : Position} {front back : List Token}
    (hfront : Reads first front second) (hback : Reads second back third) :
    Reads first (front ++ back) third := by
  intro config hconfig
  obtain ⟨middle, hmiddle, hat⟩ := hfront config hconfig
  obtain ⟨final, hfinal, hend⟩ := hback middle hat
  exact ⟨final, (Config.readAll_append hmiddle back).trans hfinal, hend⟩

theorem Reads.cons {first second third : Position} {token : Token} {rest : List Token}
    (htoken : Reads first [token] second) (hrest : Reads second rest third) :
    Reads first (token :: rest) third :=
  htoken.append hrest

/-- Tokens followed by a completion. -/
theorem Reads.complete {first second third : Position} {tokens : List Token}
    (hread : Reads first tokens second) (hcomplete : Reads second [] third) :
    Reads first tokens third := by
  rw [← List.append_nil tokens]
  exact hread.append hcomplete

theorem Reads.refl (position : Position) : Reads position [] position :=
  fun config hconfig => ⟨config, rfl, hconfig⟩

/-- A token that is taken in leads to the position of the configuration after it. -/
theorem Reads.shift {position next : Position} {kind : Kind} {lexeme : Lexeme}
    {shifted : Lexeme → Config} (hshift : position.shift? kind = some shifted)
    (hnext : (shifted lexeme).position = next) (hfits : (shifted lexeme).Fits)
    (hmem : kind ∈ position.follow) (hreduce : position.reduce? kind = none) :
    Reads position [⟨kind, lexeme⟩] next := by
  intro config hconfig
  refine ⟨shifted lexeme, ?_, hnext ▸ hfits.at⟩
  have hread : config.read ⟨kind, lexeme⟩ = .ok (shifted lexeme) :=
    (hconfig.read_eq ⟨kind, lexeme⟩ hmem).trans (Position.read_of_shift hreduce hshift)
  rw [Config.readAll, hread]
  rfl

/-- Without a token, a position leads to any that does the same on what can come next there. -/
theorem Reads.agree {position next : Position} (hends : ¬ next.Ends)
    (h : ∀ token : Token, token.kind ∈ next.follow → token.kind ∈ position.follow ∧
      position.settled.read token = next.settled.read token) : Reads position [] next := by
  intro config hconfig
  refine ⟨config, rfl, ?_, fun hnext => absurd hnext hends⟩
  intro token hmem
  obtain ⟨hposition, hread⟩ := h token hmem
  exact (hconfig.read_eq token hposition).trans hread

/-- Without a token, a position leads to the one with its innermost phrase complete. -/
theorem Reads.reduce {position next : Position} (hends : ¬ next.Ends)
    (h : ∀ kind ∈ next.follow, kind ∈ position.follow ∧ position.reduce? kind = some next) :
    Reads position [] next := by
  apply Reads.agree hends
  intro token hmem
  obtain ⟨hposition, hreduce⟩ := h token.kind hmem
  exact ⟨hposition, Position.read_of_reduce hreduce⟩

/-! ## Calls -/

/-- What has been read of a call after its positional arguments and the given pairs. -/
def Progress.ofPairs (callee : Expression) (args : List Expression) : List Pair → Progress
  | [] => .arguments callee args
  | pair :: named => .pairs callee args (pair :: named)

section Call

variable (opened : OpenCall) {progress : Progress} {add : Expression → Progress}

theorem Progress.mem_follow_of_add (hadd : progress.add? = some add) {kind : Kind}
    (hkind : kind ∈ expressionStarts) : kind ∈ progress.follow := by
  cases progress with
  | start => exact hkind
  | arguments callee args => exact List.mem_append_left _ hkind
  | key callee args named name => exact hkind
  | pairs callee args named => cases hadd

/-- The start of an expression does not end a call. -/
theorem Position.reduce?_call_eq_none {kind : Kind} (hkind : kind ∈ expressionStarts) :
    (Position.call opened progress).reduce? kind = none := by
  have hend : ∀ kind ∈ expressionStarts, ¬ callEnds.contains kind = true := by decide
  exact if_neg (hend kind hkind)

theorem reads_atom (hadd : progress.add? = some add) (sort : Atom) (lexeme : Lexeme) :
    Reads (.call opened progress) [⟨sort.kind, lexeme⟩]
      (.call opened (add (.atom sort lexeme))) := by
  have hstart : sort.kind ∈ expressionStarts := by
    cases sort <;> decide
  have hshift : (Position.call opened progress).shift? sort.kind =
      some fun lexeme => (Position.call opened (add (.atom sort lexeme))).after .expression := by
    cases sort <;> simp [Position.shift?, shiftCall?, shiftExpression?, hadd, Atom.kind,
      Atom.ofKind?]
  exact Reads.shift hshift rfl (Position.fits_after (Follow.expression_covers_call _ _))
    (Progress.mem_follow_of_add hadd hstart) (Position.reduce?_call_eq_none opened hstart)

theorem reads_openParen (hadd : progress.add? = some add) (opening : Lexeme) :
    Reads (.call opened progress) [⟨.openParen, opening⟩]
      (.call { opened with pending := ⟨progress, opening⟩ :: opened.pending } .start) := by
  have hstart : Kind.openParen ∈ expressionStarts := by decide
  have hshift : (Position.call opened progress).shift? .openParen = some fun lexeme =>
      (Position.call { opened with pending := ⟨progress, lexeme⟩ :: opened.pending }
        .start).settled := by
    simp [Position.shift?, shiftCall?, shiftExpression?, hadd]
  exact Reads.shift hshift rfl (Position.fits_settled _)
    (Progress.mem_follow_of_add hadd hstart) (Position.reduce?_call_eq_none opened hstart)

theorem reads_closeParen (hadd : progress.add? = some add) (opening closing : Lexeme)
    (complete : Call) :
    Reads (.called { opened with pending := ⟨progress, opening⟩ :: opened.pending } complete)
      [⟨.closeParen, closing⟩] (.call opened (add (.nested opening complete closing))) := by
  have hshift :
      (Position.called { opened with pending := ⟨progress, opening⟩ :: opened.pending }
        complete).shift? .closeParen = some fun closing =>
          (Position.call opened (add (.nested opening complete closing))).after .expression := by
    simp [Position.shift?, shiftCallEnd?, hadd]
  exact Reads.shift hshift rfl (Position.fits_after (Follow.expression_covers_call _ _))
    (by decide : Kind.closeParen ∈ callEnds) rfl

theorem reads_hashKey (callee : Expression) (args : List Expression) (named : List Pair)
    (key : Lexeme) :
    Reads (.call opened (.ofPairs callee args named)) [⟨.hashKey, key⟩]
      (.call opened (.key callee args named key)) := by
  have hshift : (Position.call opened (.ofPairs callee args named)).shift? .hashKey =
      some fun key => (Position.call opened (.key callee args named key)).settled := by
    cases named <;> rfl
  have hmem : Kind.hashKey ∈ (Position.call opened (.ofPairs callee args named)).follow := by
    have hkinds : Kind.hashKey ∈ expressionStarts ++ .hashKey :: callEnds := by decide
    cases named <;> exact hkinds
  exact Reads.shift hshift rfl (Position.fits_settled _) hmem rfl

/-- A call that is complete can end before what ends a call. -/
theorem reads_complete {complete : Call} (hcomplete : progress.complete? = some complete) :
    Reads (.call opened progress) [] (.called opened complete) := by
  apply Reads.reduce id
  intro kind hkind
  have hends : callEnds.contains kind = true := List.contains_iff_mem.2 hkind
  refine ⟨?_, (if_pos hends).trans (congrArg (Option.map _) hcomplete)⟩
  have hfollow : kind ∈ expressionStarts ++ .hashKey :: callEnds :=
    List.mem_append_right _ (List.mem_cons_of_mem _ hkind)
  cases progress with
  | arguments callee args => exact hfollow
  | pairs callee args named => exact hfollow
  | start | key => cases hcomplete

/-- A call can end after any of its pairs, and after its arguments if it has none. -/
theorem reads_callEnd (callee : Expression) (args : List Expression) (named : List Pair) :
    Reads (.call opened (.ofPairs callee args named)) []
      (.called opened (.mk callee args.reverse named.reverse)) := by
  apply reads_complete
  cases named <;> rfl

end Call

mutual

/-- The tokens of an expression are read, from a position that has room for it; so are those of
calls and pairs. -/
theorem reads_expression (opened : OpenCall) {progress : Progress} {add : Expression → Progress}
    (hadd : progress.add? = some add) (expression : Expression) :
    Reads (.call opened progress) expression.tokens (.call opened (add expression)) := by
  cases expression with
  | atom sort lexeme =>
      rw [Expression.tokens]
      exact reads_atom opened hadd sort lexeme
  | nested opening complete closing =>
      rw [Expression.tokens]
      refine Reads.append (Reads.cons (reads_openParen opened hadd opening) ?_)
        (reads_closeParen opened hadd opening closing complete)
      exact reads_call complete _
termination_by structural expression

theorem reads_call (complete : Call) (opened : OpenCall) :
    Reads (.call opened .start) complete.tokens (.called opened complete) := by
  cases complete with
  | mk callee arguments pairs =>
      -- The arguments and the pairs are kept with the latest first until the call ends.
      have hadd : Progress.start.add? = some fun expression => .arguments expression [] := rfl
      have hcallee := reads_expression opened hadd callee
      have harguments := reads_arguments opened callee [] arguments
      have hpairs := reads_pairs opened callee arguments.reverse [] pairs
      have hend := reads_callEnd opened callee arguments.reverse pairs.reverse
      rw [List.append_nil] at harguments hpairs
      rw [List.reverse_reverse, List.reverse_reverse] at hend
      rw [Call.tokens]
      exact ((hcallee.append harguments).append hpairs).complete hend
termination_by structural complete

theorem reads_arguments (opened : OpenCall) (callee : Expression) (before : List Expression)
    (arguments : List Expression) :
    Reads (.call opened (.arguments callee before)) (argumentTokens arguments)
      (.call opened (.arguments callee (arguments.reverse ++ before))) := by
  cases arguments with
  | nil =>
      rw [argumentTokens]
      exact Reads.refl _
  | cons argument rest =>
      have hadd : (Progress.arguments callee before).add? =
          some fun expression => .arguments callee (expression :: before) := rfl
      rw [argumentTokens, List.reverse_cons, List.append_assoc]
      exact (reads_expression opened hadd argument).append
        (reads_arguments opened callee (argument :: before) rest)
termination_by structural arguments

theorem reads_pair (opened : OpenCall) (callee : Expression) (args : List Expression)
    (named : List Pair) (pair : Pair) :
    Reads (.call opened (.ofPairs callee args named)) pair.tokens
      (.call opened (.ofPairs callee args (pair :: named))) := by
  cases pair with
  | mk key value =>
      have hadd : (Progress.key callee args named key).add? =
          some fun expression => .pairs callee args (.mk key expression :: named) := rfl
      rw [Pair.tokens]
      exact (reads_hashKey opened callee args named key).cons
        (reads_expression opened hadd value)
termination_by structural pair

theorem reads_pairs (opened : OpenCall) (callee : Expression) (args : List Expression)
    (before : List Pair) (pairs : List Pair) :
    Reads (.call opened (.ofPairs callee args before)) (pairTokens pairs)
      (.call opened (.ofPairs callee args (pairs.reverse ++ before))) := by
  cases pairs with
  | nil =>
      rw [pairTokens]
      exact Reads.refl _
  | cons pair rest =>
      rw [pairTokens, List.reverse_cons, List.append_assoc]
      exact (reads_pair opened callee args before pair).append
        (reads_pairs opened callee args (pair :: before) rest)
termination_by structural pairs

end

/-! ## Curly braces -/

/-- The start of a statement completes nothing. -/
theorem Position.reduce?_content_eq_none (content : Content) {kind : Kind}
    (hkind : kind ∈ statementStarts) : (Position.content content).reduce? kind = none := by
  have hend : ∀ kind ∈ statementStarts,
      ¬ (kind = .openEndBlock ∨ kind = .openElse) ∧ kind ≠ .openEndBlock ∧ kind ≠ .openElse := by
    decide
  obtain ⟨hbranch, hblock, helse⟩ := hend kind hkind
  show reduceContent? content kind = none
  unfold reduceContent?
  split
  · exact if_neg hbranch
  · refine if_neg ?_
    rintro (h | ⟨h, -⟩)
    · exact hblock h
    · exact helse h
  · rfl

/-- A token that starts a statement leads on from any content. -/
theorem Reads.start {content : Content} {next : Position} {kind : Kind} {lexeme : Lexeme}
    {shifted : Lexeme → Config} (hshift : (Position.content content).shift? kind = some shifted)
    (hnext : (shifted lexeme).position = next) (hfits : (shifted lexeme).Fits)
    (hkind : kind ∈ statementStarts) : Reads (.content content) [⟨kind, lexeme⟩] next :=
  Reads.shift hshift hnext hfits (List.mem_append_left _ hkind)
    (Position.reduce?_content_eq_none content hkind)

/-- Where a mustache starts. -/
def MustacheSite.position : MustacheSite → Position
  | .statement content => .content content
  | .value assignment => .assigned assignment
  | .quoted quote => .quoted quote

theorem reads_mustacheOpening (site : MustacheSite) (trusting : Bool) (opening : Lexeme) :
    Reads site.position [⟨if trusting then .openTriple else .openCurly, opening⟩]
      (.call ⟨.mustache site trusting, opening, []⟩ .start) := by
  have hstarts : ∀ trusting : Bool,
      (if trusting then Kind.openTriple else .openCurly) ∈ statementStarts := by
    decide
  have hmem : (if trusting then Kind.openTriple else .openCurly) ∈ site.position.follow := by
    cases site with
    | statement content => exact List.mem_append_left _ (hstarts trusting)
    | value assignment => cases trusting <;> simp [MustacheSite.position, Position.follow]
    | quoted quote => cases trusting <;> simp [MustacheSite.position, Position.follow]
  have hreduce : site.position.reduce? (if trusting then Kind.openTriple else .openCurly) =
      none := by
    cases site with
    | statement content => exact Position.reduce?_content_eq_none content (hstarts trusting)
    | value assignment => rfl
    | quoted quote => rfl
  have hshift : site.position.shift? (if trusting then Kind.openTriple else .openCurly) =
      some (openCall (.mustache site trusting)) := by
    cases site <;> cases trusting <;> rfl
  exact Reads.shift hshift rfl (Position.fits_settled _) hmem hreduce

theorem reads_mustacheClosing (site : MustacheSite) (trusting : Bool) (opening : Lexeme)
    (complete : Call) (closing : Lexeme) :
    Reads (.called ⟨.mustache site trusting, opening, []⟩ complete)
      [⟨if trusting then .closeTriple else .closeCurly, closing⟩]
      (site.close ⟨trusting, opening, complete, closing⟩).position := by
  have hends : ∀ trusting : Bool,
      (if trusting then Kind.closeTriple else .closeCurly) ∈ callEnds := by
    decide
  cases trusting with
  | false => exact Reads.shift rfl rfl (site.fits_close _) (hends false) rfl
  | true => exact Reads.shift rfl rfl (site.fits_close _) (hends true) rfl

/-- The tokens of a mustache lead to where it is complete. -/
theorem reads_mustache (site : MustacheSite) (mustache : Mustache) :
    Reads site.position mustache.tokens (site.close mustache).position := by
  obtain ⟨trusting, opening, complete, closing⟩ := mustache
  have hopening := reads_mustacheOpening site trusting opening
  have hcall := reads_call complete ⟨.mustache site trusting, opening, []⟩
  exact (hopening.cons hcall).append
    (reads_mustacheClosing site trusting opening complete closing)

/-- Where a head starts. -/
def HeadSite.position : HeadSite → Position
  | .block content => .content content
  | .chained chain => .sectionEnd chain

/-- An else completes no section. -/
theorem reads_openElse (chain : Chain) (opening : Lexeme) :
    Reads (.sectionEnd chain) [⟨.openElse, opening⟩] (.elseOpened chain opening) := by
  refine Reads.shift rfl rfl (Position.fits_settled _) List.mem_cons_self ?_
  show reduceChain? chain .absent .openElse = none
  unfold reduceChain?
  split
  · contradiction
  · rfl

/-- After the opening of an else, an expression starts the call of a chained else. -/
theorem reads_elseOpened (chain : Chain) (opening : Lexeme) :
    Reads (.elseOpened chain opening) []
      (.call ⟨.head (.chained chain), opening, []⟩ .start) := by
  apply Reads.agree id
  rintro ⟨kind, lexeme⟩ hmem
  refine ⟨List.mem_cons_of_mem _ hmem, ?_⟩
  have hstart : kind ∈ expressionStarts := hmem
  simp only [expressionStarts, List.mem_cons, List.not_mem_nil, or_false] at hstart
  -- Both positions take the same token in, with the same call opened.
  rcases hstart with rfl | rfl | rfl | rfl | rfl | rfl | rfl <;>
    exact (Position.read_of_shift rfl rfl).trans (Position.read_of_shift rfl rfl).symm

theorem reads_headOpening (site : HeadSite) (opening : Lexeme) :
    Reads site.position [⟨site.kind, opening⟩] (.call ⟨.head site, opening, []⟩ .start) := by
  cases site with
  | block content =>
      exact Reads.start rfl rfl (Position.fits_settled _)
        (by decide : Kind.openBlock ∈ statementStarts)
  | chained chain =>
      exact (reads_openElse chain opening).append (reads_elseOpened chain opening)

theorem reads_headClosing (site : HeadSite) (opening : Lexeme) (complete : Call)
    (closing : Lexeme) :
    Reads (.called ⟨.head site, opening, []⟩ complete) [⟨.closeCurly, closing⟩]
      (site.close ⟨opening, complete, none, closing⟩) :=
  Reads.shift rfl rfl (Position.fits_settled _) (by decide : Kind.closeCurly ∈ callEnds) rfl

theorem reads_paramsClosing (site : HeadSite) (opening : Lexeme) (complete : Call)
    (names closing : Lexeme) :
    Reads (.params site opening complete names) [⟨.closeCurly, closing⟩]
      (site.close ⟨opening, complete, some names, closing⟩) :=
  Reads.shift rfl rfl (Position.fits_settled _) List.mem_cons_self rfl

/-- The tokens of a head lead to the beginning of its section. -/
theorem reads_head (site : HeadSite) (head : Head) :
    Reads site.position (head.tokens site.kind) (site.close head) := by
  obtain ⟨opening, complete, params, closing⟩ := head
  have hopening := reads_headOpening site opening
  have hcall := reads_call complete ⟨.head site, opening, []⟩
  have hends : Kind.blockParams ∈ callEnds := by decide
  cases params with
  | none =>
      have hclosing := reads_headClosing site opening complete closing
      simpa [Head.tokens] using (hopening.cons hcall).append hclosing
  | some names =>
      have hcovers : Follow.params.Covers (.params site opening complete names) :=
        Follow.covers_of_follow [.closeCurly] rfl id (by decide)
      have hparams : Reads (.called ⟨.head site, opening, []⟩ complete) [⟨.blockParams, names⟩]
          (.params site opening complete names) :=
        Reads.shift rfl rfl (Position.fits_after hcovers) hends rfl
      have hclosing := reads_paramsClosing site opening complete names closing
      simpa [Head.tokens] using ((hopening.cons hcall).append hparams).append hclosing

/-! ## Opening tags -/

theorem reads_quotedPart (quote : OpenQuote) (part : QuotedPart) :
    Reads (.quoted quote) part.tokens (.quoted (quote.add part)) := by
  cases part with
  | text lexeme =>
      exact Reads.shift rfl rfl (Position.fits_settled _) List.mem_cons_self rfl
  | mustache curly => exact reads_mustache (.quoted quote) curly

theorem reads_quotedParts (quote : OpenQuote) (parts : List QuotedPart) :
    Reads (.quoted quote) (parts.flatMap QuotedPart.tokens)
      (.quoted ⟨quote.assignment, quote.opening, parts.reverse ++ quote.parts⟩) := by
  induction parts generalizing quote with
  | nil => exact Reads.refl _
  | cons part rest ih =>
      rw [List.flatMap_cons, List.reverse_cons, List.append_assoc]
      exact (reads_quotedPart quote part).append (ih (quote.add part))

theorem reads_quoteClosing (quote : OpenQuote) (closing : Lexeme) :
    Reads (.quoted quote) [⟨.quoteClose, closing⟩]
      (.tag (quote.assignment.assign (.quoted quote.opening quote.parts.reverse closing))) :=
  Reads.shift rfl rfl (Position.fits_settled _) (by simp [Position.follow]) rfl

theorem reads_value (assignment : Assignment) (value : Value) :
    Reads (.assigned assignment) value.tokens (.tag (assignment.assign value)) := by
  cases value with
  | text lexeme =>
      exact Reads.shift rfl rfl (Position.fits_settled _) List.mem_cons_self rfl
  | mustache curly => exact reads_mustache (.value assignment) curly
  | quoted opening parts closing =>
      have hopening : Reads (.assigned assignment) [⟨.quoteOpen, opening⟩]
          (.quoted ⟨assignment, opening, []⟩) :=
        Reads.shift rfl rfl (Position.fits_settled _) (by simp [Position.follow]) rfl
      have hparts := reads_quotedParts ⟨assignment, opening, []⟩ parts
      have hclosing := reads_quoteClosing ⟨assignment, opening, parts.reverse ++ []⟩ closing
      rw [List.append_nil, List.reverse_reverse] at hclosing
      rw [List.append_nil] at hparts
      exact (hopening.cons hparts).append hclosing

theorem reads_equals (tag : OpenTag) (name equals : Lexeme) :
    Reads (.attribute tag name) [⟨.equals, equals⟩] (.assigned ⟨tag, name, equals⟩) :=
  Reads.shift rfl rfl (Position.fits_settled _) List.mem_cons_self rfl

theorem reads_modifierClosing (tag : OpenTag) (opening : Lexeme) (complete : Call)
    (closing : Lexeme) :
    Reads (.called ⟨.modifier tag, opening, []⟩ complete) [⟨.closeCurly, closing⟩]
      (.tag (tag.add (.modifier opening complete closing))) :=
  Reads.shift rfl rfl (Position.fits_settled _) (by decide : Kind.closeCurly ∈ callEnds) rfl

/-- The tokens of a part of a tag lead to the tag with the part added. -/
theorem reads_tagPart (tag : OpenTag) (part : TagPart) :
    Reads (.tag tag) part.tokens (.tag (tag.add part)) := by
  have hname (name : Lexeme) :
      Reads (.tag tag) [⟨.attributeName, name⟩] (.attribute tag name) :=
    Reads.shift rfl rfl (Position.fits_settled _)
      (by decide : Kind.attributeName ∈ tagPartStarts ++ tagEnds) rfl
  cases part with
  | flag name =>
      -- Only the token after a name shows that the attribute has no value.
      refine (hname name).append (Reads.reduce id ?_)
      intro kind hkind
      refine ⟨List.mem_cons_of_mem _ hkind, if_pos ?_⟩
      have hkind : kind ∈ tagPartStarts ++ tagEnds := hkind
      simpa using hkind
  | «attribute» name equals value =>
      exact (hname name).cons
        ((reads_equals tag name equals).cons (reads_value ⟨tag, name, equals⟩ value))
  | modifier opening complete closing =>
      have hopening : Reads (.tag tag) [⟨.openCurly, opening⟩]
          (.call ⟨.modifier tag, opening, []⟩ .start) :=
        Reads.shift rfl rfl (Position.fits_settled _)
          (by decide : Kind.openCurly ∈ tagPartStarts ++ tagEnds) rfl
      exact (hopening.cons (reads_call complete _)).append
        (reads_modifierClosing tag opening complete closing)
  | params lexeme =>
      exact Reads.shift rfl rfl (Position.fits_after (Follow.params_covers_tag _))
        (by decide : Kind.blockParams ∈ tagPartStarts ++ tagEnds) rfl
  | comment lexeme =>
      exact Reads.shift rfl rfl (Position.fits_after (Follow.curlyComment_covers_tag _))
        (by decide : Kind.curlyComment ∈ tagPartStarts ++ tagEnds) rfl

theorem reads_tagParts (tag : OpenTag) (parts : List TagPart) :
    Reads (.tag tag) (parts.flatMap TagPart.tokens)
      (.tag ⟨tag.outer, tag.name, parts.reverse ++ tag.parts⟩) := by
  induction parts generalizing tag with
  | nil => exact Reads.refl _
  | cons part rest ih =>
      rw [List.flatMap_cons, List.reverse_cons, List.append_assoc]
      exact (reads_tagPart tag part).append (ih (tag.add part))

theorem reads_tag (content : Content) (tag : Tag) :
    Reads (.content content) tag.tokens (.tag ⟨content, tag.name, tag.parts.reverse⟩) := by
  obtain ⟨name, parts⟩ := tag
  have hname : Reads (.content content) [⟨.startTag, name⟩] (.tag ⟨content, name, []⟩) :=
    Reads.start rfl rfl (Position.fits_settled _) (by decide)
  have hparts := reads_tagParts ⟨content, name, []⟩ parts
  rw [List.append_nil] at hparts
  exact hname.cons hparts

/-- The token that ends a tag leads on from the tag as a phrase. -/
theorem reads_tagEnd (content : Content) (tag : Tag) {kind : Kind} {lexeme : Lexeme}
    {shifted : Lexeme → Config}
    (hshift : (Position.tag ⟨content, tag.name, tag.parts.reverse⟩).shift? kind = some shifted)
    (hfits : (shifted lexeme).Fits) (hkind : kind ∈ tagEnds) :
    Reads (.content content) (tag.tokens ++ [⟨kind, lexeme⟩]) (shifted lexeme).position :=
  (reads_tag content tag).append
    (Reads.shift hshift rfl hfits (List.mem_append_right _ hkind) rfl)

/-! ## Statements -/

theorem reads_endTag (outer statements : List Statement) (levels : List Level) (tag : Tag)
    (tagEnd endTag : Lexeme) :
    Reads (.content ⟨statements, ⟨.element tag tagEnd, outer⟩ :: levels⟩) [⟨.endTag, endTag⟩]
      (.content ⟨.element tag tagEnd statements.reverse endTag :: outer, levels⟩) :=
  Reads.shift rfl rfl (Position.fits_after (Follow.statement_covers _))
    (by simp [Position.follow, contentEnds]) rfl

/-- The end of a block, or an else, completes the program of a section. -/
theorem reads_sectionEnd (outer statements : List Statement) (levels : List Level)
    (before : List Section) (head : Head) :
    Reads (.content ⟨statements, ⟨.branch before head, outer⟩ :: levels⟩) []
      (.sectionEnd ⟨⟨outer, levels⟩, ⟨head, statements.reverse⟩, before⟩) := by
  apply Reads.reduce id
  intro kind hkind
  have hkinds : kind = .openElse ∨ kind = .openEndBlock := by
    simpa [Position.follow] using hkind
  refine ⟨?_, if_pos hkinds.symm⟩
  rcases hkinds with rfl | rfl <;> simp [Position.follow, contentEnds]

/-- The end of a block completes the program of a plain else. -/
theorem reads_otherwiseEnd (chain : Chain) (opening closing : Lexeme)
    (statements : List Statement) :
    Reads (.content ⟨statements, ⟨.otherwise chain.latest chain.before opening closing,
        chain.outer.statements⟩ :: chain.outer.levels⟩) []
      (.inverse chain (.otherwise opening closing statements.reverse)) := by
  apply Reads.reduce id
  intro kind hkind
  have hkinds : kind = .openEndBlock := List.mem_singleton.1 hkind
  subst hkinds
  exact ⟨by simp [Position.follow, contentEnds], rfl⟩

/-- Before the end of a block, a section without an else has an absent inverse. -/
theorem reads_absent (chain : Chain) :
    Reads (.sectionEnd chain) [] (.inverse chain .absent) := by
  obtain ⟨outer, latest, before⟩ := chain
  apply Reads.agree id
  rintro ⟨kind, lexeme⟩ hkind
  have hkinds : kind = .openEndBlock := List.mem_singleton.1 hkind
  subst hkinds
  refine ⟨by simp [Position.follow], ?_⟩
  -- The first section of a block takes the token in, a later one is first completed.
  cases before with
  | nil => exact (Position.read_of_shift rfl rfl).trans (Position.read_of_shift rfl rfl).symm
  | cons previous before =>
      exact (Position.read_of_reduce rfl).trans (Position.read_of_reduce rfl).symm

/-- Before the end of a block, a chained else is the inverse of the section before it. -/
theorem reads_chainEnd (outer : Content) (latest previous : Section) (before : List Section)
    (inverse : Inverse) :
    Reads (.inverse ⟨outer, latest, previous :: before⟩ inverse) []
      (.inverse ⟨outer, previous, before⟩ (.chained latest.head latest.program inverse)) := by
  apply Reads.reduce id
  intro kind hkind
  have hkinds : kind = .openEndBlock := List.mem_singleton.1 hkind
  subst hkinds
  exact ⟨hkind, rfl⟩

theorem reads_endPath (block : OpenEnd) (path closing : Lexeme) :
    Reads (.endPath block path) [⟨.closeCurly, closing⟩] (.content (block.close path closing)) :=
  Reads.shift rfl rfl (Position.fits_after (Follow.statement_covers _)) List.mem_cons_self rfl

theorem reads_endOpened (block : OpenEnd) (path closing : Lexeme) :
    Reads (.endOpened block) [⟨.path, path⟩, ⟨.closeCurly, closing⟩]
      (.content (block.close path closing)) := by
  have hcovers : Follow.expression.Covers (.endPath block path) :=
    Follow.covers_of_follow [.closeCurly] rfl id (by decide)
  have hpath : Reads (.endOpened block) [⟨.path, path⟩] (.endPath block path) :=
    Reads.shift rfl rfl (Position.fits_after hcovers) List.mem_cons_self rfl
  exact hpath.cons (reads_endPath block path closing)

/-- The closing of a block makes it a statement. -/
theorem reads_blockEnd (outer : Content) (head : Head) (program : List Statement)
    (inverse : Inverse) (close : BlockEnd) :
    Reads (.inverse ⟨outer, ⟨head, program⟩, []⟩ inverse) close.tokens
      (.content (outer.add (.block head program inverse close))) := by
  obtain ⟨opening, path, closing⟩ := close
  have hopening : Reads (.inverse ⟨outer, ⟨head, program⟩, []⟩ inverse)
      [⟨.openEndBlock, opening⟩] (.endOpened ⟨outer, head, program, inverse, opening⟩) :=
    Reads.shift rfl rfl (Position.fits_settled _) List.mem_cons_self rfl
  exact hopening.cons (reads_endOpened _ path closing)

mutual

/-- The tokens of a statement lead to the content with the statement added. -/
theorem reads_statement (content : Content) (statement : Statement) :
    Reads (.content content) statement.tokens (.content (content.add statement)) := by
  cases statement with
  | text lexeme =>
      rw [Statement.tokens]
      exact Reads.start rfl rfl (Position.fits_after (Follow.statement_covers _)) (by decide)
  | htmlComment lexeme =>
      rw [Statement.tokens]
      exact Reads.start rfl rfl (Position.fits_after (Follow.statement_covers _)) (by decide)
  | curlyComment lexeme =>
      rw [Statement.tokens]
      have hcovers : Follow.curlyComment.Covers (.content (content.add (.curlyComment lexeme))) :=
        Follow.covers_content _ (by decide) rfl
      exact Reads.start rfl rfl (Position.fits_afterStatement hcovers) (by decide)
  | mustache curly =>
      rw [Statement.tokens]
      exact reads_mustache (.statement content) curly
  | block head program inverse close =>
      rw [Statement.tokens]
      have hhead := reads_head (.block content) head
      -- a program begins on a level of its own, where statements are held in reverse
      have hprogram := reads_statements [] (⟨.branch [] head, content.statements⟩ ::
        content.levels) program
      have hsection := reads_sectionEnd content.statements program.reverse content.levels [] head
      rw [List.append_nil] at hprogram
      rw [List.reverse_reverse] at hsection
      have hinverse := reads_inverse ⟨content, ⟨head, program⟩, []⟩ inverse
      have hclose := reads_blockEnd content head program inverse close
      exact (((hhead.append hprogram).complete hsection).append hinverse).append hclose
  | element tag tagEnd body endTag =>
      rw [Statement.tokens]
      have htag : Reads (.content content) (tag.tokens ++ [⟨.tagEnd, tagEnd⟩])
          (.content (content.enter (.element (OpenTag.mk content tag.name tag.parts.reverse).tag
            tagEnd))) :=
        reads_tagEnd content tag rfl (Position.fits_settled _)
          (by decide : Kind.tagEnd ∈ tagEnds)
      have hbody := reads_statements [] (⟨.element tag tagEnd, content.statements⟩ ::
        content.levels) body
      have hend := reads_endTag content.statements body.reverse content.levels tag tagEnd endTag
      rw [OpenTag.tag, List.reverse_reverse] at htag
      rw [List.append_nil] at hbody
      rw [List.reverse_reverse] at hend
      have helement := (htag.append hbody).append hend
      rw [List.append_assoc tag.tokens] at helement
      exact helement
  | selfClosing tag tagEnd =>
      rw [Statement.tokens]
      have htag : Reads (.content content) (tag.tokens ++ [⟨.tagSelfClose, tagEnd⟩])
          (.content (content.add (.selfClosing
            (OpenTag.mk content tag.name tag.parts.reverse).tag tagEnd))) :=
        reads_tagEnd content tag rfl (Position.fits_after (Follow.statement_covers _))
          (by decide : Kind.tagSelfClose ∈ tagEnds)
      rwa [OpenTag.tag, List.reverse_reverse] at htag
  | void tag tagEnd =>
      rw [Statement.tokens]
      have htag : Reads (.content content) (tag.tokens ++ [⟨.voidTagEnd, tagEnd⟩])
          (.content (content.add (.void
            (OpenTag.mk content tag.name tag.parts.reverse).tag tagEnd))) :=
        reads_tagEnd content tag rfl (Position.fits_after (Follow.statement_covers _))
          (by decide : Kind.voidTagEnd ∈ tagEnds)
      rwa [OpenTag.tag, List.reverse_reverse] at htag
termination_by structural statement

/-- The tokens of an inverse lead to where its block may be closed. -/
theorem reads_inverse (chain : Chain) (inverse : Inverse) :
    Reads (.sectionEnd chain) inverse.tokens (.inverse chain inverse) := by
  cases inverse with
  | absent =>
      rw [Inverse.tokens]
      exact reads_absent chain
  | otherwise opening closing program =>
      rw [Inverse.tokens]
      have hopening := reads_openElse chain opening
      have hclosing : Reads (.elseOpened chain opening) [⟨.closeCurly, closing⟩]
          (.content (chain.outer.enter
            (.otherwise chain.latest chain.before opening closing))) :=
        Reads.shift rfl rfl (Position.fits_settled _) List.mem_cons_self rfl
      have hprogram := reads_statements [] (⟨.otherwise chain.latest chain.before opening closing,
        chain.outer.statements⟩ :: chain.outer.levels) program
      have hend := reads_otherwiseEnd chain opening closing program.reverse
      rw [List.append_nil] at hprogram
      rw [List.reverse_reverse] at hend
      exact hopening.cons (hclosing.cons (hprogram.complete hend))
  | chained head program inverse =>
      rw [Inverse.tokens]
      have hhead := reads_head (.chained chain) head
      have hprogram := reads_statements [] (⟨.branch (chain.latest :: chain.before) head,
        chain.outer.statements⟩ :: chain.outer.levels) program
      have hsection := reads_sectionEnd chain.outer.statements program.reverse
        chain.outer.levels (chain.latest :: chain.before) head
      rw [List.append_nil] at hprogram
      rw [List.reverse_reverse] at hsection
      have hinverse := reads_inverse ⟨chain.outer, ⟨head, program⟩, chain.latest :: chain.before⟩
        inverse
      have hend := reads_chainEnd chain.outer ⟨head, program⟩ chain.latest chain.before inverse
      exact (((hhead.append hprogram).complete hsection).append hinverse).complete hend
termination_by structural inverse

theorem reads_statements (before : List Statement) (levels : List Level)
    (statements : List Statement) :
    Reads (.content ⟨before, levels⟩) (statementTokens statements)
      (.content ⟨statements.reverse ++ before, levels⟩) := by
  cases statements with
  | nil =>
      rw [statementTokens]
      exact Reads.refl _
  | cons statement rest =>
      rw [statementTokens, List.reverse_cons, List.append_assoc]
      exact (reads_statement ⟨before, levels⟩ statement).append
        (reads_statements (statement :: before) levels rest)
termination_by structural statements

end

/-- Where the content of the template stands, the end completes nothing more. -/
theorem Config.finish_of_at {config : Config} {statements : List Statement}
    (h : config.At (.content ⟨statements, []⟩)) : config.finish = .ok statements.reverse := by
  rw [h.finish_eq trivial, Config.finish, Config.settle_of_reduce_none rfl]
  rfl

/-- The tokens that are recognised as some statements are the tokens of these statements. -/
theorem recognises_iff (tokens : List Token) (statements : List Statement) :
    (∃ final, Config.initial.readAll tokens = .ok final ∧ final.finish = .ok statements) ↔
      statementTokens statements = tokens := by
  constructor
  · rintro ⟨final, hread, hfinish⟩
    exact statementTokens_of_finish hread hfinish
  · rintro rfl
    have hinitial : Config.initial.At (.content ⟨[], []⟩) := (Position.fits_settled _).at
    obtain ⟨final, hread, hat⟩ := reads_statements [] [] statements Config.initial hinitial
    refine ⟨final, hread, ?_⟩
    rw [Config.finish_of_at hat, List.append_nil, List.reverse_reverse]

end TemplateUsage.Recogniser
