import TemplateUsage.Proofs.Quoting
import TemplateUsage.Proofs.Scan.Escapes

set_option autoImplicit false

/-!
# The tokens of each construct

What is innermost decides which kinds of token the scanner emits (`kindsIn`): markup and text
in content, the parts of a tag in a tag, pieces of the value in a quoted value, and words in
an expression. `State.kind_mem_kindsIn` says so of a step, and `kind_mem_kindsIn` of the
tokens of a text, where the tokens before each of them tell what is open.
-/

namespace TemplateUsage

/-- The kinds of token right inside a construct. -/
def Construct.kinds : Construct → List Kind
  | .tag =>
      [.tagSelfClose, .tagEnd, .voidTagEnd, .equals, .blockParams, .attributeName,
        .attributeText, .quoteOpen, .curlyComment] ++ Kind.curlyOpeners
  | .quoted => [.quoteClose, .attributeText, .curlyComment] ++ Kind.curlyOpeners
  | .expression =>
      [.closeCurly, .closeTriple, .openParen, .closeParen, .blockParams, .string, .hashKey,
        .number, .boolean, .null, .undefined, .path]

/-- The kinds of token where these constructs are open, innermost first. -/
def kindsIn : List Construct → List Kind
  | [] => [.text, .htmlComment, .curlyComment, .startTag, .endTag] ++ Kind.curlyOpeners
  | construct :: _ => construct.kinds

namespace Scan

/-- Wherever braces open an expression or a comment, they do nothing else. -/
theorem AtBraces.kind_mem {offset : Nat} {cs : List Char} {modes next : List OpenMode}
    {kind : Kind} {value : List Char} {width : Nat}
    (h : AtBraces offset cs modes (.emit kind value width next)) :
    kind ∈ .curlyComment :: Kind.curlyOpeners := by
  cases h with
  | opener _ hopener => exact List.mem_cons_of_mem _ hopener.kind_mem
  | comment => exact List.mem_cons_self

/-- Braces open an expression or a comment wherever they open anything. -/
theorem State.AllowsBraces.subset_kindsIn {state : State} (h : state.AllowsBraces) :
    .curlyComment :: Kind.curlyOpeners ⊆ kindsIn (constructs state.modes) := by
  obtain ⟨offset, rest, modes, awaitsValue⟩ := state
  rcases modes with _ | ⟨⟨name | quote | closer, start⟩, outer⟩
  · show _ ⊆ kindsIn []
    decide
  · show _ ⊆ Construct.tag.kinds
    decide
  · show _ ⊆ Construct.quoted.kinds
    decide
  · exact h.elim

/-- A token is of a kind that belongs where it is found. -/
theorem State.kind_mem_kindsIn {state : State} {kind : Kind} {value : List Char} {width : Nat}
    {modes : List OpenMode} (hstep : state.step = .emit kind value width modes) :
    kind ∈ kindsIn (constructs state.modes) := by
  cases State.takes_of_step hstep with
  | braces hallows _ hbraces => exact hallows.subset_kindsIn hbraces.kind_mem
  | escape hmodes | htmlComment hmodes | endTag hmodes =>
      rw [hmodes]
      decide
  | startTag htext | text htext =>
      rw [htext.modes]
      decide
  | value hvalue =>
      obtain ⟨name, start, outer, hmodes⟩ := hvalue.modes
      rw [hmodes]
      show Kind.attributeText ∈ Construct.tag.kinds
      decide
  | tagParams hpart | attributeName hpart =>
      obtain ⟨start, outer, hmodes⟩ := hpart.modes
      rw [hmodes]
      show _ ∈ Construct.tag.kinds
      decide
  | quoteOpen hmodes | selfClose hmodes | equals hmodes =>
      rw [hmodes]
      show _ ∈ Construct.tag.kinds
      decide
  | tagEnd hmodes =>
      rw [hmodes]
      show _ ∈ Construct.tag.kinds
      split <;> decide
  | quoteClose hmodes | quotedText hmodes =>
      rw [hmodes]
      show _ ∈ Construct.quoted.kinds
      decide
  | openParen hmodes | closeParen hmodes =>
      rw [hmodes]
      show _ ∈ Construct.expression.kinds
      decide
  | closer hmodes =>
      rw [hmodes]
      show _ ∈ Construct.expression.kinds
      split <;> decide
  | word hword hfound =>
      obtain ⟨closer, start, outer, hmodes, -⟩ := hword.modes
      rw [hmodes]
      have hkinds : [Kind.blockParams, .string, .hashKey, .number, .boolean, .null, .undefined,
        .path] ⊆ Construct.expression.kinds := by decide
      exact hkinds (word_of_wordStep? hfound).kind_mem

/-- The tokens up to one of them are those of a run, and a step emits it at the end. -/
theorem exists_run_of_tokens {source : String} {front back : List Token} {token : Token}
    (htokens : (ofText source).tokens = front ++ token :: back) :
    ∃ pieces state width modes, Run (.initial source.toList) pieces state ∧
      pieces.map (Piece.token (Lines.ofText source.toList)) = front ∧ state.rest ≠ [] ∧
      state.step = .emit token.kind token.lexeme.value.toList width modes ∧
      token.start = state.offset ∧ token.stop = state.offset + width ∧
      state.rest = source.toList.drop token.start := by
  obtain ⟨pieces, final, hrun, hpieces, -⟩ :=
    exists_run_to_end (Lines.ofText source.toList) (.initial source.toList)
  rw [ofText, hpieces] at htokens
  obtain ⟨before, after, rfl, hfront, hafter⟩ := List.map_eq_append_iff.1 htokens
  obtain ⟨piece, rest, rfl, rfl, -⟩ := List.map_eq_cons_iff.1 hafter
  obtain ⟨state, width, modes, hbefore, hne, hstep, hstart, hstop, -⟩ := hrun.exists_step
  have htracked : Tracked source.toList before state := (tracked_initial _).run hbefore
  refine ⟨before, state, width, modes, hbefore, hfront, hne, ?_, hstart.symm, hstop.symm, ?_⟩
  · rw [hstep]
    simp [Piece.token]
  · rw [htracked.rest, hstart]
    rfl

/-- The tokens before a token tell of which kinds it may be. -/
theorem kind_mem_kindsIn {source : String} {front back : List Token} {token : Token}
    (htokens : (ofText source).tokens = front ++ token :: back) :
    token.kind ∈ kindsIn (openAfter [] front) := by
  obtain ⟨pieces, state, width, modes, hrun, rfl, -, hstep, -⟩ := exists_run_of_tokens htokens
  have hconstructs := hrun.constructs_eq (Lines.ofText source.toList)
  rw [State.initial, constructs_nil] at hconstructs
  rw [← hconstructs]
  exact State.kind_mem_kindsIn hstep

/-- A text without a fault leaves nothing open. -/
theorem openAfter_ofText {source : String} (h : (ofText source).rejection = none) :
    openAfter [] (ofText source).tokens = [] := by
  obtain ⟨pieces, ⟨final, hrun, -, hmodes⟩, htokens⟩ := exists_scanned h
  have hconstructs := hrun.constructs_eq (Lines.ofText source.toList)
  rw [hmodes, ← htokens] at hconstructs
  exact hconstructs.symm

end Scan

end TemplateUsage
