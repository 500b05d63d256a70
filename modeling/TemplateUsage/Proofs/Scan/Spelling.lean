import TemplateUsage.Proofs.Numerals
import TemplateUsage.Proofs.Scan.Marks
import TemplateUsage.Proofs.Scan.Neighbours

set_option autoImplicit false

/-!
# How tokens are spelled

What the scanner knows of tokens by their kind: how the token that opens an invocation is
spelled, that a path goes as far as the text allows, that the name of an opening tag does,
and that a number is a numeral (`Shows`, `State.shows_of_step`). Between a token and the next
one stand blanks only. Main statements: `shown_ofText` and `isChain_blanks_ofText`.
-/

namespace TemplateUsage.Scan

/-! ## What a step shows -/

/-- How the token that opens an invocation is spelled, by its kind. -/
inductive Opens : Kind → List Char → Prop where
  | curly {mark : List Char} : Mark mark → Opens .openCurly (['\x7b', '\x7b'] ++ mark)
  | triple {left right : List Char} :
      Mark left → Mark right → Opens .openTriple (['\x7b', '\x7b'] ++ left ++ '\x7b' :: right)
  | block {mark : List Char} : Mark mark → Opens .openBlock (['\x7b', '\x7b'] ++ mark ++ ['#'])
  | otherwise {mark : List Char} :
      Mark mark → Opens .openElse (['\x7b', '\x7b'] ++ mark ++ ['e', 'l', 's', 'e'])
  | paren : Opens .openParen ['(']

/-- The token that opens an invocation is written as it is. -/
theorem Opens.written {kind : Kind} {delimiter value slice : List Char} (h : Opens kind delimiter)
    (hwritten : Written kind value slice) : slice = value := by
  cases h <;> exact hwritten

/-- What is known of a token that is found at the front of a text, by its kind. -/
def Shows (cs : List Char) (kind : Kind) (value : List Char) (width : Nat) : Prop :=
  match kind with
  | .openCurly | .openTriple | .openBlock | .openElse | .openParen => Opens kind value
  | .path => ∀ c ∈ (cs.drop width).head?, isPathChar c = false
  | .startTag =>
      ∃ c rest, cs = '<' :: c :: rest ∧ startsTagName c = true ∧
        value = c :: rest.takeWhile isTagNameChar
  | .number => IsNumeral value
  | _ => True

theorem Opener.opens {kind : Kind} {closer : Closer} {cs left more rest : List Char}
    (h : Opener kind closer more rest) (hbraces : Braces cs left (more ++ rest)) (width : Nat) :
    Shows cs kind ('\x7b' :: '\x7b' :: (left ++ more)) width := by
  have hmark := hbraces.isMark
  cases h with
  | markedTriple => exact Opens.triple hmark (.inr rfl)
  | triple => exact Opens.triple hmark (.inl rfl)
  | block => exact Opens.block hmark
  | endBlock => trivial
  | otherwise => exact Opens.otherwise hmark
  | plain =>
      rw [List.append_nil]
      exact Opens.curly hmark

/-- A path goes on as long as its characters do. -/
theorem path?_maximal {cs : List Char} {found : Found} (h : path? cs = some found) :
    ∀ c ∈ (cs.drop found.width).head?, isPathChar c = false := by
  obtain ⟨run, rest, hrun, hrest, hsplit, -⟩ := exists_run_append isPathChar cs
  have hstop := List.head?_dropWhile_not isPathChar cs
  unfold path? at h
  rw [hrun] at h
  rw [hrest] at hstop
  cases run with
  | nil => cases h
  | cons first more =>
      cases h
      intro c hc
      rw [hsplit, Found.whole, List.drop_left, Option.mem_def] at hc
      rw [hc] at hstop
      exact hstop

theorem Word.shows {cs : List Char} {kind : Kind} {found : Found} (h : Word cs kind found) :
    Shows cs kind found.value found.width := by
  cases h with
  | keyword hmem h => rcases (mem_keywords hmem).2 with rfl | rfl | rfl <;> trivial
  | path h => exact path?_maximal h
  | number h => exact number?_isNumeral h
  | _ => trivial

/-- The token of a step is written as its kind shows. -/
theorem State.shows_of_step {state : State} {kind : Kind} {value : List Char} {width : Nat}
    {modes : List OpenMode} (hstep : state.step = .emit kind value width modes) :
    Shows state.rest kind value width := by
  cases State.takes_of_step hstep with
  | braces _ _ hbraces =>
      cases hbraces with
      | opener hbraces hopener => exact hopener.opens hbraces _
      | comment => trivial
  | startTag _ hfound =>
      obtain ⟨c, rest, hrest, hc, rfl⟩ := startTag?_eq_some hfound
      exact ⟨c, rest, hrest, hc, rfl⟩
  | openParen => exact Opens.paren
  | tagEnd => split <;> trivial
  | closer => split <;> trivial
  | word _ hfound => exact (word_of_wordStep? hfound).shows
  | _ => trivial

/-! ## Tokens of a text -/

/-- The token is written in the text as its kind shows. -/
def Shown (text : List Char) (token : Token) : Prop :=
  Shows (text.drop token.start) token.kind token.lexeme.value.toList (token.stop - token.start)

theorem shown_of_step (lines : Lines) {text : List Char} {state : State} {kind : Kind}
    {value : List Char} {width : Nat} {modes : List OpenMode}
    (hrest : state.rest = text.drop state.offset)
    (hstep : state.step = .emit kind value width modes) :
    Shown text (state.token lines kind value width) := by
  have hshows := State.shows_of_step hstep
  have hwidth : state.offset + width - state.offset = width := Nat.add_sub_cancel_left _ _
  rw [Shown, State.start_token, State.stop_token, hwidth, ← hrest]
  show Shows state.rest kind (String.ofList value).toList width
  rw [String.toList_ofList]
  exact hshows

theorem shown_scanFrom {lines : Lines} {text : List Char} (state : State)
    (hrest : state.rest = text.drop state.offset) :
    ∀ token ∈ (scanFrom lines state).tokens, Shown text token := by
  fun_induction traceFrom lines state with
  | case1 state hnil =>
      rw [scanFrom_nil hnil]
      exact List.forall_mem_nil _
  | case2 state hne kind value width modes hstep ih =>
      rw [scanFrom_emit hne hstep]
      exact List.forall_mem_cons.2
        ⟨shown_of_step lines hrest hstep, ih (State.rest_advance hrest _ _ _)⟩
  | case3 state hne width hstep ih =>
      rw [scanFrom_skip hne hstep]
      exact ih (State.rest_advance hrest _ _ _)
  | case4 state hne fault width hstep =>
      rw [scanFrom_fail hne hstep]
      exact List.forall_mem_nil _

/-- The tokens of a text are written as their kinds show. -/
theorem shown_ofText (source : String) :
    ∀ token ∈ (ofText source).tokens, Shown source.toList token :=
  shown_scanFrom _ rfl

/-- From each token of a text to the next there are blanks only. -/
theorem isChain_blanks_ofText (source : String) :
    (ofText source).tokens.IsChain fun first next =>
      first.stop ≤ next.start ∧ Blanks (slice source.toList first.stop next.start) := by
  obtain ⟨stop, final, htiles, -⟩ := exists_tiles_trace source
  rw [← map_token_trace, List.isChain_map]
  exact htiles.isChain.imp fun _ _ hgap => ⟨hgap.start_le, hgap.blanks⟩

end TemplateUsage.Scan
