import TemplateUsage.Proofs.Scan.Marks
import TemplateUsage.Proofs.Scan.Neighbours

set_option autoImplicit false

/-!
# The content of comments

What stands between the two ends of a comment may be replaced by any text that does not end
it. The comment then ends where its end stands, and all other tokens are read as before: also
those in front of it, although block parameters and escaped expressions are searched for
their ends without bound. Main statement: `Scanned.refill`.
-/

namespace TemplateUsage.Scan

/-! ## Delimiters -/

/-- The mark beside braces, if there is one. -/
def markChars (marked : Bool) : List Char := if marked then ['~'] else []

/-- What a comment stands between, by its form and the marks beside its braces. -/
inductive Delimiters where
  | html
  | long (left right : Bool)
  | short (left right : Bool)
  deriving DecidableEq, Repr

namespace Delimiters

/-- The kind of the comment. -/
def kind : Delimiters → Kind
  | .html => .htmlComment
  | .long _ _ | .short _ _ => .curlyComment

/-- What opens the comment. -/
def opener : Delimiters → List Char
  | .html => ['<', '!', '-', '-']
  | .long left _ => '\x7b' :: '\x7b' :: (markChars left ++ ['!', '-', '-'])
  | .short left _ => '\x7b' :: '\x7b' :: (markChars left ++ ['!'])

/-- What closes the comment. -/
def closer : Delimiters → List Char
  | .html => ['-', '-', '>']
  | .long _ right => '-' :: '-' :: (markChars right ++ ['\x7d', '\x7d'])
  | .short _ right => markChars right ++ ['\x7d', '\x7d']

/-- The comment with this content. -/
def enclose (delimiters : Delimiters) (content : List Char) : List Char :=
  delimiters.opener ++ content ++ delimiters.closer

/-- The content may stand in the comment. It has no bar and no end of a comment in it. In a
short comment it is also not taken for the rest of a long one, and its last character not
for a part of the end. -/
structure Admits (delimiters : Delimiters) (content : List Char) : Prop where
  bar : '|' ∉ content
  braces : ¬ ['\x7d', '\x7d'] <:+: content
  dashes : ¬ ['-', '-', '>'] <:+: content
  short : ∀ left right, delimiters = .short left right →
    ¬ ['-', '-'] <+: content ∧ content.getLast? ≠ some '\x7d' ∧ content.getLast? ≠ some '~'

end Delimiters

theorem mark_markChars (marked : Bool) : Mark (markChars marked) := by
  cases marked
  · exact .inl rfl
  · exact .inr rfl

theorem Mark.exists_markChars {cs : List Char} (h : Mark cs) : ∃ marked, cs = markChars marked := by
  rcases h with rfl | rfl
  · exact ⟨false, rfl⟩
  · exact ⟨true, rfl⟩

/-- Every comment stands between delimiters. -/
theorem Written.exists_delimiters {kind : Kind} {value slice : List Char}
    (h : Written kind value slice) (hkind : kind = .htmlComment ∨ kind = .curlyComment) :
    ∃ delimiters : Delimiters, kind = delimiters.kind ∧ slice = delimiters.enclose value := by
  rcases hkind with rfl | rfl
  · exact ⟨.html, rfl, h⟩
  · obtain ⟨left, right, hleft, hright, hslice⟩ := h
    obtain ⟨left, rfl⟩ := hleft.exists_markChars
    obtain ⟨right, rfl⟩ := hright.exists_markChars
    rcases hslice with ⟨rfl, -⟩ | rfl
    · exact ⟨.short left right, rfl, by simp [Delimiters.enclose, Delimiters.opener,
        Delimiters.closer]⟩
    · exact ⟨.long left right, rfl, by simp [Delimiters.enclose, Delimiters.opener,
        Delimiters.closer]⟩

section

variable {content rest : List Char}

/-! ## Ends -/

/-- A text in which nothing stops is read up to what stops it. -/
theorem breakAt_append {stop : List Char → Option Nat} {after : List Char} {width : Nat}
    (hafter : stop after = some width)
    (hnone : ∀ c more, c :: more <:+ content → stop (c :: more ++ after) = none) :
    breakAt stop (content ++ after) = some (content, width) := by
  induction content with
  | nil => exact breakAt_of_stop hafter
  | cons c more ih =>
      have hfirst : stop (c :: (more ++ after)) = none := hnone c more List.suffix_rfl
      have hlater := ih fun d left hleft => hnone d left (hleft.trans (List.suffix_cons c more))
      rw [List.cons_append, breakAt, hfirst, hlater]
      rfl

theorem breakAt_dashes (h : ¬ ['-', '-', '>'] <:+: content) :
    breakAt (stopAt ['-', '-', '>']) (content ++ '-' :: '-' :: '>' :: rest) =
      some (content, 3) := by
  refine breakAt_append rfl fun c more hsuffix => ?_
  rw [stopAt, if_neg]
  rw [startsWith_iff]
  intro hstarts
  rcases more with - | ⟨d, - | ⟨e, more⟩⟩
  · simp at hstarts
  · simp at hstarts
  · refine h (List.IsInfix.trans ?_ hsuffix.isInfix)
    simp only [List.cons_append, List.cons_prefix_cons] at hstarts
    obtain ⟨rfl, rfl, rfl, -⟩ := hstarts
    exact (List.prefix_append _ _).isInfix

theorem breakAt_longCommentEnd? (h : ¬ ['\x7d', '\x7d'] <:+: content) (right : Bool) :
    breakAt longCommentEnd?
        (content ++ '-' :: '-' :: (markChars right ++ '\x7d' :: '\x7d' :: rest)) =
      some (content, (markChars right).length + 4) := by
  refine breakAt_append (by cases right <;> rfl) fun c more hsuffix => ?_
  have hbraces : ¬ ['\x7d', '\x7d'] <:+: c :: more :=
    fun hinside => h (hinside.trans hsuffix.isInfix)
  rw [Option.eq_none_iff_forall_ne_some]
  intro width hstop
  -- an earlier end would have its braces in the content, or a dash where it has none
  obtain ⟨mark, tail, hmark, heq, -⟩ := longCommentEnd?_eq_some hstop
  rcases hmark with rfl | rfl
  · match more with
    | [] | [d] | [d, e] => simp at heq
    | d :: e :: f :: more =>
        simp only [List.cons_append, List.nil_append, List.cons.injEq] at heq
        obtain ⟨rfl, rfl, rfl, rfl, -⟩ := heq
        exact hbraces ⟨['-', '-'], more, rfl⟩
  · match more with
    | [] | [d] | [d, e] | [d, e, f] => simp at heq
    | d :: e :: f :: g :: more =>
        simp only [List.cons_append, List.nil_append, List.cons.injEq] at heq
        obtain ⟨rfl, rfl, rfl, rfl, rfl, -⟩ := heq
        exact hbraces ⟨['-', '-', '~'], more, rfl⟩

theorem breakAt_shortCommentEnd? (h : ¬ ['\x7d', '\x7d'] <:+: content)
    (hbrace : content.getLast? ≠ some '\x7d') (hmark : content.getLast? ≠ some '~')
    (right : Bool) :
    breakAt shortCommentEnd? (content ++ (markChars right ++ '\x7d' :: '\x7d' :: rest)) =
      some (content, (markChars right).length + 2) := by
  refine breakAt_append (by cases right <;> rfl) fun c more hsuffix => ?_
  have hbraces : ¬ ['\x7d', '\x7d'] <:+: c :: more :=
    fun hinside => h (hinside.trans hsuffix.isInfix)
  have hlast : content.getLast? = (c :: more).getLast? := by
    obtain ⟨front, rfl⟩ := hsuffix
    rw [List.getLast?_append_of_ne_nil _ (List.cons_ne_nil c more)]
  rw [hlast] at hbrace hmark
  rw [Option.eq_none_iff_forall_ne_some]
  intro width hstop
  -- an earlier end would have its braces in the content, or its last character
  obtain ⟨found, tail, hfound, heq, -⟩ := shortCommentEnd?_eq_some hstop
  rcases hfound with rfl | rfl
  · match more with
    | [] =>
        simp only [List.cons_append, List.nil_append, List.cons.injEq] at heq
        exact hbrace (congrArg some heq.1)
    | d :: more =>
        simp only [List.cons_append, List.nil_append, List.cons.injEq] at heq
        obtain ⟨rfl, rfl, -⟩ := heq
        exact hbraces ⟨[], more, rfl⟩
  · match more with
    | [] =>
        simp only [List.cons_append, List.nil_append, List.cons.injEq] at heq
        exact hmark (congrArg some heq.1)
    | [d] =>
        simp only [List.cons_append, List.nil_append, List.cons.injEq] at heq
        exact hbrace (congrArg some heq.2.1)
    | d :: e :: more =>
        simp only [List.cons_append, List.nil_append, List.cons.injEq] at heq
        obtain ⟨rfl, rfl, rfl, -⟩ := heq
        exact hbraces ⟨['~'], more, rfl⟩

/-! ## The comment -/

namespace Delimiters

theorem enclose_html_append :
    Delimiters.html.enclose content ++ rest =
      '<' :: '!' :: '-' :: '-' :: (content ++ '-' :: '-' :: '>' :: rest) := by
  simp [enclose, opener, closer]

theorem enclose_long_append (left right : Bool) :
    (Delimiters.long left right).enclose content ++ rest =
      '\x7b' :: '\x7b' :: (markChars left ++ '!' :: '-' :: '-' ::
        (content ++ '-' :: '-' :: (markChars right ++ '\x7d' :: '\x7d' :: rest))) := by
  simp [enclose, opener, closer]

theorem enclose_short_append (left right : Bool) :
    (Delimiters.short left right).enclose content ++ rest =
      '\x7b' :: '\x7b' :: (markChars left ++ '!' ::
        (content ++ (markChars right ++ '\x7d' :: '\x7d' :: rest))) := by
  simp [enclose, opener, closer]

theorem length_enclose (delimiters : Delimiters) (content : List Char) :
    (delimiters.enclose content).length =
      delimiters.opener.length + content.length + delimiters.closer.length := by
  rw [enclose, List.length_append, List.length_append]

/-- The text with another content between the delimiters. -/
theorem take_drop_enclose (delimiters : Delimiters) (read value : List Char) :
    (read ++ (delimiters.enclose value ++ rest)).take (read.length + delimiters.opener.length) ++
        content ++ (read ++ (delimiters.enclose value ++ rest)).drop
          (read.length + (delimiters.enclose value).length - delimiters.closer.length) =
      read ++ (delimiters.enclose content ++ rest) := by
  have hfront : read ++ (delimiters.enclose value ++ rest) =
      (read ++ delimiters.opener) ++ (value ++ (delimiters.closer ++ rest)) := by simp [enclose]
  have hback : read ++ (delimiters.enclose value ++ rest) =
      (read ++ delimiters.opener ++ value) ++ (delimiters.closer ++ rest) := by simp [enclose]
  have hlength : read.length + (delimiters.enclose value).length - delimiters.closer.length =
      (read ++ delimiters.opener ++ value).length := by
    rw [length_enclose]
    simp only [List.length_append]
    omega
  rw [hlength, hback, List.drop_left, ← hback, hfront, ← List.length_append, List.take_left]
  simp [enclose]

end Delimiters

/-- A comment in braces opens nothing. -/
theorem AtBraces.next_eq {offset width : Nat} {cs value : List Char} {modes next : List OpenMode}
    (h : AtBraces offset cs modes (.emit .curlyComment value width next)) : next = modes := by
  cases h with
  | opener _ hopener => cases hopener
  | comment => rfl

/-- A comment of braces is read with the content it encloses. -/
theorem atBraces_enclose {delimiters : Delimiters} (hkind : delimiters.kind = .curlyComment)
    (hcontent : delimiters.Admits content) (offset : Nat) (modes : List OpenMode) :
    AtBraces offset (delimiters.enclose content ++ rest) modes
      (.emit .curlyComment content (delimiters.enclose content).length modes) := by
  cases delimiters with
  | html => cases hkind
  | long left right =>
      have hlength : ((Delimiters.long left right).enclose content).length =
          (markChars left).length + 3 + ['-', '-'].length + content.length +
            ((markChars right).length + 4) := by
        simp [Delimiters.enclose, Delimiters.opener, Delimiters.closer]
        omega
      rw [Delimiters.enclose_long_append, hlength]
      exact .comment ((mark_markChars left).braces _ rfl) (.long _)
        (breakAt_longCommentEnd? hcontent.braces right)
  | short left right =>
      obtain ⟨hdashes, hbrace, hmark⟩ := hcontent.short left right rfl
      have hlength : ((Delimiters.short left right).enclose content).length =
          (markChars left).length + 3 + ([] : List Char).length + content.length +
            ((markChars right).length + 2) := by
        simp [Delimiters.enclose, Delimiters.opener, Delimiters.closer]
        omega
      have hshort : startsWith ['-', '-']
          (content ++ (markChars right ++ '\x7d' :: '\x7d' :: rest)) = false := by
        refine startsWith_eq_false fun more heq => hdashes ?_
        match content with
        | [] => cases right <;> cases heq
        | [c] => cases right <;> simp [markChars] at heq
        | c :: d :: more =>
            simp only [List.cons_append, List.nil_append, List.cons.injEq] at heq
            obtain ⟨rfl, rfl, -⟩ := heq
            exact ⟨more, rfl⟩
      rw [Delimiters.enclose_short_append, hlength]
      exact .comment ((mark_markChars left).braces _ rfl) (.short hshort)
        (breakAt_shortCommentEnd? hcontent.braces hbrace hmark right)

/-- An HTML comment is read with the content it encloses. -/
theorem takes_enclose (h : Delimiters.html.Admits content) (offset : Nat) (awaitsValue : Bool) :
    State.Takes ⟨offset, Delimiters.html.enclose content ++ rest, [], awaitsValue⟩
      (.emit .htmlComment content (Delimiters.html.enclose content).length []) := by
  rw [Delimiters.enclose_html_append, Delimiters.length_enclose]
  exact .htmlComment rfl rfl (breakAt_dashes h.dashes)

/-! ## What stands before the comment -/

/-- No bar is a part of the delimiters. -/
theorem Delimiters.bar_mem_enclose {delimiters : Delimiters} :
    '|' ∈ delimiters.enclose content ↔ '|' ∈ content := by
  have hdelimiters : '|' ∉ delimiters.opener ∧ '|' ∉ delimiters.closer := by
    cases delimiters with
    | html => decide
    | long left right => cases left <;> cases right <;> decide
    | short left right => cases left <;> cases right <;> decide
  simp [enclose, hdelimiters]

/-- A bar after the opening of a comment that has none stands behind the comment. -/
theorem Delimiters.Admits.bar_mem {delimiters : Delimiters} (h : delimiters.Admits content)
    (value : List Char) (hbar : '|' ∈ delimiters.enclose content ++ rest) :
    '|' ∈ delimiters.enclose value ++ rest := by
  rw [List.mem_append, Delimiters.bar_mem_enclose] at hbar
  exact List.mem_append_right _ (hbar.resolve_left h.bar)

/-- The closing braces around an HTML comment and in it. -/
theorem braces_infix_html (left : List Char) :
    ['\x7d', '\x7d'] <:+: left ++ (Delimiters.html.enclose content ++ rest) ↔
      ['\x7d', '\x7d'] <:+: left ∨ ['\x7d', '\x7d'] <:+: content ∨ ['\x7d', '\x7d'] <:+: rest := by
  have hcs : left ++ (Delimiters.html.enclose content ++ rest) =
      left ++ '<' :: (['!', '-'] ++ '-' :: (content ++ '-' :: (['-'] ++ '>' :: rest))) := by
    rw [Delimiters.enclose_html_append]
    rfl
  have hmarks : ¬ ['\x7d', '\x7d'] <:+: ['!', '-'] ∧ ¬ ['\x7d', '\x7d'] <:+: ['-'] := by decide
  rw [hcs, braces_infix_iff (by decide), braces_infix_iff (by decide), braces_infix_iff (by decide),
    braces_infix_iff (by decide)]
  simp [hmarks]

/-- Block parameters in front of a bracket are closed by a bar behind it, whatever else stands
there. -/
theorem blockParams?_bracket {left after other : List Char} (hbar : '|' ∈ other → '|' ∈ after)
    (h : blockParams? (left ++ '<' :: after) = none) :
    blockParams? (left ++ '<' :: other) = none := by
  by_contra hsome
  rw [← ne_eq, ← Option.isSome_iff_ne_none, Exchange.blockParams?_isSome] at hsome
  obtain ⟨rest, names, hcs, hblank, hrest, hnames⟩ := hsome
  have hfound : (blockParams? (left ++ '<' :: after)).isSome = true := by
    rw [Exchange.blockParams?_isSome]
    have hdrop : ∀ read more : List Char, (read ++ '<' :: more).dropWhile Text.isBlank =
        read.dropWhile Text.isBlank ++ '<' :: more := by
      intro read more
      refine dropWhile_append_of_head ?_
      rintro c ⟨⟩
      rfl
    match left with
    | [] => cases hcs
    | [c] => simp at hcs
    | c :: d :: read =>
        simp only [List.cons_append, List.cons.injEq] at hcs
        obtain ⟨rfl, rfl, rfl⟩ := hcs
        rw [hdrop] at hrest
        cases hread : read.dropWhile Text.isBlank with
        | nil =>
            rw [hread] at hrest
            cases hrest
        | cons e more =>
            rw [hread, List.cons_append, List.cons.injEq] at hrest
            obtain ⟨rfl, rfl⟩ := hrest
            refine ⟨read ++ '<' :: after, more ++ '<' :: after, rfl, ?_, ?_, ?_⟩
            · cases read with
              | nil => cases hread
              | cons f read => exact hblank
            · rw [hdrop, hread, List.cons_append]
            · simp only [List.mem_append, List.mem_cons, Char.reduceEq, false_or] at hnames ⊢
              exact hnames.imp_right hbar
  rw [h] at hfound
  cases hfound

/-- An HTML comment may follow in place of one with another content. -/
theorem replaces_html (h : Delimiters.html.Admits content) (value : List Char) :
    Replaces (Delimiters.html.enclose value ++ rest) (Delimiters.html.enclose content ++ rest) where
  stops := .inr ⟨_, Delimiters.enclose_html_append, rfl⟩
  params left hnone := by
    have hbar : '|' ∈ Delimiters.html.enclose content ++ rest →
      '|' ∈ Delimiters.html.enclose value ++ rest := h.bar_mem value
    rw [Delimiters.enclose_html_append, Delimiters.enclose_html_append] at hbar
    rw [Delimiters.enclose_html_append] at hnone ⊢
    refine blockParams?_bracket (fun hmem => ?_) hnone
    simpa using hbar (List.mem_cons_of_mem _ hmem)
  braces left hnone := by
    rw [breakAt_stopAt_eq_none_iff, braces_infix_html] at hnone ⊢
    rintro (hleft | hcontent | hrest)
    · exact hnone (.inl hleft)
    · exact h.braces hcontent
    · exact hnone (.inr (.inr hrest))

/-- A comment of braces may be exchanged for one with another content. -/
theorem exchange_enclose {delimiters : Delimiters} (hkind : delimiters.kind = .curlyComment)
    (h : delimiters.Admits content) (value : List Char) :
    Exchange (delimiters.enclose value ++ rest) (delimiters.enclose content ++ rest) := by
  have hbegins : ∀ text : List Char, ∃ more,
      delimiters.enclose text ++ rest = '\x7b' :: '\x7b' :: more := by
    intro text
    cases delimiters with
    | html => cases hkind
    | long left right => exact ⟨_, Delimiters.enclose_long_append left right⟩
    | short left right => exact ⟨_, Delimiters.enclose_short_append left right⟩
  have hcloses : ['\x7d', '\x7d'] <:+: delimiters.enclose value := by
    cases delimiters with
    | html => cases hkind
    | long left right =>
        refine (List.suffix_append_of_suffix ?_).isInfix
        exact List.suffix_append ('-' :: '-' :: markChars right) _
    | short left right =>
        refine (List.suffix_append_of_suffix ?_).isInfix
        exact List.suffix_append (markChars right) _
  obtain ⟨old, hold⟩ := hbegins value
  obtain ⟨new, hnew⟩ := hbegins content
  constructor
  · exact ⟨_, _, hold, rfl⟩
  · exact ⟨_, _, hnew, rfl⟩
  · rw [hold, hnew]
    rfl
  · rw [hold, hnew]
    rfl
  · rw [hold, hnew]
    rfl
  · rw [hold]
    nofun
  · exact h.bar_mem value
  · -- the comment closes its own braces, so there is always a find
    intro read hnone
    rw [breakAt_stopAt_eq_none_iff] at hnone
    refine absurd (hcloses.trans ?_) hnone
    exact ⟨read, rest, by rw [List.append_assoc]⟩

/-! ## Scans -/

/-- Where a comment is read, another content is read in its place, and the run up to there is
the same before it. -/
theorem Run.refill {state : State} {pieces : List Piece} {offset : Nat} {read value : List Char}
    {modes next : List OpenMode} {awaitsValue : Bool} {delimiters : Delimiters}
    (h : Run state pieces ⟨offset, delimiters.enclose value ++ rest, modes, awaitsValue⟩)
    (hread : state.rest = read ++ (delimiters.enclose value ++ rest))
    (hstep : State.step ⟨offset, delimiters.enclose value ++ rest, modes, awaitsValue⟩ =
      .emit delimiters.kind value (delimiters.enclose value).length next)
    (hcontent : delimiters.Admits content) :
    next = modes ∧
      State.step ⟨offset, delimiters.enclose content ++ rest, modes, awaitsValue⟩ =
        .emit delimiters.kind content (delimiters.enclose content).length modes ∧
      Run ⟨state.offset, read ++ (delimiters.enclose content ++ rest), state.modes,
          state.awaitsValue⟩ pieces
        ⟨offset, delimiters.enclose content ++ rest, modes, awaitsValue⟩ := by
  have hne : delimiters.enclose value ++ rest ≠ [] := by
    cases delimiters <;> exact nofun
  cases hkind : delimiters.kind with
  | htmlComment =>
      obtain rfl : delimiters = .html := by
        cases delimiters with
        | html => rfl
        | long left right => cases hkind
        | short left right => cases hkind
      obtain rfl : modes = [] := State.attests_of_step hne hstep
      have hsame := h.agree (replaces_html hcontent value) rfl hread
      refine ⟨?_, (takes_enclose hcontent offset awaitsValue).step_eq, hsame⟩
      exact List.map_eq_nil_iff.1 (State.moves_of_step hstep).constructs_eq
  | curlyComment =>
      rw [hkind] at hstep
      obtain ⟨hallows, hbraces⟩ := State.atBraces_of_step hstep (by decide)
      have hexchange : Exchange (delimiters.enclose value ++ rest)
        (delimiters.enclose content ++ rest) := exchange_enclose hkind hcontent value
      have hfilled : AtBraces offset (delimiters.enclose content ++ rest) modes _ :=
        atBraces_enclose hkind hcontent offset modes
      refine ⟨hbraces.next_eq, State.Takes.step_eq (.braces hallows hfilled.atCurly hfilled), ?_⟩
      exact h.exchange hexchange rfl (fun piece _ => hallows.edge hbraces.atCurly piece.kind) hread
  | _ => cases delimiters <;> cases hkind

/-- The content of a comment may be replaced: the comment is read with the new content, and
nothing else is read otherwise. -/
theorem Scanned.refill {text : List Char} {front back : List Piece} {piece : Piece}
    {delimiters : Delimiters} (h : Scanned text (front ++ piece :: back))
    (hkind : piece.kind = delimiters.kind)
    (hslice : slice text piece.start piece.stop = delimiters.enclose piece.value)
    (hcontent : delimiters.Admits content) :
    ∃ stop others,
      Scanned (text.take (piece.start + delimiters.opener.length) ++ content ++
          text.drop (piece.stop - delimiters.closer.length))
        (front ++ ⟨piece.kind, content, piece.start, stop⟩ :: others) ∧
      others.map Piece.reading = back.map Piece.reading := by
  obtain ⟨read, written, rest, modes, next, awaitsValue, rfl, hstart, hstop, hwritten, -, hbefore,
    hstep, hrewrite⟩ := h.exists_rewriting
  obtain rfl : written = delimiters.enclose piece.value := hwritten.symm.trans hslice
  rw [hkind] at hstep
  obtain ⟨rfl, hrefilled, hsame⟩ := hbefore.refill rfl hstep hcontent
  rw [← hkind] at hrefilled
  obtain ⟨others, hscanned, hreading⟩ :=
    hrewrite _ content (by cases delimiters <;> exact nofun) hsame hrefilled
  refine ⟨read.length + (delimiters.enclose content).length, others, ?_, hreading⟩
  rw [hstart] at hscanned ⊢
  rw [hstop, Delimiters.take_drop_enclose]
  exact hscanned

end

end TemplateUsage.Scan
