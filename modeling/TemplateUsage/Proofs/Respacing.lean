import TemplateUsage.Proofs.Rewording
import TemplateUsage.Proofs.Scan.Interchange

set_option autoImplicit false

/-!
# Blanks between tokens

Blanks stand between two tokens only inside of a tag or an expression, and there it does
not matter which blanks they are or how many: with other blanks in their place the same
tokens are read, so a template stays the same template, with the same usages. Main
statement: `Template.splice_blanks`.
-/

namespace TemplateUsage

namespace Scan

/-! ## Exchanges of blanks -/

/-- Closing braces stand on one side of blanks. -/
theorem braces_infix_blanks {read blanks rest : List Char} (hne : blanks ≠ [])
    (hblanks : Blanks blanks) :
    ['\x7d', '\x7d'] <:+: read ++ (blanks ++ rest) ↔
      ['\x7d', '\x7d'] <:+: read ∨ ['\x7d', '\x7d'] <:+: rest := by
  have hbrace : ∀ {c : Char}, Text.isBlank c = true → c ≠ '\x7d' := by
    rintro c hc rfl
    cases hc
  induction blanks generalizing read with
  | nil => exact absurd rfl hne
  | cons c more ih =>
      obtain ⟨hc, hmore⟩ := List.forall_mem_cons.1 hblanks
      rw [List.cons_append, braces_infix_iff (hbrace hc)]
      refine or_congr Iff.rfl ?_
      cases more with
      | nil => rfl
      | cons d more =>
          have hrest : ['\x7d', '\x7d'] <:+: [] ++ (d :: more ++ rest) ↔ _ :=
            ih (List.cons_ne_nil d more) hmore
          simpa using hrest

theorem exchange_blanks {gap blanks rest : List Char} (hgap : gap ≠ []) (hgapBlanks : Blanks gap)
    (hne : blanks ≠ []) (hblanks : Blanks blanks) : Exchange (gap ++ rest) (blanks ++ rest) := by
  -- all that an exchange looks at is the same of any blanks before the same rest
  have hbegins : ∀ {more : List Char}, more ≠ [] → Blanks more →
      Breaks (more ++ rest) ∧ startsBlank (more ++ rest) = true ∧
        (more ++ rest).dropWhile Text.isBlank = rest.dropWhile Text.isBlank ∧
        ∀ start : List Char, startsWith ('\x7b' :: start) (more ++ rest) = false := by
    intro more hmore hmoreBlanks
    obtain ⟨c, tail, rfl⟩ := List.exists_cons_of_ne_nil hmore
    have hc : Text.isBlank c = true := hmoreBlanks c List.mem_cons_self
    refine ⟨⟨c, tail ++ rest, rfl, ?_⟩, hc, List.dropWhile_append_of_pos hmoreBlanks, ?_⟩
    · rw [isBreak, hc, Bool.true_or]
    · intro start
      refine startsWith_eq_false fun left heq => ?_
      obtain rfl := (List.cons.inj heq).1
      cases hc
  obtain ⟨hafterBreaks, hafterBlank, hafterRest, hafterBrace⟩ := hbegins hgap hgapBlanks
  obtain ⟨hotherBreaks, hotherBlank, hotherRest, hotherBrace⟩ := hbegins hne hblanks
  constructor
  · exact hafterBreaks
  · exact hotherBreaks
  · rw [hafterBrace, hotherBrace]
  · rw [hafterBrace, hotherBrace]
  · rw [hafterBlank, hotherBlank]
  · intro _
    rw [hafterRest, hotherRest]
  · intro hbar
    rcases List.mem_append.1 hbar with hbar | hbar
    · cases hblanks _ hbar
    · exact List.mem_append_right _ hbar
  · intro read hnone
    rw [breakAt_stopAt_eq_none_iff] at hnone ⊢
    rwa [braces_infix_blanks hne hblanks, ← braces_infix_blanks hgap hgapBlanks]

/-! ## Scans -/

/-- A gap between two pieces is made of all the blanks there, and lies in a construct that
passes blanks over. -/
theorem Run.gap {state final : State} {piece : Piece} {back : List Piece}
    (h : Run state (piece :: back) final) (hgap : state.offset < piece.start) :
    ∃ gap rest, state.rest = gap ++ rest ∧ gap ≠ [] ∧ Blanks gap ∧
      (∀ c ∈ rest.head?, Text.isBlank c = false) ∧ PassesBlanks state.modes ∧
      piece.start = state.offset + gap.length ∧
      Run ⟨piece.start, rest, state.modes, state.awaitsValue⟩ (piece :: back) final := by
  cases h with
  | emit => exact absurd hgap (Nat.lt_irrefl _)
  | @skip _ _ width _ hne hstep hrun =>
      obtain ⟨offset, text, modes, awaitsValue⟩ := state
      have hwidth : width = (text.takeWhile Text.isBlank).length := State.eq_of_skip hne hstep
      have hpos : 0 < (text.takeWhile Text.isBlank).length := State.blanks_of_skip hne hstep
      have hhead : ∀ c ∈ (text.dropWhile Text.isBlank).head?, Text.isBlank c = false := by
        intro c hc
        have hnot := List.head?_dropWhile_not Text.isBlank text
        rwa [hc] at hnot
      have hdrop : text.drop width = text.dropWhile Text.isBlank := by
        have hleft : (text.takeWhile Text.isBlank ++ text.dropWhile Text.isBlank).drop width =
          text.dropWhile Text.isBlank := List.drop_left' hwidth.symm
        rwa [List.takeWhile_append_dropWhile] at hleft
      have hplace : piece.start = offset + width := by
        cases hrun with
        | emit => rfl
        | skip hleft hagain =>
            have hmore := State.blanks_of_skip hleft hagain
            rw [State.advance, hdrop, ← List.nil_append (text.dropWhile Text.isBlank),
              takeWhile_run (List.forall_mem_nil _) hhead] at hmore
            exact absurd hmore (Nat.lt_irrefl 0)
      refine ⟨text.takeWhile Text.isBlank, text.dropWhile Text.isBlank,
        List.takeWhile_append_dropWhile.symm, List.ne_nil_of_length_pos hpos,
        fun c hc => List.mem_takeWhile_imp hc, hhead, State.passesBlanks_of_step hstep,
        hwidth ▸ hplace, ?_⟩
      rw [hplace, ← hdrop]
      exact hrun

/-- Where blanks are passed over, they may be exchanged after any token. -/
theorem edge_of_passesBlanks {modes : List OpenMode} {after : List Char} (kind : Kind)
    (hmodes : PassesBlanks modes) (hblank : startsBlank after = true) : Edge kind modes after := by
  obtain ⟨⟨mode, start⟩, hopened, hmode⟩ := hmodes
  obtain ⟨outer, rfl⟩ : ∃ outer, modes = _ :: outer := List.head?_eq_some_iff.1 hopened
  rcases hmode with ⟨name, rfl⟩ | ⟨closer, rfl⟩
  · exact .inl hblank
  · exact fun _ => hblank

/-- With other blanks between two pieces the same is read. -/
theorem Scanned.respace {text blanks : List Char} {front back : List Piece} {left right : Piece}
    (h : Scanned text (front ++ left :: right :: back)) (hgap : left.stop < right.start)
    (hne : blanks ≠ []) (hblanks : Blanks blanks) :
    ∃ others, Scanned (text.take left.stop ++ blanks ++ text.drop right.start)
        (front ++ left :: others) ∧
      others.map Piece.reading = (right :: back).map Piece.reading := by
  obtain ⟨final, hrun, hfinal, hclosed⟩ := h
  obtain ⟨⟨offset, rest, modes, awaitsValue⟩, hfront, rfl, hback⟩ := hrun.exists_after
  obtain ⟨gap, rest, rfl, hgapne, hgapBlanks, hhead, hmodes, hplace, hright⟩ := hback.gap hgap
  obtain ⟨read, hread, hoffset⟩ := hfront.exists_read
  obtain rfl : text = read ++ (gap ++ rest) := hread
  replace hoffset : left.stop = read.length := hoffset.trans (Nat.zero_add _)
  have hexchange : Exchange (gap ++ rest) (blanks ++ rest) :=
    exchange_blanks hgapne hgapBlanks hne hblanks
  have hblank : startsBlank (gap ++ rest) = true := by
    obtain ⟨c, tail, rfl⟩ := List.exists_cons_of_ne_nil hgapne
    exact hgapBlanks c List.mem_cons_self
  -- up to the gap nothing changes, and then the other blanks are passed over
  have hsame := hfront.exchange hexchange rfl
    (fun piece _ => edge_of_passesBlanks piece.kind hmodes hblank) rfl
  have hpassed : Run ⟨left.stop, blanks ++ rest, modes, awaitsValue⟩ []
      ⟨left.stop + blanks.length, rest, modes, awaitsValue⟩ := by
    have hall : (blanks ++ rest).takeWhile Text.isBlank = blanks := takeWhile_run hblanks hhead
    have hpos : 0 < ((blanks ++ rest).takeWhile Text.isBlank).length := by
      rw [hall]
      exact List.length_pos_iff.2 hne
    refine .skip (List.append_ne_nil_of_left_ne_nil hne _) (State.step_of_blanks hmodes hpos) ?_
    rw [State.advance, hall, List.drop_left]
    exact .refl _
  have halike : State.Alike ⟨right.start, rest, modes, awaitsValue⟩
    ⟨left.stop + blanks.length, rest, modes, awaitsValue⟩ := ⟨rfl, rfl, rfl⟩
  obtain ⟨others, hscanned, hreading⟩ :=
    Scanned.of_alike (hsame.trans hpassed) halike hright hfinal hclosed
  refine ⟨others, ?_, hreading⟩
  have hplace' : right.start = (read ++ gap).length := by
    rw [hplace, hoffset, List.length_append]
  rw [hoffset, List.take_left, hplace', ← List.append_assoc read gap rest, List.drop_left,
    List.append_assoc]
  rw [List.append_nil, List.append_assoc] at hscanned
  exact hscanned

end Scan

namespace Template

open Scan

/-- Blanks between two neighbouring tokens may be replaced by any other blanks. The scan is
completed as before, with tokens of the same kinds and values. If the text is a template,
then so is the other one, with an equal tree and the same usages. -/
theorem splice_blanks {source other blanks : String} {front back : List Token} {left right : Token}
    (hscan : (Scan.ofText source).rejection = none)
    (htokens : (Scan.ofText source).tokens = front ++ left :: right :: back)
    (hgap : left.lexeme.span.stop.offset < right.lexeme.span.start.offset)
    (hne : blanks ≠ "") (hblanks : Text.isBlankText blanks = true)
    (hother : other =
      splice source left.lexeme.span.stop.offset right.lexeme.span.start.offset blanks) :
    (Scan.ofText other).rejection = none ∧
      (Scan.ofText other).tokens.map Token.reading =
        (Scan.ofText source).tokens.map Token.reading ∧
      ∀ file root, parse file source = .ok root →
        ∃ tree, parse file other = .ok tree ∧ root.same tree = true ∧
          extractTokens file other = extractTokens file source := by
  obtain ⟨pieces, hscanned, hpieces⟩ := exists_scanned hscan
  rw [hpieces] at htokens
  obtain ⟨frontPieces, rest, rfl, -, hrest⟩ := List.map_eq_append_iff.1 htokens
  obtain ⟨leftPiece, rest, rfl, rfl, hright⟩ := List.map_eq_cons_iff.1 hrest
  obtain ⟨rightPiece, backPieces, rfl, rfl, -⟩ := List.map_eq_cons_iff.1 hright
  obtain ⟨others, hrespaced, hreading⟩ := hscanned.respace hgap
    (by simpa using hne) (List.all_eq_true.1 hblanks)
  replace hother : other = splice source leftPiece.stop rightPiece.start blanks := hother
  have hofText := hrespaced.ofText_eq
  rw [← splice, ← hother] at hofText
  have hsame : (Scan.ofText other).tokens.map Token.reading =
      (Scan.ofText source).tokens.map Token.reading := by
    rw [hofText, hpieces]
    refine map_reading_token _ _ ?_
    rw [List.map_append, List.map_append, List.map_cons, hreading, ← List.map_cons]
  have hcomplete : (Scan.ofText other).rejection = none := by rw [hofText]
  refine ⟨hcomplete, hsame, fun file root hparse => ?_⟩
  exact parse_of_wording hcomplete (map_wording_eq hsame) hparse

/-- A call in an attribute, with two blanks before its argument. -/
def spacedCall : String := "<Card @label=\x7b\x7bjoin  title\x7d\x7d />"

/-- An ideographic space and a line break in place of the two blanks. -/
def respacedCall : String := "<Card @label=\x7b\x7bjoin\u3000\ntitle\x7d\x7d />"

/-- The name of the call and its argument are told apart by the other blanks too. -/
theorem splice_blanks_respacedCall :
    ∃ front left right back,
      (Scan.ofText spacedCall).rejection = none ∧
      (Scan.ofText spacedCall).tokens = front ++ left :: right :: back ∧
      left.lexeme.span.stop.offset < right.lexeme.span.start.offset ∧
      "\u3000\n" ≠ "" ∧ Text.isBlankText "\u3000\n" = true ∧
      respacedCall = splice spacedCall left.lexeme.span.stop.offset
        right.lexeme.span.start.offset "\u3000\n" ∧
      (Scan.ofText respacedCall).rejection = none ∧
      (Scan.ofText respacedCall).tokens.map Token.reading =
        (Scan.ofText spacedCall).tokens.map Token.reading ∧
      ∃ root tree, parse "page" spacedCall = .ok root ∧ parse "page" respacedCall = .ok tree ∧
        root.same tree = true ∧
        extractTokens "page" respacedCall = extractTokens "page" spacedCall := by
  have hscan : (Scan.ofText spacedCall).rejection = none := by decide +kernel
  have htokens : (Scan.ofText spacedCall).tokens = (Scan.ofText spacedCall).tokens.take 4 ++
      ⟨.path, "join", ⟨⟨15, 1, 16⟩, ⟨19, 1, 20⟩⟩⟩ :: ⟨.path, "title", ⟨⟨21, 1, 22⟩, ⟨26, 1, 27⟩⟩⟩ ::
        (Scan.ofText spacedCall).tokens.drop 6 := by decide +kernel
  have hrespaced : respacedCall = splice spacedCall 19 21 "\u3000\n" := by decide +kernel
  have hok : (parse "page" spacedCall).isOk = true := by decide +kernel
  obtain ⟨root, hroot⟩ := exists_of_isOk hok
  obtain ⟨hcomplete, hsame, hparse⟩ :=
    splice_blanks hscan htokens (by decide) (by decide) (by decide) hrespaced
  obtain ⟨tree, htree, hequal, husages⟩ := hparse "page" root hroot
  exact ⟨_, _, _, _, hscan, htokens, by decide, by decide, by decide, hrespaced, hcomplete, hsame,
    root, tree, hroot, htree, hequal, husages⟩

end Template

end TemplateUsage
