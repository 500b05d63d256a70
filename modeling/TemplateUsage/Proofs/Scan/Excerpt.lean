import TemplateUsage.Proofs.Location.Counting
import TemplateUsage.Proofs.Scan.Locality
import TemplateUsage.Proofs.Tree.Relocation

set_option autoImplicit false

/-!
# Scans of parts of a text

A text that is scanned without a fault may be cut wherever no construct is open: its
two parts are scanned without a fault, into the pieces before and after the cut
(`Scanned.cut`). The tokens of the first part are those of the text; those of the second
are the same up to the place where the counting of lines and columns begins.
-/

namespace TemplateUsage.Scan

/-- The text is scanned to its end into the pieces, and every construct is closed. -/
def Scanned (text : List Char) (pieces : List Piece) : Prop :=
  ∃ final, Run (.initial text) pieces final ∧ final.rest = [] ∧ final.modes = []

section

variable {text : List Char} {pieces : List Piece}

theorem Scanned.ofText_eq (h : Scanned text pieces) :
    ofText (String.ofList text) = ⟨pieces.map (Piece.token (Lines.ofText text)), none⟩ := by
  obtain ⟨final, hrun, hrest, hmodes⟩ := h
  rw [ofText, String.toList_ofList, scanFrom_of_run _ hrun, scanFrom_nil hrest, State.finish,
    hmodes, List.append_nil]
  rfl

theorem exists_scanned {source : String} (h : (ofText source).rejection = none) :
    ∃ pieces, Scanned source.toList pieces ∧
      (ofText source).tokens = pieces.map (Piece.token (Lines.ofText source.toList)) := by
  obtain ⟨pieces, final, hrun, hrest, hmodes, htokens⟩ := exists_run_of_rejection _ _ h
  exact ⟨pieces, ⟨final, hrun, hrest, hmodes⟩, htokens⟩

/-- The pieces of a run lie between its two states. -/
theorem Run.bounds {state final : State} (h : Run state pieces final) :
    ∀ piece ∈ pieces, state.offset ≤ piece.start ∧ piece.start ≤ piece.stop ∧
      piece.stop ≤ final.offset := by
  induction h with
  | refl => nofun
  | @emit state final kind value width modes pieces hne hstep hrun ih =>
      obtain ⟨read, -, hoffset⟩ := hrun.exists_read
      rw [State.advance] at hoffset ih
      rw [List.forall_mem_cons]
      refine ⟨⟨Nat.le_refl _, Nat.le_add_right _ _, ?_⟩, fun piece hpiece => ?_⟩
      · dsimp only at hoffset ⊢
        omega
      · obtain ⟨hstart, hbounds⟩ := ih piece hpiece
        exact ⟨(Nat.le_add_right _ _).trans hstart, hbounds⟩
  | @skip state final width pieces hne hstep hrun ih =>
      rw [State.advance] at ih
      intro piece hpiece
      obtain ⟨hstart, hbounds⟩ := ih piece hpiece
      exact ⟨(Nat.le_add_right _ _).trans hstart, hbounds⟩

theorem Scanned.bounds (h : Scanned text pieces) :
    ∀ piece ∈ pieces, piece.start ≤ text.length ∧ piece.stop ≤ text.length := by
  obtain ⟨final, hrun, hrest, -⟩ := h
  obtain ⟨read, hread, hoffset⟩ := hrun.exists_read
  rw [hrest, List.append_nil] at hread
  obtain rfl : text = read := hread
  intro piece hpiece
  obtain ⟨-, hle, hstop⟩ := hrun.bounds piece hpiece
  rw [hoffset, State.initial, Nat.zero_add] at hstop
  exact ⟨hle.trans hstop, hstop⟩

end

/-! ## Tokens of a part -/

section

variable {front back : List Char} {piece : Piece}

theorem Piece.token_append_left (hstart : piece.start ≤ front.length)
    (hstop : piece.stop ≤ front.length) (back : List Char) :
    piece.token (Lines.ofText (front ++ back)) = piece.token (Lines.ofText front) := by
  have hle : front.length ≤ (front ++ back).length := by
    rw [List.length_append]
    exact Nat.le_add_right _ _
  rw [token, token, Lines.span_ofText (hstart.trans hle) (hstop.trans hle),
    Lines.span_ofText hstart hstop, Point.counted_append_left hstart,
    Point.counted_append_left hstop]

theorem Piece.token_shift_eq (front : List Char) (hstart : piece.start ≤ back.length)
    (hstop : piece.stop ≤ back.length) :
    (piece.shift front.length).token (Lines.ofText (front ++ back)) =
      ⟨piece.kind, ⟨String.ofList piece.value,
        ⟨Point.counted (front ++ back) (front.length + piece.start),
          Point.counted (front ++ back) (front.length + piece.stop)⟩⟩⟩ := by
  have hle : ∀ {offset : Nat}, offset ≤ back.length →
      front.length + offset ≤ (front ++ back).length := by
    intro offset hoffset
    rw [List.length_append]
    omega
  rw [token, shift, Lines.span_ofText (hle hstart) (hle hstop)]

/-- A token of a part is the token of the whole, counted from the start of the part. -/
theorem Piece.token_shift (front : List Char) (hstart : piece.start ≤ back.length)
    (hstop : piece.stop ≤ back.length) :
    (piece.shift front.length).token (Lines.ofText (front ++ back)) =
      (piece.token (Lines.ofText back)).relocate
        (Point.translate (Point.counted (front ++ back) front.length)) := by
  rw [token_shift_eq front hstart hstop, token, Lines.span_ofText hstart hstop,
    Point.counted_append, Point.counted_append]
  rfl

/-- The place of a token in a part can be counted again. -/
theorem Piece.token_unshift (front : List Char) (hstart : piece.start ≤ back.length)
    (hstop : piece.stop ≤ back.length) :
    ((piece.shift front.length).token (Lines.ofText (front ++ back))).relocate
        (fun point => Point.counted back (point.offset - front.length)) =
      piece.token (Lines.ofText back) := by
  rw [token_shift_eq front hstart hstop, token, Lines.span_ofText hstart hstop]
  simp only [Token.relocate, Lexeme.relocate, Span.relocate, Point.offset_counted,
    Nat.add_sub_cancel_left]

end

/-! ## Cutting -/

/-- A run that starts further on is a run that was moved there. -/
theorem Run.exists_unshift {distance : Nat} {state final : State} {pieces : List Piece}
    (h : Run (state.shift distance) pieces final) :
    ∃ others before, Run state others before ∧ pieces = others.map (Piece.shift distance) ∧
      final = before.shift distance := by
  generalize hmoved : state.shift distance = moved at h
  induction h generalizing state with
  | refl moved => exact ⟨[], state, .refl _, rfl, hmoved.symm⟩
  | @emit moved final kind value width modes pieces hne hstep hrun ih =>
      subst hmoved
      rw [State.step_shift] at hstep
      obtain ⟨before, hbefore, rfl⟩ := Step.eq_emit_of_move hstep
      obtain ⟨others, last, hothers, rfl, rfl⟩ := ih (State.shift_advance _ _ _ _ _)
      refine ⟨_, last, .emit hne hbefore hothers, ?_, rfl⟩
      rw [List.map_cons, Piece.shift, ← Nat.add_assoc]
      rfl
  | @skip moved final width pieces hne hstep hrun ih =>
      subst hmoved
      obtain ⟨others, last, hothers, rfl, rfl⟩ := ih (State.shift_advance _ _ _ _ _)
      rw [State.step_shift] at hstep
      exact ⟨others, last, .skip hne (Step.eq_skip_of_move hstep) hothers, rfl, rfl⟩

/-- In content nothing is passed over: the first piece starts at once. -/
theorem Run.start_of_content {offset : Nat} {rest : List Char} {awaitsValue : Bool}
    {final : State} {pieces : List Piece} (h : Run ⟨offset, rest, [], awaitsValue⟩ pieces final) :
    ∀ piece ∈ pieces.head?, piece.start = offset := by
  cases h with
  | refl => nofun
  | emit hne hstep hrun =>
      rintro piece ⟨⟩
      rfl
  | skip hne hstep => exact absurd hstep (State.step_ne_skip rfl _)

theorem Run.rest_of_content {offset : Nat} {rest : List Char} {awaitsValue : Bool}
    {final : State} (h : Run ⟨offset, rest, [], awaitsValue⟩ [] final) : final.rest = rest := by
  cases h with
  | refl => rfl
  | skip hne hstep => exact absurd hstep (State.step_ne_skip rfl _)

/-- A scan can be cut between pieces when no construct is open there. -/
theorem Scanned.cut {text : List Char} {front back : List Piece} (lines : Lines)
    (h : Scanned text (front ++ back))
    (hclosed : openAfter [] (front.map (Piece.token lines)) = []) :
    ∃ read rest others, text = read ++ rest ∧ Scanned read front ∧ Scanned rest others ∧
      back = others.map (Piece.shift read.length) ∧
      (∀ piece ∈ back.head?, piece.start = read.length) ∧ (back = [] → rest = []) := by
  obtain ⟨final, hrun, hrest, hmodes⟩ := h
  obtain ⟨middle, hfront, hback⟩ := hrun.exists_middle
  obtain ⟨read, hread, hoffset⟩ := hfront.exists_read
  rw [State.initial, Nat.zero_add] at hoffset
  -- the kinds of the pieces in front say that the cut is in content
  have hopen := hfront.constructs_eq lines
  rw [State.initial, constructs_nil, hclosed] at hopen
  have hmiddle : middle.modes = [] := List.map_eq_nil_iff.1 hopen
  obtain ⟨offset, rest, modes, awaitsValue⟩ := middle
  obtain rfl : modes = [] := hmiddle
  obtain rfl : offset = read.length := hoffset
  -- the run in front is the same when nothing follows
  have hagree := hfront.agree (inert_nil.replaces _) rfl hread
  rw [List.append_nil] at hagree
  -- the run behind starts over at the cut, as if it had been moved there
  obtain ⟨other, hother, hotherRest, hotherModes⟩ := hback.of_content false
  have hshift : (State.initial rest).shift read.length = ⟨read.length, rest, [], false⟩ := rfl
  rw [← hshift] at hother
  obtain ⟨others, last, hothers, hpieces, rfl⟩ := hother.exists_unshift
  have hlast : last.modes = [] :=
    List.map_eq_nil_iff.1 (hotherModes.trans hmodes)
  refine ⟨read, rest, others, hread, ⟨_, hagree, rfl, rfl⟩,
    ⟨last, hothers, hotherRest.trans hrest, hlast⟩, hpieces, ?_, ?_⟩
  · exact hback.start_of_content
  · rintro rfl
    rw [← hback.rest_of_content, hrest]

end TemplateUsage.Scan
