import Mathlib.Data.List.Chain
import TemplateUsage.Proofs.Scan.Coverage
import TemplateUsage.Proofs.Scan.Trace

set_option autoImplicit false

/-!
# Scanning loses nothing

The tokens of a text and the blanks between them tile the text from its beginning
on: each token starts where the one before it ends or after blanks, and blanks are
passed over only inside an opening tag or an expression. Each token is written in
the characters it covers. A scan that meets no fault reaches the end of the text.

`Tiles` is the invariant of the scan. A step that emits a token puts one token in
front of it (`tiles_emit`), a step over blanks widens the first gap (`tiles_skip`),
and the whole scan follows along its recursion (`exists_tiles_traceFrom`).
`scan_lossless` reads the properties of the tokens off it.
-/

namespace TemplateUsage.Scan

/-! ## Slices and gaps -/

/-- The characters of a text from one offset up to another. -/
def slice (text : List Char) (start stop : Nat) : List Char := (text.drop start).take (stop - start)

/-- Whether blanks are passed over: inside an opening tag and inside an expression. -/
def PassesBlanks (modes : List OpenMode) : Prop :=
  ∃ opened ∈ modes.head?, (∃ name, opened.mode = .tag name) ∨
    ∃ closer, opened.mode = .expression closer

/-- What may stand between two tokens while the constructs `modes` are open. -/
structure Gap (text : List Char) (modes : List OpenMode) (start stop : Nat) : Prop where
  start_le : start ≤ stop
  blanks : Blanks (slice text start stop)
  passes : start < stop → PassesBlanks modes

theorem not_passesBlanks_nil : ¬ PassesBlanks [] := by
  rintro ⟨opened, hmem, -⟩
  simp at hmem

/-- A slice whose characters are known, and the text after it. -/
theorem slice_of_drop_eq {text front rest : List Char} {start : Nat}
    (h : text.drop start = front ++ rest) :
    slice text start (start + front.length) = front ∧
      text.drop (start + front.length) = rest := by
  constructor
  · rw [slice, h, Nat.add_sub_cancel_left, List.take_left]
  · rw [← List.drop_drop, h, List.drop_left]

theorem slice_append {text : List Char} {start middle stop : Nat} (h₁ : start ≤ middle)
    (h₂ : middle ≤ stop) :
    slice text start middle ++ slice text middle stop = slice text start stop := by
  obtain ⟨a, rfl⟩ := Nat.exists_eq_add_of_le h₁
  obtain ⟨b, rfl⟩ := Nat.exists_eq_add_of_le h₂
  have hwhole : start + a + b - start = a + b := by omega
  rw [slice, slice, slice, Nat.add_sub_cancel_left, Nat.add_sub_cancel_left, hwhole,
    ← List.drop_drop]
  exact List.take_add.symm

theorem slice_self (text : List Char) (offset : Nat) : slice text offset offset = [] := by
  simp [slice]

theorem gap_refl (text : List Char) (modes : List OpenMode) (offset : Nat) :
    Gap text modes offset offset where
  start_le := le_rfl
  blanks := by
    rw [slice_self]
    nofun
  passes h := absurd h (lt_irrefl _)

/-- A gap goes on over more blanks. -/
theorem Gap.widen {text : List Char} {modes : List OpenMode} {start middle stop : Nat}
    (hgap : Gap text modes middle stop) (hle : start ≤ middle)
    (hblanks : Blanks (slice text start middle)) (hpasses : PassesBlanks modes) :
    Gap text modes start stop where
  start_le := hle.trans hgap.start_le
  blanks := by
    rw [← slice_append hle hgap.start_le]
    intro c hc
    rcases List.mem_append.1 hc with hc | hc
    · exact hblanks c hc
    · exact hgap.blanks c hc
  passes _ := hpasses

/-! ## Only tags and expressions pass over blanks -/

theorem State.passesBlanks_of_step {state : State} {width : Nat}
    (hstep : state.step = .skip width) : PassesBlanks state.modes := by
  cases State.takes_of_step hstep with
  | braces _ _ hbraces => cases hbraces
  | tagBlanks hmodes | tagOver hmodes =>
      rw [hmodes]
      exact ⟨_, rfl, .inl ⟨_, rfl⟩⟩
  | blanks hmodes | mustacheOver hmodes =>
      rw [hmodes]
      exact ⟨_, rfl, .inr ⟨_, rfl⟩⟩

theorem State.step_ne_skip {state : State} (hmodes : state.modes = []) (width : Nat) :
    state.step ≠ .skip width := by
  intro hstep
  obtain ⟨opened, hopened, -⟩ := State.passesBlanks_of_step hstep
  rw [hmodes] at hopened
  cases hopened

/-! ## Tilings -/

/-- A token covers at least one character, and it is written in what it covers. -/
structure Placed (text : List Char) (token : Token) : Prop where
  start_lt : token.start < token.stop
  stop_le : token.stop ≤ text.length
  written : Written token.kind token.lexeme.value.toList (slice text token.start token.stop)

/-- From an offset on, with the constructs `modes` open, the tokens and the gaps
between them reach the offset `stop`, where the constructs `final` are open. -/
def Tiles (text : List Char) (stop : Nat) (final : List OpenMode) :
    Nat → List OpenMode → List Emission → Prop
  | start, modes, [] => Gap text modes start stop ∧ modes = final
  | start, modes, emission :: rest =>
      Gap text modes start emission.token.start ∧ Placed text emission.token ∧
        Tiles text stop final emission.token.stop emission.modes rest

theorem tiles_skip {text : List Char} {stop : Nat} {final modes : List OpenMode}
    {start middle : Nat} {emissions : List Emission}
    (htiles : Tiles text stop final middle modes emissions) (hle : start ≤ middle)
    (hblanks : Blanks (slice text start middle)) (hpasses : PassesBlanks modes) :
    Tiles text stop final start modes emissions := by
  cases emissions with
  | nil => exact ⟨htiles.1.widen hle hblanks hpasses, htiles.2⟩
  | cons emission rest => exact ⟨htiles.1.widen hle hblanks hpasses, htiles.2⟩

theorem tiles_emit {text : List Char} {stop start : Nat} {final modes : List OpenMode}
    {emission : Emission} {rest : List Emission} (hstart : emission.token.start = start)
    (hplaced : Placed text emission.token)
    (htiles : Tiles text stop final emission.token.stop emission.modes rest) :
    Tiles text stop final start modes (emission :: rest) := by
  subst hstart
  exact ⟨gap_refl text modes _, hplaced, htiles⟩

/-- A step that emits a token places it at the front of the remaining text. -/
theorem placed_of_step (lines : Lines) {text : List Char} {state : State} {kind : Kind}
    {value : List Char} {width : Nat} {modes : List OpenMode}
    (hrest : state.rest = text.drop state.offset) (hne : state.rest ≠ [])
    (hstep : state.step = .emit kind value width modes) :
    Placed text (state.token lines kind value width) := by
  have hadvances := state.step_advances hne
  have hcovers := state.step_covers hne
  rw [hstep] at hadvances hcovers
  obtain ⟨front, rest, hfront, rfl, hwritten⟩ := hcovers
  have hslice := slice_of_drop_eq (hrest.symm.trans hfront)
  refine ⟨Nat.lt_add_of_pos_right hadvances, ?_, ?_⟩
  · have hlength := congrArg List.length (hrest.symm.trans hfront)
    simp only [List.length_drop, List.length_append] at hlength
    have hpos : 0 < front.length := hadvances
    rw [State.stop_token]
    omega
  · rw [State.start_token, State.stop_token, hslice.1]
    simpa [State.token] using hwritten

/-- The tokens from a state on tile the rest of the text. The scan meets no fault
exactly when they reach the end with no construct open. -/
theorem exists_tiles_traceFrom (lines : Lines) (text : List Char) (state : State)
    (hrest : state.rest = text.drop state.offset) (hoffset : state.offset ≤ text.length) :
    ∃ stop final, Tiles text stop final state.offset state.modes (traceFrom lines state) ∧
      ((scanFrom lines state).rejection = none → stop = text.length ∧ final = []) := by
  fun_induction traceFrom lines state with
  | case1 state hnil =>
      refine ⟨state.offset, state.modes, ⟨gap_refl _ _ _, rfl⟩, fun hnone => ⟨?_, ?_⟩⟩
      · rw [hrest, List.drop_eq_nil_iff] at hnil
        omega
      · rw [scanFrom_nil hnil] at hnone
        simpa [State.finish] using hnone
  | case2 state hne kind value width modes hstep ih =>
      have hplaced := placed_of_step lines hrest hne hstep
      obtain ⟨stop, final, htiles, hend⟩ :=
        ih (State.rest_advance hrest _ _ _) hplaced.stop_le
      refine ⟨stop, final, tiles_emit rfl hplaced htiles, fun hnone => hend ?_⟩
      rwa [scanFrom_emit hne hstep] at hnone
  | case3 state hne width hstep ih =>
      -- no token is emitted: the blanks go to the gap before the next one
      have hcovers := state.step_covers hne
      rw [hstep] at hcovers
      obtain ⟨blanks, rest, hblanks, rfl, hall⟩ := hcovers
      have hslice := slice_of_drop_eq (hrest.symm.trans hblanks)
      have hle : state.offset + blanks.length ≤ text.length := by
        have hlength := congrArg List.length (hrest.symm.trans hblanks)
        simp only [List.length_drop, List.length_append] at hlength
        omega
      obtain ⟨stop, final, htiles, hend⟩ := ih (State.rest_advance hrest _ _ _) hle
      refine ⟨stop, final, tiles_skip htiles (Nat.le_add_right _ _) ?_
        (State.passesBlanks_of_step hstep), fun hnone => hend ?_⟩
      · rw [State.advance, hslice.1]
        exact hall
      · rwa [scanFrom_skip hne hstep] at hnone
  | case4 state hne fault width hstep =>
      -- the tokens before a fault still tile the text up to where it is met
      refine ⟨state.offset, state.modes, ⟨gap_refl _ _ _, rfl⟩, fun hnone => ?_⟩
      rw [scanFrom_fail hne hstep] at hnone
      cases hnone

/-! ## What a tiling gives -/

section Tiling

variable {text : List Char} {stop start : Nat} {final modes : List OpenMode}
  {emissions : List Emission}

theorem Tiles.placed (htiles : Tiles text stop final start modes emissions) :
    ∀ emission ∈ emissions, Placed text emission.token := by
  induction emissions generalizing start modes with
  | nil => nofun
  | cons first rest ih =>
      obtain ⟨-, hplaced, hrest⟩ := htiles
      intro emission hmem
      rcases List.mem_cons.1 hmem with rfl | hmem
      · exact hplaced
      · exact ih hrest emission hmem

/-- Outside tags and expressions the first token starts at once. -/
theorem Tiles.start_of_head (htiles : Tiles text stop final start [] emissions) :
    ∀ emission ∈ emissions.head?, emission.token.start = start := by
  cases emissions with
  | nil => nofun
  | cons first rest =>
      intro emission hmem
      cases hmem
      have hgap := htiles.1
      by_contra hne
      exact not_passesBlanks_nil (hgap.passes (lt_of_le_of_ne hgap.start_le (Ne.symm hne)))

theorem Tiles.isChain (htiles : Tiles text stop final start modes emissions) :
    emissions.IsChain fun first next =>
      Gap text first.modes first.token.stop next.token.start := by
  induction emissions generalizing start modes with
  | nil => exact .nil
  | cons first rest ih =>
      obtain ⟨-, -, hrest⟩ := htiles
      cases rest with
      | nil => exact .singleton first
      | cons next rest => exact .cons_cons hrest.1 (ih hrest)

/-- With no construct open at the end, the last token ends where the tiling does. -/
theorem Tiles.stop_of_getLast (htiles : Tiles text stop [] start modes emissions) :
    (∀ emission ∈ emissions.getLast?, emission.token.stop = stop) ∧
      (emissions = [] → start = stop) := by
  induction emissions generalizing start modes with
  | nil =>
      obtain ⟨hgap, rfl⟩ := htiles
      refine ⟨nofun, fun _ => ?_⟩
      -- a last gap would need an open tag or expression
      by_contra hne
      exact not_passesBlanks_nil (hgap.passes (lt_of_le_of_ne hgap.start_le hne))
  | cons first rest ih =>
      obtain ⟨-, -, hrest⟩ := htiles
      obtain ⟨hlast, hnil⟩ := ih hrest
      refine ⟨fun emission hmem => ?_, nofun⟩
      cases rest with
      | nil =>
          cases hmem
          exact hnil rfl
      | cons next rest => exact hlast emission (by simpa using hmem)

theorem Tiles.start_le_of_mem (htiles : Tiles text stop final start modes emissions) :
    ∀ emission ∈ emissions, start ≤ emission.token.start := by
  induction emissions generalizing start modes with
  | nil => nofun
  | cons first rest ih =>
      obtain ⟨hgap, hplaced, hrest⟩ := htiles
      intro emission hmem
      rcases List.mem_cons.1 hmem with rfl | hmem
      · exact hgap.start_le
      · have hfirst := hgap.start_le.trans hplaced.start_lt.le
        exact hfirst.trans (ih hrest emission hmem)

theorem mem_slice {c : Char} {i : Nat} (hchar : text[i]? = some c) (hstart : start ≤ i)
    (hstop : i < stop) : c ∈ slice text start stop := by
  obtain ⟨k, rfl⟩ := Nat.exists_eq_add_of_le hstart
  refine List.mem_of_getElem? (i := k) ?_
  rw [slice, List.getElem?_take_of_lt (by omega), List.getElem?_drop]
  exact hchar

/-- Up to the end of the last token, a character that is not blank belongs to one token. -/
theorem Tiles.existsUnique_token (htiles : Tiles text stop final start modes emissions) {i : Nat}
    {c : Char} (hchar : text[i]? = some c) (hblank : Text.isBlank c = false) (hstart : start ≤ i)
    (hlast : ∃ last ∈ emissions.getLast?, i < last.token.stop) :
    ∃! token, token ∈ emissions.map Emission.token ∧ token.start ≤ i ∧ i < token.stop := by
  induction emissions generalizing start modes with
  | nil =>
      obtain ⟨last, hmem, -⟩ := hlast
      simp at hmem
  | cons first rest ih =>
      obtain ⟨hgap, hplaced, hrest⟩ := htiles
      -- before the first token stand blanks only
      have hfirst : first.token.start ≤ i := by
        by_contra hlt
        have hmem := mem_slice hchar hstart (Nat.lt_of_not_le hlt)
        simp [hgap.blanks c hmem] at hblank
      by_cases hstop : i < first.token.stop
      · -- the tokens after the first one start after the character
        refine ⟨first.token, ⟨by simp, hfirst, hstop⟩, ?_⟩
        rintro token ⟨hmem, hle, -⟩
        rw [List.map_cons, List.mem_cons] at hmem
        rcases hmem with rfl | hmem
        · rfl
        · obtain ⟨emission, hemission, rfl⟩ := List.mem_map.1 hmem
          have hafter := hrest.start_le_of_mem emission hemission
          omega
      · have hlast' : ∃ last ∈ rest.getLast?, i < last.token.stop := by
          obtain ⟨last, hmem, hlt⟩ := hlast
          cases rest with
          | nil =>
              cases hmem
              exact absurd hlt hstop
          | cons next rest => exact ⟨last, by simpa using hmem, hlt⟩
        obtain ⟨token, ⟨hmem, hholds⟩, hunique⟩ := ih hrest (Nat.le_of_not_lt hstop) hlast'
        refine ⟨token, ⟨List.mem_cons_of_mem _ hmem, hholds⟩, ?_⟩
        rintro other ⟨hother, hle, hlt⟩
        rw [List.map_cons, List.mem_cons] at hother
        rcases hother with rfl | hother
        · exact absurd hlt hstop
        · exact hunique other ⟨hother, hle, hlt⟩

end Tiling

/-- The tokens of a text tile it, and without a fault they reach its end with nothing open. -/
theorem exists_tiles_trace (source : String) :
    ∃ stop final, Tiles source.toList stop final 0 [] (trace source) ∧
      ((ofText source).rejection = none → stop = source.length ∧ final = []) := by
  obtain ⟨stop, final, htiles, hend⟩ :=
    exists_tiles_traceFrom (Lines.ofText source.toList) source.toList
      (State.initial source.toList) rfl (Nat.zero_le _)
  exact ⟨stop, final, htiles, hend⟩

theorem map_token_trace (source : String) :
    (trace source).map Emission.token = (ofText source).tokens :=
  map_token_traceFrom _ _

/-- Scanning loses nothing. Of every text, the first token starts at its beginning;
each token covers at least one character and is written there, in a form that
fixes its value; between a token and the next stand blanks only, and none unless a
tag or an expression is open; and up to the end of the last token each character
that is not blank belongs to exactly one token. If the scan meets no fault, the
last token ends the text, and only the empty text has no token. -/
theorem scan_lossless (source : String) :
    (trace source).map Emission.token = (ofText source).tokens ∧
    (∀ token ∈ (ofText source).tokens.head?, token.start = 0) ∧
    (∀ token ∈ (ofText source).tokens,
      token.start < token.stop ∧ token.stop ≤ source.length ∧
        Written token.kind token.lexeme.value.toList
          (slice source.toList token.start token.stop)) ∧
    (∀ kind value value' text, Written kind value text → Written kind value' text →
      value = value') ∧
    (trace source).IsChain (fun first next =>
      first.token.stop ≤ next.token.start ∧
        Blanks (slice source.toList first.token.stop next.token.start) ∧
        (first.token.stop < next.token.start → PassesBlanks first.modes)) ∧
    (∀ last ∈ (ofText source).tokens.getLast?, ∀ i < last.stop, ∀ c,
      source.toList[i]? = some c → Text.isBlank c = false →
        ∃! token, token ∈ (ofText source).tokens ∧ token.start ≤ i ∧ i < token.stop) ∧
    ((ofText source).rejection = none →
      (∀ token ∈ (ofText source).tokens.getLast?, token.stop = source.length) ∧
        ((ofText source).tokens = [] → source = "")) := by
  obtain ⟨stop, final, htiles, hend⟩ := exists_tiles_trace source
  -- every property of the tokens is one of the traced scan, and read off its tiling there
  rw [← map_token_trace source]
  refine ⟨rfl, ?_, ?_, fun _ _ _ _ => Written.value_unique, ?_, ?_, ?_⟩
  · intro token hmem
    rw [List.head?_map, Option.mem_def, Option.map_eq_some_iff] at hmem
    obtain ⟨emission, hemission, rfl⟩ := hmem
    exact htiles.start_of_head emission hemission
  · intro token hmem
    obtain ⟨emission, hemission, rfl⟩ := List.mem_map.1 hmem
    have hplaced := htiles.placed emission hemission
    exact ⟨hplaced.start_lt, hplaced.stop_le, hplaced.written⟩
  · exact htiles.isChain.imp fun _ _ hgap => ⟨hgap.start_le, hgap.blanks, hgap.passes⟩
  · intro last hlast i hi c hchar hblank
    rw [List.getLast?_map, Option.mem_def, Option.map_eq_some_iff] at hlast
    obtain ⟨emission, hemission, rfl⟩ := hlast
    exact htiles.existsUnique_token hchar hblank (Nat.zero_le i) ⟨emission, hemission, hi⟩
  · intro hnone
    obtain ⟨rfl, rfl⟩ := hend hnone
    obtain ⟨hlast, hnil⟩ := htiles.stop_of_getLast
    refine ⟨fun token hmem => ?_, fun htokens => ?_⟩
    · rw [List.getLast?_map, Option.mem_def, Option.map_eq_some_iff] at hmem
      obtain ⟨emission, hemission, rfl⟩ := hmem
      exact hlast emission hemission
    · have hlength := hnil (List.map_eq_nil_iff.1 htokens)
      exact String.length_eq_zero_iff.1 hlength.symm

/-- A tag with a quoted value, block parameters and blanks between its parts is
scanned to its end, and the last token ends with the text. -/
theorem scan_lossless_tag :
    (ofText "<A b = '\x7b\x7bc\x7d\x7d' as |d|/>").rejection = none ∧
      ∃ last ∈ (ofText "<A b = '\x7b\x7bc\x7d\x7d' as |d|/>").tokens.getLast?,
        last.kind = .tagSelfClose ∧ last.stop = 23 := by
  have hnone : (ofText "<A b = '\x7b\x7bc\x7d\x7d' as |d|/>").rejection = none := by
    decide +kernel
  have hkind : (ofText "<A b = '\x7b\x7bc\x7d\x7d' as |d|/>").tokens.getLast?.map Token.kind =
      some .tagSelfClose := by
    decide +kernel
  obtain ⟨last, hlast, hkind⟩ := Option.map_eq_some_iff.1 hkind
  obtain ⟨-, -, -, -, -, -, hend⟩ := scan_lossless "<A b = '\x7b\x7bc\x7d\x7d' as |d|/>"
  exact ⟨hnone, last, hlast, hkind, (hend hnone).1 last hlast⟩

end TemplateUsage.Scan
