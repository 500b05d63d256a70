import TemplateUsage.Proofs.Scan.Interchange

set_option autoImplicit false

/-!
# Marks beside braces

A mark may stand beside the braces that open an expression or a comment and beside those
that close one. It widens the token whose braces it stands beside and changes nothing else:
the kind of the token stays the same, the value of a comment too, and all other tokens are
read as before. Main statement: `Scanned.mark`.
-/

namespace TemplateUsage.Scan

/-- Kinds of token that start with two braces. -/
def curlyKinds : List Kind :=
  [.openCurly, .openTriple, .openBlock, .openEndBlock, .openElse, .curlyComment]

/-- Where a token that is written in the slice takes a mark: after the two braces that open
it or after the third one, before the braces that close an expression or after the first of
three, and before the braces that close a comment. There must be none yet. -/
inductive TakesMark (kind : Kind) (slice : List Char) : Nat → Prop where
  | opening : kind ∈ curlyKinds → slice[2]? ≠ some '~' → TakesMark kind slice 2
  | third : kind = .openTriple → slice.getLast? ≠ some '~' → TakesMark kind slice slice.length
  | closing : kind ∈ [Kind.closeCurly, Kind.closeTriple] → '~' ∉ slice → TakesMark kind slice 0
  | amid : kind = .closeTriple → '~' ∉ slice → TakesMark kind slice 1
  | comment : kind = .curlyComment → slice[slice.length - 3]? ≠ some '~' →
      TakesMark kind slice (slice.length - 2)

section

variable {offset width : Nat} {modes next : List OpenMode} {kind : Kind}
  {value cs rest : List Char}

/-! ## After the braces that open -/

theorem Mark.braces {left : List Char} (hleft : Mark left) (inner : List Char)
    (hinner : startsWith ['~'] inner = false) :
    Braces ('\x7b' :: '\x7b' :: (left ++ inner)) left inner := by
  refine ⟨rfl, ?_⟩
  rcases hleft with rfl | rfl
  · exact .inr ⟨rfl, hinner⟩
  · exact .inl rfl

theorem Braces.unmarked {left inner : List Char} (h : Braces ('\x7b' :: '\x7b' :: cs) left inner)
    (hmark : startsWith ['~'] cs = false) :
    left = [] ∧ Braces ('\x7b' :: '\x7b' :: '~' :: cs) ['~'] inner := by
  have htext : cs = left ++ inner := by simpa using h.text
  rcases h.mark with rfl | ⟨rfl, -⟩
  · rw [htext] at hmark
    cases hmark
  · rw [htext]
    exact ⟨rfl, rfl, .inl rfl⟩

/-- A mark that stands after two braces is covered with them. -/
theorem AtBraces.three_le
    (h : AtBraces offset ('\x7b' :: '\x7b' :: '~' :: cs) modes (.emit kind value width next)) :
    3 ≤ width := by
  cases h with
  | opener hbraces =>
      rcases hbraces.mark with rfl | ⟨rfl, hmark⟩
      · simp only [List.length_singleton]
        omega
      · have htext := hbraces.text
        simp only [List.nil_append, List.cons.injEq, true_and] at htext
        rw [← htext] at hmark
        cases hmark
  | comment => omega

/-- A mark after two braces is read with them. -/
theorem AtBraces.mark_opening (hmark : startsWith ['~'] cs = false)
    (h : AtBraces offset ('\x7b' :: '\x7b' :: cs) modes (.emit kind value width next)) :
    ∃ marked, AtBraces offset ('\x7b' :: '\x7b' :: '~' :: cs) modes
        (.emit kind marked (width + 1) next) ∧ (kind = .curlyComment → marked = value) := by
  cases h with
  | @opener left more rest _ closer hbraces hopener =>
      obtain ⟨rfl, hmarked⟩ := hbraces.unmarked hmark
      have hwidth : ([] : List Char).length + 2 + more.length + 1 =
        ['~'].length + 2 + more.length := by simp; omega
      rw [hwidth]
      refine ⟨_, .opener hmarked hopener, ?_⟩
      rintro rfl
      cases hopener
  | @comment left dashes tail _ form stop ending hbraces hcomment hbreak =>
      obtain ⟨rfl, hmarked⟩ := hbraces.unmarked hmark
      have hwidth : ([] : List Char).length + 3 + dashes.length + value.length + ending + 1 =
        ['~'].length + 3 + dashes.length + value.length + ending := by simp; omega
      rw [hwidth]
      exact ⟨value, .comment hmarked hcomment hbreak, fun _ => rfl⟩

/-! ## After the third brace -/

/-- A mark after three braces is read with them. -/
theorem AtBraces.mark_third {slice : List Char}
    (h : AtBraces offset (slice ++ rest) modes (.emit .openTriple value width next))
    (hwidth : width = slice.length) (hmark : slice.getLast? ≠ some '~') :
    ∃ marked, AtBraces offset (slice ++ '~' :: rest) modes
      (.emit .openTriple marked (slice.length + 1) next) := by
  cases h with
  | @opener left more tail _ closer hbraces hopener =>
      obtain ⟨hslice, rfl⟩ : slice = '\x7b' :: '\x7b' :: (left ++ more) ∧ rest = tail :=
        List.append_inj (by simp [hbraces.text]) (by simp; omega)
      cases hopener with
      | markedTriple =>
          refine absurd ?_ hmark
          rw [hslice]
          exact List.getLast?_append_cons ('\x7b' :: '\x7b' :: left) _ _
      | triple =>
          have hmarked : Braces (slice ++ '~' :: rest) left (['\x7b', '~'] ++ rest) := by
            rw [hslice]
            simpa using hbraces.isMark.braces (['\x7b', '~'] ++ rest) rfl
          have hwidth : slice.length + 1 = left.length + 2 + ['\x7b', '~'].length := by
            rw [hslice]
            simp
          rw [hwidth]
          exact ⟨_, .opener hmarked (.markedTriple rest)⟩

/-! ## Before the braces that close a comment -/

/-- What stands before the end of a comment stays its value when the end is exchanged, if no
end is found earlier. -/
theorem breakAt_exchange {stop : List Char → Option Nat} {after other : List Char}
    {ending found : Nat} (h : breakAt stop (value ++ after) = some (value, ending))
    (hother : stop other = some found)
    (hnone : ∀ c more, stop (c :: more ++ after) = none → stop (c :: more ++ other) = none) :
    breakAt stop (value ++ other) = some (value, found) := by
  induction value with
  | nil => exact breakAt_of_stop hother
  | cons c more ih =>
      rw [List.cons_append, breakAt] at h ⊢
      cases hstop : stop (c :: (more ++ after)) with
      | some width =>
          rw [hstop] at h
          cases h
      | none =>
          have hstop' : stop (c :: (more ++ other)) = none := hnone c more hstop
          rw [hstop] at h
          obtain ⟨body, hbody, heq⟩ := Option.map_eq_some_iff.1 h
          obtain ⟨rfl, rfl⟩ : body.1 = more ∧ body.2 = ending := by simpa using heq
          rw [hstop', ih hbody]
          rfl

theorem shortCommentEnd?_eq (cs : List Char) :
    shortCommentEnd? cs =
      if startsWith ['\x7d', '\x7d'] cs then some 2
      else if startsWith ['~', '\x7d', '\x7d'] cs then some 3 else none := by
  unfold shortCommentEnd?
  split
  · rfl
  · rfl
  · rename_i hbare hmarked
    rw [startsWith_eq_false hbare, startsWith_eq_false hmarked]
    rfl

theorem longCommentEnd?_eq (cs : List Char) :
    longCommentEnd? cs =
      if startsWith ['-', '-', '\x7d', '\x7d'] cs then some 4
      else if startsWith ['-', '-', '~', '\x7d', '\x7d'] cs then some 5 else none := by
  unfold longCommentEnd?
  split
  · rfl
  · rfl
  · rename_i hbare hmarked
    rw [startsWith_eq_false hbare, startsWith_eq_false hmarked]
    rfl

/-- A mark before the braces that close a short comment is not a part of its value. -/
theorem breakAt_shortCommentEnd?_mark
    (h : breakAt shortCommentEnd? (value ++ '\x7d' :: '\x7d' :: rest) = some (value, 2)) :
    breakAt shortCommentEnd? (value ++ '~' :: '\x7d' :: '\x7d' :: rest) = some (value, 3) := by
  refine breakAt_exchange h rfl fun c more hnone => ?_
  rw [shortCommentEnd?_eq] at hnone ⊢
  match more with
  | [] => simp [startsWith]
  | [d] => grind [startsWith]
  | d :: e :: more => exact hnone

theorem breakAt_longCommentEnd?_mark
    (h : breakAt longCommentEnd? (value ++ '-' :: '-' :: '\x7d' :: '\x7d' :: rest) =
      some (value, 4)) :
    breakAt longCommentEnd? (value ++ '-' :: '-' :: '~' :: '\x7d' :: '\x7d' :: rest) =
      some (value, 5) := by
  refine breakAt_exchange h rfl fun c more hnone => ?_
  rw [longCommentEnd?_eq] at hnone ⊢
  match more with
  | [] => simp [startsWith]
  | [d] => simp [startsWith]
  | [d, e] => simp [startsWith]
  | [d, e, f] => grind [startsWith]
  | d :: e :: f :: g :: more => exact hnone

/-- Where there is no mark before the braces that close a comment, only the braces are its
end. -/
theorem eq_of_unmarked_end {slice front right tail : List Char} (hright : Mark right)
    (h : slice ++ rest = front ++ (right ++ '\x7d' :: '\x7d' :: tail))
    (hlength : slice.length = front.length + right.length + 2)
    (hmark : slice[slice.length - 3]? ≠ some '~') :
    right = [] ∧ slice = front ++ ['\x7d', '\x7d'] ∧ rest = tail := by
  rcases hright with rfl | rfl
  · have hsplit : slice ++ rest = (front ++ ['\x7d', '\x7d']) ++ tail := by simpa using h
    exact ⟨rfl, List.append_inj hsplit (by simpa using hlength)⟩
  · refine absurd ?_ hmark
    have hlength : slice.length = front.length + 3 := hlength
    have hindex : slice.length - 3 = front.length := by omega
    have hlt : front.length < slice.length := by omega
    calc slice[slice.length - 3]? = (slice ++ rest)[front.length]? := by
          rw [hindex, List.getElem?_append_left hlt]
      _ = some '~' := by simp [h]

/-- A comment in braces ends in the dashes that begin it, an optional mark and two braces. -/
theorem CurlyComment.stop_eq_some {form : CommentForm} {dashes tail after : List Char}
    {stop : List Char → Option Nat} {ending : Nat} (h : CurlyComment form dashes stop tail)
    (hstop : stop after = some ending) :
    ∃ right tail, Mark right ∧ after = dashes ++ (right ++ '\x7d' :: '\x7d' :: tail) ∧
      ending = dashes.length + right.length + 2 := by
  cases h with
  | long =>
      obtain ⟨right, tail, hright, rfl, rfl⟩ := longCommentEnd?_eq_some hstop
      exact ⟨right, tail, hright, by simp, by simp; omega⟩
  | short =>
      obtain ⟨right, tail, hright, rfl, rfl⟩ := shortCommentEnd?_eq_some hstop
      exact ⟨right, tail, hright, by simp, by simp⟩

/-- A mark at the end of a comment is not a part of its value. -/
theorem CurlyComment.mark {form : CommentForm} {dashes : List Char}
    {stop : List Char → Option Nat}
    (h : CurlyComment form dashes stop (value ++ (dashes ++ '\x7d' :: '\x7d' :: rest)))
    (hbreak : breakAt stop (value ++ (dashes ++ '\x7d' :: '\x7d' :: rest)) =
      some (value, dashes.length + 2)) :
    CurlyComment form dashes stop (value ++ (dashes ++ '~' :: '\x7d' :: '\x7d' :: rest)) ∧
      breakAt stop (value ++ (dashes ++ '~' :: '\x7d' :: '\x7d' :: rest)) =
        some (value, dashes.length + 3) := by
  cases h with
  | long => exact ⟨.long _, breakAt_longCommentEnd?_mark hbreak⟩
  | short hshort =>
      refine ⟨.short ?_, breakAt_shortCommentEnd?_mark hbreak⟩
      match value with
      | [] => rfl
      | [c] => simp [startsWith, List.isPrefixOf]
      | c :: d :: value => exact hshort

/-- A mark before the braces that close a comment is read with them. -/
theorem AtBraces.mark_closing {slice : List Char}
    (h : AtBraces offset (slice ++ rest) modes (.emit .curlyComment value width next))
    (hwidth : width = slice.length) (hmark : slice[slice.length - 3]? ≠ some '~') :
    ∃ front, slice = '\x7b' :: '\x7b' :: front ++ ['\x7d', '\x7d'] ∧
      AtBraces offset ('\x7b' :: '\x7b' :: front ++ '~' :: '\x7d' :: '\x7d' :: rest) modes
        (.emit .curlyComment value (slice.length + 1) next) := by
  cases h with
  | opener _ hopener => cases hopener
  | @comment left dashes tail _ form stop ending hbraces hcomment hbreak =>
      obtain ⟨after, rfl, hafter, -⟩ := breakAt_eq_some hbreak
      obtain ⟨right, tail, hright, rfl, rfl⟩ := hcomment.stop_eq_some hafter
      have hfront : slice ++ rest =
          '\x7b' :: '\x7b' :: (left ++ '!' :: (dashes ++ (value ++ dashes))) ++
            (right ++ '\x7d' :: '\x7d' :: tail) := by simp [hbraces.text]
      obtain ⟨rfl, hslice, rfl⟩ := eq_of_unmarked_end hright hfront (by simp; omega) hmark
      refine ⟨_, hslice, ?_⟩
      obtain ⟨hmarked, hfound⟩ := hcomment.mark hbreak
      have hwidth : slice.length + 1 =
          left.length + 3 + dashes.length + value.length + (dashes.length + 3) := by
        rw [hslice]
        simp
        omega
      rw [hwidth]
      refine .comment ?_ hmarked hfound
      simpa using hbraces.isMark.braces
        ('!' :: (dashes ++ (value ++ (dashes ++ '~' :: '\x7d' :: '\x7d' :: rest)))) rfl

/-! ## Steps at braces -/

/-- Tokens of these kinds are found at two braces. -/
theorem State.atBraces_of_step {state : State} (hstep : state.step = .emit kind value width next)
    (hkind : kind ∈ curlyKinds) :
    state.AllowsBraces ∧ AtBraces state.offset state.rest state.modes
      (.emit kind value width next) := by
  cases State.takes_of_step hstep with
  | braces hallows _ hbraces => exact ⟨hallows, hbraces⟩
  | tagEnd | closer =>
      split at hkind
      · exact absurd hkind (by decide)
      · exact absurd hkind (by decide)
  | word _ hfound =>
      have hwords : ∀ kind ∈ curlyKinds, kind ∉ [Kind.blockParams, .string, .hashKey, .number,
        .boolean, .null, .undefined, .path] := by decide
      exact absurd (word_of_wordStep? hfound).kind_mem (hwords kind hkind)
  | _ => exact absurd hkind (by decide)

theorem State.AllowsBraces.edge {state : State} (h : state.AllowsBraces)
    (hcurly : atCurly state.rest = true) (found : Kind) : Edge found state.modes state.rest := by
  obtain ⟨offset, cs, modes, awaitsValue⟩ := state
  rcases modes with _ | ⟨⟨name | quote | closer, start⟩, outer⟩
  · exact hcurly
  · obtain ⟨tail, rfl⟩ := startsWith_iff.1 hcurly
    exact .inr rfl
  · exact hcurly
  · exact h.elim

/-- Braces that close an expression stand where it is the innermost construct. -/
theorem State.closer_of_step {awaitsValue : Bool}
    (hstep : State.step ⟨offset, cs, modes, awaitsValue⟩ = .emit kind value width next)
    (hkind : kind ∈ [Kind.closeCurly, Kind.closeTriple]) :
    ∃ closer start outer found, modes = ⟨.expression closer, start⟩ :: outer ∧
      closer? closer cs = some found ∧
      Step.emit kind value width next =
        .found (if closer = .triple then .closeTriple else .closeCurly) found outer := by
  cases State.takes_of_step hstep with
  | braces _ _ hbraces =>
      cases hbraces with
      | opener _ hopener => cases hopener <;> exact absurd hkind (by decide)
      | comment => exact absurd hkind (by decide)
  | tagEnd =>
      split at hkind
      · exact absurd hkind (by decide)
      · exact absurd hkind (by decide)
  | closer hmodes hfound => exact ⟨_, _, _, _, hmodes, hfound, rfl⟩
  | word _ hfound =>
      have hwords : ∀ kind ∈ [Kind.closeCurly, Kind.closeTriple], kind ∉ [Kind.blockParams,
        .string, .hashKey, .number, .boolean, .null, .undefined, .path] := by decide
      exact absurd (word_of_wordStep? hfound).kind_mem (hwords kind hkind)
  | _ => exact absurd hkind (by decide)

theorem State.step_of_closer {awaitsValue : Bool} {closer : Closer} {found : Found}
    (h : closer? closer cs = some found) (offset start : Nat) (outer : List OpenMode) :
    State.step ⟨offset, cs, ⟨.expression closer, start⟩ :: outer, awaitsValue⟩ =
      .found (if closer = .triple then .closeTriple else .closeCurly) found outer := by
  unfold closer? at h
  split at h <;> cases h
  all_goals rfl

/-! ## Marked texts -/

/-- A mark may be put in after what starts with two braces, and before or after a brace that
closes. -/
theorem exchange_mark {front back : List Char}
    (h : ['\x7b', '\x7b'] <+: front ∨ ['\x7d'] <+: front ∨ (front = [] ∧ ['\x7d'] <+: back)) :
    Exchange (front ++ back) (front ++ '~' :: back) := by
  -- what is asked of the beginnings of the two texts
  have hbegins : Breaks (front ++ back) ∧ Breaks (front ++ '~' :: back) ∧
      startsWith ['\x7b'] (front ++ '~' :: back) = startsWith ['\x7b'] (front ++ back) ∧
      startsWith ['\x7b', '\x7b'] (front ++ '~' :: back) =
        startsWith ['\x7b', '\x7b'] (front ++ back) ∧
      startsBlank (front ++ '~' :: back) = false ∧ startsBlank (front ++ back) = false := by
    rcases h with ⟨more, rfl⟩ | ⟨more, rfl⟩ | ⟨rfl, more, rfl⟩
    · exact ⟨⟨_, _, rfl, rfl⟩, ⟨_, _, rfl, rfl⟩, rfl, rfl, rfl, rfl⟩
    · exact ⟨⟨_, _, rfl, rfl⟩, ⟨_, _, rfl, rfl⟩, rfl, rfl, rfl, rfl⟩
    · exact ⟨⟨_, _, rfl, rfl⟩, ⟨_, _, rfl, rfl⟩, rfl, rfl, rfl, rfl⟩
  obtain ⟨hafter, hother, hbrace, hbraces, hotherBlank, hafterBlank⟩ := hbegins
  constructor
  · exact hafter
  · exact hother
  · exact hbrace
  · exact hbraces
  · rw [hotherBlank, hafterBlank]
  · intro hblank
    rw [hafterBlank] at hblank
    cases hblank
  · intro hbar
    rw [List.mem_append, List.mem_cons] at hbar
    rcases hbar with hbar | hbar | hbar
    · exact List.mem_append_left _ hbar
    · cases hbar
    · exact List.mem_append_right _ hbar
  · intro read hnone
    rw [breakAt_stopAt_eq_none_iff] at hnone ⊢
    rw [← List.append_assoc, braces_infix_iff (by decide)]
    rw [← List.append_assoc] at hnone
    rintro (hleft | hright)
    · exact hnone (hleft.trans (List.prefix_append _ _).isInfix)
    · exact hnone (hright.trans (List.suffix_append _ _).isInfix)

/-- Two braces with a mark that their token takes are read as the same token. -/
theorem AtBraces.of_takesMark {slice : List Char} {place : Nat}
    (h : AtBraces offset (slice ++ rest) modes (.emit kind value width next))
    (hwidth : width = slice.length) (hkind : kind ∈ curlyKinds)
    (hplace : TakesMark kind slice place) :
    ∃ front back, slice = front ++ back ∧ front.length = place ∧ ['\x7b', '\x7b'] <+: front ∧
      ∃ marked, AtBraces offset (front ++ '~' :: (back ++ rest)) modes
        (.emit kind marked (slice.length + 1) next) ∧ (kind = .curlyComment → marked = value) := by
  have hslice : startsWith ['\x7b', '\x7b'] slice = true :=
    startsWith_of_length_le (hwidth ▸ h.two_le) h.atCurly
  cases hplace with
  | opening _ hmark =>
      obtain ⟨back, rfl⟩ := startsWith_iff.1 hslice
      rw [← hwidth]
      refine ⟨['\x7b', '\x7b'], back, rfl, rfl, List.prefix_rfl, h.mark_opening ?_⟩
      -- a mark that follows would be a part of the token
      rw [Bool.eq_false_iff]
      intro hstarts
      obtain ⟨tail, htail⟩ := startsWith_iff.1 hstarts
      cases back with
      | nil =>
          obtain rfl : '~' :: tail = rest := htail
          have hle := h.three_le
          rw [hwidth] at hle
          exact absurd hle (by decide)
      | cons c back =>
          obtain rfl : '~' = c := (List.cons.inj htail).1
          exact hmark rfl
  | third hkind hmark =>
      subst hkind
      obtain ⟨marked, hmarked⟩ := h.mark_third hwidth hmark
      exact ⟨slice, [], (List.append_nil slice).symm, rfl, startsWith_iff.1 hslice, marked,
        hmarked, nofun⟩
  | closing hclosing =>
      rcases List.mem_pair.1 hclosing with rfl | rfl
      · exact absurd hkind (by decide)
      · exact absurd hkind (by decide)
  | amid hclosing =>
      subst hclosing
      exact absurd hkind (by decide)
  | comment hkind hmark =>
      subst hkind
      obtain ⟨front, hfront, hread⟩ := h.mark_closing hwidth hmark
      have hlength : ('\x7b' :: '\x7b' :: front).length = slice.length - 2 := by
        rw [hfront, List.length_append]
        rfl
      exact ⟨_, _, hfront, hlength, ⟨front, rfl⟩, value, hread, fun _ => rfl⟩

/-- A token that starts with two braces takes a mark. -/
theorem State.mark_opening {awaitsValue : Bool} {slice : List Char} {place : Nat}
    (hstep : State.step ⟨offset, slice ++ rest, modes, awaitsValue⟩ =
      .emit kind value slice.length next)
    (hkind : kind ∈ curlyKinds) (hplace : TakesMark kind slice place) :
    place ≤ slice.length ∧
      Exchange (slice ++ rest) (slice.take place ++ '~' :: (slice.drop place ++ rest)) ∧
      (∀ found, Edge found modes (slice ++ rest)) ∧
      ∃ marked, State.step ⟨offset, slice.take place ++ '~' :: (slice.drop place ++ rest), modes,
          awaitsValue⟩ = .emit kind marked (slice.length + 1) next ∧
        (kind = .curlyComment → marked = value) := by
  obtain ⟨hallows, hbraces⟩ := State.atBraces_of_step hstep hkind
  obtain ⟨front, back, rfl, rfl, hfront, marked, hread, hvalue⟩ :=
    hbraces.of_takesMark rfl hkind hplace
  rw [List.take_left, List.drop_left]
  refine ⟨?_, ?_, hallows.edge hbraces.atCurly, marked, ?_, hvalue⟩
  · rw [List.length_append]
    exact Nat.le_add_right _ _
  · rw [List.append_assoc]
    exact exchange_mark (.inl hfront)
  · exact State.Takes.step_eq (.braces hallows hread.atCurly hread)

theorem closer?_of_unmarked {closer : Closer} {found : Found} (h : closer? closer cs = some found)
    (hmark : '~' ∉ found.value) :
    (closer = .double ∧ ∃ tail, cs = '\x7d' :: '\x7d' :: tail ∧ found = .whole ['\x7d', '\x7d']) ∨
      (closer = .triple ∧ ∃ tail, cs = '\x7d' :: '\x7d' :: '\x7d' :: tail ∧
        found = .whole ['\x7d', '\x7d', '\x7d']) := by
  unfold closer? at h
  split at h <;> cases h
  · exact absurd List.mem_cons_self hmark
  · exact .inl ⟨rfl, _, rfl, rfl⟩
  · exact absurd List.mem_cons_self hmark
  · exact .inr ⟨rfl, _, rfl, rfl⟩
  · exact absurd (List.mem_cons_of_mem _ List.mem_cons_self) hmark

/-- Braces that close an expression, with a mark that their token takes, are read as the same
token. -/
theorem closer?_of_takesMark {closer : Closer} {slice : List Char} {place : Nat}
    (hcloser : closer? closer (slice ++ rest) = some ⟨slice, slice.length⟩)
    (hplace : TakesMark (if closer = .triple then .closeTriple else .closeCurly) slice place) :
    ∃ front back, slice = front ++ back ∧ front.length = place ∧
      (['\x7d'] <+: front ∨ (front = [] ∧ ['\x7d'] <+: back ++ rest)) ∧
      ∃ marked, closer? closer (front ++ '~' :: (back ++ rest)) =
        some ⟨marked, slice.length + 1⟩ := by
  cases hplace with
  | opening hkind =>
      cases closer
      · exact absurd hkind (by decide)
      · exact absurd hkind (by decide)
  | third hkind =>
      cases closer <;> cases hkind
  | comment hkind =>
      cases closer <;> cases hkind
  | closing hkind hmark =>
      rcases closer?_of_unmarked hcloser hmark with ⟨rfl, tail, -, hfound⟩ | ⟨rfl, tail, -, hfound⟩
      · obtain rfl := (Found.mk.inj hfound).1
        exact ⟨[], _, rfl, rfl, .inr ⟨rfl, _, rfl⟩, _, rfl⟩
      · obtain rfl := (Found.mk.inj hfound).1
        exact ⟨[], _, rfl, rfl, .inr ⟨rfl, _, rfl⟩, _, rfl⟩
  | amid hkind hmark =>
      rcases closer?_of_unmarked hcloser hmark with ⟨rfl, tail, -, hfound⟩ | ⟨rfl, tail, -, hfound⟩
      · cases hkind
      · obtain rfl := (Found.mk.inj hfound).1
        exact ⟨['\x7d'], ['\x7d', '\x7d'], rfl, rfl, .inl List.prefix_rfl, _, rfl⟩

/-- A token that closes an expression takes a mark. -/
theorem State.mark_closing {awaitsValue : Bool} {slice : List Char} {place : Nat}
    (hstep : State.step ⟨offset, slice ++ rest, modes, awaitsValue⟩ =
      .emit kind value slice.length next)
    (hkind : kind ∈ [Kind.closeCurly, Kind.closeTriple]) (hplace : TakesMark kind slice place) :
    place ≤ slice.length ∧
      Exchange (slice ++ rest) (slice.take place ++ '~' :: (slice.drop place ++ rest)) ∧
      (∀ found, found ≠ Kind.openCurly → found ≠ Kind.openTriple →
        Edge found modes (slice ++ rest)) ∧
      ∃ marked, State.step ⟨offset, slice.take place ++ '~' :: (slice.drop place ++ rest), modes,
          awaitsValue⟩ = .emit kind marked (slice.length + 1) next := by
  obtain ⟨closer, start, outer, found, rfl, hcloser, hfound⟩ := State.closer_of_step hstep hkind
  obtain ⟨text, width⟩ := found
  obtain ⟨rfl, rfl, rfl, rfl⟩ := Step.emit.inj hfound
  obtain rfl : value = slice := by
    have hcovers : Found.Covers .closeCurly ⟨value, slice.length⟩ (slice ++ rest) :=
      closer?_covers (fun _ => rfl) hcloser
    obtain ⟨written, tail, hcs, hlength, rfl⟩ := hcovers
    exact (List.append_inj hcs hlength.symm).1.symm
  obtain ⟨front, back, rfl, rfl, hbraces, marked, hread⟩ := closer?_of_takesMark hcloser hplace
  rw [List.take_left, List.drop_left]
  refine ⟨?_, ?_, fun found hopen htriple => ?_, marked, State.step_of_closer hread _ _ _⟩
  · rw [List.length_append]
    exact Nat.le_add_right _ _
  · rw [List.append_assoc]
    exact exchange_mark (.inr hbraces)
  · rintro (rfl | rfl)
    · exact absurd rfl hopen
    · exact absurd rfl htriple

/-! ## Scans -/

theorem TakesMark.kind_mem {slice : List Char} {place : Nat} (h : TakesMark kind slice place) :
    kind ∈ curlyKinds ∨ kind ∈ [Kind.closeCurly, Kind.closeTriple] := by
  cases h with
  | opening hkind => exact .inl hkind
  | third hkind =>
      subst hkind
      exact .inl (by decide)
  | closing hkind => exact .inr hkind
  | amid hkind =>
      subst hkind
      exact .inr (by decide)
  | comment hkind =>
      subst hkind
      exact .inl (by decide)

/-- A step with a mark that its token takes emits the same token. -/
theorem State.mark {awaitsValue : Bool} {slice : List Char} {place : Nat}
    (hstep : State.step ⟨offset, slice ++ rest, modes, awaitsValue⟩ =
      .emit kind value slice.length next)
    (hplace : TakesMark kind slice place) :
    place ≤ slice.length ∧
      Exchange (slice ++ rest) (slice.take place ++ '~' :: (slice.drop place ++ rest)) ∧
      (∀ found, (kind ∈ [Kind.closeCurly, Kind.closeTriple] →
        found ≠ .openCurly ∧ found ≠ .openTriple) → Edge found modes (slice ++ rest)) ∧
      ∃ marked, State.step ⟨offset, slice.take place ++ '~' :: (slice.drop place ++ rest), modes,
          awaitsValue⟩ = .emit kind marked (slice.length + 1) next ∧
        (kind = .curlyComment → marked = value) := by
  rcases hplace.kind_mem with hkind | hkind
  · obtain ⟨hle, hexchange, hedge, hmarked⟩ := State.mark_opening hstep hkind hplace
    exact ⟨hle, hexchange, fun found _ => hedge found, hmarked⟩
  · obtain ⟨hle, hexchange, hedge, marked, hmarked⟩ := State.mark_closing hstep hkind hplace
    refine ⟨hle, hexchange, fun found hfound => ?_, marked, hmarked, ?_⟩
    · exact hedge found (hfound hkind).1 (hfound hkind).2
    · rintro rfl
      exact absurd hkind (by decide)

/-- With a mark that one of the pieces takes the same is read, if no expression is empty. -/
theorem Scanned.mark {text : List Char} {front back : List Piece} {piece : Piece} {place : Nat}
    (h : Scanned text (front ++ piece :: back))
    (hplace : TakesMark piece.kind (slice text piece.start piece.stop) place)
    (hfront : piece.kind ∈ [Kind.closeCurly, Kind.closeTriple] →
      ∀ left ∈ front.getLast?, left.kind ≠ .openCurly ∧ left.kind ≠ .openTriple) :
    ∃ marked stop others,
      Scanned (text.take (piece.start + place) ++ '~' :: text.drop (piece.start + place))
        (front ++ ⟨piece.kind, marked, piece.start, stop⟩ :: others) ∧
      (piece.kind = .curlyComment → marked = piece.value) ∧
      others.map Piece.reading = back.map Piece.reading := by
  obtain ⟨read, written, rest, modes, next, awaitsValue, rfl, hstart, -, hslice, -, hbefore,
    hstep, hrewrite⟩ := h.exists_rewriting
  rw [hslice] at hplace
  obtain ⟨hle, hexchange, hedge, marked, hmarked, hvalue⟩ := State.mark hstep hplace
  have hsame := hbefore.exchange hexchange rfl
    (fun left hleft => hedge _ fun hkind => hfront hkind left hleft) rfl
  -- the piece is written with the mark in it
  have hwritten : written.take place ++ '~' :: (written.drop place ++ rest) =
      (written.take place ++ '~' :: written.drop place) ++ rest := by simp
  have hlength : written.length + 1 = (written.take place ++ '~' :: written.drop place).length := by
    simp
    omega
  rw [hwritten] at hsame hmarked
  rw [hlength] at hmarked
  obtain ⟨others, hscanned, hreading⟩ := hrewrite _ marked (by simp) hsame hmarked
  refine ⟨marked, read.length + (written.take place ++ '~' :: written.drop place).length, others,
    ?_, hvalue, hreading⟩
  rw [hstart] at hscanned ⊢
  rw [List.take_length_add_append, List.drop_length_add_append, List.take_append_of_le_length hle,
    List.drop_append_of_le_length hle, List.append_assoc, hwritten]
  exact hscanned

end

end TemplateUsage.Scan
