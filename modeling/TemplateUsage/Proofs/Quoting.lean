import TemplateUsage.Proofs.Overlong
import TemplateUsage.Proofs.Scan.Termination
import TemplateUsage.Proofs.Tree.Nesting

set_option autoImplicit false

/-!
# Strings and how they are written

Between its quotes a string is written in units, each a character that stands for itself or
a backslash and the character it stands for (`StringUnit`). The scanner finds the closing
quote unit by unit (`stringBody?_units`), and reading the string takes the same units apart
(`Literal.unescape_units`), whatever backslashes stand side by side. Every string can be
written so (`escape`). Main statement: `strings_written_and_read`.
-/

namespace TemplateUsage

/-! ## Units -/

/-- A unit of what is written between quotes. -/
inductive StringUnit (quote : Char) where
  /-- A character that stands for itself. -/
  | plain (c : Char) (isPlain : c ≠ '\\' ∧ c ≠ quote)
  /-- A backslash and the character it stands for. -/
  | escaped (c : Char)

namespace StringUnit

variable {quote : Char}

/-- A unit as it is written. -/
def text : StringUnit quote → List Char
  | .plain c _ => [c]
  | .escaped c => ['\\', c]

/-- The character a unit stands for. -/
def char : StringUnit quote → Char
  | .plain c _ => c
  | .escaped c => c

end StringUnit

/-- A text with a backslash before every backslash and every quote. -/
def escape (quote : Char) (cs : List Char) : List Char :=
  cs.flatMap fun c => if c = '\\' ∨ c = quote then ['\\', c] else [c]

theorem escape_cons (quote c : Char) (rest : List Char) :
    escape quote (c :: rest) =
      (if c = '\\' ∨ c = quote then ['\\', c] else [c]) ++ escape quote rest :=
  List.flatMap_cons

/-- An escaped text is written in units that stand for its characters. -/
theorem exists_units_escape (quote : Char) (cs : List Char) :
    ∃ units : List (StringUnit quote),
      units.flatMap StringUnit.text = escape quote cs ∧ units.map StringUnit.char = cs := by
  induction cs with
  | nil => exact ⟨[], rfl, rfl⟩
  | cons c rest ih =>
      obtain ⟨units, htext, hchars⟩ := ih
      by_cases hc : c = '\\' ∨ c = quote
      · refine ⟨.escaped c :: units, ?_, congrArg (c :: ·) hchars⟩
        rw [escape_cons, if_pos hc, List.flatMap_cons, htext]
        rfl
      · refine ⟨.plain c (not_or.1 hc) :: units, ?_, congrArg (c :: ·) hchars⟩
        rw [escape_cons, if_neg hc, List.flatMap_cons, htext]
        rfl

/-- Reading a string takes its units apart. -/
theorem Literal.unescape_units {quote : Char} (units : List (StringUnit quote)) :
    unescape (units.flatMap StringUnit.text) = units.map StringUnit.char := by
  induction units with
  | nil => rfl
  | cons unit rest ih =>
      rw [List.flatMap_cons, List.map_cons, ← ih]
      cases unit with
      | plain c isPlain =>
          refine unescape.eq_3 _ _ fun d more hslash => ?_
          exact absurd hslash isPlain.1
      | escaped c => exact unescape.eq_2 _ _

theorem Literal.read_units {quote : Char} (units : List (StringUnit quote)) :
    read .string (String.ofList (units.flatMap StringUnit.text)) =
      .ok (.string (String.ofList (units.map StringUnit.char))) := by
  rw [read, String.toList_ofList, unescape_units]

namespace Scan

/-! ## The closing quote -/

/-- A quote after units closes the string. -/
theorem stringBody?_units {quote : Char} (hquote : quote ≠ '\\')
    (units : List (StringUnit quote)) (rest : List Char) :
    stringBody? quote (units.flatMap StringUnit.text ++ quote :: rest) =
      some (units.flatMap StringUnit.text) := by
  induction units with
  | nil =>
      rw [List.flatMap_nil, List.nil_append, stringBody?.eq_3, if_pos rfl]
      exact fun c more hslash => absurd hslash hquote
  | cons unit others ih =>
      rw [List.flatMap_cons, List.append_assoc]
      cases unit with
      | plain c isPlain =>
          show stringBody? quote (c :: (others.flatMap StringUnit.text ++ quote :: rest)) = _
          rw [stringBody?.eq_3, if_neg isPlain.2, if_neg isPlain.1, ih]
          · rfl
          · exact fun d more hslash => absurd hslash isPlain.1
      | escaped c =>
          show stringBody? quote
            ('\\' :: c :: (others.flatMap StringUnit.text ++ quote :: rest)) = _
          rw [stringBody?, ih]
          rfl

/-- What stands before the closing quote is written in units. -/
theorem exists_units_of_stringBody? {quote : Char} {cs body : List Char}
    (h : stringBody? quote cs = some body) :
    ∃ units : List (StringUnit quote), units.flatMap StringUnit.text = body := by
  fun_induction stringBody? quote cs generalizing body with
  | case1 => cases h
  | case2 c rest ih =>
      obtain ⟨inner, hinner, rfl⟩ := Option.map_eq_some_iff.1 h
      obtain ⟨units, rfl⟩ := ih hinner
      exact ⟨.escaped c :: units, rfl⟩
  | case3 rest _ =>
      cases h
      exact ⟨[], rfl⟩
  | case4 => cases h
  | case5 c rest _ hquote hslash ih =>
      obtain ⟨inner, hinner, rfl⟩ := Option.map_eq_some_iff.1 h
      obtain ⟨units, rfl⟩ := ih hinner
      exact ⟨.plain c ⟨hslash, hquote⟩ :: units, rfl⟩

/-- A string that is found stands in quotes and is written in units. -/
theorem exists_units_of_string? {cs : List Char} {found : Found} (h : string? cs = some found) :
    ∃ quote, (quote = '"' ∨ quote = '\'') ∧ ∃ units : List (StringUnit quote), ∃ rest,
      found.value = units.flatMap StringUnit.text ∧ found.width = found.value.length + 2 ∧
        cs = (quote :: found.value ++ [quote]) ++ rest := by
  unfold string? at h
  split at h
  · rename_i quote rest
    split at h
    · rename_i hquote
      obtain ⟨body, hbody, rfl⟩ := Option.map_eq_some_iff.1 h
      obtain ⟨tail, rfl⟩ := stringBody?_eq_some hbody
      obtain ⟨units, hunits⟩ := exists_units_of_stringBody? hbody
      exact ⟨quote, by simpa using hquote, units, tail, hunits.symm, rfl, by simp⟩
    · cases h
  · cases h

/-! ## Strings of a text -/

/-- A string of a step is found at the front of the text. -/
theorem State.string?_of_step {state : State} {value : List Char} {width : Nat}
    {modes : List OpenMode} (hstep : state.step = .emit .string value width modes) :
    string? state.rest = some ⟨value, width⟩ := by
  generalize hkind : Kind.string = kind at hstep
  cases State.takes_of_step hstep with
  | braces _ _ hbraces =>
      cases hbraces with
      | opener _ hopener => cases hopener <;> cases hkind
      | comment => cases hkind
  | tagEnd =>
      split at hkind <;> cases hkind
  | closer =>
      split at hkind <;> cases hkind
  | word _ hfound =>
      cases word_of_wordStep? hfound with
      | keyword hmem => rcases (mem_keywords hmem).2 with rfl | rfl | rfl <;> cases hkind
      | string h => exact h
      | _ => cases hkind
  | _ => cases hkind

/-- Every token of a text is that of a step. -/
theorem exists_step_of_mem_tokens {source : String} {token : Token}
    (hmem : token ∈ (ofText source).tokens) :
    ∃ (state : State) (kind : Kind) (value : List Char) (width : Nat) (modes : List OpenMode),
      state.rest = source.toList.drop state.offset ∧
      state.step = .emit kind value width modes ∧
      token = state.token (Lines.ofText source.toList) kind value width := by
  obtain ⟨pieces, final, hrun, htokens, -⟩ :=
    exists_run_to_end (Lines.ofText source.toList) (.initial source.toList)
  rw [ofText, htokens] at hmem
  obtain ⟨piece, hpiece, rfl⟩ := List.mem_map.1 hmem
  obtain ⟨front, back, rfl⟩ := List.append_of_mem hpiece
  obtain ⟨state, width, modes, hfront, -, hstep, hstart, hstop, -⟩ := hrun.exists_step
  have htracked : Tracked source.toList front state := (tracked_initial _).run hfront
  refine ⟨state, piece.kind, piece.value, width, modes, htracked.rest, hstep, ?_⟩
  rw [Piece.token, ← hstart, ← hstop]
  rfl

/-- A string of a text stands in quotes and is written in units. -/
theorem exists_units_of_mem_tokens {source : String} {token : Token}
    (hmem : token ∈ (ofText source).tokens) (hkind : token.kind = .string) :
    ∃ quote, (quote = '"' ∨ quote = '\'') ∧ ∃ units : List (StringUnit quote),
      slice source.toList token.start token.stop =
          quote :: token.lexeme.value.toList ++ [quote] ∧
        token.lexeme.value.toList = units.flatMap StringUnit.text := by
  obtain ⟨state, kind, value, width, modes, hrest, hstep, rfl⟩ :=
    exists_step_of_mem_tokens hmem
  obtain rfl : kind = .string := hkind
  have hquotes := State.string?_of_step hstep
  obtain ⟨quote, hquote, units, rest, hvalue, hwidth, hsplit⟩ := exists_units_of_string? hquotes
  dsimp only at hvalue hwidth hsplit
  refine ⟨quote, hquote, units, ?_, ?_⟩
  · have hlength : width = (quote :: value ++ [quote]).length := by simp [hwidth]
    show slice _ _ _ = quote :: (String.ofList value).toList ++ [quote]
    rw [State.start_token, State.stop_token, hlength, String.toList_ofList]
    exact (slice_of_drop_eq (hrest.symm.trans hsplit)).1
  · show (String.ofList value).toList = _
    rw [String.toList_ofList, hvalue]

/-! ## A string between braces -/

/-- A call of `f` with a string: braces, `f`, a blank and the string in quotes. -/
def stringCall (quote : Char) (body : List Char) : List Char :=
  '\x7b' :: '\x7b' :: 'f' :: ' ' :: quote :: (body ++ quote :: ['\x7d', '\x7d'])

/-- The argument of the call is the string in its quotes. -/
theorem stringCall_eq (quote : Char) (body : List Char) :
    stringCall quote body = callText (quote :: body ++ [quote]) := by
  simp [stringCall, callText]

section

variable {quote : Char} (hquote : quote = '"' ∨ quote = '\'')
include hquote

theorem string?_units (units : List (StringUnit quote)) (rest : List Char) :
    string? (quote :: (units.flatMap StringUnit.text ++ quote :: rest)) =
      some ⟨units.flatMap StringUnit.text, (units.flatMap StringUnit.text).length + 2⟩ := by
  have hslash : quote ≠ '\\' := by
    rcases hquote with rfl | rfl
    · decide
    · decide
  rw [string?, if_pos (by simpa using hquote), stringBody?_units hslash]
  rfl

/-- In an expression a quote begins a string. -/
theorem wordStep?_units (units : List (StringUnit quote)) (rest : List Char) :
    wordStep? (quote :: units.flatMap StringUnit.text ++ [quote] ++ rest) =
      some (.string, ⟨units.flatMap StringUnit.text,
        (quote :: units.flatMap StringUnit.text ++ [quote]).length⟩) := by
  have hstring := string?_units hquote units rest
  have hparams : ∀ after, blockParams? (quote :: after) = none := by
    rcases hquote with rfl | rfl
    · exact fun after => rfl
    · exact fun after => rfl
  rw [List.append_assoc, List.singleton_append, List.cons_append,
    wordStep?_of_string (hparams _) hstring, List.length_append]
  rfl

end

end Scan

namespace Template

open Phrase Scan

/-- A call with a string is parsed as this call with what the units stand for. -/
theorem parse_stringCall (file : String) {quote : Char} (hquote : quote = '"' ∨ quote = '\'')
    (units : List (StringUnit quote)) {text : List Char}
    (htext : text = stringCall quote (units.flatMap StringUnit.text)) :
    parse file (String.ofList text) =
      .ok (callTree file text (.string (String.ofList (units.map StringUnit.char)))) := by
  have hstart : endsWord (quote :: units.flatMap StringUnit.text ++ [quote] ++
      ['\x7d', '\x7d']) = false := by
    rcases hquote with rfl | rfl
    · rfl
    · rfl
  rw [stringCall_eq] at htext
  exact parse_callText .string hstart (wordStep?_units hquote units _) file
    (Literal.read_units units) htext

/-- Every string can be written, in either quotes. With a backslash before each backslash and
each of the quotes, the call of `f` with it is parsed as this call with the string. In every
text, a string token stands in quotes, its value is written in units, and reading it gives
the characters the units stand for. -/
theorem strings_written_and_read :
    (∀ (file value : String) (quote : Char), quote = '"' ∨ quote = '\'' →
      ∀ text, text = stringCall quote (escape quote value.toList) →
      parse file (String.ofList text) = .ok (callTree file text (.string value))) ∧
    ∀ (source : String), ∀ token ∈ (ofText source).tokens, token.kind = .string →
      ∃ quote, (quote = '"' ∨ quote = '\'') ∧ ∃ units : List (StringUnit quote),
        slice source.toList token.start token.stop =
            quote :: token.lexeme.value.toList ++ [quote] ∧
          token.lexeme.value.toList = units.flatMap StringUnit.text ∧
          Literal.read .string token.lexeme.value =
            .ok (.string (String.ofList (units.map StringUnit.char))) := by
  refine ⟨fun file value quote hquote text htext => ?_, fun source token hmem hkind => ?_⟩
  · obtain ⟨units, hunits, hchars⟩ := exists_units_escape quote value.toList
    rw [← hunits] at htext
    rw [parse_stringCall file hquote units htext, hchars, String.ofList_toList]
  · obtain ⟨quote, hquote, units, hslice, hvalue⟩ := exists_units_of_mem_tokens hmem hkind
    refine ⟨quote, hquote, units, hslice, hvalue, ?_⟩
    rw [← String.ofList_toList (s := token.lexeme.value), hvalue, Literal.read_units]

/-- A call with a backslash, a quote, a newline, braces and a backslash at the end. -/
def hardCall : List Char := stringCall '"' (escape '"' "\\\"\n\x7d\x7d'\\".toList)

/-- The string is read back, and its token holds the backslashes in pairs. -/
theorem strings_written_and_read_hardCall :
    (∃ location callee named, parse "page" (String.ofList hardCall) =
      .ok (.template location [.invocation location (.mustache false) callee
        [.literal (some (locationAt "page" hardCall 4 16)) (.string "\\\"\n\x7d\x7d'\\")] named])) ∧
    ∃ token ∈ (ofText (String.ofList hardCall)).tokens, token.kind = .string ∧
      ∃ quote, ∃ units : List (StringUnit quote),
        token.lexeme.value.toList = units.flatMap StringUnit.text ∧
        Literal.read .string token.lexeme.value =
          .ok (.string (String.ofList (units.map StringUnit.char))) := by
  obtain ⟨hparse, htokens⟩ := strings_written_and_read
  refine ⟨⟨_, _, _, hparse "page" _ '"' (.inl rfl) hardCall rfl⟩, ?_⟩
  have hfound : ((ofText (String.ofList hardCall)).tokens.find?
      fun token => token.kind == .string).isSome = true := by decide +kernel
  obtain ⟨token, htoken⟩ := Option.isSome_iff_exists.1 hfound
  have hmem := List.mem_of_find?_eq_some htoken
  have hkind : token.kind = .string := by simpa using List.find?_some htoken
  obtain ⟨quote, -, units, -, hvalue, hread⟩ := htokens _ token hmem hkind
  exact ⟨token, hmem, hkind, quote, units, hvalue, hread⟩

end Template

end TemplateUsage
