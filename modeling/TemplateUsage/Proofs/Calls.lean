import TemplateUsage.Proofs.Parsing
import TemplateUsage.Proofs.Scan.Excerpt
import TemplateUsage.Proofs.Tree.Nesting

set_option autoImplicit false

/-!
# Calls with one argument

The text of a call is `f` and an argument between double braces (`callText`). When the
argument is a single word of an expression, the scanner takes the call apart into four tokens
(`scanned_callText`), and how the word is read decides on the rest: a literal gives the tree
of the call with this literal (`parse_callText`), and a number that is not read stops the
parsing (`parse_callText_numeral`).
-/

namespace TemplateUsage

namespace Scan

/-! ## Words -/

/-- Where no word ends, an expression takes the word that begins. -/
theorem step_word {cs : List Char} {kind : Kind} {found : Found} (hstart : endsWord cs = false)
    (hword : wordStep? cs = some (kind, found)) (offset start : Nat) (closer : Closer)
    (outer : List OpenMode) (awaitsValue : Bool) :
    State.step ⟨offset, cs, ⟨.expression closer, start⟩ :: outer, awaitsValue⟩ =
      .found kind found (⟨.expression closer, start⟩ :: outer) := by
  cases cs with
  | nil => cases hstart
  | cons c rest =>
      simp only [endsWord, List.contains_cons, List.contains_nil, Bool.or_eq_false_iff,
        beq_eq_false_iff_ne] at hstart
      obtain ⟨hblank, hopen, hclose, hbrace, hmark, -⟩ := hstart
      have hcloser := closer?_eq_none hbrace hmark closer rest
      exact State.Takes.step_eq
        (.word ⟨⟨closer, start, outer, rfl, hcloser⟩, rfl, hblank, hopen, hclose⟩ hword)

/-! ## The text of a call -/

/-- A call of `f`: braces, `f`, a blank and the argument. -/
def callText (argument : List Char) : List Char :=
  '\x7b' :: '\x7b' :: 'f' :: ' ' :: (argument ++ ['\x7d', '\x7d'])

theorem length_callText (argument : List Char) :
    (callText argument).length = argument.length + 6 := by
  simp [callText]

/-- The callee is a path: a key would need an equals sign where the argument begins. -/
theorem wordStep?_callee {c : Char} (hblank : Text.isBlank c = false) (hequals : c ≠ '=')
    (rest : List Char) :
    wordStep? ('f' :: ' ' :: c :: rest) = some (.path, .whole ['f']) := by
  have hparams : blockParams? ('f' :: ' ' :: c :: rest) = none := rfl
  have hstring : string? ('f' :: ' ' :: c :: rest) = none := rfl
  have hkey : hashKey? ('f' :: ' ' :: c :: rest) = none := by
    have hdrop : (' ' :: c :: rest).dropWhile Text.isBlank = c :: rest := by
      rw [List.dropWhile_cons_of_pos rfl, List.dropWhile_cons, hblank]
      rfl
    have hrest : ('f' :: ' ' :: c :: rest).dropWhile isKeyChar = ' ' :: c :: rest := rfl
    rw [hashKey?, hrest, hdrop]
    simp [hequals]
  rw [wordStep?_of_plain hparams hstring, plainWord?, hkey]
  rfl

/-- A word of an expression begins neither with a blank nor with an equals sign. -/
theorem exists_head_of_word {cs : List Char} {kind : Kind} {found : Found}
    (hstart : endsWord cs = false) (hword : wordStep? cs = some (kind, found)) :
    ∃ c rest, cs = c :: rest ∧ Text.isBlank c = false ∧ c ≠ '=' := by
  cases cs with
  | nil => cases hstart
  | cons c rest =>
      rw [endsWord, Bool.or_eq_false_iff] at hstart
      refine ⟨c, rest, rfl, hstart.1, ?_⟩
      rintro rfl
      cases hword

section

variable {argument value : List Char} (sort : Atom)
  (hstart : endsWord (argument ++ ['\x7d', '\x7d']) = false)
  (hword : wordStep? (argument ++ ['\x7d', '\x7d']) = some (sort.kind, ⟨value, argument.length⟩))
include hstart hword

/-- The tokens of a call. -/
theorem scanned_callText :
    Scanned (callText argument)
      [⟨.openCurly, ['\x7b', '\x7b'], 0, 2⟩, ⟨.path, ['f'], 2, 3⟩,
        ⟨sort.kind, value, 4, 4 + argument.length⟩,
        ⟨.closeCurly, ['\x7d', '\x7d'], 4 + argument.length, 4 + argument.length + 2⟩] := by
  let inside : List OpenMode := [⟨.expression .double, 0⟩]
  obtain ⟨c, rest, hrest, hblank, hequals⟩ := exists_head_of_word hstart hword
  have hopen : Run (.initial (callText argument)) [⟨.openCurly, ['\x7b', '\x7b'], 0, 2⟩]
      ⟨2, 'f' :: ' ' :: (argument ++ ['\x7d', '\x7d']), inside, false⟩ := by
    have hstep : State.step (.initial (callText argument)) =
        .emit .openCurly ['\x7b', '\x7b'] 2 inside := rfl
    exact .emit (List.cons_ne_nil _ _) hstep (.refl _)
  have hcallee : Run ⟨2, 'f' :: ' ' :: (argument ++ ['\x7d', '\x7d']), inside, false⟩
      [⟨.path, ['f'], 2, 3⟩] ⟨3, ' ' :: (argument ++ ['\x7d', '\x7d']), inside, false⟩ := by
    have hstep := step_word rfl (wordStep?_callee hblank hequals rest) 2 0 .double [] false
    rw [hrest]
    exact .emit (List.cons_ne_nil _ _) hstep (.refl _)
  have hgap : Run ⟨3, ' ' :: (argument ++ ['\x7d', '\x7d']), inside, false⟩ []
      ⟨4, argument ++ ['\x7d', '\x7d'], inside, false⟩ := by
    have hstep : State.step ⟨3, ' ' :: (argument ++ ['\x7d', '\x7d']), inside, false⟩ =
        .skip 1 := by
      have hblanks : (' ' :: c :: rest).takeWhile Text.isBlank = [' '] := by
        rw [List.takeWhile_cons_of_pos rfl, List.takeWhile_cons, hblank]
        rfl
      rw [hrest]
      have hpos : 0 < ((' ' :: c :: rest).takeWhile Text.isBlank).length := by
        rw [hblanks]
        exact Nat.one_pos
      rw [State.Takes.step_eq (.blanks rfl hpos), hblanks]
      rfl
    exact .skip (List.cons_ne_nil _ _) hstep (.refl _)
  have hargument : Run ⟨4, argument ++ ['\x7d', '\x7d'], inside, false⟩
      [⟨sort.kind, value, 4, 4 + argument.length⟩]
      ⟨4 + argument.length, ['\x7d', '\x7d'], inside, false⟩ := by
    have hequals : (sort.kind == .equals) = false := by cases sort <;> rfl
    refine .emit (List.append_ne_nil_of_right_ne_nil _ (List.cons_ne_nil _ _))
      (step_word hstart hword 4 0 .double [] false) ?_
    rw [State.advance, List.drop_left, hequals]
    exact .refl _
  have hclose : Run ⟨4 + argument.length, ['\x7d', '\x7d'], inside, false⟩
      [⟨.closeCurly, ['\x7d', '\x7d'], 4 + argument.length, 4 + argument.length + 2⟩]
      ⟨4 + argument.length + 2, [], [], false⟩ := by
    have hstep : State.step ⟨4 + argument.length, ['\x7d', '\x7d'], inside, false⟩ =
        .emit .closeCurly ['\x7d', '\x7d'] 2 [] := rfl
    exact .emit (List.cons_ne_nil _ _) hstep (.refl _)
  exact ⟨_, hopen.trans (hcallee.trans (hgap.trans (hargument.trans hclose))), rfl, rfl⟩

end

end Scan

/-! ## The tree of a call -/

namespace Template

open Phrase Scan

/-- The tree of the text of a call with a literal. -/
def callTree (file : String) (text : List Char) (argument : Literal) : Node :=
  .template (some (locationAt file text 0 text.length))
    [.invocation (some (locationAt file text 0 text.length)) (.mustache false)
      (.path (some (locationAt file text 2 3)) "f")
      [.literal (some (locationAt file text 4 (text.length - 2))) argument] (.hash none [])]

section

variable {argument value : List Char} (sort : Atom)
  (hstart : endsWord (argument ++ ['\x7d', '\x7d']) = false)
  (hword : wordStep? (argument ++ ['\x7d', '\x7d']) = some (sort.kind, ⟨value, argument.length⟩))
include hstart hword

/-- A call with a word that is read as a literal is parsed as the call with the literal. -/
theorem parse_callText (file : String) {literal : Literal}
    (hread : Literal.read sort (String.ofList value) = .ok literal) {text : List Char}
    (htext : text = callText argument) :
    parse file (String.ofList text) = .ok (callTree file text literal) := by
  have hscanned := scanned_callText sort hstart hword
  have hlength := length_callText argument
  rw [← htext] at hscanned hlength
  have hinner : 4 + argument.length = text.length - 2 := by omega
  have hend : text.length - 2 + 2 = text.length := by omega
  rw [hinner, hend] at hscanned
  rw [parse_eq_ok_iff, hscanned.ofText_eq]
  refine ⟨rfl, [.mustache ⟨false, ⟨_, _⟩, .mk (.atom .path ⟨_, _⟩) [.atom sort ⟨_, _⟩] [],
    ⟨_, _⟩⟩], rfl, ?_⟩
  rw [buildTemplate, buildStatements, Statement.build, Mustache.build, Call.build,
    buildExpressions, Expression.build, Expression.build, hread]
  -- each token is located at the characters it covers
  have hspan : ∀ {start stop : Nat}, start ≤ text.length → stop ≤ text.length →
      (Lines.ofText text).span start stop =
        ⟨Point.counted text start, Point.counted text stop⟩ := Lines.span_ofText
  dsimp only
  rw [hspan (by omega) (by omega), hspan (by omega) le_rfl, hspan (by omega) (by omega),
    hspan (by omega) (by omega)]
  rfl

/-- A call with a number that is not read stops the parsing. -/
theorem parse_callText_numeral (file : String) {error : NumeralError}
    (hread : Literal.read sort (String.ofList value) = .error (.numeral error)) :
    parse file (String.ofList (callText argument)) = .error (.numeral error) := by
  rw [parse_eq_numeral_iff, (scanned_callText sort hstart hword).ofText_eq]
  refine ⟨rfl, [.mustache ⟨false, ⟨_, _⟩, .mk (.atom .path ⟨_, _⟩) [.atom sort ⟨_, _⟩] [],
    ⟨_, _⟩⟩], rfl, ?_⟩
  rw [buildTemplate, buildStatements, Statement.build, Mustache.build, Call.build,
    buildExpressions, Expression.build, Expression.build, hread]
  rfl

end

end Template

end TemplateUsage
