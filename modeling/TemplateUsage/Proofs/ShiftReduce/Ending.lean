import TemplateUsage.Proofs.Earliest
import TemplateUsage.Proofs.ShiftReduce.Simulation

set_option autoImplicit false

/-!
# How the driver ends

The loop takes in the tokens that the recogniser takes in (`exists_takes_of_readAll`), and at the
end of them it is where the recogniser is. So both accept the same texts, and both reject a text
at the same place, for the same reason and with the same tokens expected instead (`Agrees`).
Main statement: `reductions_end`, of every stack the driver comes to and of the loop as a whole.
-/

namespace TemplateUsage.ShiftReduce

open Grammar Recogniser

/-! ## Tokens taken in -/

/-- The driver shifts all of the tokens, with reductions before each of them. -/
inductive Takes : List Place → List Kind → List Place → Prop where
  | nil {stack : List Place} : Takes stack [] stack
  | cons {stack settled next final : List Place} {kind : Kind} {kinds : List Kind} :
      Steps (.token kind) stack settled → reduce? settled (.token kind) = none →
      push? settled (.token kind) = some next → Takes next kinds final →
      Takes stack (kind :: kinds) final

/-- The loop goes on from the stack that the driver has after tokens that it takes in. -/
theorem loop_of_takes {source : String} {scan : Scan} {budget : Nat} {ending : Ending}
    {tokens rest : List Token} {stack final : List Place}
    (h : loop source scan budget stack (tokens ++ rest) = some ending)
    (htakes : Takes stack (tokens.map Token.kind) final) :
    ∃ left, loop source scan left final rest = some ending := by
  induction tokens generalizing stack budget with
  | nil =>
      cases htakes
      exact ⟨budget, h⟩
  | cons token tokens ih =>
      cases htakes with
      | cons hsteps hreduce hpush htakes =>
          obtain ⟨before, hbefore⟩ := loop_of_steps h nofun hsteps
          obtain ⟨after, hafter⟩ := loop_of_push hbefore hreduce hpush
          exact ih hafter htakes

/-- The driver shifts the tokens that the recogniser takes in. -/
theorem exists_takes_of_readAll {config final : Config} {stack : List Place} {tokens : List Token}
    (hlinked : Linked stack) (hmatches : Matches config.position config.checks stack)
    (h : config.readAll tokens = .ok final) :
    ∃ shifted, Takes stack (tokens.map Token.kind) shifted ∧
      Matches final.position final.checks shifted := by
  induction tokens generalizing config stack with
  | nil =>
      cases h
      exact ⟨stack, .nil, hmatches⟩
  | cons token rest ih =>
      rw [Config.readAll, Config.read] at h
      obtain ⟨settled, hsteps, hsettled⟩ := hmatches.settle (.token token.kind)
      split at h
      · rename_i next hread
        split at hread
        · rename_i shift hshift
          cases hread
          obtain ⟨last, shifted, hmore, hpush, hnext⟩ := hsettled.shift hshift
          have hlast : Linked last := hlinked.steps (hsteps.trans hmore)
          obtain ⟨final, htakes, hfinal⟩ := ih (.push hlast hpush) (hnext token.lexeme) h
          exact ⟨final, .cons (hsteps.trans hmore) (hlast.reduce_eq_none hpush) hpush htakes,
            hfinal⟩
        · cases hread
      · cases h

/-! ## The driver and the recogniser -/

/-- The loop ends with what is said of a text. -/
inductive Agrees : Ending → Except Rejection (List Phrase.Statement) → Prop where
  | accepted (statements : List Phrase.Statement) : Agrees .accepted (.ok statements)
  | rejected (rejection : Rejection) : Agrees (.rejected rejection) (.error rejection)

/-- On the scan of a text the loop ends as the recogniser does. -/
theorem agrees_of_loop {source : String} {budget : Nat} {ending : Ending}
    (h : loop source (Scan.ofText source) budget [] (Scan.ofText source).tokens = some ending) :
    Agrees ending (Template.recognise source) := by
  have hinitial : Matches Config.initial.position Config.initial.checks [] := .exact trivial
  rw [Template.recognise, Template.read]
  cases hread : Config.initial.readAll (Scan.ofText source).tokens with
  | error refusal =>
      -- both go on to the token that is refused
      obtain ⟨front, back, middle, htokens, hfront, hrefused⟩ :=
        Config.exists_split_of_refusal hread
      obtain ⟨shifted, htakes, hmatches⟩ := exists_takes_of_readAll .nil hinitial hfront
      obtain ⟨settled, hsteps, hreduce, hpush, hexpected⟩ := hmatches.of_refusal hrefused
      rw [htokens] at h
      obtain ⟨left, hleft⟩ := loop_of_takes h htakes
      obtain ⟨last, hlast⟩ := loop_of_steps hleft (fun hend => by cases hend) hsteps
      rw [ending_of_refusal hlast hreduce hpush, hexpected]
      exact .rejected _
  | ok config =>
      obtain ⟨shifted, htakes, hmatches⟩ := exists_takes_of_readAll .nil hinitial hread
      rw [← List.append_nil (Scan.ofText source).tokens] at h
      obtain ⟨left, hleft⟩ := loop_of_takes h htakes
      -- both have taken in all tokens; the text ends there unless the scan has failed
      cases hfault : (Scan.ofText source).rejection with
      | some rejection =>
          rw [ending_of_fault hleft hfault]
          exact .rejected rejection
      | none =>
          dsimp only [bind, Except.bind]
          cases hfinish : config.finish with
          | ok statements =>
              obtain ⟨final, hsteps, htop⟩ := hmatches.of_finished hfinish
              obtain ⟨last, hlast⟩ := loop_of_steps hleft (fun _ => hfault) hsteps
              rw [ending_of_complete hlast hfault htop]
              exact .accepted statements
          | error expected =>
              obtain ⟨settled, hsteps, hreduce, htop, hexpected⟩ := hmatches.of_unfinished hfinish
              obtain ⟨last, hlast⟩ := loop_of_steps hleft (fun _ => hfault) hsteps
              rw [ending_of_stop hlast hfault htop hreduce, hexpected]
              exact .rejected _

/-- A shift-reduce parser ends. On every stack that it comes to, whatever tokens it has
shifted and whatever comes next, a reduction takes off no more than is there and has a place
to go to, and there are only so many reductions one after the other. So its loop ends on the
tokens of every scan, within eight iterations for each token and three more, and no
reduction in it fails. On the scan of a text it ends as the recogniser does, and where it
rejects the text it expects the same instead. -/
theorem reductions_end (source : String) :
    (∀ kinds stack, Reaches kinds stack → ∀ look,
      (∀ item, (top stack).reduction? look = some item →
        item.read.length ≤ stack.length ∧
          ∃ place, (top (stack.drop item.read.length)).next (.group item.category) = some place) ∧
      (∀ chain, (stack :: chain).IsChain (Reduces look) → chain.length ≤ 5 * stack.length + 2) ∧
      ∃ settled, Steps look stack settled ∧ reduce? settled look = none) ∧
    (∀ scan budget, 8 * scan.tokens.length + 3 ≤ budget →
      ∃ ending, loop source scan budget [] scan.tokens = some ending ∧
        ∀ defect, ending ≠ .defective defect) ∧
    ∀ budget ending,
      loop source (Scan.ofText source) budget [] (Scan.ofText source).tokens = some ending →
        Agrees ending (Template.recognise source) := by
  refine ⟨fun kinds stack hreaches look => ?_, fun scan budget hbudget => ?_,
    fun budget ending => agrees_of_loop⟩
  · have hlinked := hreaches.linked
    refine ⟨fun item hitem => ?_, fun chain hchain => ?_, hlinked.exists_settled look⟩
    · obtain ⟨popped, below, next, hbegun, hpush, -⟩ := hlinked.exists_of_reduction hitem
      obtain ⟨place, hplace, -⟩ := exists_of_push hpush
      rw [hbegun.stack_eq, ← hbegun.length_eq, List.drop_left, List.length_append]
      exact ⟨Nat.le_add_right _ _, place, hplace⟩
    · exact (hlinked.length_le_potential hchain).trans (potential_le stack)
  · have hpotential : potential [] = 2 := by decide +kernel
    exact exists_ending .nil (by omega)

/-- A tag without parts, around a block with two empty programs. -/
def emptyPrograms : String :=
  "<b>\x7b\x7b#a\x7d\x7d\x7b\x7belse\x7d\x7d\x7b\x7b/a\x7d\x7d</b>"

/-- Before the end of the tag its parts are reduced from nothing. Ninety-one iterations are
enough for the eleven tokens, and the text is recognised. -/
theorem reductions_end_emptyPrograms :
    (∃ stack, Reaches [.startTag] stack ∧
      (top stack).reduction? (.token .tagEnd) = some ⟨.phrase .tagParts, [], []⟩ ∧
      (∃ place, (top stack).next (.phrase .tagParts) = some place) ∧
      ∃ settled, Steps (.token .tagEnd) stack settled ∧
        reduce? settled (.token .tagEnd) = none) ∧
    ∃ statements, Template.recognise emptyPrograms = .ok statements := by
  obtain ⟨hstacks, hends, hagrees⟩ := reductions_end emptyPrograms
  constructor
  · have hreaches : Reaches [.startTag] [⟨.phrase .element, [.token .startTag]⟩] :=
      .shift .initial (by decide +kernel) (by decide +kernel)
    have hitem : (Place.mk (.phrase .element) [.token .startTag]).reduction? (.token .tagEnd) =
        some ⟨.phrase .tagParts, [], []⟩ := by
      decide +kernel
    obtain ⟨hreduction, -, hsettled⟩ := hstacks _ _ hreaches (.token .tagEnd)
    exact ⟨_, hreaches, hitem, (hreduction _ hitem).2, hsettled⟩
  · obtain ⟨ending, hending, -⟩ := hends (Scan.ofText emptyPrograms) 91 (by decide +kernel)
    have haccepted : loop emptyPrograms (Scan.ofText emptyPrograms) 91 []
        (Scan.ofText emptyPrograms).tokens = some .accepted := by
      decide +kernel
    obtain rfl : ending = .accepted := Option.some.inj (hending.symm.trans haccepted)
    have hresult := hagrees 91 .accepted hending
    generalize Template.recognise emptyPrograms = result at hresult
    cases hresult with
    | accepted statements => exact ⟨statements, rfl⟩

end TemplateUsage.ShiftReduce
