import TemplateUsage.Node.Equality
import TemplateUsage.Proofs.Parsing
import TemplateUsage.Proofs.Tree.Revision

set_option autoImplicit false

/-!
# What equality of trees sees

The essence of a tree is the tree without its locations and with every number written in
one way for its exact value. Two trees are the same exactly when they have one essence
(`Node.same_iff_essence_eq`). So equality is an equivalence, and since the usages of a tree
are, but for their places, those of its essence, equal trees have the same usages
(`Node.same_sound_for_usages`).
-/

namespace TemplateUsage

/-! ## Numbers and literals -/

/-- The one number that stands for all numbers with this exact value. -/
def ExactValue.number : ExactValue → Number
  | .finite .zero => .integer 0
  | .finite (.ofOdd numerator precision _) =>
      .double (.finite (numerator < 0) numerator.natAbs (-precision))
  | .infinite negative => .double (.infinite negative)

theorem ExactValue.exact_number (value : ExactValue) : value.number.exact = value := by
  cases value with
  | infinite negative => rfl
  | finite value =>
      cases value with
      | zero => rfl
      | ofOdd numerator precision hodd =>
          have hsigned : (if (decide (numerator < 0)) = true then -(numerator.natAbs : Int)
              else numerator.natAbs) = numerator := by
            split <;> rename_i hsign <;> rw [decide_eq_true_eq] at hsign <;> omega
          rw [number, Number.exact, Double.exact, hsigned, Int.neg_neg,
            Dyadic.ofOdd_eq_ofIntWithPrec]

/-- Numbers are the same if they have the same exact value. -/
theorem Number.same_iff_number_eq (a b : Number) :
    a.same b = true ↔ a.exact.number = b.exact.number := by
  rw [Number.same, decide_eq_true_eq]
  constructor
  · intro h
    rw [h]
  · intro h
    rw [← a.exact.exact_number, h, b.exact.exact_number]

/-- The literal with its number, if it is one, written in one way. -/
def Literal.essence : Literal → Literal
  | .number value => .number value.exact.number
  | literal => literal

theorem Literal.same_iff_essence_eq (a b : Literal) :
    a.same b = true ↔ a.essence = b.essence := by
  cases a with
  | number value =>
      cases b with
      | number other =>
          rw [Literal.same, Number.same_iff_number_eq, essence, essence, Literal.number.injEq]
      | _ => simp [Literal.same, essence]
  | _ => cases b <;> simp [Literal.same, essence]

/-! ## Trees -/

/-- Locations go and numbers are written in one way; comments stay. -/
def Revision.essence : Revision where
  place _ := none
  comment _ text := text
  literal := Literal.essence

namespace Node

/-- What equality sees of a tree. -/
def essence (node : Node) : Node := node.revise .essence

mutual

/-- Nodes are the same if they differ in locations and in the form of numbers only. -/
theorem same_iff_revise_eq (a b : Node) :
    a.same b = true ↔ a.revise .essence = b.revise .essence := by
  -- nodes of different sorts are never the same, and a revision keeps the sort
  cases a with
  | template place members =>
      cases b with
      | template => simp [same, revise, Revision.essence, sameList_iff_reviseAll_eq members]
      | _ => simp [same, revise]
  | element place tag attributes modifiers params children selfClosing =>
      cases b with
      | element =>
          simp [same, revise, sameList_iff_reviseAll_eq attributes,
            sameList_iff_reviseAll_eq modifiers, sameList_iff_reviseAll_eq children,
            Revision.essence, and_assoc]
      | _ => simp [same, revise]
  | «attribute» place name value =>
      cases b with
      | «attribute» => simp [same, revise, same_iff_revise_eq value, Revision.essence]
      | _ => simp [same, revise]
  | text place chars => cases b <;> simp [same, revise, Revision.essence]
  | htmlComment place value => cases b <;> simp [same, revise, Revision.essence]
  | curlyComment place value => cases b <;> simp [same, revise, Revision.essence]
  | concat place parts =>
      cases b with
      | concat => simp [same, revise, sameList_iff_reviseAll_eq parts, Revision.essence]
      | _ => simp [same, revise]
  | invocation place form callee params named =>
      cases b with
      | invocation =>
          simp [same, revise, same_iff_revise_eq callee, sameList_iff_reviseAll_eq params,
            same_iff_revise_eq named, Revision.essence, and_assoc]
      | _ => simp [same, revise]
  | block place callee params named program inverse =>
      cases b with
      | block =>
          simp [same, revise, same_iff_revise_eq callee, sameList_iff_reviseAll_eq params,
            same_iff_revise_eq named, same_iff_revise_eq program,
            sameOption_iff_reviseOption_eq inverse, Revision.essence, and_assoc]
      | _ => simp [same, revise]
  | body place params statements chained =>
      cases b with
      | body =>
          simp [same, revise, sameList_iff_reviseAll_eq statements, Revision.essence, and_assoc]
      | _ => simp [same, revise]
  | hash place pairs =>
      cases b with
      | hash => simp [same, revise, sameList_iff_reviseAll_eq pairs, Revision.essence]
      | _ => simp [same, revise]
  | pair place key value =>
      cases b with
      | pair => simp [same, revise, same_iff_revise_eq value, Revision.essence]
      | _ => simp [same, revise]
  | path place original => cases b <;> simp [same, revise, Revision.essence]
  | literal place value =>
      cases b with
      | literal => simp [same, revise, Literal.same_iff_essence_eq, Revision.essence]
      | _ => simp [same, revise]
  | unknown params parts children members =>
      cases b with
      | unknown =>
          simp [same, revise, sameList_iff_reviseAll_eq params, sameList_iff_reviseAll_eq parts,
            sameList_iff_reviseAll_eq children, sameList_iff_reviseAll_eq members, and_assoc]
      | _ => simp [same, revise]
termination_by structural a

theorem sameList_iff_reviseAll_eq (as bs : List Node) :
    sameList as bs = true ↔ reviseAll .essence as = reviseAll .essence bs := by
  cases as with
  | nil => cases bs <;> simp [sameList, reviseAll]
  | cons a as =>
      cases bs with
      | nil => simp [sameList, reviseAll]
      | cons b bs =>
          simp [sameList, reviseAll, same_iff_revise_eq a, sameList_iff_reviseAll_eq as]
termination_by structural as

theorem sameOption_iff_reviseOption_eq (a b : Option Node) :
    sameOption a b = true ↔ reviseOption .essence a = reviseOption .essence b := by
  cases a with
  | none => cases b <;> simp [sameOption, reviseOption]
  | some a =>
      cases b with
      | none => simp [sameOption, reviseOption]
      | some b => simp [sameOption, reviseOption, same_iff_revise_eq a]
termination_by structural a

end

theorem same_iff_essence_eq (a b : Node) : a.same b = true ↔ a.essence = b.essence :=
  same_iff_revise_eq a b

end Node

/-! ## Usages -/

/-- What a usage says, wherever it stands. -/
def Usage.entry (usage : Usage) : String × UsageKind × UsageSite :=
  (usage.token, usage.kind, usage.site)

namespace Node

/-- A tree and its essence have usages that say the same. -/
theorem map_entry_collect_essence (node : Node) (scope : Scope) :
    (node.essence.collect scope).map Usage.entry = (node.collect scope).map Usage.entry := by
  rw [essence, collect_revise, List.map_map]
  rfl

/-- Trees are the same when they have one essence: the same nodes with the same fields, but
for locations and for numbers, of which only the exact value counts. This is an equivalence,
and in every scope trees that are the same have usages that say the same, in the same order. -/
theorem same_sound_for_usages :
    (∀ a b : Node, a.same b = true ↔ a.essence = b.essence) ∧
      Equivalence (fun a b : Node => a.same b = true) ∧
      ∀ a b : Node, a.same b = true → ∀ scope,
        (a.collect scope).map Usage.entry = (b.collect scope).map Usage.entry := by
  refine ⟨same_iff_essence_eq, ⟨fun a => ?_, fun {a b} h => ?_, fun {a b c} h h' => ?_⟩,
    fun a b h scope => ?_⟩
  · exact (same_iff_essence_eq a a).2 rfl
  · exact (same_iff_essence_eq b a).2 ((same_iff_essence_eq a b).1 h).symm
  · exact (same_iff_essence_eq a c).2
      (((same_iff_essence_eq a b).1 h).trans ((same_iff_essence_eq b c).1 h'))
  · rw [← map_entry_collect_essence a, (same_iff_essence_eq a b).1 h, map_entry_collect_essence b]

/-- A call with the first integer above which not every integer is a double. -/
def rankedCard : String := "<Card @rank=\x7b\x7bjoin 9007199254740992 title\x7d\x7d />"

/-- The call with the same number as a double, and with other blanks. -/
def pointedCard : String := "<Card  @rank=\x7b\x7bjoin 9007199254740992.0 title\x7d\x7d/>"

/-- An integer and a double of the same value, in two files, make trees that are the same. -/
theorem same_sound_for_usages_pointedCard :
    ∃ a b, Template.parse "deck" rankedCard = .ok a ∧ Template.parse "hand" pointedCard = .ok b ∧
      a.same b = true ∧ b.same a = true ∧
      (a.collect Scope.empty).map Usage.entry = (b.collect Scope.empty).map Usage.entry ∧
      (b.collect Scope.empty).map Usage.token = ["card", "join"] := by
  have hdeck : (Template.parse "deck" rankedCard).isOk = true := by decide +kernel
  have hhand : (Template.parse "hand" pointedCard).isOk = true := by decide +kernel
  obtain ⟨a, ha⟩ := Template.exists_of_isOk hdeck
  obtain ⟨b, hb⟩ := Template.exists_of_isOk hhand
  have hboth : (Template.parse "deck" rankedCard).toOption.bind (fun a =>
      (Template.parse "hand" pointedCard).toOption.map (a.same ·)) = some true := by
    decide +kernel
  have htokens : (Template.parse "hand" pointedCard).toOption.map (fun b =>
      (b.collect Scope.empty).map Usage.token) = some ["card", "join"] := by decide +kernel
  rw [ha, hb] at hboth
  rw [hb] at htokens
  have hsame : a.same b = true := by simpa [Except.toOption] using hboth
  obtain ⟨-, hequivalence, husages⟩ := same_sound_for_usages
  refine ⟨a, b, ha, hb, hsame, hequivalence.symm hsame, husages a b hsame Scope.empty, ?_⟩
  simpa [Except.toOption] using htokens

end Node

end TemplateUsage
