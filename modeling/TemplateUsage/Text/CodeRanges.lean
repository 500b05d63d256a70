set_option autoImplicit false

/-!
# Sets of code points

Tables of characters are lists of inclusive ranges, or of runs that take every
`step`-th code point where two kinds of letter alternate.
-/

namespace TemplateUsage.Text

/-- Membership in a list of inclusive ranges. -/
def inRanges (ranges : List (Nat × Nat)) (n : Nat) : Bool :=
  ranges.any fun range => range.1 ≤ n && n ≤ range.2

/-- Every `step`-th code point from `first` to `last`. -/
structure CodeRun where
  first : Nat
  last : Nat
  step : Nat

/-- Membership of a code point in a run. -/
def CodeRun.holds (run : CodeRun) (n : Nat) : Bool :=
  run.first ≤ n && n ≤ run.last && (n - run.first) % run.step == 0

end TemplateUsage.Text
