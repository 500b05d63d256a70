set_option autoImplicit false

/-!
# Double precision numbers

A double is a sign with either a significand times a power of two or infinity.
A positive rational is rounded to the nearest double, a tie going to the even
significand; below the least normal double the exponent stays at its least.
-/

namespace TemplateUsage

/-- A double precision number that is not a NaN. -/
inductive Double where
  /-- `± significand * 2 ^ exponent` -/
  | finite (negative : Bool) (significand : Nat) (exponent : Int)
  | infinite (negative : Bool)
  deriving DecidableEq, Repr, Inhabited

namespace Double

/-- The least exponent of a significand. -/
def leastExponent : Int := -1074

/-- The greatest exponent of a significand. -/
def greatestExponent : Int := 971

/-- The first number that does not fit into a significand. -/
def significandLimit : Nat := Nat.pow 2 53

/-- The quotient rounded to the nearest number, a tie going to the even one. -/
def roundQuotient (numerator denominator : Nat) : Nat :=
  let quotient := numerator / denominator
  let twice := 2 * (numerator % denominator)
  if twice < denominator || (twice == denominator && quotient % 2 == 0) then quotient
  else quotient + 1

/-- Whether `2 ^ exponent` is at most the quotient. -/
def powerLe (exponent : Int) (numerator denominator : Nat) : Bool :=
  denominator * Nat.pow 2 exponent.toNat ≤ numerator * Nat.pow 2 (-exponent).toNat

/-- The greatest exponent whose power of two is at most a positive quotient. -/
def floorLog (numerator denominator : Nat) : Int :=
  let guess : Int := (numerator.log2 : Int) - denominator.log2
  if powerLe guess numerator denominator then guess else guess - 1

/-- The double nearest to a quotient of positive numbers. -/
def ofQuotient (negative : Bool) (numerator denominator : Nat) : Double :=
  let exponent := max leastExponent (floorLog numerator denominator - 52)
  let significand :=
    roundQuotient (numerator * Nat.pow 2 (-exponent).toNat)
      (denominator * Nat.pow 2 exponent.toNat)
  let (significand, exponent) :=
    if significand = significandLimit then (significandLimit / 2, exponent + 1)
    else (significand, exponent)
  if greatestExponent < exponent then .infinite negative
  else .finite negative significand exponent

/-- Zero with a sign. -/
def zero (negative : Bool) : Double := .finite negative 0 leastExponent

/-- The double nearest to `± digits * 10 ^ scale`. Powers of ten beyond the
range of the format are decided without being computed. -/
def ofDecimal (negative : Bool) (digits : Nat) (scale : Int) : Double :=
  if digits = 0 then zero negative
  else
    let magnitude : Int := (Nat.toDigits 10 digits).length + scale
    if 310 < magnitude then .infinite negative
    else if magnitude < -330 then zero negative
    else ofQuotient negative (digits * Nat.pow 10 scale.toNat) (Nat.pow 10 (-scale).toNat)

/-- The sixty-four bits of the interchange format. -/
def bits : Double → Nat
  | .finite negative significand exponent =>
      let fraction := Nat.pow 2 52
      let magnitude :=
        if significand < fraction then significand
        else (exponent - leastExponent + 1).toNat * fraction + (significand - fraction)
      (if negative then Nat.pow 2 63 else 0) + magnitude
  | .infinite negative => (if negative then Nat.pow 2 63 else 0) + 2047 * Nat.pow 2 52

end Double

end TemplateUsage
