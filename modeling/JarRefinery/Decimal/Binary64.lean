/-!
Binary floating point numbers of 64 bits, in exact arithmetic: a finite number is a mantissa below
`2 ^ 53` times a power of two, and the mantissa is at least `2 ^ 52` unless the exponent is the
least one. Quotients are rounded to the nearest number, a tie to the even mantissa.
-/
namespace JarRefinery

inductive Binary64 where
  | nan
  | infinity (negative : Bool)
  | finite (negative : Bool) (mantissa : Nat) (exponent : Int)
deriving DecidableEq, Repr

namespace Binary64

def leastExponent : Int := -1074
def greatestExponent : Int := 971

/-- The least mantissa of a number whose exponent is not the least one, and half of the first one
that is too great. -/
def leastNormal : Nat := 0x10000000000000

def zero (negative : Bool) : Binary64 :=
  .finite negative 0 leastExponent

/-- The quotient rounded to an integer, a half to the even neighbour. -/
def roundQuotient (numerator denominator : Nat) : Nat :=
  let q := numerator / denominator
  let twice := 2 * (numerator % denominator)
  if denominator < twice ∨ (denominator = twice ∧ q % 2 = 1) then q + 1 else q

/-- A ratio of positive integers multiplied by a power of two, again as a ratio. -/
def scale (numerator denominator : Nat) (exponent : Int) : Nat × Nat :=
  if exponent < 0 then (numerator, denominator * Nat.pow 2 (-exponent).toNat)
  else (numerator * Nat.pow 2 exponent.toNat, denominator)

/-- The greatest `k` with `2 ^ k ≤ numerator / denominator`. -/
def binaryOrder (numerator denominator : Nat) : Int :=
  let k : Int := numerator.log2 - denominator.log2
  let (n, d) := scale numerator denominator (-k)
  if d ≤ n then k else k - 1

/-- The number nearest to `numerator / denominator`. -/
def ofRatio (negative : Bool) (numerator denominator : Nat) : Binary64 :=
  if numerator = 0 then zero negative
  else
    let exponent := max (binaryOrder numerator denominator - 52) leastExponent
    let (n, d) := scale numerator denominator (-exponent)
    let mantissa := roundQuotient n d
    let (mantissa, exponent) :=
      if mantissa = 2 * leastNormal then (leastNormal, exponent + 1) else (mantissa, exponent)
    if greatestExponent < exponent then .infinity negative
    else .finite negative mantissa exponent

/-- The number nearest to `digits * 10 ^ exponent`. Beyond four hundred places on either side the
answer is infinite or zero whatever the digits are. -/
def ofDecimal (negative : Bool) (digits : Nat) (exponent : Int) : Binary64 :=
  let places : Int := exponent + (Nat.toDigits 10 digits).length
  if digits = 0 ∨ places < -400 then zero negative
  else if 400 < places then .infinity negative
  else if exponent < 0 then ofRatio negative digits (Nat.pow 10 (-exponent).toNat)
  else ofRatio negative (digits * Nat.pow 10 exponent.toNat) 1

def ofInt (n : Int) : Binary64 :=
  ofRatio (n < 0) n.natAbs 1

def isInfinite : Binary64 → Bool
  | infinity _ => true
  | _ => false

def isZero : Binary64 → Bool
  | finite _ 0 _ => true
  | _ => false

/-- Whether the number is above zero. -/
def isPositive : Binary64 → Bool
  | nan => false
  | infinity negative => !negative
  | finite negative mantissa _ => !negative && mantissa != 0

/-- The integer that the number is, if it is one. -/
def toInt? : Binary64 → Option Int
  | finite negative mantissa exponent =>
    let sign (n : Nat) : Int := if negative then -n else n
    if 0 ≤ exponent then some (sign (mantissa * Nat.pow 2 exponent.toNat))
    else
      let unit := Nat.pow 2 (-exponent).toNat
      if mantissa % unit = 0 then some (sign (mantissa / unit)) else none
  | _ => none

/-- The number with `places` decimal places, a half to the even neighbour. -/
def fixed (places : Nat) : Binary64 → String
  | nan => "nan"
  | infinity negative => if negative then "-inf" else "inf"
  | finite negative mantissa exponent =>
    let (n, d) := scale (mantissa * Nat.pow 10 places) 1 exponent
    let digits := (toString (roundQuotient n d)).toList
    let padded := List.replicate (places + 1 - digits.length) '0' ++ digits
    let whole := padded.take (padded.length - places)
    let tail := padded.drop (padded.length - places)
    String.ofList ((if negative then ['-'] else []) ++ whole ++
      if places = 0 then [] else '.' :: tail)

end Binary64

end JarRefinery
