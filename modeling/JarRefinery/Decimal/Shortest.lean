import JarRefinery.Decimal.Binary64

/-!
The shortest decimal text of a number: the fewest digits that read back as the same number, and of
those the nearest to it. Numbers from `10 ^ -4` up to `10 ^ 16` are written positionally, the others
with an exponent.
-/
namespace JarRefinery.Binary64

/-- A positive ratio compared with a power of ten: the `p` with `10 ^ (p - 1) ≤ n / d < 10 ^ p`,
searched upward from a guess that is not too high. -/
def decimalPlaces (n d : Nat) : (fuel : Nat) → (guess : Int) → Int
  | 0, guess => guess
  | fuel + 1, guess =>
    let below :=
      if guess < 0 then n * Nat.pow 10 (-guess).toNat < d else n < d * Nat.pow 10 guess.toNat
    if below then guess else decimalPlaces n d fuel (guess + 1)

/-- The reals that round to a number, as multiples of `unit`: from `low` to `high`, with the ends if
`closed`. -/
structure Interval where
  low : Nat
  value : Nat
  high : Nat
  unit : Nat
  closed : Bool

def Interval.ofFinite (mantissa : Nat) (exponent : Int) : Interval :=
  let lower := if mantissa = leastNormal ∧ leastExponent < exponent then 1 else 2
  let power (k : Nat) := k * Nat.pow 2 exponent.toNat
  let unit := 4 * Nat.pow 2 (-exponent).toNat
  ⟨power (4 * mantissa - lower), power (4 * mantissa), power (4 * mantissa + 2), unit,
    mantissa % 2 = 0⟩

/-- Whether `numerator / denominator` rounds to the number. -/
def Interval.holds (i : Interval) (numerator denominator : Nat) : Bool :=
  let x := numerator * i.unit
  if i.closed then i.low * denominator ≤ x && x ≤ i.high * denominator
  else i.low * denominator < x && x < i.high * denominator

/-- The better of the two neighbours of the number on the grid `10 ^ step`, if one rounds to it. -/
def Interval.onGrid (i : Interval) (step : Int) : Option Nat :=
  let up := Nat.pow 10 step.toNat
  let down := Nat.pow 10 (-step).toNat
  let scaled := i.value * down
  let cell := i.unit * up
  let k := scaled / cell
  let rest := scaled % cell
  let fits (k : Nat) := i.holds (k * up) down
  match fits k, fits (k + 1) with
  | false, false => none
  | true, false => some k
  | false, true => some (k + 1)
  | true, true =>
    if 2 * rest < cell ∨ (2 * rest = cell ∧ k % 2 = 0) then some k else some (k + 1)

def Interval.shortest (i : Interval) (places : Int) : (count : Nat) → (fuel : Nat) → Nat × Int
  | count, 0 => (i.value, -count)
  | count, fuel + 1 =>
    match i.onGrid (places - count) with
    | some k => (k, places - count)
    | none => i.shortest places (count + 1) fuel

/-- Takes the zeros off the end of `digits`, at most `fuel` of them. -/
def dropZeros : (fuel : Nat) → (digits : Nat) → (exponent : Int) → Nat × Int
  | 0, digits, exponent => (digits, exponent)
  | fuel + 1, digits, exponent =>
    if digits % 10 = 0 ∧ digits ≠ 0 then dropZeros fuel (digits / 10) (exponent + 1)
    else (digits, exponent)

/-- The digits and the power of ten of a positive number. -/
def shortestDigits (mantissa : Nat) (exponent : Int) : Nat × Int :=
  let i := Interval.ofFinite mantissa exponent
  let guess : Int := (binaryOrder i.value i.unit) * 3 / 10 - 2
  let places := decimalPlaces i.value i.unit 50 guess
  let (digits, power) := i.shortest places 1 18
  dropZeros 20 digits power

/-- Positional from `10 ^ -4` up to below `10 ^ 16`; else an exponent with a sign and at least two
digits. A positional text keeps one digit on each side of the point. -/
def layout (digits : List Char) (power : Int) : List Char :=
  let point : Int := digits.length + power
  if -4 < point ∧ point ≤ 16 then
    if point ≤ 0 then '0' :: '.' :: (List.replicate (-point).toNat '0' ++ digits)
    else if 0 ≤ power then digits ++ List.replicate power.toNat '0' ++ ['.', '0']
    else digits.take point.toNat ++ '.' :: digits.drop point.toNat
  else
    let e := point - 1
    let size := (toString e.natAbs).toList
    let tail := if size.length < 2 then '0' :: size else size
    let body := match digits with
      | [] => []
      | [d] => [d]
      | d :: rest => d :: '.' :: rest
    body ++ 'e' :: (if e < 0 then '-' else '+') :: tail

def toText : Binary64 → String
  | nan => "nan"
  | infinity negative => if negative then "-inf" else "inf"
  | finite negative mantissa exponent =>
    let body :=
      if mantissa = 0 then ['0', '.', '0']
      else
        let (digits, power) := shortestDigits mantissa exponent
        layout (toString digits).toList power
    String.ofList (if negative then '-' :: body else body)

end JarRefinery.Binary64
