/-!
# Shortest decimals

A binary fraction `mantissa * 2 ^ exponent` is written with the fewest decimal digits that still
read back as it. The decimals that read back form an interval around the value; for one digit, two
digits and so on, the two neighbours of the value on the decimal grid of that many digits are
tested against the interval in exact arithmetic, and the first grid with a hit wins.
-/

namespace UiMarkup.Decimal

/-- The decimal `d₀.d₁d₂… * 10 ^ exponent`; the first digit is nonzero unless the value is zero. -/
structure Scientific where
  digits : List Char
  exponent : Int
  deriving Repr, DecidableEq

/-- A positive binary fraction `mantissa * 2 ^ exponent`. -/
structure Binary where
  mantissa : Nat
  exponent : Int
  deriving Repr, DecidableEq

namespace Binary

/-- The smallest exponent of a double. -/
def minExponent : Int := -1074

/-- The mantissa from which on a double has all its bits. -/
def fullMantissa : Nat := Nat.pow 2 52

/-- The digits of `n` in base ten. -/
def decimalDigits (n : Nat) : List Char :=
  Nat.toDigits 10 n

/-- `units * 2 ^ (exponent - 2) / 10 ^ power` as a fraction, where the value itself has
`4 * mantissa` units. -/
def scaled (x : Binary) (units : Nat) (power : Int) : Nat × Nat :=
  let binary := x.exponent - 2
  (units * Nat.pow 2 binary.toNat * Nat.pow 10 (-power).toNat,
    Nat.pow 2 (-binary).toNat * Nat.pow 10 power.toNat)

/-- The units from the value down to the lower end of the interval that reads back: a power of two
has a neighbour below that is twice as near. -/
def below (x : Binary) : Nat :=
  if x.mantissa == fullMantissa && minExponent < x.exponent then 1 else 2

/-- Whether `n * 10 ^ power` reads back as the value; the ends count iff the mantissa is even. -/
def readsBack (x : Binary) (power : Int) (n : Nat) : Bool :=
  let (low, unit) := x.scaled (4 * x.mantissa - x.below) power
  let (high, _) := x.scaled (4 * x.mantissa + 2) power
  if x.mantissa % 2 == 0 then low ≤ n * unit && n * unit ≤ high
  else low < n * unit && n * unit < high

/-- The exponent of the leading decimal digit. -/
def leadingExponent (x : Binary) : Int :=
  let (n, d) := x.scaled (4 * x.mantissa) (-400)
  (decimalDigits (n / d)).length - 401

/-- The neighbour of the value on the grid of multiples of `10 ^ power` that reads back, the nearer
of two and the even one of two that are equally near. -/
def onGrid? (x : Binary) (power : Int) : Option Nat :=
  let (n, d) := x.scaled (4 * x.mantissa) power
  let low := n / d
  let rest := n % d
  match x.readsBack power low, x.readsBack power (low + 1) with
  | true, true =>
    if 2 * rest < d || (2 * rest == d && low % 2 == 0) then some low else some (low + 1)
  | true, false => some low
  | false, true => some (low + 1)
  | false, false => none

/-- The first hit on the grids of `count`, `count + 1`, … digits, at most `tries` of them. -/
def search (x : Binary) (lead : Int) : (tries count : Nat) → Option (Nat × Int)
  | 0, _ => none
  | tries + 1, count =>
    let power := lead - count + 1
    match x.onGrid? power with
    | some n => some (n, power)
    | none => search x lead tries (count + 1)

/-- The shortest decimal that reads back; seventeen digits always suffice for a double. -/
def shortest (x : Binary) : Scientific :=
  match x.search x.leadingExponent 17 1 with
  | none => ⟨['0'], 0⟩
  | some (n, power) =>
    let digits := decimalDigits n
    let kept := (digits.reverse.dropWhile (· == '0')).reverse
    ⟨kept, power + digits.length - 1⟩

end Binary

end UiMarkup.Decimal
