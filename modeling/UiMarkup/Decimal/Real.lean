import UiMarkup.Decimal.Shortest

/-!
# The text of a real number

A real number is kept as a double. `Format` holds the decisions of a written form; `plain` is the
form of generated code and of messages, and `exchange` the one of exchanged data, which differs in
the words for the values that are no numbers. `read?` reads the decimal forms back.
-/

namespace UiMarkup.Decimal

/-- How a real number is written. -/
structure Format where
  /-- The least exponent that is written positionally. -/
  lowest : Int
  /-- The least exponent beyond the positional ones. -/
  beyond : Int
  infinity : String
  notANumber : String

/-- Positional from `0.0001` to below `10 ^ 16`, and short words for what is no number. -/
def plain : Format := ⟨-4, 16, "inf", "nan"⟩

/-- As `plain`, with the words of the data exchange format for what is no number. -/
def exchange : Format := ⟨-4, 16, "Infinity", "NaN"⟩

/-- What a double stands for, beside its sign. -/
inductive Magnitude where
  | zero
  | finite (value : Binary)
  | infinite
  | notANumber

/-- The magnitude of a double, from its bits. -/
def magnitude (x : Float) : Magnitude :=
  let bits := x.toBits.toNat
  let field : Nat := bits / Nat.pow 2 52 % Nat.pow 2 11
  let fraction : Nat := bits % Nat.pow 2 52
  if field == Nat.pow 2 11 - 1 then if fraction == 0 then .infinite else .notANumber
  else if field == 0 then if fraction == 0 then .zero else .finite ⟨fraction, -1074⟩
  else .finite ⟨fraction + Nat.pow 2 52, (field : Int) - 1075⟩

/-- The sign bit of a double is set. -/
def isNegative (x : Float) : Bool :=
  x.toBits.toNat / Nat.pow 2 63 == 1

/-- The exponent after its mark: a sign and at least two digits. -/
def exponentText (e : Int) : List Char :=
  let digits := Nat.toDigits 10 e.natAbs
  (if e < 0 then '-' else '+') :: (List.replicate (2 - digits.length) '0' ++ digits)

/-- A finite decimal in the given form. A positional number keeps one digit after the point. -/
def Scientific.text (f : Format) (s : Scientific) : List Char :=
  if f.lowest ≤ s.exponent && s.exponent < f.beyond then
    if s.exponent < 0 then
      '0' :: '.' :: (List.replicate (-s.exponent - 1).toNat '0' ++ s.digits)
    else
      let whole := s.exponent.toNat + 1
      let fraction := s.digits.drop whole
      s.digits.take whole ++ List.replicate (whole - s.digits.length) '0' ++ '.' ::
        (if fraction.isEmpty then ['0'] else fraction)
  else
    match s.digits with
    | [] => []
    | [d] => d :: 'e' :: exponentText s.exponent
    | d :: rest => d :: '.' :: rest ++ 'e' :: exponentText s.exponent

/-- The text of a double in the given form. -/
def Format.text (f : Format) (x : Float) : String :=
  let signed (s : String) := if isNegative x then "-" ++ s else s
  match magnitude x with
  | .zero => signed "0.0"
  | .finite b => signed (String.ofList (b.shortest.text f))
  | .infinite => signed f.infinity
  | .notANumber => f.notANumber

/-- The double nearest to `mantissa * 10 ^ power`. Powers so large or small that the result is
infinite or zero anyway are cut off first. -/
def ofScaled (mantissa : Nat) (power : Int) : Float :=
  let floor : Int := -(400 + (Nat.toDigits 10 mantissa).length)
  let power := max floor (min power 400)
  Float.ofScientific mantissa (power < 0) power.natAbs

/-- The value of a row of decimal digits, if it is nothing else. -/
def natural? (s : List Char) : Option Nat :=
  if s.all Char.isDigit then some (s.foldl (fun n c => 10 * n + (c.toNat - 48)) 0) else none

/-- The value of digits with an optional sign. -/
def integer? : List Char → Option Int
  | '-' :: s => if s.isEmpty then none else (natural? s).map (-·)
  | '+' :: s => if s.isEmpty then none else (natural? s).map Int.ofNat
  | s => if s.isEmpty then none else (natural? s).map Int.ofNat

/-- Reads an unsigned decimal `12`, `1.5`, `.5`, `1e5`; at least one digit precedes the exponent. -/
def readMagnitude? (s : List Char) : Option Float := do
  let (body, tail) := s.span fun c => c != 'e' && c != 'E'
  let (whole, point) := body.span (· != '.')
  let fraction := point.drop 1
  let mantissa ← if (whole ++ fraction).isEmpty then none else natural? (whole ++ fraction)
  let power ← if tail.isEmpty then some 0 else integer? (tail.drop 1)
  some (ofScaled mantissa (power - fraction.length))

/-- Reads a decimal with an optional sign, or one of the words of `plain`. -/
def read? (s : String) : Option Float :=
  match s.toList with
  | '-' :: rest => (unsigned? rest).map (-·)
  | '+' :: rest => unsigned? rest
  | rest => unsigned? rest
where
  unsigned? (rest : List Char) : Option Float :=
    if rest == plain.infinity.toList then some (1 / 0)
    else if rest == plain.notANumber.toList then some (0 / 0)
    else readMagnitude? rest

end UiMarkup.Decimal
