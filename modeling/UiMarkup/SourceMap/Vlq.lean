import UiMarkup.Text.Quoted

/-!
# Variable-length quantities

A signed integer is written as a row of base 64 characters. Each holds five bits, least significant
first, and a sixth bit that says whether more follow. The lowest bit of the whole is the sign.
-/

namespace UiMarkup.Vlq

/-- The base 64 alphabet. -/
def alphabet : List Char :=
  "ABCDEFGHIJKLMNOPQRSTUVWXYZabcdefghijklmnopqrstuvwxyz0123456789+/".toList

/-- The character of a value below 64. -/
def charOf (n : Nat) : Char :=
  alphabet[n]?.getD 'A'

/-- The value of a character of the alphabet. -/
def valueOf? (c : Char) : Option Nat :=
  alphabet.findIdx? (· == c)

/-- The unsigned form of an integer: twice the magnitude, plus one for a negative one. -/
def zigzag (n : Int) : Nat :=
  if n < 0 then 2 * n.natAbs + 1 else 2 * n.natAbs

/-- The integer of an unsigned form. -/
def unzigzag (n : Nat) : Int :=
  if n % 2 = 1 then -((n / 2 : Nat) : Int) else ((n / 2 : Nat) : Int)

/-- The base 64 values of an unsigned integer; all but the last have the continuation bit. -/
def groups (n : Nat) : List Nat :=
  if n < 32 then [n] else (n % 32 + 32) :: groups (n / 32)
termination_by n
decreasing_by omega

/-- The text of an integer. -/
def encode (n : Int) : List Char :=
  (groups (zigzag n)).map charOf

/-- Why a segment cannot be decoded. -/
inductive DecodeError where
  /-- The character is not in the alphabet. -/
  | badCharacter (c : Char)
  /-- The segment ends where more characters should follow. -/
  | truncated (segment : String)
  deriving Repr, DecidableEq

/-- The wording of an error. -/
def DecodeError.message : DecodeError → String
  | badCharacter c => Text.quoted (String.singleton c)
  | truncated segment => "Truncated VLQ segment: " ++ Text.quoted segment

/-- Decodes the rest of a segment, given the bits of the current integer read so far and their
weight; `none` as error stands for a segment that is cut short. -/
def decodeFrom (bits weight : Nat) : List Char → Except (Option Char) (List Int)
  | [] => if weight = 1 then .ok [] else .error none
  | c :: s =>
    match valueOf? c with
    | none => .error (some c)
    | some v =>
      let bits := bits + v % 32 * weight
      if 32 ≤ v then decodeFrom bits (weight * 32) s
      else
        match decodeFrom 0 1 s with
        | .error e => .error e
        | .ok ns => .ok (unzigzag bits :: ns)

/-- The integers of a segment. -/
def decode (segment : String) : Except DecodeError (List Int) :=
  match decodeFrom 0 1 segment.toList with
  | .ok ns => .ok ns
  | .error (some c) => .error (.badCharacter c)
  | .error none => .error (.truncated segment)

end UiMarkup.Vlq
