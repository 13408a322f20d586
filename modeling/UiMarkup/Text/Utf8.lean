import UiMarkup.Text.Quoted

/-!
# Reading encoded text

Files are read as UTF-8. Bytes that are not valid are reported with their position, the span of the
longest valid beginning of a character, and the reason. Line ends of all three kinds are read as
one.
-/

namespace UiMarkup.Text

/-- Why bytes cannot be decoded. -/
inductive EncodingCause where
  | invalidStart
  | invalidContinuation
  | unexpectedEnd
  deriving Repr, DecidableEq

/-- The wording of a cause. -/
def EncodingCause.message : EncodingCause → String
  | invalidStart => "invalid start byte"
  | invalidContinuation => "invalid continuation byte"
  | unexpectedEnd => "unexpected end of data"

/-- A span of bytes that cannot be decoded: its position, its first byte and its length. -/
structure EncodingError where
  position : Nat
  first : UInt8
  length : Nat
  cause : EncodingCause
  deriving Repr, DecidableEq

/-- The wording of an error. -/
def EncodingError.message (e : EncodingError) : String :=
  let span :=
    if e.length = 1 then
      "byte 0x" ++ String.ofList (hexPadded 2 e.first.toNat) ++ " in position " ++
        toString e.position
    else
      "bytes in position " ++ toString e.position ++ "-" ++ toString (e.position + e.length - 1)
  "'utf-8' codec can't decode " ++ span ++ ": " ++ e.cause.message

/-- How many bytes follow a start byte, and the range of the first of them. -/
def continuation? (b : UInt8) : Option (Nat × UInt8 × UInt8) :=
  if b < 0xc2 then none
  else if b < 0xe0 then some (1, 0x80, 0xbf)
  else if b = 0xe0 then some (2, 0xa0, 0xbf)
  else if b = 0xed then some (2, 0x80, 0x9f)
  else if b < 0xf0 then some (2, 0x80, 0xbf)
  else if b = 0xf0 then some (3, 0x90, 0xbf)
  else if b < 0xf4 then some (3, 0x80, 0xbf)
  else if b = 0xf4 then some (3, 0x80, 0x8f)
  else none

/-- The bits of a start byte that belong to the character. -/
def startBits (b : UInt8) (following : Nat) : Nat :=
  b.toNat % Nat.pow 2 (6 - following)

/-- Decodes the bytes that follow a start byte. `taken` bytes of the character were read, `missing`
are still to come, and the next one lies between `low` and `high`. -/
def decodeRest (position : Nat) (first : UInt8) (value taken missing : Nat) (low high : UInt8)
    (bytes : List UInt8) : Except EncodingError (Char × List UInt8) :=
  match missing, bytes with
  | 0, bytes => .ok (Char.ofNat value, bytes)
  | _ + 1, [] => .error ⟨position, first, taken, .unexpectedEnd⟩
  | missing + 1, b :: bytes =>
    if low ≤ b && b ≤ high then
      decodeRest position first (value * 64 + b.toNat % 64) (taken + 1) missing 0x80 0xbf bytes
    else .error ⟨position, first, taken, .invalidContinuation⟩

/-- The characters of the bytes at a position. -/
def decodeAt (position : Nat) : (fuel : Nat) → List UInt8 → Except EncodingError (List Char)
  | 0, _ => .ok []
  | _ + 1, [] => .ok []
  | fuel + 1, b :: bytes =>
    if b < 0x80 then
      (decodeAt (position + 1) fuel bytes).map (Char.ofNat b.toNat :: ·)
    else
      match continuation? b with
      | none => .error ⟨position, b, 1, .invalidStart⟩
      | some (following, low, high) =>
        match decodeRest position b (startBits b following) 1 following low high bytes with
        | .error e => .error e
        | .ok (c, bytes) => (decodeAt (position + following + 1) fuel bytes).map (c :: ·)

/-- The text of UTF-8 bytes. -/
def decodeUtf8 (bytes : List UInt8) : Except EncodingError (List Char) :=
  decodeAt 0 bytes.length bytes

/-- All kinds of line ends as one. -/
def unifyLineEnds : List Char → List Char
  | [] => []
  | '\r' :: '\n' :: s => '\n' :: unifyLineEnds s
  | '\r' :: s => '\n' :: unifyLineEnds s
  | c :: s => c :: unifyLineEnds s

/-- The text of a file. -/
def readFile (bytes : List UInt8) : Except EncodingError String :=
  (decodeUtf8 bytes).map fun s => String.ofList (unifyLineEnds s)

/-- The UTF-8 bytes of a text. -/
def encodeUtf8 (s : String) : List UInt8 :=
  s.toUTF8.toList

end UiMarkup.Text
