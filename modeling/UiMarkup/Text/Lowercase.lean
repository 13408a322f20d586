import UiMarkup.Text.Case

/-!
# Lowercase text

Lowercasing over all scripts. Two characters go beyond a one-to-one table: the dotted capital I
becomes two characters, and a capital sigma that ends a word becomes the final sigma.
-/

namespace UiMarkup.Text

/-- The index after the last of the sorted `runs` that starts at or before `n`. -/
def caseRunIndex (runs : Array CaseRun) (n lo hi : Nat) : Nat :=
  if lo < hi then
    let mid := (lo + hi) / 2
    if (runs[mid]?.map CaseRun.first).getD 0 ≤ n then caseRunIndex runs n (mid + 1) hi
    else caseRunIndex runs n lo mid
  else lo
termination_by hi - lo

/-- The partner of `c` in a run, if the run holds `c`. -/
def CaseRun.partner? (r : CaseRun) (c : Char) : Option Char :=
  if r.first ≤ c.toNat && c.toNat ≤ r.last && (c.toNat - r.first) % r.step == 0 then
    some (Char.ofNat (c.toNat + r.shift).toNat)
  else none

/-- The lowercase partner of `c`, or `c` itself. -/
def lowerChar (c : Char) : Char :=
  if c.toNat < 0x80 then c.toLower
  else
    match caseRunIndex caseRuns c.toNat 0 caseRuns.size with
    | 0 => c
    | i + 1 => (caseRuns[i]?.bind (·.partner? c)).getD c

/-- `c` has case, as far as a neighbouring sigma is concerned. -/
def isCased (c : Char) : Bool :=
  inRanges casedBounds c.toNat

/-- `c` is skipped when the neighbourhood of a sigma is examined. -/
def isCaseIgnorable (c : Char) : Bool :=
  inRanges caseIgnorableBounds c.toNat

/-- The nearest character that is not skipped has case. -/
def meetsCased (s : List Char) : Bool :=
  (s.dropWhile isCaseIgnorable).head?.any isCased

/-- Lowercases `s`, which stands after the reversed text `before`. -/
def lowerAfter (before : List Char) : List Char → List Char
  | [] => []
  | c :: rest =>
    let tail := lowerAfter (c :: before) rest
    if c.toNat == 0x3a3 then
      Char.ofNat (if meetsCased before && !meetsCased rest then 0x3c2 else 0x3c3) :: tail
    else if c.toNat == 0x130 then 'i' :: Char.ofNat 0x307 :: tail
    else lowerChar c :: tail

/-- The text in lowercase. -/
def lower (s : String) : String :=
  String.ofList (lowerAfter [] s.toList)

end UiMarkup.Text
