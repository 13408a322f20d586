import UiMarkup.Data.Value
import UiMarkup.Yaml.Node

/-!
# Values of YAML nodes

A plain scalar without a tag is null, a boolean, an integer or a real number if it is written like
one, and a text otherwise. An alias stands for the value of the node that was anchored before it. A
key `<<` merges the entries of other mappings into its own.
-/

namespace UiMarkup.Yaml

/-! ## Scalars -/

/-- The sign of a number and what follows it. -/
def splitSign : List Char → Bool × List Char
  | '-' :: s => (true, s)
  | '+' :: s => (false, s)
  | s => (false, s)

/-- The value of digits in a base; underscores between them do not count. -/
def digitsIn? (base : Nat) (s : List Char) : Option Nat :=
  let digits := s.filter (· != '_')
  if digits.isEmpty then none
  else
    digits.foldl
      (fun n c => do
        let d := if c.isDigit then c.toNat - 48 else c.toLower.toNat - 87
        let n ← n
        if (c.isDigit || ('a' ≤ c.toLower && c.toLower ≤ 'f')) && d < base then some (base * n + d)
        else none)
      (some 0)

/-- The integer that a plain scalar spells: decimal, or with a base in front. -/
def integer? (s : List Char) : Option Int :=
  let (negative, body) := splitSign s
  let magnitude :=
    match body with
    | '0' :: 'b' :: digits => digitsIn? 2 digits
    | '0' :: 'o' :: digits => digitsIn? 8 digits
    | '0' :: 'x' :: digits => digitsIn? 16 digits
    | digits =>
      if s.head? = some '_' || (s.length = body.length && !s.head?.any Char.isDigit) then none
      else digitsIn? 10 digits
  magnitude.map fun n => if negative then -(n : Int) else n

/-- The exponent of a real number, which is absent or complete. -/
def isExponent (signed : Bool) : List Char → Bool
  | [] => true
  | e :: s =>
    let (sign, digits) := s.span fun c => c == '+' || c == '-'
    (e == 'e' || e == 'E') && sign.length ≤ 1 && (!signed || sign.length == 1) &&
      !digits.isEmpty && digits.all Char.isDigit

/-- A digit or an underscore. -/
def isDigitOrUnderscore (c : Char) : Bool :=
  c.isDigit || c == '_'

/-- The text, without a sign, spells a real number. -/
def spellsReal (s : List Char) : Bool :=
  match s with
  | '.' :: s =>
    s.head?.any isDigitOrUnderscore && isExponent true (s.dropWhile isDigitOrUnderscore)
  | s =>
    s.head?.any Char.isDigit &&
      match s.dropWhile isDigitOrUnderscore with
      | '.' :: s => isExponent false (s.dropWhile isDigitOrUnderscore)
      | [] => false
      | s => isExponent false s

/-- The real number that a plain scalar spells. -/
def real? (s : List Char) : Option Float :=
  let (negative, body) := splitSign s
  let word := String.ofList body
  if [".inf", ".Inf", ".INF"].contains word then some (if negative then -(1 / 0) else 1 / 0)
  else if [".nan", ".NaN", ".NAN"].contains (String.ofList s) then some (0 / 0)
  else if spellsReal body then
    (Decimal.readMagnitude? (body.filter (· != '_'))).map fun x => if negative then -x else x
  else none

/-- The boolean that a plain scalar spells. -/
def bool? (s : String) : Option Bool :=
  if ["true", "True", "TRUE"].contains s then some true
  else if ["false", "False", "FALSE"].contains s then some false
  else none

/-- The value of a plain scalar without a tag. -/
def plainValue (s : String) : Value :=
  if ["", "~", "null", "Null", "NULL"].contains s then .null
  else
    match bool? s with
    | some b => .bool b
    | none =>
      match integer? s.toList with
      | some n => .number (.int n)
      | none =>
        match real? s.toList with
        | some x => .number (.real x)
        | none => .text s

/-- The kinds of scalars that a tag can ask for. -/
inductive ScalarTag where
  | text
  | null
  | bool
  | int
  | real
  deriving Repr, DecidableEq

/-- The kind of scalar that a tag asks for. -/
def scalarTag? (tag : String) : Option ScalarTag :=
  let short :=
    if tag.startsWith "!!" then (tag.drop 2).toString
    else if tag.startsWith "!<tag:yaml.org,2002:" && tag.endsWith ">" then
      ((tag.drop 20).dropEnd 1).toString
    else tag
  match short with
  | "!" | "str" => some .text
  | "null" => some .null
  | "bool" => some .bool
  | "int" => some .int
  | "float" => some .real
  | _ => none

/-- The boolean of a scalar that is tagged as one. -/
def taggedBool? (s : String) : Option Bool :=
  let word := String.ofList (s.toList.map Char.toLower)
  if ["yes", "y", "true", "on"].contains word then some true
  else if ["no", "n", "false", "off"].contains word then some false
  else none

/-- The value of a scalar with a tag. -/
def taggedValue? (tag : ScalarTag) (s : String) : Option Value :=
  match tag with
  | .text => some (.text s)
  | .null => some .null
  | .bool => (taggedBool? s).map .bool
  | .int => (integer? s.toList).map fun n => .number (.int n)
  | .real =>
    match real? s.toList with
    | some x => some (.number (.real x))
    | none => (integer? s.toList).map fun n => .number (.real (Float.ofInt n))

/-! ## Collections -/

/-- The values of the anchors so far, the latest first. -/
abbrev Anchors := List (String × Value)

/-- Two numbers are the same key. -/
def sameNumber : Number → Number → Bool
  | .int a, .int b => a == b
  | .real x, .real y => x == y
  | .int a, .real y => Float.ofInt a == y
  | .real x, .int b => x == Float.ofInt b

/-- A boolean as the number that it is equal to as a key. -/
def boolNumber (b : Bool) : Number :=
  .int (if b then 1 else 0)

mutual
/-- Two values are the same key. -/
def sameKey : Value → Value → Bool
  | .null, .null => true
  | .text a, .text b => a == b
  | .bool a, .bool b => a == b
  | .number a, .number b => sameNumber a b
  | .bool a, .number b => sameNumber (boolNumber a) b
  | .number a, .bool b => sameNumber a (boolNumber b)
  | .list as, .list bs => sameKeys as bs
  | _, _ => false

/-- Two lists are the same key. -/
def sameKeys : List Value → List Value → Bool
  | [], [] => true
  | a :: as, b :: bs => sameKey a b && sameKeys as bs
  | _, _ => false
end

/-- The entries with one more; an entry of the same key gets the new value. -/
def put (entries : List (Value × Value)) (key value : Value) : List (Value × Value) :=
  if entries.any fun (k, _) => sameKey k key then
    entries.map fun (k, v) => if sameKey k key then (k, value) else (k, v)
  else entries ++ [(key, value)]

/-- The entries with others put in, in order. -/
def putAll (entries others : List (Value × Value)) : List (Value × Value) :=
  others.foldl (fun es (k, v) => put es k v) entries

/-- The entries that a value under `<<` merges in; of several mappings the first has the last
word. -/
def mergedEntries? : Value → Option (List (Value × Value))
  | .map entries => some entries
  | .list items =>
    items.reverse.foldl
      (fun merged item => do
        let merged ← merged
        match item with
        | .map entries => some (putAll merged entries)
        | _ => none)
      (some [])
  | _ => none

/-- Some key occurs twice. -/
def hasDuplicateKey : List (Value × Value) → Bool
  | [] => false
  | (key, _) :: entries => entries.any (fun (k, _) => sameKey k key) || hasDuplicateKey entries

/-- The node is the merge key. -/
def isMergeKey : Node → Bool
  | .scalar props true text => props.tag.isNone && text == "<<"
  | _ => false

/-- The value can be a key. -/
def isKey : Value → Bool
  | .map _ => false
  | _ => true

/-- Remembers the value of an anchored node. -/
def Props.remember (props : Props) (value : Value) (anchors : Anchors) : Anchors :=
  match props.anchor with
  | none => anchors
  | some name => (name, value) :: anchors

/-- The mapping of its own entries and those that are merged in, if there are any. -/
def mappingValue? (own : List (Value × Value)) (merges : List Value) : Option Value :=
  match merges with
  | [] => if hasDuplicateKey own then none else some (.map own)
  | [merge] => (mergedEntries? merge).map fun merged => .map (putAll (putAll [] merged) own)
  | _ => none

mutual
/-- The value of a node, and the anchors after it. -/
def resolve (anchors : Anchors) : Node → Option (Value × Anchors)
  | .reference name => (anchors.lookup name).map fun v => (v, anchors)
  | .scalar props plain text =>
    let value :=
      match props.tag with
      | some tag => (scalarTag? tag).bind (taggedValue? · text)
      | none => if plain then some (plainValue text) else some (.text text)
    value.map fun v => (v, props.remember v anchors)
  | .sequence props items =>
    if props.tag.all (["!", "!!seq", "!<tag:yaml.org,2002:seq>"].contains ·) then
      match resolveItems anchors items with
      | none => none
      | some (values, anchors) => some (.list values, props.remember (.list values) anchors)
    else none
  | .mapping props entries =>
    if props.tag.all (["!", "!!map", "!<tag:yaml.org,2002:map>"].contains ·) then
      match resolveEntries anchors entries with
      | none => none
      | some (own, merges, anchors) =>
        (mappingValue? own merges).map fun v => (v, props.remember v anchors)
    else none

/-- The values of a row of nodes. -/
def resolveItems (anchors : Anchors) : List Node → Option (List Value × Anchors)
  | [] => some ([], anchors)
  | node :: nodes =>
    match resolve anchors node with
    | none => none
    | some (v, anchors) =>
      (resolveItems anchors nodes).map fun (vs, anchors) => (v :: vs, anchors)

/-- The entries of a mapping, and apart from them the values under merge keys. -/
def resolveEntries (anchors : Anchors) :
    List (Node × Node) → Option (List (Value × Value) × List Value × Anchors)
  | [] => some ([], [], anchors)
  | (key, value) :: entries =>
    match resolve anchors key with
    | none => none
    | some (k, anchors) =>
      match resolve anchors value with
      | none => none
      | some (v, anchors) =>
        match resolveEntries anchors entries with
        | none => none
        | some (own, merges, anchors) =>
          if isMergeKey key then some (own, v :: merges, anchors)
          else if isKey k then some ((k, v) :: own, merges, anchors)
          else none
end

end UiMarkup.Yaml
