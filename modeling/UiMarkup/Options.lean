import UiMarkup.Data.Value
import UiMarkup.Log
import UiMarkup.Text.Blank
import UiMarkup.Text.Lowercase

/-!
# Plugin options

The host hands options over as a mapping, or not at all. Each option has a default; a flag may be
given as a boolean, as zero or one, or as one of a few words. Unknown keys are reported and ignored.
-/

namespace UiMarkup

/-- How modules are transformed. -/
structure TransformOptions where
  treeShaking : Bool := false
  /-- Whether to make source maps; undecided means during development only. -/
  sourceMaps : Option Bool := none
  target : String := "es2022"
  deriving Repr, DecidableEq

/-- The options of the plugin. -/
structure PluginOptions where
  includes : List String := [".tsx", ".ts"]
  excludes : List String := ["node_modules/**", "**/*.test.*", "**/*.bench.*"]
  dev : Bool := false
  transform : TransformOptions := {}
  deriving Repr, DecidableEq

/-- Why options are refused. -/
inductive OptionError where
  /-- The options are not a mapping. -/
  | unsupported (kind : String)
  | transformNotMapping (kind : String)
  | notTexts (name : String)
  | notFlag (name : String) (shown : String)
  deriving Repr, DecidableEq

/-- The wording of an error. -/
def OptionError.message : OptionError → String
  | unsupported kind => "Unsupported plugin options: " ++ kind
  | transformNotMapping kind => "'transform' must be a mapping, got " ++ kind
  | notTexts name => "'" ++ name ++ "' must be a list of strings"
  | notFlag name shown => "'" ++ name ++ "' must be a boolean, got " ++ shown

namespace PluginOptions

/-- The entries of a mapping, in order. -/
abbrev Entries := List (Value × Value)

/-- The words that switch a flag on. -/
def trueWords : List String := ["true", "yes", "on", "1"]

/-- The words that switch a flag off. -/
def falseWords : List String := ["false", "no", "off", "0"]

/-- Reads a flag. A word counts without regard to case and surrounding blanks. -/
def flag (name : String) (v : Value) : Except OptionError Bool :=
  match v with
  | .null => .ok false
  | .bool b => .ok b
  | .number (.int 0) => .ok false
  | .number (.int 1) => .ok true
  | .text s =>
    let word := Text.lower (String.ofList (Text.trim s.toList))
    if trueWords.contains word then .ok true
    else if falseWords.contains word then .ok false
    else .error (.notFlag name v.shown)
  | _ => .error (.notFlag name v.shown)

/-- Reads a list of texts; a single text is a list of one. -/
def texts (name : String) (v : Value) : Except OptionError (List String) :=
  match v with
  | .text s => .ok [s]
  | .list items => .ok (items.map Value.asText)
  | _ => .error (.notTexts name)

/-- The value under the first of the keys that is present. -/
def pick (entries : Entries) (key otherKey : String) : Option Value :=
  (Value.get? entries key).or (Value.get? entries otherKey)

/-- The keys of the options. -/
def knownKeys : List String := ["include", "exclude", "dev", "transform"]

/-- The keys of the transform options; two of them have another spelling. -/
def knownTransformKeys : List String :=
  ["treeShaking", "sourceMaps", "target", "tree_shaking", "source_maps"]

/-- The key is one of the known texts. -/
def isKnown (known : List String) : Value → Bool
  | .text s => known.contains s
  | _ => false

/-- A warning for each key that is not known, in order. -/
def unknownKeys (known : List String) (place : String) (entries : Entries) : List LogEntry :=
  (entries.filter fun (key, _) => !isKnown known key).map fun (key, _) =>
    ⟨.warning, "Ignoring unknown key '" ++ key.keyText ++ "' in " ++ place⟩

/-- Reads a flag under one of two keys, which is off by default. -/
def optionalFlag (entries : Entries) (key otherKey : String) : Except OptionError Bool :=
  flag key ((pick entries key otherKey).getD .null)

/-- Reads the transform options. -/
def readTransform (entries : Entries) : Except OptionError TransformOptions := do
  let treeShaking ← optionalFlag entries "treeShaking" "tree_shaking"
  let sourceMaps ←
    match pick entries "sourceMaps" "source_maps" with
    | none | some .null => .ok none
    | some v => (flag "sourceMaps" v).map some
  let target := ((Value.get? entries "target").map Value.asText).getD "es2022"
  return { treeShaking, sourceMaps, target }

/-- The entries of the transform options; nothing, zero and the like stand for none. -/
def transformEntries (entries : Entries) : Except OptionError Entries :=
  match Value.get? entries "transform" with
  | none => .ok []
  | some v =>
    if v.isFalsy then .ok []
    else
      match v with
      | .map inner => .ok inner
      | v => .error (.transformNotMapping v.kindName)

/-- Reads the list of texts under a key. -/
def readTexts (entries : Entries) (key : String) (default : List String) :
    Except OptionError (List String) :=
  match Value.get? entries key with
  | none => .ok default
  | some v => texts key v

/-- Reads the options from a mapping. -/
def ofEntries (entries : Entries) : Except OptionError PluginOptions := do
  let defaults : PluginOptions := {}
  let inner ← transformEntries entries
  let includes ← readTexts entries "include" defaults.includes
  let excludes ← readTexts entries "exclude" defaults.excludes
  let dev ← flag "dev" ((Value.get? entries "dev").getD .null)
  let transform ← readTransform inner
  return { includes, excludes, dev, transform }

/-- The warnings about a mapping that was read: its unknown keys, then those of the transform
options. -/
def warnings (entries : Entries) : List LogEntry :=
  unknownKeys knownKeys "plugin options" entries ++
    match transformEntries entries with
    | .ok inner => unknownKeys knownTransformKeys "transform" inner
    | .error _ => []

/-- Reads the options that a host hands over, and the warnings about them. -/
def ofValue (v : Value) : Except OptionError (PluginOptions × List LogEntry) :=
  match v with
  | .null => .ok ({}, [])
  | .map entries => (ofEntries entries).map fun o => (o, warnings entries)
  | v => .error (.unsupported v.kindName)

/-- Source maps are made if the options say so or, when they do not say, during development. -/
def makesSourceMaps (o : PluginOptions) : Bool :=
  o.transform.sourceMaps.getD o.dev

/-- The options as the mapping that they can be read from. -/
def toEntries (o : PluginOptions) : Entries :=
  [(.text "include", .list (o.includes.map .text)),
   (.text "exclude", .list (o.excludes.map .text)),
   (.text "dev", .bool o.dev),
   (.text "transform", .map
     [(.text "treeShaking", .bool o.transform.treeShaking),
      (.text "sourceMaps", (o.transform.sourceMaps.map Value.bool).getD .null),
      (.text "target", .text o.transform.target)])]

end PluginOptions

end UiMarkup
