import Mathlib.Data.List.Nodup
import UiMarkup.Options

/-!
# Reading the plugin options

What reading makes of a mapping, in three parts.

* `ofEntries_withoutUnknown`: the unknown keys, of the options and of the transform mapping in them,
  have no part in what is read or in why it is refused. Every reader looks a known key up, and a
  lookup passes over the entries that `withoutUnknown` drops (`get?_knownEntries`).
* `warnings_of_ok`: what is said about a mapping that was read is one warning for each unknown key,
  in the order of the mapping, and no two warnings are alike where the keys are distinct texts
  (`nodup_keyWarnings`).
* `ofEntries_toEntries`: the mapping that options are written as is read as those options.
-/

namespace UiMarkup

namespace PluginOptions

variable {known : List String} {entries inner : Entries} {key place : String}

/-! ## Known and unknown keys -/

/-- The entries under known keys. -/
def knownEntries (known : List String) (entries : Entries) : Entries :=
  entries.filter fun (key, _) => isKnown known key

/-- The keys that are not known, in order. -/
def strangeKeys (known : List String) (entries : Entries) : List Value :=
  (entries.map Prod.fst).filter fun key => !isKnown known key

/-- The warning about one unknown key. -/
def keyWarning (place : String) (key : Value) : LogEntry :=
  ⟨.warning, "Ignoring unknown key '" ++ key.keyText ++ "' in " ++ place⟩

theorem unknownKeys_eq (known : List String) (place : String) (entries : Entries) :
    unknownKeys known place entries = (strangeKeys known entries).map (keyWarning place) := by
  simp only [unknownKeys, strangeKeys, List.filter_map, List.map_map]
  rfl

@[simp] theorem strangeKeys_knownEntries (known : List String) (entries : Entries) :
    strangeKeys known (knownEntries known entries) = [] := by
  simp [strangeKeys, knownEntries, List.filter_eq_nil_iff]

/-- A lookup of a known key does not see the entries under other keys. -/
theorem get?_knownEntries (h : key ∈ known) (entries : Entries) :
    Value.get? (knownEntries known entries) key = Value.get? entries key := by
  fun_induction Value.get? entries key with
  | case1 => rfl
  | case2 v rest => simp [knownEntries, isKnown, h, Value.get?]
  | case3 k v rest hne ih =>
    by_cases hk : k ∈ known
    · simpa [knownEntries, isKnown, hk, Value.get?, hne] using ih
    · simpa [knownEntries, isKnown, hk] using ih
  | case4 entry rest hentry ih =>
    have hstrange : isKnown known entry.1 = false := by
      obtain ⟨k, v⟩ := entry
      cases k with
      | text s => exact (hentry s v rfl).elim
      | _ => rfl
    simpa [knownEntries, hstrange] using ih

/-- The entries with `f` applied to what stands under `key`. -/
def mapUnder (key : String) (f : Value → Value) (entries : Entries) : Entries :=
  entries.map fun (k, v) => (k, if isKnown [key] k then f v else v)

@[simp] theorem strangeKeys_mapUnder (known : List String) (key : String) (f : Value → Value)
    (entries : Entries) :
    strangeKeys known (mapUnder key f entries) = strangeKeys known entries := by
  simp [strangeKeys, mapUnder, Function.comp_def]

theorem get?_mapUnder (key : String) (f : Value → Value) (entries : Entries) (other : String) :
    Value.get? (mapUnder key f entries) other =
      (Value.get? entries other).map fun v => if other = key then f v else v := by
  fun_induction Value.get? entries other with
  | case1 => rfl
  | case2 v rest => simp [mapUnder, isKnown, Value.get?]
  | case3 k v rest hne ih => simpa [mapUnder, Value.get?, hne] using ih
  | case4 entry rest hentry ih =>
    obtain ⟨k, v⟩ := entry
    cases k with
    | text s => exact (hentry s v rfl).elim
    | _ => simpa [mapUnder, isKnown, Value.get?] using ih

/-! ## Dropping the unknown keys -/

/-- A transform mapping without its unknown keys; a value that is no mapping has none. -/
def knownTransform : Value → Value
  | .map inner => .map (knownEntries knownTransformKeys inner)
  | v => v

/-- The options without their unknown keys and those of the transform mapping in them. -/
def withoutUnknown (entries : Entries) : Entries :=
  mapUnder "transform" knownTransform (knownEntries knownKeys entries)

theorem get?_withoutUnknown (h : key ∈ knownKeys) (entries : Entries) :
    Value.get? (withoutUnknown entries) key =
      (Value.get? entries key).map fun v => if key = "transform" then knownTransform v else v := by
  rw [withoutUnknown, get?_mapUnder, get?_knownEntries h]

theorem get?_withoutUnknown_of_ne (h : key ∈ knownKeys) (hne : key ≠ "transform")
    (entries : Entries) :
    Value.get? (withoutUnknown entries) key = Value.get? entries key := by
  simp [get?_withoutUnknown h, hne]

/-- What is read from a transform mapping is read from its known entries. -/
theorem readTransform_knownEntries (inner : Entries) :
    readTransform (knownEntries knownTransformKeys inner) = readTransform inner := by
  have hget : ∀ key ∈ knownTransformKeys,
      Value.get? (knownEntries knownTransformKeys inner) key = Value.get? inner key :=
    fun key h => get?_knownEntries h inner
  simp only [readTransform, optionalFlag, pick, hget "treeShaking" (by decide),
    hget "tree_shaking" (by decide), hget "sourceMaps" (by decide),
    hget "source_maps" (by decide), hget "target" (by decide)]

/-- A mapping is read as its entries. An empty one stands for none, which comes to the same. -/
theorem transformEntries_of_map (h : Value.get? entries "transform" = some (.map inner)) :
    transformEntries entries = .ok inner := by
  cases inner <;> simp [transformEntries, h, Value.isFalsy]

/-- A transform value without its unknown keys is refused for the same reason, or read as the known
entries. -/
theorem transformEntries_withoutUnknown (entries : Entries) :
    transformEntries (withoutUnknown entries) =
      (transformEntries entries).map (knownEntries knownTransformKeys) := by
  have hpruned := get?_withoutUnknown (by decide : "transform" ∈ knownKeys) entries
  cases hget : Value.get? entries "transform" with
  | none =>
    simp only [hget, Option.map_none] at hpruned
    simp [transformEntries, hpruned, hget, Except.map, knownEntries]
  | some v =>
    simp only [hget, Option.map_some, if_true] at hpruned
    cases v with
    | map inner => rw [transformEntries_of_map hpruned, transformEntries_of_map hget]; rfl
    | _ =>
      simp only [transformEntries, hpruned, hget, knownTransform]
      split <;> rfl

theorem readTexts_withoutUnknown (h : key ∈ knownKeys) (hne : key ≠ "transform")
    (entries : Entries) (default : List String) :
    readTexts (withoutUnknown entries) key default = readTexts entries key default := by
  simp only [readTexts, get?_withoutUnknown_of_ne h hne]

/-- The unknown keys have no part in the options, and none in why a mapping is refused. -/
theorem ofEntries_withoutUnknown (entries : Entries) :
    ofEntries (withoutUnknown entries) = ofEntries entries := by
  simp only [ofEntries, transformEntries_withoutUnknown,
    readTexts_withoutUnknown (by decide : "include" ∈ knownKeys) (by decide),
    readTexts_withoutUnknown (by decide : "exclude" ∈ knownKeys) (by decide),
    get?_withoutUnknown_of_ne (by decide : "dev" ∈ knownKeys) (by decide)]
  cases transformEntries entries with
  | error e => rfl
  | ok inner => simp only [Except.map, bind, Except.bind, readTransform_knownEntries]

/-! ## The warnings -/

/-- The transform mapping of the options, which is empty where they have none. -/
def transformMapping (entries : Entries) : Entries :=
  match Value.get? entries "transform" with
  | some (.map inner) => inner
  | _ => []

/-- Where the options have entries for the transform, they are those of its mapping. -/
theorem transformMapping_eq (h : transformEntries entries = .ok inner) :
    transformMapping entries = inner := by
  cases hget : Value.get? entries "transform" with
  | none => simpa [transformMapping, transformEntries, hget] using h
  | some v =>
    cases v with
    | map m => simpa [transformMapping, hget, transformEntries_of_map hget] using h
    | _ =>
      simp only [transformEntries, hget] at h
      split at h
      · simpa [transformMapping, hget] using h
      · cases h

/-- A mapping that is read has a transform that is read. -/
theorem transformEntries_of_ofEntries {o : PluginOptions} (h : ofEntries entries = .ok o) :
    transformEntries entries = .ok (transformMapping entries) := by
  cases hinner : transformEntries entries with
  | error e => simp [ofEntries, hinner, bind, Except.bind] at h
  | ok inner => rw [transformMapping_eq hinner]

/-- The warnings about a mapping that was read are about its unknown keys and about those of the
transform mapping. -/
theorem warnings_of_ok {o : PluginOptions} (h : ofEntries entries = .ok o) :
    warnings entries =
      (strangeKeys knownKeys entries).map (keyWarning "plugin options") ++
        (strangeKeys knownTransformKeys (transformMapping entries)).map
          (keyWarning "transform") := by
  simp only [warnings, transformEntries_of_ofEntries h, unknownKeys_eq]

/-- Nothing is said about a mapping without its unknown keys, whether it is read or refused. -/
@[simp] theorem warnings_withoutUnknown (entries : Entries) :
    warnings (withoutUnknown entries) = [] := by
  have htop : strangeKeys knownKeys (withoutUnknown entries) = [] := by simp [withoutUnknown]
  simp only [warnings, unknownKeys_eq, htop, transformEntries_withoutUnknown]
  cases transformEntries entries <;> simp [Except.map]

/-- The keys are texts and no two are the same, as in every mapping that a host hands over. -/
def HasTextKeys (entries : Entries) : Prop :=
  ∃ names : List String, entries.map Prod.fst = names.map .text ∧ names.Nodup

/-- Distinct texts have distinct warnings in one place. -/
theorem keyWarning_text_injective (place : String) :
    Function.Injective fun name : String => keyWarning place (.text name) := by
  intro a b h
  simpa [keyWarning, Value.keyText] using h

theorem HasTextKeys.exists_strangeKeys (h : HasTextKeys entries) (known : List String) :
    ∃ names : List String, strangeKeys known entries = names.map .text ∧ names.Nodup := by
  obtain ⟨names, hkeys, hnodup⟩ := h
  exact ⟨names.filter fun name => !isKnown known (.text name),
    by simp [strangeKeys, hkeys, List.filter_map, Function.comp_def], hnodup.filter _⟩

/-- No key is warned about twice in one place. -/
theorem HasTextKeys.nodup_keyWarnings (h : HasTextKeys entries) (known : List String)
    (place : String) : ((strangeKeys known entries).map (keyWarning place)).Nodup := by
  obtain ⟨names, hkeys, hnodup⟩ := h.exists_strangeKeys known
  simpa [hkeys, Function.comp_def] using hnodup.map (keyWarning_text_injective place)

/-- A warning about the options is none about the transform: the wordings end differently. -/
theorem keyWarning_ne_transform (key other : Value) :
    keyWarning "plugin options" key ≠ keyWarning "transform" other := by
  intro h
  have hlast := congrArg (fun entry : LogEntry => entry.message.toList.getLast?) h
  simp only [keyWarning, String.toList_append, List.getLast?_append] at hlast
  simp at hlast

/-! ## Reading what was written -/

theorem texts_map_text (name : String) (words : List String) :
    texts name (.list (words.map .text)) = .ok words := by
  simp [texts, Function.comp_def, Value.asText]

/-- The mapping that options are written as is read as those options. -/
theorem ofEntries_toEntries (o : PluginOptions) : ofEntries (toEntries o) = .ok o := by
  obtain ⟨includes, excludes, dev, treeShaking, sourceMaps, target⟩ := o
  have htransform : readTransform
      [(.text "treeShaking", .bool treeShaking),
       (.text "sourceMaps", (sourceMaps.map Value.bool).getD .null),
       (.text "target", .text target)] = .ok { treeShaking, sourceMaps, target } := by
    cases sourceMaps <;> rfl
  simp [ofEntries, transformEntries, readTexts, toEntries, Value.get?, Value.isFalsy,
    texts_map_text, htransform, flag, bind, Except.bind, pure, Except.pure]

/-- The mapping that options are written as has known keys only. -/
theorem warnings_toEntries (o : PluginOptions) : warnings (toEntries o) = [] := by
  rw [warnings_of_ok (ofEntries_toEntries o)]
  rfl

/-! ## The options that a host hands over -/

/-- Unknown keys change nothing but the warnings, of which each has one, and options are read back
from the mapping that they are written as without a warning. -/
theorem unknown_keys_only_warned_about (entries : Entries) :
    ofValue (.map (withoutUnknown entries)) = (ofValue (.map entries)).map (fun r => (r.1, [])) ∧
    ∀ o logs, ofValue (.map entries) = .ok (o, logs) →
      logs = (strangeKeys knownKeys entries).map (keyWarning "plugin options") ++
        (strangeKeys knownTransformKeys (transformMapping entries)).map
          (keyWarning "transform") ∧
      (HasTextKeys entries → HasTextKeys (transformMapping entries) → logs.Nodup) ∧
      ofValue (.map (toEntries o)) = .ok (o, []) := by
  constructor
  · simp only [ofValue, ofEntries_withoutUnknown, warnings_withoutUnknown]
    cases ofEntries entries <;> rfl
  · intro o logs h
    obtain ⟨hread, hlogs⟩ : ofEntries entries = .ok o ∧ warnings entries = logs := by
      simp only [ofValue] at h
      cases hread : ofEntries entries with
      | error e => simp [hread, Except.map] at h
      | ok read => simpa [hread, Except.map] using h
    rw [warnings_of_ok hread] at hlogs
    refine ⟨hlogs.symm, fun htop hinner => ?_, ?_⟩
    · rw [← hlogs]
      refine (htop.nodup_keyWarnings _ _).append (hinner.nodup_keyWarnings _ _) ?_
      intro entry htop hinner
      obtain ⟨key, -, rfl⟩ := List.mem_map.1 htop
      obtain ⟨other, -, hother⟩ := List.mem_map.1 hinner
      exact keyWarning_ne_transform key other hother.symm
    · simp [ofValue, ofEntries_toEntries, warnings_toEntries, Except.map]

/-- Options with a misspelt key and an unknown transform option, and nothing else. -/
def strayOptions : Entries :=
  [(.text "includes", .list [.text ".ts"]),
   (.text "transform", .map [(.text "minify", .bool true)])]

/-- They are read as the defaults, with a warning for each of the two keys. -/
theorem unknown_keys_only_warned_about_stray :
    ∃ logs, ofValue (.map strayOptions) = .ok ({}, logs) ∧
      logs = [keyWarning "plugin options" (.text "includes"),
        keyWarning "transform" (.text "minify")] ∧
      logs.Nodup ∧ ofValue (.map (toEntries {})) = .ok ({}, []) := by
  have hread : ofValue (.map strayOptions) = .ok ({}, warnings strayOptions) := by rfl
  obtain ⟨hlogs, hnodup, hback⟩ := (unknown_keys_only_warned_about strayOptions).2 _ _ hread
  have htop : HasTextKeys strayOptions := ⟨["includes", "transform"], by rfl, by decide⟩
  have hinner : HasTextKeys (transformMapping strayOptions) := ⟨["minify"], by rfl, by decide⟩
  exact ⟨_, hread, hlogs.trans (by rfl), hnodup htop hinner, hback⟩

end PluginOptions
end UiMarkup
