import UiMarkup.Options
import UiMarkup.Text.Utf8
import UiMarkup.Yaml.Document

/-!
# The configuration file

A project may hold a configuration file in its root. Without one, or with an empty one, the options
have their defaults.
-/

namespace UiMarkup

/-- The name of the configuration file. -/
def configFilename : String := "tachui.config.yaml"

/-- Why the configuration of a project cannot be used. -/
inductive ConfigError where
  | invalidYaml (path : String)
  | unreadable (path : String) (error : Text.EncodingError)
  | notMapping (path : String)
  | option (error : OptionError)
  deriving Repr

/-- The wording of an error. -/
def ConfigError.message : ConfigError → String
  | invalidYaml path => "Invalid YAML in " ++ path
  | unreadable path error => "Cannot read " ++ path ++ ": " ++ error.message
  | notMapping path => "YAML must be a mapping: " ++ path
  | option error => error.message

namespace Config

/-- The entries of the configuration file at `path` with the given content; an empty document of any
kind has none. -/
def readEntries (path : String) (content : Option (List UInt8)) :
    Except ConfigError PluginOptions.Entries :=
  match content with
  | none => .ok []
  | some bytes =>
    match Text.readFile bytes with
    | .error e => .error (.unreadable path e)
    | .ok text =>
      match Yaml.load text with
      | none => .error (.invalidYaml path)
      | some v =>
        if v.isFalsy then .ok []
        else
          match v with
          | .map entries => .ok entries
          | _ => .error (.notMapping path)

/-- Loads the options of the project in the directory `root`, whose configuration file has the given
content, if there is one. -/
def load (root : String) (content : Option (List UInt8)) :
    Except ConfigError (PluginOptions × List LogEntry) :=
  let path := root ++ "/" ++ configFilename
  match readEntries path content with
  | .error e => .error e
  | .ok entries =>
    let missing : List LogEntry :=
      if entries.isEmpty then [⟨.debug, "No plugin config at " ++ path ++ "; using defaults"⟩]
      else []
    match PluginOptions.ofEntries entries with
    | .error e => .error (.option e)
    | .ok options => .ok (options, missing ++ PluginOptions.warnings entries)

end Config

end UiMarkup
