import UiMarkup.Text.Lowercase

/-!
# Descriptors of components

What a component looks like in the document: the tag and the classes of its element, the stem of the
variable that holds it, and what its first argument means.
-/

namespace UiMarkup

/-- What a component looks like in the document. -/
structure Descriptor where
  tag : String
  classes : String
  stem : String
  /-- The first argument is the text of the element. -/
  bearsText : Bool := false
  /-- A number as first argument is the gap between the children. -/
  takesSpacing : Bool := false
  deriving Repr, DecidableEq

namespace Descriptor

/-- The descriptors of the components that have one of their own. -/
def builtIn : List (String × Descriptor) :=
  [("Text", ⟨"span", "tachui-text", "textElement", true, false⟩),
   ("Button", ⟨"button", "tachui-button", "buttonElement", true, false⟩),
   ("VStack", ⟨"div", "tachui-v flex flex-col", "container", false, true⟩),
   ("HStack", ⟨"div", "tachui-h flex flex-row", "container", false, true⟩),
   ("ZStack", ⟨"div", "tachui-z relative", "container", false, false⟩),
   ("List", ⟨"div", "tachui-list", "listElement", false, false⟩)]

/-- The descriptor of a component; one without its own is a container with a class of its name. -/
def ofName (name : String) : Descriptor :=
  (builtIn.lookup name).getD ⟨"div", "tachui-" ++ Text.lower name, "element", false, false⟩

end Descriptor

end UiMarkup
