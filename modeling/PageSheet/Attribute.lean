import PageSheet.Text.Basic
namespace PageSheet

/-!
# Attributes

An attribute of an element is a name with a value.  Style sheets give attributes
in two ways: a declaration whose property is one of the recognised names, and a
rule whose selector is a name behind the attribute marker.
-/

/-- A name with a value. -/
structure Attribute where
  name : Text
  value : Text
  deriving Repr, DecidableEq

namespace Attribute

/-- The character that marks a name as the name of an attribute. -/
def marker : Char :=
  '\\'

/-- A name without one leading attribute marker. -/
def bareName (name : Text) : Text :=
  Text.dropMarker marker name

/-- The properties that are attributes without a marker. -/
def recognised : List Text :=
  [ "alt", "autofocus", "charset", "checked", "class", "disabled", "hidden",
    "href", "id", "name", "onblur", "onchange", "onclick", "onmouseout",
    "onmouseover", "onsubmit", "placeholder", "readonly", "rel", "required",
    "src", "style", "tabindex", "target", "title", "type", "value",
    "viewport" ].map String.toList

/-- Whether a property is an attribute without a marker. -/
def isRecognised (property : Text) : Bool :=
  recognised.contains property

/-- A bare name loses a marker that is put before it. -/
@[simp] theorem bareName_marked
    (name : Text) :
    bareName (marker :: name) = name := by
  simp [bareName, Text.dropMarker]

/-- A name without a marker is its own bare name. -/
theorem bareName_of_unmarked
    {name : Text}
    (unmarked : name.head? ≠ some marker) :
    bareName name = name := by
  cases name with
  | nil =>
      rfl
  | cons c rest =>
      have differs : c ≠ marker := by
        simpa using unmarked
      simp [bareName, Text.dropMarker, differs]

end Attribute

end PageSheet
