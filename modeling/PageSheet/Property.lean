import PageSheet.Attribute
namespace PageSheet

/-!
# Properties

The property of a declaration says what the declaration contributes to the
element around it: its content, an attribute, or nothing on the page.  Custom
properties only give values to variables.
-/

/-- What a declaration contributes. -/
inductive Property where
  | content
  | attr
  | custom
  | style
  deriving Repr, DecidableEq

namespace Property

/-- The property whose value is the content of an element. -/
def contentText : Text :=
  ['c', 'o', 'n', 't', 'e', 'n', 't']

/-- Whether a property is a custom property. -/
def isCustom (text : Text) : Bool :=
  ['-', '-'].isPrefixOf text

/-- What a declaration with a given property contributes. -/
def ofText (text : Text) : Property :=
  if text = contentText then
    .content
  else if Attribute.isRecognised text then
    .attr
  else if isCustom text then
    .custom
  else
    .style

end Property

end PageSheet
