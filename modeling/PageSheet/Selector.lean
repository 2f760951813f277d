import PageSheet.Attribute
namespace PageSheet

/-!
# Selectors

The selector of a rule says what the rule stands for on the page.  A run of
ASCII letters and digits names an element, a name behind the attribute marker
names an attribute, and `:root` stands for the document type.  No other selector
stands for anything.
-/

/-- What the selector of a rule stands for. -/
inductive Selector where
  | root
  | element (tag : Text)
  | attr (name : Text)
  | unsupported
  deriving Repr, DecidableEq

namespace Selector

/-- The selector that stands for the document type. -/
def rootText : Text :=
  [':', 'r', 'o', 'o', 't']

/-- Whether a text is a non-empty run of ASCII letters and digits. -/
def isElementName (text : Text) : Bool :=
  !text.isEmpty && text.all Char.isAlphanum

/-- What the text of a selector stands for. -/
def ofText (text : Text) : Selector :=
  if text = rootText then
    .root
  else if isElementName text then
    .element text
  else if text.head? = some Attribute.marker then
    .attr (Text.trim (Attribute.bareName text))
  else
    .unsupported

/-- Whether a text names an element. -/
def isElement (text : Text) : Bool :=
  match ofText text with
  | .element _ => true
  | _ => false

/-- Only element names stand for elements, and they stand for themselves. -/
theorem ofText_eq_element_iff
    {text tag : Text} :
    ofText text = .element tag ↔ isElementName text = true ∧ tag = text := by
  constructor
  · intro stands
    unfold ofText at stands
    split at stands
    · cases stands
    split at stands
    · next named =>
        cases stands
        exact ⟨named, rfl⟩
    split at stands <;> cases stands
  · rintro ⟨named, rfl⟩
    have notRoot : tag ≠ rootText := by
      rintro rfl
      exact absurd named (by decide)
    simp [ofText, notRoot, named]

end Selector

end PageSheet
