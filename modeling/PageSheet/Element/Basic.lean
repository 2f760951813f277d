import PageSheet.Attribute
namespace PageSheet

/-!
# Elements

An element is a node of the page.  Its content is text, and its children are
elements; either may be absent, and absent children are kept apart from an empty
list of children.  The document type counts as an element with a tag of its own.
-/

/-- A node of a page. -/
structure Element where
  tag : Text
  attributes : List Attribute
  content : Option Text
  children : Option (List Element)
  deriving Repr

namespace Element

/-- The document type. -/
def doctype : Element where
  tag := "!DOCTYPE html".toList
  attributes := []
  content := some []
  children := some []

/-- The tags of elements that have neither content nor children. -/
def voidTags : List Text :=
  [ "area", "base", "br", "col", "embed", "hr", "img", "input", "link", "meta",
    "param", "source", "track", "wbr" ].map String.toList

/-- Whether a tag is that of an element without content and children. -/
def isVoid (tag : Text) : Bool :=
  voidTags.contains tag

end Element

end PageSheet
