import PageSheet.Element.Build
import PageSheet.Element.Html
import PageSheet.Item.Parse
namespace PageSheet

/-!
# Pages

A page is the list of its outermost elements.  The page of a sheet is built with
the variables of the whole sheet, and its markup has one line for each outermost
element.
-/

/-- The outermost elements of a page, in document order. -/
abbrev Page := List Element

namespace Page

/-- The page of a sheet. -/
def ofItems (items : List (Item Place)) : Page :=
  Element.ofItems (Variables.ofItems items) items

/-- The markup of a page. -/
def html (page : Page) : Text :=
  Text.join ['\n'] (page.map Element.html)

/-- The markup of the page of a source text. -/
def convert (source : Text) : Except (Failure Fault Position) Text :=
  (Item.ofSource source).map fun items => (ofItems items).html

end Page

end PageSheet
