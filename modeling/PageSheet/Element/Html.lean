import PageSheet.Element.Basic
namespace PageSheet.Element

/-!
# The markup of elements

Attributes and content stand in the markup as they are; only one pair of double
quotes around a content is taken off.  A tag that starts with `!` is a
declaration, an element without a tag is its content alone, and an element that
can have no content closes itself.  Every head links to the style sheet of the
page.
-/

/-- The link that every head starts with. -/
def styleSheetLink : Text :=
  "<link rel=\"stylesheet\" href=\"styles.css\">".toList

/-- A content without one pair of double quotes around it. -/
def unquoted (content : Text) : Text :=
  match content with
  | '\x22' :: inner =>
      if inner.getLast? = some '\x22' then inner.dropLast else content
  | _ => content

/-- The markup of one attribute, with the blank before it. -/
def attributeHtml (given : Attribute) : Text :=
  ' ' :: Attribute.bareName given.name ++ '=' :: given.value

/-- The markup of a content; there is none for an absent one. -/
def contentHtml : Option Text → Text
  | none => []
  | some content => unquoted content

/-- What stands in an element between its content and its children. -/
def linkHtml (tag : Text) : Text :=
  if tag = ['h', 'e', 'a', 'd'] then styleSheetLink else []

mutual

/-- The markup of an element and of everything in it. -/
def html : Element → Text
  | ⟨tag, attributes, content, children⟩ =>
      match tag with
      | [] => contentHtml content
      | '!' :: _ => '<' :: tag ++ ['>']
      | _ =>
          '<' :: tag ++ attributes.flatMap attributeHtml ++
            if isVoid tag then
              [' ', '/', '>']
            else
              '>' :: contentHtml content ++ linkHtml tag ++ childrenHtml children
                ++ ['<', '/'] ++ tag ++ ['>']

/-- The markup of the children of an element. -/
def childrenHtml : Option (List Element) → Text
  | none => []
  | some children => htmlIn children

/-- The markup of a list of elements, one right after the other. -/
def htmlIn : List Element → Text
  | [] => []
  | element :: rest => element.html ++ htmlIn rest

end

end PageSheet.Element
