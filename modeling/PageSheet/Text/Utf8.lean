import PageSheet.Text.Basic
namespace PageSheet.Text

/-!
# Texts as bytes

Files hold texts in UTF-8.  Every text has bytes, but not all bytes are a text.
-/

/-- The bytes of a text. -/
def toBytes (text : Text) : ByteArray :=
  (String.ofList text).toUTF8

/-- The text of some bytes, if they are valid UTF-8. -/
def ofBytes? (bytes : ByteArray) : Option Text :=
  (String.fromUTF8? bytes).map String.toList

end PageSheet.Text
