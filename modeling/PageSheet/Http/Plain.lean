import PageSheet.Http
import PageSheet.KeyedList
import PageSheet.Text.Utf8
namespace PageSheet.Http

/-!
# A plain HTTP library

The smallest library that a site can be served with: a header is a name with a value, and a
reply is a status, headers and a body.  `reliable_plain` says that it does what is documented
about such libraries.
-/

/-- A reply as its status, its headers and its body. -/
structure PlainReply where
  status : Nat
  headers : List (Text × Text)
  body : ByteArray

/-- Whether a character is one of ASCII. -/
def isAscii (c : Char) : Bool :=
  c.toNat < 128

/-- What is graphic is ASCII. -/
theorem all_isAscii
    {text : Text}
    (graphic : isGraphic text = true) :
    text.all isAscii = true := by
  rw [List.all_eq_true]
  intro c member
  have between := List.all_eq_true.mp graphic c member
  have within : c.toNat ≤ '~'.toNat :=
    of_decide_eq_true (Bool.and_eq_true_iff.mp between).2
  exact decide_eq_true (Nat.lt_of_le_of_lt within (by decide))

/-- The library whose headers and replies are plain values. -/
def plain : Http (Text × Text) PlainReply where
  header? name value :=
    if (name ++ value).all isAscii then
      some (name, value)
    else
      none
  ofText text :=
    ⟨200, [(contentTypeName, "text/plain; charset=UTF-8".toList)], Text.toBytes text⟩
  ofFile bytes := ⟨200, [], bytes⟩
  withStatus reply status := { reply with status := status }
  withHeader reply header :=
    { reply with headers := KeyedList.set header.1 header.2 reply.headers }
  deliver method reply :=
    { status := reply.status
      contentType := (reply.headers.lookup contentTypeName).getD []
      body := if method = "HEAD".toList then .empty else reply.body }
  unanswered _ := ⟨500, [], .empty⟩

/-- The plain library does what is documented about HTTP libraries. -/
theorem reliable_plain : plain.Reliable where
  header := by
    intro name value graphicName graphicValue
    have isAscii : (name ++ value).all isAscii = true := by
      rw [List.all_append, all_isAscii graphicName, all_isAscii graphicValue, Bool.and_self]
    exact ⟨(name, value), if_pos isAscii⟩
  status_ofFile _ _ :=
    rfl
  body_ofFile other _ :=
    if_neg other
  body_head _ := by
    simp only [plain, if_true]
  deliver_withHeader := by
    intro contentType header _ isHeader method reply
    have isTyped : (contentTypeName, contentType) = header := by
      simp only [plain] at isHeader
      split at isHeader
      · exact Option.some.inj isHeader
      · cases isHeader
    subst isTyped
    have told := KeyedList.lookup_set contentTypeName contentTypeName contentType reply.headers
    simp only [plain, told, if_true, Option.getD_some]

end PageSheet.Http
