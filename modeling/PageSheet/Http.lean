import PageSheet.Text.Basic
namespace PageSheet

/-!
# HTTP

A site speaks HTTP through a library.  The library is a parameter: it makes headers and
replies, and it alone decides what of a reply reaches the client.  The methods of requests
go by the names that it gives them.

`Http.Reliable` is the part of the documented behaviour of such a library that the theory
of sites relies on.  Theorems that need none of it hold for every library.
-/

/-- What a client gets as the answer to a request. -/
structure Http.Response where
  status : Nat
  contentType : Text
  body : ByteArray

/-- The operations of an HTTP library that a site needs. -/
structure Http (HeaderLine Reply : Type) where
  /-- The header with a name and a value, if these can stand in one. -/
  header? : Text → Text → Option HeaderLine
  /-- The reply with a text. -/
  ofText : Text → Reply
  /-- The reply with the bytes of a file. -/
  ofFile : ByteArray → Reply
  /-- A reply with another status. -/
  withStatus : Reply → Nat → Reply
  /-- A reply with one more header, or with another value for a header that it has. -/
  withHeader : Reply → HeaderLine → Reply
  /-- What the client gets that asked with a method and is sent a reply. -/
  deliver : Text → Reply → Http.Response
  /-- What the client gets that asked with a method and is sent no reply. -/
  unanswered : Text → Http.Response

namespace Http

/-- The name of the header that tells the type of a body. -/
def contentTypeName : Text :=
  "Content-Type".toList

/-- Whether a text has graphic ASCII characters alone. -/
def isGraphic (text : Text) : Bool :=
  text.all fun c => '!' ≤ c && c ≤ '~'

/-- What is documented about the operations of an HTTP library. -/
structure Reliable (http : Http HeaderLine Reply) : Prop where
  /-- What is graphic can stand in a header. -/
  header :
    ∀ {name value : Text},
      isGraphic name = true →
        isGraphic value = true →
          ∃ header, http.header? name value = some header
  /-- The status of a file is that of success, unless another one is set. -/
  status_ofFile :
    ∀ method bytes, (http.deliver method (http.ofFile bytes)).status = 200
  /-- A file is sent as it is. -/
  body_ofFile :
    ∀ {method : Text},
      method ≠ "HEAD".toList →
        ∀ bytes, (http.deliver method (http.ofFile bytes)).body = bytes
  /-- Of the reply to a request for the head, the body is not sent. -/
  body_head :
    ∀ reply, (http.deliver "HEAD".toList reply).body = .empty
  /-- The header for the type of a body sets that type and changes nothing else. -/
  deliver_withHeader :
    ∀ {contentType : Text} {header : HeaderLine},
      isGraphic contentType = true →
        http.header? contentTypeName contentType = some header →
          ∀ method reply,
            http.deliver method (http.withHeader reply header) =
              { http.deliver method reply with contentType := contentType }

end Http

end PageSheet
