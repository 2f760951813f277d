import PageSheet.Files
import PageSheet.Http
namespace PageSheet.Site

/-!
# Sites

A site answers requests with the files below its root directory.  The part of an
address before a question mark or a number sign is the path of the file below
the root; an address without such a path is answered with the index page.  A
path that takes a step up is never looked up.

What cannot be served is not found.  What a request gets of a reply, and by
which methods it asks for it, is the business of the HTTP library.
-/

/-- The part of an address that is a path. -/
def pathPart (address : Text) : Text :=
  address.takeWhile fun c => c != '?' && c != '#'

/-- The path of the file that an address asks for, if it stays below the root. -/
def resolve?
    (root address : Text) :
    Option Text :=
  let relative := (pathPart address).dropWhile fun c => c == '/'
  if relative = [] then
    some (Path.join root "index.html".toList)
  else if (Path.components relative).all Path.Component.isDownwards then
    some (Path.join root relative)
  else
    none

/-- The content type of the file at a path. -/
def contentType (path : Text) : Text :=
  if ".css".toList.isSuffixOf path then
    "text/css".toList
  else
    "text/html".toList

/-- The answer to a request that gets a file. -/
def found
    (http : Http HeaderLine Reply)
    (method path : Text)
    (bytes : ByteArray) :
    Http.Response :=
  match http.header? Http.contentTypeName (contentType path) with
  | none => http.unanswered method
  | some header => http.deliver method (http.withHeader (http.ofFile bytes) header)

/-- The answer to a request when there is nothing to serve. -/
def notFound
    (http : Http HeaderLine Reply)
    (method : Text) :
    Http.Response :=
  http.deliver method (http.withStatus (http.ofText "Not Found".toList) 404)

/-- The answer to a request for an address. -/
def respond
    [Monad m]
    (files : Files m)
    (http : Http HeaderLine Reply)
    (root method address : Text) :
    m Http.Response := do
  match resolve? root address with
  | none => return notFound http method
  | some path =>
      match ← files.read path with
      | .error _ => return notFound http method
      | .ok bytes => return found http method path bytes

end PageSheet.Site
