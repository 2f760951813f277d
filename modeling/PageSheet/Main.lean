import PageSheet.Command.Run
import PageSheet.Http.Plain
import PageSheet.Site
namespace PageSheet

/-!
# The command line

The program runs a command on the files of the machine.  A site is served on the
standard streams: each line of the input is a method and an address with a blank
between them, and each answer is a line with its status, its content type and
the number of its bytes, followed by these bytes.  Whatever listens on a port
passes the lines on.
-/

namespace Machine

/-- The fault that an error of the machine stands for. -/
def faultOf : IO.Error → FileFault
  | .noFileOrDirectory .. => .missing
  | .alreadyExists .. => .alreadyExists
  | .inappropriateType file code details =>
      if code = 20 then
        .notDirectory
      else if code = 21 then
        .isDirectory
      else
        .other (toString (IO.Error.inappropriateType file code details)).toList
  | error => .other (toString error).toList

/-- Carry out an operation, with its error as a fault. -/
def attempt (operation : IO α) : IO (Except FileFault α) := do
  try
    return .ok (← operation)
  catch error =>
    return .error (faultOf error)

/-- Whether a path can be opened, or at least leads to something. -/
def isPresent (path : Text) : IO Bool := do
  match ← attempt (IO.FS.Handle.mk (String.ofList path) .read) with
  | .ok _ => return true
  | .error .missing => return false
  | .error .notDirectory => return false
  | .error _ => return true

/-- Whether a path leads to a directory. -/
def isDirectory (path : Text) : IO Bool := do
  match ← attempt (IO.FS.Handle.mk (String.ofList path ++ "/.") .read) with
  | .ok _ => return true
  | .error _ => return false

/-- The operations on the files of the machine. -/
def files : Files IO where
  isPresent := isPresent
  isDirectory := isDirectory
  read path := attempt (IO.FS.readBinFile (String.ofList path))
  makeDirectory path := attempt (IO.FS.createDir (String.ofList path))
  write path bytes := attempt (IO.FS.writeBinFile (String.ofList path) bytes)

/-- Say how a command ended. -/
def announce (outcome : Command.Outcome) : IO UInt32 := do
  IO.print (String.ofList outcome.output)
  IO.eprint (String.ofList outcome.errors)
  return outcome.code

/-- Write an answer. -/
def send
    (output : IO.FS.Stream)
    (response : Http.Response) :
    IO Unit := do
  let contentType := String.ofList response.contentType
  output.putStrLn s!"{response.status} {response.body.size} {contentType}"
  output.write response.body
  output.flush

/-- Answer the requests of the input until it ends. -/
partial def serve (root : Text) : IO Unit := do
  let line ← (← IO.getStdin).getLine
  if line.isEmpty then
    return
  match Text.pieces ' ' (Text.trim line.toList) with
  | method :: address :: _ =>
      send (← IO.getStdout) (← Site.respond files Http.plain root method address)
  | _ => send (← IO.getStdout) (Site.notFound Http.plain "GET".toList)
  serve root

/-- Carry out a request and end with its code. -/
def run (request : Command.Request) : IO UInt32 := do
  match Command.outcome? files request, request with
  | some ended, _ => announce (← ended)
  | none, .serve root port => do
      IO.eprintln s!"Serving {String.ofList root} for http://localhost:{port}"
      serve root
      return 0
  | none, _ => return 0

end Machine

end PageSheet

/-- Run the command that the arguments ask for. -/
def main (arguments : List String) : IO UInt32 := do
  match PageSheet.Command.Request.ofArguments (arguments.map String.toList) with
  | .error refusal => PageSheet.Machine.announce refusal.outcome
  | .ok request => PageSheet.Machine.run request
