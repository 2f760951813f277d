import PageSheet.Command.Arguments
import PageSheet.Files
import PageSheet.Page
import PageSheet.Text.Utf8
namespace PageSheet.Command

/-!
# Running commands

Building a page reads a sheet, converts it, makes the directory for the page and
writes the page there.  Checking stops once the sheet has been read.  What has
been done until a fault is met stays done.

A command ends with a code: zero when it is done, one when it failed, and two
when its command line asks for nothing that can be run.
-/

/-- Why a command could not be carried out. -/
inductive CommandFault where
  | notFound (path : Text)
  | unreadable (path : Text) (fault : FileFault)
  /-- The bytes of a file are not the bytes of a text. -/
  | notText (path : Text)
  | notSheet (failure : Failure Fault Position)
  | unwritable (path : Text) (fault : FileFault)
  deriving Repr, DecidableEq

namespace CommandFault

/-- What is said about a fault. -/
def message : CommandFault → Text
  | .notFound path => "file not found: ".toList ++ path
  | .unreadable path fault =>
      "reading ".toList ++ path ++ [':', ' '] ++ fault.message
  | .notText path =>
      "reading ".toList ++ path ++ ": stream did not contain valid UTF-8".toList
  | .notSheet failure => failure.parseReport
  | .unwritable path fault =>
      "writing ".toList ++ path ++ [':', ' '] ++ fault.message

end CommandFault

/-- How a command ended: its code, and what it said on its two outputs. -/
structure Outcome where
  code : UInt32
  output : Text
  errors : Text
  deriving Repr, DecidableEq

namespace Outcome

/-- The outcome of a command that is done, with one line to say so. -/
def done (line : Text) : Outcome where
  code := 0
  output := line ++ ['\n']
  errors := []

/-- The outcome of a command that failed. -/
def failed (fault : CommandFault) : Outcome where
  code := 1
  output := []
  errors := "Error: ".toList ++ fault.message ++ ['\n']

end Outcome

/-- The version of the program. -/
def versionText : Text :=
  "0.1.0".toList

/-- How the program is used. -/
def manual : Text :=
  ("Usage: cssml build [-o DIR] PATH\n"
    ++ "       cssml check PATH\n"
    ++ "       cssml serve [-d DIR] [-p PORT]\n").toList

namespace Refusal

/-- The outcome of a command line that asks for nothing that can be run. -/
def outcome : Refusal → Outcome
  | .help => ⟨0, manual, []⟩
  | .version => ⟨0, "cssml ".toList ++ versionText ++ ['\n'], []⟩
  | .noArguments => ⟨2, [], manual⟩
  | .usage _ => ⟨2, [], manual⟩

end Refusal

/-- The path of the page for a sheet, in the directory for pages. -/
def pagePath
    (source outdir : Text) :
    Text :=
  Path.join outdir ((Path.stem? source).getD source ++ ".html".toList)

/-- Tell a fault of an operation on files as the fault of a command. -/
def blame
    [Monad m]
    (tell : FileFault → CommandFault)
    (operation : m (Except FileFault α)) :
    ExceptT CommandFault m α := do
  match ← ExceptT.lift operation with
  | .ok result => return result
  | .error fault => throw (tell fault)

/-- The text of the sheet at a path. -/
def readSource
    [Monad m]
    (files : Files m)
    (path : Text) :
    ExceptT CommandFault m Text := do
  if ← ExceptT.lift (files.isPresent path) then
    let bytes ← blame (.unreadable path) (files.read path)
    match Text.ofBytes? bytes with
    | some source => return source
    | none => throw (.notText path)
  else
    throw (.notFound path)

/-- Build the page of a sheet, and say where it is. -/
def build
    [Monad m]
    (files : Files m)
    (path outdir : Text) :
    ExceptT CommandFault m Text := do
  let source ← readSource files path
  match Page.convert source with
  | .error failure => throw (.notSheet failure)
  | .ok html =>
      let target := pagePath path outdir
      blame (.unwritable outdir) (files.makeDirectories outdir)
      blame (.unwritable target) (files.write target (Text.toBytes html))
      return "Successfully converted ".toList ++ path ++ " to ".toList ++ target

/-- Check that there is a sheet at a path, and say so. -/
def check
    [Monad m]
    (files : Files m)
    (path : Text) :
    ExceptT CommandFault m Text := do
  let source ← readSource files path
  match Item.ofSource source with
  | .error failure => throw (.notSheet failure)
  | .ok _ => return "OK: ".toList ++ path

/-- The outcome of a command that says one line or fails. -/
def conclude
    [Monad m]
    (command : ExceptT CommandFault m Text) :
    m Outcome := do
  match ← command.run with
  | .ok line => return .done line
  | .error fault => return .failed fault

/-- The outcome of a request that comes to an end; serving a site does not. -/
def outcome?
    [Monad m]
    (files : Files m) :
    Request → Option (m Outcome)
  | .build source outdir => some (conclude (build files source outdir))
  | .check source => some (conclude (check files source))
  | .serve _ _ => none

end PageSheet.Command
