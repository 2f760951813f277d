import PageSheet.Path
namespace PageSheet

/-!
# Files

The commands work on files through a handful of operations.  The operations are
parameters, so that a command can run on the files of a machine and on a disk
that is a plain value alike.

Directories are made with the directories above them.  A directory that is there
already is as good as one that was made.
-/

/-- What keeps an operation on files from being carried out. -/
inductive FileFault where
  | missing
  | notDirectory
  | isDirectory
  | alreadyExists
  /-- A fault of another kind, in the words of the machine. -/
  | other (message : Text)
  deriving Repr, DecidableEq

namespace FileFault

/-- What is said about a fault. -/
def message : FileFault → Text
  | .missing => "No such file or directory (os error 2)".toList
  | .notDirectory => "Not a directory (os error 20)".toList
  | .isDirectory => "Is a directory (os error 21)".toList
  | .alreadyExists => "File exists (os error 17)".toList
  | .other message => message

end FileFault

/-- The operations on files that the commands need. -/
structure Files (m : Type → Type) where
  /-- Whether a path leads to a file or a directory. -/
  isPresent : Text → m Bool
  /-- Whether a path leads to a directory. -/
  isDirectory : Text → m Bool
  /-- The bytes of the file at a path. -/
  read : Text → m (Except FileFault ByteArray)
  /-- Make one directory. -/
  makeDirectory : Text → m (Except FileFault Unit)
  /-- Give the file at a path new bytes, and make it if it is missing. -/
  write : Text → ByteArray → m (Except FileFault Unit)

namespace Files

/-- Take a fault for success if there is a directory at the path. -/
def tolerate
    [Monad m]
    (files : Files m)
    (path : Text)
    (fault : FileFault) :
    m (Except FileFault Unit) := do
  if ← files.isDirectory path then
    return .ok ()
  else
    return .error fault

/--
Make the first directory of a list.  If it is missing what it should lie in, the
directories of the rest are made first and it is tried once more.
-/
def makeFirst
    [Monad m]
    (files : Files m) :
    List Text → m (Except FileFault Unit)
  | [] => return .ok ()
  | path :: above => do
      match ← files.makeDirectory path with
      | .ok () => return .ok ()
      | .error .missing => do
          match ← files.makeFirst above with
          | .error fault => return .error fault
          | .ok () =>
              match ← files.makeDirectory path with
              | .ok () => return .ok ()
              | .error fault => files.tolerate path fault
      | .error fault => files.tolerate path fault

/-- Make the directory at a path and the directories above it. -/
def makeDirectories
    [Monad m]
    (files : Files m)
    (path : Text) :
    m (Except FileFault Unit) :=
  files.makeFirst (Path.upwards path)

end Files

end PageSheet
