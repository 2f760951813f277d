import PageSheet.Files
import PageSheet.KeyedList
namespace PageSheet

/-!
# Disks

A disk is a tree of directories and files, kept as the list of its entries.  An
entry has a location, which is the list of names from the entry up to the top
directory.  The top directory is always there and has no entry.

A path is followed one segment at a time from the working directory, or from the
top if it is absolute.  Every segment, even one that stands for no step, needs a
directory to be taken in.
-/

/-- The names on the way from an entry up to the top directory. -/
abbrev Location := List Text

/-- What lies at a location. -/
inductive Entry where
  | file (bytes : ByteArray)
  | directory

/-- A tree of directories and files, with a working directory in it. -/
structure Disk where
  entries : List (Location × Entry)
  working : Location

namespace Disk

/-- What lies at a location, if anything does. -/
def find?
    (disk : Disk)
    (location : Location) :
    Option Entry :=
  if location = [] then
    some .directory
  else
    disk.entries.lookup location

/-- Let an entry lie at a location, instead of what was there. -/
def put
    (disk : Disk)
    (location : Location)
    (entry : Entry) :
    Disk where
  entries :=
    KeyedList.set location entry disk.entries
  working :=
    disk.working

/-- Take one segment from a location. -/
def followSegment
    (disk : Disk)
    (location : Location)
    (segment : Text) :
    Except FileFault Location :=
  match disk.find? location with
  | none => .error .missing
  | some (.file _) => .error .notDirectory
  | some .directory =>
      if !Path.isStep segment then
        .ok location
      else if segment = Path.above then
        .ok location.tail
      else
        match disk.find? (segment :: location) with
        | none => .error .missing
        | some _ => .ok (segment :: location)

/-- Take the segments of a list from a location. -/
def follow
    (disk : Disk)
    (location : Location)
    (segments : List Text) :
    Except FileFault Location :=
  segments.foldlM disk.followSegment location

/-- The location that the segments of a path start from. -/
def origin
    (disk : Disk)
    (path : Text) :
    Location :=
  if Path.isAbsolute path then [] else disk.working

/-- The location that a path leads to. -/
def locate
    (disk : Disk)
    (path : Text) :
    Except FileFault Location :=
  if path = [] then
    .error .missing
  else
    disk.follow (disk.origin path) (Path.segments path)

/-- What lies where a path leads to. -/
def lookup
    (disk : Disk)
    (path : Text) :
    Except FileFault Entry := do
  let location ← disk.locate path
  match disk.find? location with
  | none => .error .missing
  | some entry => .ok entry

/-- Whether a path leads to a file or a directory. -/
def isPresent
    (disk : Disk)
    (path : Text) :
    Bool :=
  match disk.lookup path with
  | .ok _ => true
  | .error _ => false

/-- Whether a path leads to a directory. -/
def isDirectory
    (disk : Disk)
    (path : Text) :
    Bool :=
  match disk.lookup path with
  | .ok .directory => true
  | .ok (.file _) => false
  | .error _ => false

/-- The bytes of the file at a path. -/
def read
    (disk : Disk)
    (path : Text) :
    Except FileFault ByteArray := do
  match ← disk.lookup path with
  | .file bytes => .ok bytes
  | .directory => .error .isDirectory

/-- A path without the slashes at its end. -/
def withoutSlashes (path : Text) : Text :=
  (path.reverse.dropWhile fun c => c == '/').reverse

/--
The directory and the name that a path gives to something new: the location that
all its segments but the last lead to, and the last one.
-/
def slot
    (disk : Disk)
    (path : Text) :
    Except FileFault (Location × Text) := do
  if path = [] then
    .error .missing
  else
    let segments := Path.segments (withoutSlashes path)
    let parent ← disk.follow (disk.origin path) segments.dropLast
    match disk.find? parent with
    | none => .error .missing
    | some (.file _) => .error .notDirectory
    | some .directory => .ok (parent, segments.getLastD [])

/-- Whether a segment can be the name of something new. -/
def isName (segment : Text) : Bool :=
  Path.isStep segment && segment ≠ Path.above

/-- Make one directory. -/
def makeDirectory
    (disk : Disk)
    (path : Text) :
    Except FileFault Disk := do
  let (parent, name) ← disk.slot path
  if !isName name then
    .error .alreadyExists
  else
    match disk.find? (name :: parent) with
    | some _ => .error .alreadyExists
    | none => .ok (disk.put (name :: parent) .directory)

/-- Give the file at a path new bytes, and make it if it is missing. -/
def write
    (disk : Disk)
    (path : Text)
    (bytes : ByteArray) :
    Except FileFault Disk := do
  let (parent, name) ← disk.slot path
  if !isName name || path.getLast? = some '/' then
    .error .isDirectory
  else
    match disk.find? (name :: parent) with
    | some .directory => .error .isDirectory
    | some (.file _) => .ok (disk.put (name :: parent) (.file bytes))
    | none => .ok (disk.put (name :: parent) (.file bytes))

/-- Carry out a change, or leave the disk as it is when the change fails. -/
def change (alter : Disk → Except FileFault Disk) :
    StateM Disk (Except FileFault Unit) := do
  match alter (← get) with
  | .error fault => return .error fault
  | .ok disk => do
      set disk
      return .ok ()

/-- The operations on the files of a disk. -/
def files : Files (StateM Disk) where
  isPresent path := do return (← get).isPresent path
  isDirectory path := do return (← get).isDirectory path
  read path := do return (← get).read path
  makeDirectory path := change fun disk => disk.makeDirectory path
  write path bytes := change fun disk => disk.write path bytes

/-- What is put at a location lies there, and everything else stays. -/
theorem find?_put
    {disk : Disk}
    {location : Location}
    (notTop : location ≠ [])
    (entry : Entry)
    (other : Location) :
    (disk.put location entry).find? other =
      if other = location then some entry else disk.find? other := by
  unfold find? put
  by_cases isTop : other = []
  · subst isTop
    rw [if_pos rfl, if_neg (Ne.symm notTop), if_pos rfl]
  · rw [if_neg isTop, if_neg isTop]
    exact KeyedList.lookup_set location other entry disk.entries

end Disk

end PageSheet
