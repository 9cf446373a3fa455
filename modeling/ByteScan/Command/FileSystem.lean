/-!
# Files

What a command sees of the file system: for each path the bytes of the file there, or the reason why
there are none. `FileSystem.ofFiles` is the file system of a directory that holds some files and
nothing else.
-/

namespace ByteScan

/-- Why a file cannot be read. -/
inductive FileError where
  /-- There is nothing of this name. -/
  | notFound
  /-- The path goes on behind something that is no directory. -/
  | notDirectory
  /-- There is a directory of this name. -/
  | isDirectory
  /-- The path contains the character zero. -/
  | invalidPath
  /-- A part of the path, or the path, is too long. -/
  | nameTooLong
  /-- The file is to be read as text and is not UTF-8. -/
  | notText
  /-- Anything else, in the words of the system. -/
  | other (reason : String)
  deriving DecidableEq, Repr

/-- The message for a fault. -/
def FileError.message : FileError → String
  | notFound => "No such file or directory (os error 2)"
  | notDirectory => "Not a directory (os error 20)"
  | isDirectory => "Is a directory (os error 21)"
  | invalidPath => "file name contained an unexpected NUL byte"
  | nameTooLong => "File name too long (os error 36)"
  | notText => "stream did not contain valid UTF-8"
  | other reason => reason

/-- What a path leads to. -/
abbrev FileSystem := String → Except FileError (List UInt8)

namespace FileSystem

/-- Whether a path leads to something, be it a file that can be read or not. -/
def has (files : FileSystem) (path : String) : Bool :=
  match files path with
  | .ok _ | .error .isDirectory | .error (.other _) | .error .notText => true
  | .error .notFound | .error .notDirectory | .error .invalidPath | .error .nameTooLong => false

/-- The text of a file. -/
def text (files : FileSystem) (path : String) : Except FileError String := do
  let bytes ← files path
  match String.fromUTF8? ⟨bytes.toArray⟩ with
  | some text => return text
  | none => throw .notText

/-! ## The files of one directory -/

/-- The parts of a path. -/
def parts (path : String) : List String :=
  (path.toList.splitOn '/').map String.ofList

/-- How many bytes a part of a path may have. -/
def maxPartSize : Nat := 255

/-- How many bytes a path may have. -/
def maxPathSize : Nat := 4095

/-- A directory with some files, and with the directories that their names need. -/
structure Directory where
  files : List (String × List UInt8)

namespace Directory

/-- What stands at a place, which is given by the names that lead to it from the directory. -/
def at? (d : Directory) (place : List String) : Except FileError (List UInt8) :=
  match d.files.find? (parts ·.1 = place) with
  | some (_, bytes) => .ok bytes
  | none =>
    if place = [] ∨ d.files.any (place.isPrefixOf <| parts ·.1) then .error .isDirectory
    else .error .notFound

/-- Whether a part of a path leads from a directory to itself. -/
def stays (part : String) : Bool :=
  part = "" || part = "."

/-- Whether a part of a path leads to the directory above. -/
def leadsUp (part : String) : Bool :=
  part = ".."

/-- Whether a part of a path is too long for a name. -/
def isTooLong (part : String) : Bool :=
  part.utf8ByteSize > maxPartSize

/-- Goes along the parts of a path outside of the directory. What is there is not known: there are
directories above, and nothing in them has a name. -/
def followOutside : List String → Except FileError (List UInt8)
  | [] => .error .isDirectory
  | part :: rest =>
    if stays part || leadsUp part then followOutside rest
    else if isTooLong part then .error .nameTooLong
    else .error .notFound

/-- Goes from a place on along the parts of a path. To go anywhere from a place, or to stay there by
a part that says so, needs a directory at that place. -/
def follow (d : Directory) : (place : List String) → List String → Except FileError (List UInt8)
  | place, [] => d.at? place
  | place, part :: rest =>
    match d.at? place with
    | .ok _ => .error .notDirectory
    | .error .isDirectory =>
      if stays part then d.follow place rest
      else if leadsUp part then
        if place = [] then followOutside rest else d.follow place.dropLast rest
      else if isTooLong part then .error .nameTooLong
      else d.follow (place ++ [part]) rest
    | .error fault => .error fault

end Directory

/-- The file system of a directory that holds these files. A path that begins with a slash leads
outside. -/
def ofFiles (files : List (String × List UInt8)) : FileSystem := fun path =>
  if path.toList.contains '\x00' then .error .invalidPath
  else if path.utf8ByteSize > maxPathSize then .error .nameTooLong
  else
    match parts path with
    | [""] => .error .notFound
    | "" :: rest => Directory.followOutside rest
    | names => Directory.follow ⟨files⟩ [] names

end FileSystem

end ByteScan
