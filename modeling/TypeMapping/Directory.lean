/-!
# A directory with at most one file

* `Directory`       : the directory that paths start from;
* `Directory.Fault` : why a path cannot be read;
* `Directory.read`  : the bytes that a path leads to.

A path is walked part by part. The directory lies in others, which hold nothing else that is known.
-/

namespace TypeMapping

/-- A directory that is empty but for one file, if there is any, and the directories on the way to it. -/
structure Directory where
  /-- The size of the path of the directory itself, in bytes. -/
  pathSize : Nat := 0
  /-- The path of the file from here, and its bytes. -/
  file? : Option (String × ByteArray) := none

namespace Directory

/-- Why a path cannot be read. -/
inductive Fault
  | notFound
  | notADirectory
  | isADirectory
  | nameTooLong
  /-- The path holds the character that ends paths. -/
  | nulInPath
  | notUtf8
  deriving DecidableEq, Repr

/-- The fault as users read it. -/
def Fault.message : Fault → String
  | notFound => "No such file or directory (os error 2)"
  | notADirectory => "Not a directory (os error 20)"
  | isADirectory => "Is a directory (os error 21)"
  | nameTooLong => "File name too long (os error 36)"
  | nulInPath => "file name contained an unexpected NUL byte"
  | notUtf8 => "stream did not contain valid UTF-8"

/-- The greatest size of one part of a path, in bytes. -/
def maxPartSize : Nat := 255

/-- The size that paths stay below, in bytes. -/
def maxPathSize : Nat := 4096

/-- Where a walk has come to. -/
inductive Place
  /-- The directory that these parts lead to. -/
  | inside (trail : List String)
  /-- A directory around the first one. -/
  | outside
  | file (content : ByteArray)

/-- The parts of a path that lead anywhere. -/
def parts (path : String) : List String := (path.splitOn "/").filter fun p => p ≠ "" ∧ p ≠ "."

/-- The place that a name leads to inside the directory at the end of `trail`. -/
def find (d : Directory) (trail : List String) (name : String) : Except Fault Place :=
  match d.file? with
  | none => .error .notFound
  | some (path, content) =>
    let trail := trail ++ [name]
    if trail = parts path then .ok (.file content)
    else if trail.isPrefixOf (parts path) then .ok (.inside trail)
    else .error .notFound

/-- The place that one part of a path leads to. Nothing is found by name in the directories around. -/
def enter (d : Directory) (place : Place) (part : String) : Except Fault Place :=
  match place with
  | .file _ => .error .notADirectory
  | .inside trail =>
    if part = "" ∨ part = "." then .ok place
    else if part = ".." then .ok (if trail.isEmpty then .outside else .inside trail.dropLast)
    else if maxPartSize < part.utf8ByteSize then .error .nameTooLong
    else d.find trail part
  | .outside =>
    if part = "" ∨ part = "." ∨ part = ".." then .ok place
    else if maxPartSize < part.utf8ByteSize then .error .nameTooLong
    else .error .notFound

/-- The size of a path from the root on. A path that begins with a slash starts there. -/
def fullSize (d : Directory) (path : String) : Nat :=
  if path.startsWith "/" then path.utf8ByteSize else d.pathSize + 1 + path.utf8ByteSize

/-- The bytes that a path leads to. -/
def read (d : Directory) (path : String) : Except Fault ByteArray := do
  if path.contains '\x00' then .error .nulInPath
  else if maxPathSize ≤ d.fullSize path then .error .nameTooLong
  else
    let start := if path.startsWith "/" then Place.outside else .inside []
    match ← (path.splitOn "/").foldlM d.enter start with
    | .file content => .ok content
    | _ => .error .isADirectory

/-- The text that a path leads to. -/
def readText (d : Directory) (path : String) : Except Fault String := do
  match String.fromUTF8? (← d.read path) with
  | some text => .ok text
  | none => .error .notUtf8

end Directory

end TypeMapping
