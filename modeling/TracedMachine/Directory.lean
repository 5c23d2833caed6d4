import TracedMachine.Bytes
import TracedMachine.Text.Split
import TracedMachine.Text.Utf8
import TracedMachine.TraceError

/-!
# Directory

Files by name, in a working directory and in the directories above it; there are no others.  A path
is walked part by part from the working directory, or from the root if it begins with a slash.
What cannot be opened fails the way a file system says it does: the first part that leads nowhere
decides.
-/

namespace TracedMachine

/-- A directory. -/
inductive Folder where
  /-- The directory so many levels above the working directory. -/
  | above (levels : Nat)
  /-- The root, which is above all. -/
  | root
deriving DecidableEq, Repr

namespace Folder

/-- The working directory. -/
def working : Folder := above 0

/-- The directory above one. -/
def parent : Folder → Folder
  | above levels => above (levels + 1)
  | root => root

end Folder

/-- A name in a directory. -/
structure FileName where
  folder : Folder
  name : String
deriving DecidableEq, Repr

namespace FileName

/-- The most bytes of a name. -/
def maxBytes : Nat := 255

/-- The name is longer than names can be. -/
def isTooLong (n : FileName) : Bool := maxBytes < (Text.encode n.name.toList).length

end FileName

/-- Files by name. -/
structure Directory where
  files : List (FileName × Bytes) := []

namespace Directory

/-- What a path leads to. -/
inductive Place where
  /-- A directory. -/
  | folder
  /-- A name that a file may have, asked for as a directory if a slash follows it. -/
  | name (name : FileName) (slash : Bool)
deriving DecidableEq, Repr

/-- The most bytes of a path. -/
def maxPathBytes : Nat := 4095

/-- The contents of a file by name. -/
def get? (d : Directory) (name : FileName) : Option Bytes := d.files.lookup name

/-- Sets the contents of a file by name. -/
def set (d : Directory) (name : FileName) (bytes : Bytes) : Directory :=
  ⟨(name, bytes) :: d.files.filter (·.1 ≠ name)⟩

/-- Why a path cannot go on below a name. -/
def belowFault (d : Directory) (name : FileName) : OutputFault :=
  if name.isTooLong then .nameTooLong
  else if (d.get? name).isSome then .notDirectory
  else .notFound

/-- Where the parts of a path lead from a directory. -/
def walk (d : Directory) (slash : Bool) : Folder → List String → Except OutputFault Place
  | _, [] => .ok .folder
  | folder, part :: parts =>
    if part = "." then d.walk slash folder parts
    else if part = ".." then d.walk slash folder.parent parts
    else if parts.isEmpty then .ok (.name ⟨folder, part⟩ slash)
    else .error (d.belowFault ⟨folder, part⟩)

/-- What a path leads to. -/
def locate (d : Directory) (path : String) : Except OutputFault Place :=
  let text := path.toList
  if text.contains '\x00' then .error .nulInName
  else if maxPathBytes < (Text.encode text).length then .error .nameTooLong
  else
    let parts := (Text.splitAt '/' text).map String.ofList
    d.walk (text.getLast? = some '/') (if text.head? = some '/' then .root else .working)
      (parts.filter (· ≠ ""))

/-- Reads a file. -/
def read (d : Directory) (path : String) : Except OutputFault Bytes :=
  match d.locate path with
  | .error fault => .error fault
  | .ok .folder => .error .isDirectory
  | .ok (.name name slash) =>
    if name.isTooLong then .error .nameTooLong
    else
      match d.get? name with
      | none => .error .notFound
      | some bytes => if slash then .error .notDirectory else .ok bytes

/-- Makes a file empty, and makes it if it is not there. -/
def create (d : Directory) (path : String) : Except OutputFault Unit × Directory :=
  match d.locate path with
  | .error fault => (.error fault, d)
  | .ok .folder => (.error .isDirectory, d)
  | .ok (.name name slash) =>
    if slash then (.error .isDirectory, d)
    else if name.isTooLong then (.error .nameTooLong, d)
    else (.ok (), d.set name [])

/-- Replaces the contents of a file that was made. -/
def write (d : Directory) (path : String) (bytes : Bytes) : Directory :=
  match d.locate path with
  | .ok (.name name _) => d.set name bytes
  | _ => d

end Directory

end TracedMachine
