import CoSimIO.Basic
import CoSimIO.Library.FileProcess

/-! # File names and file-system steps of `Communication`

Every function of the communication classes that touches the file system is
translated to the list of its atomic steps. Strings are lists of characters. A
`Communication` holds what both partners of a connection agree on; its folder ends
in the connection name and therefore never in a separator.
-/

namespace CoSimIO

open FileProcess

set_option autoImplicit false

abbrev Step := Instruction Text Char

inductive Side
  | primary
  | secondary
deriving DecidableEq

def Side.other : Side → Side
  | .primary => .secondary
  | .secondary => .primary

@[simp] theorem Side.other_other (s : Side) : s.other.other = s := by cases s <;> rfl

@[simp] theorem Side.other_ne (s : Side) : s.other ≠ s := by cases s <;> nofun

@[simp] theorem Side.ne_other (s : Side) : s ≠ s.other := by cases s <;> nofun

theorem Side.eq_or_eq_other (s t : Side) : t = s ∨ t = s.other := by
  cases s <;> cases t <;> simp [Side.other]

structure Communication where
  connectionName : Text
  commFolder : Text
  commInFolder : Bool

namespace Communication

variable (c : Communication)

def appendPath (directory name : Text) : Text := directory ++ '/' :: name

def getFileName (path extension : Text) : Text :=
  let localCopy := path ++ '.' :: extension
  if c.commInFolder then appendPath c.commFolder localCopy else localCopy

def getTmpFileName (path : Text) (useAuxFileForFileAvailability : Bool) : Text :=
  if !useAuxFileForFileAvailability then
    if c.commInFolder then
      path.take (c.commFolder.length + 1) ++ '.' :: path.drop (c.commFolder.length + 1)
    else '.' :: path
  else path

def availFile (path : Text) : Text := path ++ ".avail".toList

def addFilePermissions (path : Text) : List Step := [.permissions path]

def removePath (path : Text) : List Step := [.remove path 5]

def waitForPath (path : Text) (useAuxFileForFileAvailability : Bool) : List Step :=
  if !useAuxFileForFileAvailability then [.waitExists path]
  else .waitExists (availFile path) :: removePath (availFile path)

def waitUntilFileIsRemoved (path : Text) : List Step := [.waitRemoved path]

def makeFileVisible (path : Text) (useAuxFileForFileAvailability : Bool) : List Step :=
  if !useAuxFileForFileAvailability then
    let tmpFileName := c.getTmpFileName path useAuxFileForFileAvailability
    addFilePermissions tmpFileName ++ [.rename tmpFileName path]
  else
    addFilePermissions path ++ [.create (availFile path), .close]

theorem getFileName_injective {path path' extension : Text}
    (h : c.getFileName path extension = c.getFileName path' extension) : path = path' := by
  unfold getFileName appendPath at h
  split at h <;> simpa using h

@[simp] theorem getFileName_getLast? (path extension : Text) :
    (c.getFileName path extension).getLast? = some (extension.getLast?.getD '.') := by
  unfold getFileName appendPath
  split <;> simp [List.getLast?_append, List.getLast?_cons]

@[simp] theorem availFile_getLast? (path : Text) : (availFile path).getLast? = some 'l' := by
  simp [availFile, List.getLast?_append]

end Communication

end CoSimIO
