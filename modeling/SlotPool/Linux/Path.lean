import SlotPool.Failure.Network
import SlotPool.Text.Words
/-!
Paths: the parts of which a path consists, how a name is joined to a directory, and which paths the
system takes at all.
-/

namespace SlotPool

namespace IoError

/-- Something on the path is absent. -/
def noSuchFile : IoError := ⟨.notFound, "No such file or directory (os error 2)"⟩

/-- The file to be made is there already. -/
def fileExists : IoError := ⟨.alreadyExists, "File exists (os error 17)"⟩

/-- Something on the path is a file and not a directory. -/
def notADirectory : IoError := ⟨.other, "Not a directory (os error 20)"⟩

/-- The path leads to a directory and not to a file. -/
def isADirectory : IoError := ⟨.other, "Is a directory (os error 21)"⟩

/-- The path or a part of it is too long. -/
def nameTooLong : IoError := ⟨.other, "File name too long (os error 36)"⟩

/-- A path cannot be handed to the system because it holds a zero byte. -/
def zeroByteInPath : IoError := ⟨.invalidInput, "file name contained an unexpected NUL byte"⟩

/-- An argument cannot be handed to a program because it holds a zero byte. -/
def zeroByteInArgument : IoError := ⟨.invalidInput, "nul byte found in provided data"⟩

/-- An argument cannot be handed to a program because it is too long. -/
def argumentTooLong : IoError := ⟨.other, "Argument list too long (os error 7)"⟩

end IoError

namespace Linux

/-- The longest path, in bytes. -/
def longestPath : Nat := 4095

/-- The longest part of a path, in bytes. -/
def longestName : Nat := 255

/-- The longest argument of a program, in bytes. -/
def longestArgument : Nat := 131071

/-- Whether a text holds a zero byte. -/
def hasZeroByte (text : String) : Bool := text.toList.contains '\x00'

/-- A path that begins with a slash starts at the root, wherever the program is. -/
def isAbsolute (path : String) : Bool := path.toList.head? = some '/'

/-- The path of a name in a directory. An absolute name is a path of its own, and so is every name
    if nothing is said of the directory. -/
def joinPath (directory name : String) : String :=
  if isAbsolute name then name
  else if directory = "" ∨ directory.toList.getLast? = some '/' then directory ++ name
  else directory ++ "/" ++ name

/-- The parts of a path: the stretches between slashes, empty ones included. -/
def pathParts (path : String) : List String :=
  (Text.fields (· == '/') path.toList).map String.ofList

/-- Refuses a path that the system does not take. The empty path leads nowhere. -/
def checkPath (path : String) : Except IoError Unit :=
  if path = "" then .error .noSuchFile
  else if hasZeroByte path then .error .zeroByteInPath
  else if longestPath < path.utf8ByteSize then .error .nameTooLong
  else .ok ()

end Linux
end SlotPool
