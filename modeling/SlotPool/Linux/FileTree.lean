import Std.Data.ExtTreeMap
import SlotPool.Linux.Path
/-!
The files of a machine, and how a path leads to one of them. A path is followed part by part, and
whatever is passed on the way has to be a directory. Named namespaces are kept in one directory,
each on record through a marker: a file of its name, with the namespace mounted on it. A marker
without a namespace is left behind when making one is interrupted.
-/

namespace SlotPool.Linux

/-- What is found at a place. -/
inductive File
  | directory
  /-- a file that stands for nothing else -/
  | plain
  /-- a file that stands for a namespace -/
  | mounted
  /-- a symbolic link that leads nowhere -/
  | danglingLink
  deriving DecidableEq

/-- Where a file is: its name and those of the directories above it, its own name first. The root
    has no name. -/
abbrev Location := List String

/-- The files of a machine by their location, without the root. -/
structure FileTree where
  files : Std.ExtTreeMap Location File

namespace FileTree

/-- What is found at a location. The root is always a directory. -/
def file? (tree : FileTree) : Location → Option File
  | [] => some .directory
  | location => tree.files[location]?

/-- Puts a file at a location. -/
def insert (tree : FileTree) (location : Location) (file : File) : FileTree :=
  ⟨tree.files.insert location file⟩

/-- Removes what is at a location. -/
def erase (tree : FileTree) (location : Location) : FileTree := ⟨tree.files.erase location⟩

/-- The names in a directory, in order. -/
def names (tree : FileTree) (directory : Location) : List String :=
  tree.files.keys.filterMap fun location =>
    match location with
    | [] => none
    | name :: above => if above = directory then some name else none

/-- Refuses a place from which no path leads on. -/
def checkDirectory (tree : FileTree) (here : Location) : Except IoError Unit :=
  match tree.file? here with
  | some .directory => .ok ()
  | some .plain | some .mounted => .error .notADirectory
  | some .danglingLink | none => .error .noSuchFile

/-- Where one part of a path leads from a directory. Two dots lead up, but not beyond the root. -/
def follow (here : Location) (part : String) : Except IoError Location :=
  if part = "" ∨ part = "." then .ok here
  else if part = ".." then .ok here.tail
  else if longestName < part.utf8ByteSize then .error .nameTooLong
  else .ok (part :: here)

/-- Follows the parts of a path. There need not be anything where they lead. -/
def walk (tree : FileTree) : Location → List String → Except IoError Location
  | here, [] => .ok here
  | here, part :: rest => do
    tree.checkDirectory here
    tree.walk (← follow here part) rest

/-- Where a path starts for a program in the given directory. -/
def origin (current : Location) (path : String) : Location :=
  if isAbsolute path then [] else current

/-- The file to which a path leads, with its location. A link that leads nowhere is no file. -/
def find (tree : FileTree) (current : Location) (path : String) :
    Except IoError (Location × File) := do
  checkPath path
  let location ← tree.walk (origin current path) (pathParts path)
  match tree.file? location with
  | some .danglingLink | none => .error .noSuchFile
  | some file => .ok (location, file)

/-- The last part of a path that is not empty, the parts before it, and whether a slash follows.
    There is no such part in a path of slashes. -/
def splitLast (parts : List String) : Option (List String × String × Bool) :=
  match parts.reverse.dropWhile (· = "") with
  | [] => none
  | last :: before => some (before.reverse, last, parts.getLast? = some "")

/-- Where a new file is to be made under the given path. There may be nothing yet, not even a link,
    and what comes before the last part has to be there. -/
def vacancy (tree : FileTree) (current : Location) (path : String) : Except IoError Location := do
  checkPath path
  match splitLast (pathParts path) with
  | none => .error .fileExists
  | some (before, last, slashFollows) =>
    let here ← tree.walk (origin current path) before
    tree.checkDirectory here
    if last = "." ∨ last = ".." then .error .fileExists
    else if slashFollows then .error .isADirectory
    else
      let location ← follow here last
      match tree.file? location with
      | some _ => .error .fileExists
      | none => .ok location

/-- Removes the file to which a path leads, or the link that is there. A directory is not removed. -/
def remove (tree : FileTree) (current : Location) (path : String) : Except IoError FileTree := do
  checkPath path
  let location ← tree.walk (origin current path) (pathParts path)
  match tree.file? location with
  | none => .error .noSuchFile
  | some .directory => .error .isADirectory
  | some _ => .ok (tree.erase location)

/-- Makes the directories on the way to which the parts lead, unless they are there. Those that were
    made before a failure stay. -/
def makeDirectories (tree : FileTree) (here : Location) :
    List String → Except IoError Unit × FileTree
  | [] => (.ok (), tree)
  | part :: rest =>
    match tree.checkDirectory here, follow here part with
    | .error cause, _ | .ok (), .error cause => (.error cause, tree)
    | .ok (), .ok there =>
      match tree.file? there with
      | some .directory => tree.makeDirectories there rest
      | none => (tree.insert there .directory).makeDirectories there rest
      | some .danglingLink => (.error .fileExists, tree)
      | some .plain | some .mounted =>
        (.error (if rest.all (· = "") then .fileExists else .notADirectory), tree)

/-- Makes the directory to which a path leads, and those above it, unless they are there. Nothing is
    to be made if no path is given. -/
def ensureDirectory (tree : FileTree) (current : Location) (path : String) :
    Except IoError Unit × FileTree :=
  if path = "" then (.ok (), tree)
  else
    match checkPath path with
    | .error cause => (.error cause, tree)
    | .ok () => tree.makeDirectories (origin current path) (pathParts path)

/-- Puts a file at each of the given absolute paths. -/
def insertAll (file : File) (tree : FileTree) (paths : List String) : FileTree :=
  paths.foldl
    (fun tree path => tree.insert ((pathParts path).filter (· ≠ "")).reverse file) tree

/-- The files that every machine has. -/
def usual : FileTree :=
  let directories :=
    ["/bin", "/dev", "/dev/fd", "/dev/pts", "/dev/shm", "/etc", "/home", "/lib", "/media", "/mnt",
      "/opt", "/proc", "/proc/net", "/proc/self", "/proc/self/fd", "/proc/self/net",
      "/proc/self/ns", "/proc/sys", "/proc/sys/net", "/proc/thread-self", "/proc/thread-self/ns",
      "/root", "/run", "/sbin", "/srv", "/sys", "/sys/class", "/sys/class/net", "/tmp", "/usr",
      "/usr/bin", "/usr/lib", "/usr/local", "/usr/local/bin", "/usr/sbin", "/usr/share", "/var",
      "/var/cache", "/var/lib", "/var/log", "/var/run", "/var/tmp"]
  let plain :=
    ["/bin/cat", "/bin/ls", "/bin/sh", "/dev/full", "/dev/null", "/dev/random", "/dev/tty",
      "/dev/urandom", "/dev/zero", "/etc/group", "/etc/hostname", "/etc/hosts", "/etc/passwd",
      "/etc/resolv.conf", "/proc/cpuinfo", "/proc/meminfo", "/proc/mounts", "/proc/self/cmdline",
      "/proc/self/exe", "/proc/self/mounts", "/proc/self/ns/mnt", "/proc/self/ns/pid",
      "/proc/self/ns/uts", "/proc/self/stat", "/proc/self/status", "/proc/uptime",
      "/proc/version", "/usr/bin/env"]
  let namespaces := ["/proc/self/ns/net", "/proc/thread-self/ns/net"]
  FileTree.insertAll .mounted (.insertAll .plain (.insertAll .directory ⟨∅⟩ directories) plain)
    namespaces

end FileTree
end SlotPool.Linux
