import SlotPool.Linux.DefaultRoute
import SlotPool.Linux.FileTree
import SlotPool.Linux.Tool
import SlotPool.Primitive.Call
/-!
A Linux machine. It keeps named namespaces in a directory by system calls of its own, and runs
programs for links, routes and rules. What the kernel and the programs answer is a parameter.
-/

namespace SlotPool.Linux

/-- Why a system call failed. -/
inductive Errno
  | notPermitted
  | noEntry
  | invalidArgument
  /-- any other, in words -/
  | other (text : String)
  deriving DecidableEq

/-- An error number in words. -/
def Errno.text : Errno → String
  | .notPermitted => "EPERM: Operation not permitted"
  | .noEntry => "ENOENT: No such file or directory"
  | .invalidArgument => "EINVAL: Invalid argument"
  | .other text => text

/-- A failed system call, in which an absent file counts as an absent thing. -/
def Errno.failure (operation : String) : Errno → NetworkError
  | .noEntry => .notFound operation
  | errno => .systemCall operation errno.text

/-- How the kernel answers the system calls on namespaces. Nothing stands for success. -/
structure Kernel where
  /-- moving the thread into a new namespace -/
  unshare : Option Errno
  /-- mounting the thread's namespace on a marker -/
  mount : Option Errno
  /-- unmounting what is mounted on a file -/
  unmount : File → Option Errno
  /-- entering what a handle refers to -/
  enter : Handle → Option Errno

namespace Kernel

/-- A kernel that lets the program do everything. What is no mount cannot be unmounted, and what is
    no namespace cannot be entered. -/
def privileged : Kernel where
  unshare := none
  mount := none
  unmount file := if file = .mounted then none else some .invalidArgument
  enter handle := if handle.isNamespace then none else some .invalidArgument

/-- A kernel that lets the program change nothing. -/
def unprivileged : Kernel where
  unshare := some .notPermitted
  mount := some .notPermitted
  unmount _ := some .notPermitted
  enter handle := if handle.isNamespace then some .notPermitted else some .invalidArgument

end Kernel

/-- A Linux machine as the program sees it. -/
structure Host where
  kernel : Kernel
  files : FileTree
  /-- the directory in which the program is -/
  directory : Location
  /-- the path of the directory in which namespaces are kept -/
  path : String
  tools : Tools
  /-- the interface that leads outside, if it is configured -/
  egress : Option String
  /-- the label of the namespace that the thread has entered last -/
  current : String
  /-- the lines of the runs so far, the latest first -/
  runs : List String

namespace Host

/-- The path of a marker. -/
def markerPath (host : Host) (name : String) : String := joinPath host.path name

/-- The file to which a name leads. -/
def find (host : Host) (name : String) : Except IoError (Location × File) :=
  host.files.find host.directory (host.markerPath name)

/-- Opens the file to which a name leads. -/
def openNamed (host : Host) (name : String) : Except NetworkError Handle :=
  match host.find name with
  | .ok (_, file) => .ok ⟨name, file = .mounted⟩
  | .error cause => .error (.ofIo (host.markerPath name) cause)

/-- Whether a name leads anywhere. Only absence is an answer, other failures are failures. -/
def existsNamed (host : Host) (name : String) : Except NetworkError Bool :=
  match host.find name with
  | .ok _ => .ok true
  | .error cause =>
    if cause.kind = .notFound then .ok false else .error (.ofIo (host.markerPath name) cause)

/-- Takes back the marker of a name. Nothing is told if this fails. -/
def withdraw (host : Host) (name : String) : Host :=
  match host.files.remove host.directory (host.markerPath name) with
  | .ok files => { host with files }
  | .error _ => host

/-- Makes a namespace: the directory if needed, a marker, a namespace for the thread, and the mount
    that joins the two. When the namespace or the mount fails, the marker is taken back. -/
def createNamed (host : Host) (name : String) : Except NetworkError Handle × Host :=
  match host.files.ensureDirectory host.directory host.path with
  | (.error cause, files) => (.error (.ofIo host.path cause), { host with files })
  | (.ok (), files) =>
    match files.vacancy host.directory (host.markerPath name) with
    | .error cause => (.error (.ofIo (host.markerPath name) cause), { host with files })
    | .ok location =>
      let host := { host with files := files.insert location .plain }
      match host.kernel.unshare with
      | some errno => (.error (errno.failure "unshare"), host.withdraw name)
      | none =>
        let host := { host with current := name }
        match host.kernel.mount with
        | some errno =>
          (.error (errno.failure s!"bind mount {host.markerPath name}"), host.withdraw name)
        | none =>
          let host := { host with files := host.files.insert location .mounted }
          (host.openNamed name, host)

/-- Deletes a namespace: unmounts it if it is mounted and removes the marker. -/
def deleteNamed (host : Host) (name : String) : Except NetworkError Unit × Host :=
  match host.find name with
  | .error cause => (.error (.ofIo (host.markerPath name) cause), host)
  | .ok (_, file) =>
    match host.kernel.unmount file with
    | none | some .invalidArgument =>
      match host.files.remove host.directory (host.markerPath name) with
      | .error cause => (.error (.ofIo (host.markerPath name) cause), host)
      | .ok files => (.ok (), { host with files })
    | some errno => (.error (errno.failure s!"umount {host.markerPath name}"), host)

/-- Moves the thread. -/
def enter (host : Host) (target : Handle) : Except NetworkError Unit × Host :=
  match host.kernel.enter target with
  | none => (.ok (), { host with current := target.label })
  | some errno => (.error (errno.failure s!"setns {target.label}"), host)

/-- Runs a program and returns what it has written. -/
def run (host : Host) (invocation : Invocation) : Except NetworkError (List Char) × Host :=
  if invocation.arguments.any hasZeroByte then
    (.error (.spawn invocation.program .zeroByteInArgument), host)
  else if !host.tools.installed then
    (.error (.spawn invocation.program .noSuchFile), host)
  else if invocation.arguments.any (longestArgument < ·.utf8ByteSize) then
    (.error (.spawn invocation.program .argumentTooLong), host)
  else
    let line := invocation.line
    ((host.tools.report line).result line, { host with runs := line :: host.runs })

/-- Runs a program for its effect. -/
def runUnit (host : Host) (invocation : Invocation) : Except NetworkError Unit × Host :=
  let (result, host) := host.run invocation
  (result.map fun _ => (), host)

/-- Asks a program whether a link is there. Only a complaint of absence is an answer. -/
def linkExists (host : Host) (name : String) : Except NetworkError Bool × Host :=
  match host.run (.showLink name) with
  | (.ok _, host) => (.ok true, host)
  | (.error failure, host) =>
    if failure.isNotFound then (.ok false, host) else (.error failure, host)

/-- The interface that leads outside: as configured, or that of the first default route. -/
def egressInterface (host : Host) : Except NetworkError String × Host :=
  match host.egress with
  | some interface => (.ok interface, host)
  | none =>
    match host.run .listDefaultRoutes with
    | (.error failure, host) => (.error failure, host)
    | (.ok listing, host) =>
      match defaultDevice listing with
      | some device => (.ok (String.ofList device), host)
      | none => (.error (.notFound "default route"), host)

/-- The answer to a call, and the machine after it. -/
def answer (host : Host) : (call : Call) → Except NetworkError call.Reply × Host
  | .currentNamespace => (.ok ⟨host.current, true⟩, host)
  | .enterNamespace target => host.enter target
  | .openNamespace name => (host.openNamed name, host)
  | .createNamespace name => host.createNamed name
  | .deleteNamespace name => host.deleteNamed name
  | .namespaceExists name => (host.existsNamed name, host)
  | .linkExists name => host.linkExists name
  | .addVethPair name peer => host.runUnit (.addVethPair name peer)
  | .addTap name => host.runUnit (.addTap name)
  | .setLinkUp name => host.runUnit (.setLinkUp name)
  | .addAddress link address => host.runUnit (.addAddress link address)
  | .moveLink link _ => host.runUnit (.moveLink link)
  | .deleteLink name => host.runUnit (.deleteLink name)
  | .addRoute route => host.runUnit (.addRoute route)
  | .deleteRoute route => host.runUnit (.deleteRoute route)
  | .appendRule rule => host.runUnit (.appendRule rule)
  | .deleteRule rule => host.runUnit (.deleteRule rule)
  | .newChain table chain => host.runUnit (.newChain table chain)
  | .flushChain table chain => host.runUnit (.flushChain table chain)
  | .deleteChain table chain => host.runUnit (.deleteChain table chain)
  | .egressInterface => host.egressInterface

end Host

/-- The Linux machine. It answers every call. -/
def machine : Machine Host where
  answer call host :=
    let (result, after) := host.answer call
    (.returned result, after)

end SlotPool.Linux
