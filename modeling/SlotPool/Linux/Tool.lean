import SlotPool.Failure.Network
import SlotPool.Routing
import SlotPool.Text.Utf8
import SlotPool.Text.Words
/-!
The two programs that act on links, routes and rules, the lines by which they are called, and what
their reports mean.
-/

namespace SlotPool.Linux

/-- What a program run has left: its exit code and the bytes it has written. -/
structure Report where
  code : Nat
  stdout : List UInt8
  stderr : List UInt8

/-- A run without complaint and without output. -/
def Report.silent : Report := ⟨0, [], []⟩

/-- The programs of a machine. A run is reported as told for the first beginning that fits its
    line, and is silent when none fits. -/
structure Tools where
  installed : Bool
  reports : List (String × Report)

/-- The report on the run with the given line. -/
def Tools.report (tools : Tools) (line : String) : Report :=
  match tools.reports.find? fun entry => entry.1.toList.isPrefixOf line.toList with
  | some entry => entry.2
  | none => .silent

/-- A program run: the program and its arguments. -/
structure Invocation where
  program : String
  arguments : List String
  deriving DecidableEq

namespace Invocation

/-- The line of a run: program and arguments with a space between them. -/
def line (invocation : Invocation) : String :=
  invocation.program ++ " " ++ String.intercalate " " invocation.arguments

/-- A run of the program for links, addresses and routes. -/
def ip (arguments : List String) : Invocation := ⟨"ip", arguments⟩

/-- A run of the program for packet-filter rules. It waits for other runs to end. -/
def iptables (table : Table) (arguments : List String) : Invocation :=
  ⟨"iptables", ["-w", "-t", table.name] ++ arguments⟩

/-- Shows a link, and complains if there is none. -/
def showLink (name : String) : Invocation := ip ["link", "show", "dev", name]

def addVethPair (name peer : String) : Invocation :=
  ip ["link", "add", name, "type", "veth", "peer", "name", peer]

def addTap (name : String) : Invocation := ip ["tuntap", "add", "dev", name, "mode", "tap"]

def setLinkUp (name : String) : Invocation := ip ["link", "set", "dev", name, "up"]

def addAddress (link : String) (address : Cidr) : Invocation :=
  ip ["addr", "add", address.toText, "dev", link]

/-- The path under which a program reaches an open handle. The system chooses the numbers of the
    process and of the handle; nothing but this path depends on them. -/
def handlePath : String := "/proc/32768/fd/16"

/-- Moves a link into the namespace of an open handle. -/
def moveLink (link : String) : Invocation := ip ["link", "set", "dev", link, "netns", handlePath]

def deleteLink (name : String) : Invocation := ip ["link", "del", "dev", name]

def addRoute (route : Route) : Invocation :=
  ip ["route", "add", route.destinationText, "via", route.gateway.toText]

def deleteRoute (route : Route) : Invocation :=
  ip ["route", "del", route.destinationText, "via", route.gateway.toText]

/-- Lists the default routes. -/
def listDefaultRoutes : Invocation := ip ["-4", "route", "show", "default"]

def appendRule (rule : Rule) : Invocation := iptables rule.table (["-A", rule.chain] ++ rule.spec)

def deleteRule (rule : Rule) : Invocation := iptables rule.table (["-D", rule.chain] ++ rule.spec)

def newChain (table : Table) (chain : String) : Invocation := iptables table ["-N", chain]

def flushChain (table : Table) (chain : String) : Invocation := iptables table ["-F", chain]

def deleteChain (table : Table) (chain : String) : Invocation := iptables table ["-X", chain]

end Invocation

/-- Phrases by which a program says that the thing acted on is absent. -/
def absentPhrases : List String :=
  ["Cannot find device", "does not exist", "No such file or directory", "No such process",
    "does a matching rule exist", "No chain/target/match by that name"]

/-- What a complaint means. -/
def diagnose (line : String) (complaint : List Char) : NetworkError :=
  if absentPhrases.any fun phrase => Text.mentions phrase.toList complaint then .notFound line
  else .command line (String.ofList complaint)

/-- What a report means: the output of a run that succeeded, or the diagnosis of its complaint. -/
def Report.result (line : String) (report : Report) : Except NetworkError (List Char) :=
  if report.code = 0 then .ok (Text.decodeUtf8 report.stdout)
  else .error (diagnose line (Text.trim (Text.decodeUtf8 report.stderr)))

end SlotPool.Linux
