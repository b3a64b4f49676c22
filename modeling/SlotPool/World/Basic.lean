import Std.Data.ExtTreeMap
import SlotPool.Primitive.Call
/-!
The network state of one machine, held in memory: its namespaces with their links, routes, rules and
chains, which links are two ends of one cable, and the namespace in which the thread is.
-/

namespace SlotPool

/-- A table of things with names. Two tables are equal when they hold the same things under the
    same names. -/
abbrev Named (α : Type) := Std.ExtTreeMap String α

/-- A network device. -/
structure Link where
  up : Bool
  addresses : List Cidr
  deriving DecidableEq

/-- A device as it is made or moved: down and without addresses. -/
def Link.plain : Link := ⟨false, []⟩

/-- The network state inside one namespace. Routes and rules keep the order in which they were
    added. -/
structure Namespace where
  links : Named Link
  routes : List Route
  rules : List Rule
  chains : List (Table × String)

/-- The chains that every namespace has. -/
def builtinChains : List (Table × String) :=
  [(.filter, "INPUT"), (.filter, "FORWARD"), (.filter, "OUTPUT"), (.nat, "PREROUTING"),
    (.nat, "INPUT"), (.nat, "OUTPUT"), (.nat, "POSTROUTING")]

namespace Namespace

/-- A namespace as it is made: with a loopback device that is down. -/
def bare : Namespace := ⟨(∅ : Named Link).insert "lo" .plain, [], [], []⟩

/-- Whether a chain is there, built in or made. -/
def hasChain (ns : Namespace) (table : Table) (chain : String) : Bool :=
  (table, chain) ∈ builtinChains || (table, chain) ∈ ns.chains

/-- Removes a link, if it is there. -/
def dropLink (ns : Namespace) (name : String) : Namespace :=
  { ns with links := ns.links.erase name }

end Namespace

/-- The network state of a machine. -/
structure World where
  /-- the label of the namespace in which the thread is -/
  current : String
  namespaces : Named Namespace
  /-- for either end of a cable, the name of the other -/
  peers : Named String

namespace World

/-- The interface of the host that leads outside. -/
def outsideInterface : String := "eth0"

/-- The host of a machine on which no slot has ever been made. -/
def freshHost : Namespace :=
  { Namespace.bare with links := Namespace.bare.links.insert outsideInterface ⟨true, []⟩ }

/-- A machine on which no slot has ever been made. -/
def fresh : World where
  current := hostNamespace
  namespaces := (∅ : Named Namespace).insert hostNamespace freshHost
  peers := ∅

/-- The two ends of a cable go together: removes the other end of `name`, wherever it is. -/
def dropPeer (world : World) (name : String) : World :=
  match world.peers[name]? with
  | none => world
  | some peer =>
    { world with
      peers := (world.peers.erase name).erase peer
      namespaces := world.namespaces.map fun _ ns => ns.dropLink peer }

/-- Puts a namespace under a name. -/
def setNamespace (world : World) (name : String) (ns : Namespace) : World :=
  { world with namespaces := world.namespaces.insert name ns }

/-- Whether no slot has left anything: there is only the host, with its own devices and nothing
    else, and the thread is in it. -/
def isPristine (world : World) : Bool :=
  match world.namespaces[hostNamespace]? with
  | none => false
  | some host =>
    world.namespaces.keys == [hostNamespace] && world.current == hostNamespace
      && host.links.keys == [outsideInterface, "lo"] && host.routes.isEmpty && host.rules.isEmpty
      && host.chains.isEmpty && world.peers.isEmpty

end World
end SlotPool
