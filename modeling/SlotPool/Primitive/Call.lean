import SlotPool.Failure.Network
import SlotPool.Routing
/-!
The primitive network operations. Every sequence that creates, removes or repairs a slot is built
from these calls, and each call acts on the namespace in which the calling thread is.
-/

namespace SlotPool

/-- The label of the namespace in which the program was started. -/
def hostNamespace : String := "host"

/-- An open reference to a namespace. It stays usable when the namespace loses its name. -/
structure Handle where
  label : String
  /-- whether a namespace is behind it, and not some other file -/
  isNamespace : Bool
  deriving DecidableEq

/-- A primitive operation with its arguments. -/
inductive Call
  /-- open the namespace in which the thread is -/
  | currentNamespace
  /-- move the thread into a namespace -/
  | enterNamespace (target : Handle)
  /-- open a namespace by name -/
  | openNamespace (name : String)
  /-- make a namespace, leave the thread in it, and open it -/
  | createNamespace (name : String)
  | deleteNamespace (name : String)
  /-- whether a namespace of this name is on record -/
  | namespaceExists (name : String)
  | linkExists (name : String)
  /-- make a virtual cable with two ends -/
  | addVethPair (name peer : String)
  | addTap (name : String)
  | setLinkUp (name : String)
  | addAddress (link : String) (address : Cidr)
  /-- move a link out of the current namespace -/
  | moveLink (link : String) (target : Handle)
  | deleteLink (name : String)
  | addRoute (route : Route)
  | deleteRoute (route : Route)
  | appendRule (rule : Rule)
  | deleteRule (rule : Rule)
  | newChain (table : Table) (chain : String)
  | flushChain (table : Table) (chain : String)
  | deleteChain (table : Table) (chain : String)
  /-- the interface that carries the host's default route -/
  | egressInterface
  deriving DecidableEq

namespace Call

/-- What a call returns when it succeeds. -/
abbrev Reply : Call → Type
  | .currentNamespace | .openNamespace _ | .createNamespace _ => Handle
  | .namespaceExists _ | .linkExists _ => Bool
  | .egressInterface => String
  | _ => Unit

/-- The name of the operation. -/
def name : Call → String
  | .currentNamespace => "current_namespace"
  | .enterNamespace _ => "enter_namespace"
  | .openNamespace _ => "open_namespace"
  | .createNamespace _ => "create_namespace"
  | .deleteNamespace _ => "delete_namespace"
  | .namespaceExists _ => "namespace_exists"
  | .linkExists _ => "link_exists"
  | .addVethPair _ _ => "add_veth_pair"
  | .addTap _ => "add_tap"
  | .setLinkUp _ => "set_link_up"
  | .addAddress _ _ => "add_address"
  | .moveLink _ _ => "move_link"
  | .deleteLink _ => "delete_link"
  | .addRoute _ => "add_route"
  | .deleteRoute _ => "delete_route"
  | .appendRule _ => "append_rule"
  | .deleteRule _ => "delete_rule"
  | .newChain _ _ => "new_chain"
  | .flushChain _ _ => "flush_chain"
  | .deleteChain _ _ => "delete_chain"
  | .egressInterface => "egress_interface"

/-- The arguments as they are written. A handle is written as its label. -/
def arguments : Call → List String
  | .currentNamespace | .egressInterface => []
  | .enterNamespace target => [target.label]
  | .openNamespace name | .createNamespace name | .deleteNamespace name | .namespaceExists name
  | .linkExists name | .addTap name | .setLinkUp name | .deleteLink name => [name]
  | .addVethPair name peer => [name, peer]
  | .addAddress link address => [link, address.toText]
  | .moveLink link target => [link, target.label]
  | .addRoute route | .deleteRoute route => [route.toText]
  | .appendRule rule | .deleteRule rule => [rule.toText]
  | .newChain table chain | .flushChain table chain | .deleteChain table chain =>
    [table.name, chain]

end Call

/-- What came of a call: a reply or a failure, or the death of the thread that made it. -/
inductive Answer (α : Type)
  | returned (result : Except NetworkError α)
  | crashed

/-- A machine answers calls and changes its state. -/
structure Machine (σ : Type) where
  answer : (call : Call) → σ → Answer call.Reply × σ

end SlotPool
