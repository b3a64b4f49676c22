import SlotPool.Address.Plan
import SlotPool.Primitive.Program
/-!
A slot: its number, and how far its network has been made. What stands on the machine is not part
of the slot; the slot only remembers what this process has done for it.
-/

namespace SlotPool

/-- Whether a sandbox may reach the internet. -/
inductive Internet
  | allowed
  | blocked
  deriving DecidableEq

/-- The policy that goes with a request. -/
def Internet.ofAllowed (allowed : Bool) : Internet :=
  if allowed then .allowed else .blocked

/-- How far the network of a slot has been made. -/
inductive NetworkState
  /-- nothing is known to stand -/
  | noNetwork
  /-- the namespace stands; it is open if there is a handle -/
  | networkReady (handle : Option Handle)
  /-- the firewall stands as well and follows the policy -/
  | firewallReady (handle : Option Handle) (policy : Internet)
  deriving DecidableEq

/-- The name of a state. -/
def NetworkState.name : NetworkState → String
  | .noNetwork => "no_network"
  | .networkReady _ => "network_ready"
  | .firewallReady _ _ => "firewall_ready"

/-- A network slot. -/
structure Slot where
  id : SlotId
  state : NetworkState
  deriving DecidableEq

namespace Slot

/-- A slot of which nothing is known but its number. -/
def fresh (id : SlotId) : Slot := ⟨id, .noNetwork⟩

/-- The slot with the given number, if the plan has it. -/
def ofNat? (n : Nat) : Option Slot := (SlotId.ofNat? n).map fresh

/-- The open handle of the slot's namespace. -/
def handle (slot : Slot) : Option Handle :=
  match slot.state with
  | .noNetwork => none
  | .networkReady handle => handle
  | .firewallReady handle _ => handle

/-- The policy of the slot's firewall, if it has one. -/
def firewall (slot : Slot) : Option Internet :=
  match slot.state with
  | .firewallReady _ policy => some policy
  | _ => none

/-- Whether the slot is known to have a firewall. -/
def hasFirewall (slot : Slot) : Bool := slot.firewall.isSome

/-- Remembers an opened namespace and forgets everything before. -/
def attachNamespace (slot : Slot) (handle : Handle) : Slot :=
  { slot with state := .networkReady (some handle) }

/-- Remembers a firewall, unless there is one already, which then stays as it is. The first part
    says whether the firewall was taken. -/
def installFirewall (slot : Slot) (policy : Internet) : Bool × Slot :=
  match slot.state with
  | .noNetwork => (true, { slot with state := .firewallReady none policy })
  | .networkReady handle => (true, { slot with state := .firewallReady handle policy })
  | .firewallReady _ _ => (false, slot)

/-- Changes the policy of the firewall, if there is one. -/
def setInternet (slot : Slot) (policy : Internet) : Slot :=
  match slot.state with
  | .firewallReady handle _ => { slot with state := .firewallReady handle policy }
  | _ => slot

/-- Forgets the firewall. Without a handle, nothing of the network is left to remember. -/
def takeFirewall (slot : Slot) : Option Internet × Slot :=
  match slot.state with
  | .firewallReady (some handle) policy =>
    (some policy, { slot with state := .networkReady (some handle) })
  | .firewallReady none policy => (some policy, { slot with state := .noNetwork })
  | _ => (none, slot)

/-- Forgets the network. The first part is the handle that was open. -/
def clearNetwork (slot : Slot) : Option Handle × Slot :=
  (slot.handle, { slot with state := .noNetwork })

end Slot
end SlotPool
