import SlotPool.Slot.Sequence
/-!
The firewall of a slot: a chain of its own inside the slot's namespace, hooked into what is
forwarded from the tap device. With the chain empty everything passes; to block the internet it
lets answers through and drops the rest. All sequences here run inside the slot's namespace.
-/

namespace SlotPool

/-- The chain that decides what leaves a sandbox. -/
def egressChain : String := "NETPOOL-EGRESS"

/-- The rule that sends what the tap device forwards through the chain. -/
def SlotId.hookRule (id : SlotId) : Rule :=
  ⟨.filter, "FORWARD", ["-i", id.tapName, "-o", id.vpeerName, "-j", egressChain]⟩

/-- The rules that block the internet: answers may pass, all else is dropped. -/
def blockRules : List Rule :=
  [⟨.filter, egressChain, ["-m", "conntrack", "--ctstate", "ESTABLISHED,RELATED", "-j", "ACCEPT"]⟩,
    ⟨.filter, egressChain, ["-j", "DROP"]⟩]

/-- The rules of the chain under a policy. -/
def Internet.rules : Internet → List Rule
  | .allowed => []
  | .blocked => blockRules

namespace Firewall

open Sequence

/-- Takes the chain away, whatever is left of it. It has to be unhooked and empty first. -/
def removeChain (id : SlotId) : Sequence Unit := do
  step "unhooking egress chain" (tolerant (perform (.deleteRule id.hookRule)))
  step "flushing egress chain" (tolerant (perform (.flushChain .filter egressChain)))
  step "deleting egress chain" (tolerant (perform (.deleteChain .filter egressChain)))

/-- Sets up the firewall with nothing blocked. A chain from an earlier life of the slot is replaced.
    Nothing is done for a slot that has its firewall. -/
def setUp : Sequence Unit := do
  let slot ← get
  if !slot.hasFirewall then
    removeChain slot.id
    step "creating egress chain" (perform (.newChain .filter egressChain))
    step "hooking egress chain" (perform (.appendRule slot.id.hookRule))
    modify fun slot => (slot.installFirewall .allowed).2

/-- Applies a policy to a slot that has its firewall. -/
def configure (policy : Internet) : Sequence Unit := do
  let slot ← get
  if !slot.hasFirewall then throw (.firewallMissing slot.id.val)
  step "flushing egress chain" (perform (.flushChain .filter egressChain))
  policy.rules.forM fun rule => step "blocking internet access" (perform (.appendRule rule))
  modify fun slot => slot.setInternet policy

/-- Applies the policy that a slot has while nobody uses it. -/
def reset : Sequence Unit := configure .allowed

/-- Forgets the firewall and takes its chain away. -/
def close : Sequence Unit := do
  let slot ← get
  let (policy, rest) := slot.takeFirewall
  set rest
  if policy.isSome then removeChain slot.id

end Firewall
end SlotPool
