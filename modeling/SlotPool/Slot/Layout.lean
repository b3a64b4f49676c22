import SlotPool.Slot.Firewall
/-!
The network of a slot and the sequence that makes it. A virtual cable joins the slot's namespace to
the host. Inside, a tap device serves the guest, whose address is exchanged for the slot's host
address on the way through. On the host, a route leads to that address, and what the cable carries
may pass to and from the interface that leads outside.
-/

namespace SlotPool

/-- The loopback device of a namespace. -/
def loopback : String := "lo"

namespace SlotId

/-- The host's rules for a slot: forward both ways, and hide the slot behind the host's address. -/
def hostRules (id : SlotId) (egress : String) : List Rule :=
  [⟨.filter, "FORWARD", ["-i", id.vethName, "-o", egress, "-j", "ACCEPT"]⟩,
    ⟨.filter, "FORWARD", ["-i", egress, "-o", id.vethName, "-j", "ACCEPT"]⟩,
    ⟨.nat, "POSTROUTING", ["-s", id.hostCidr.toText, "-o", egress, "-j", "MASQUERADE"]⟩]

/-- The host's route to a slot. -/
def hostRoute (id : SlotId) : Route := ⟨some id.hostCidr, id.vpeerIp⟩

/-- The way out of a slot's namespace. -/
def defaultRoute (id : SlotId) : Route := ⟨none, id.vethIp⟩

/-- The rules inside a slot that exchange the guest's address and the slot's host address. -/
def natRules (id : SlotId) : List Rule :=
  [⟨.nat, "POSTROUTING",
      ["-o", id.vpeerName, "-s", id.guestIp.toText, "-j", "SNAT", "--to-source", id.hostIp.toText]⟩,
    ⟨.nat, "PREROUTING",
      ["-d", id.hostIp.toText, "-j", "DNAT", "--to-destination", id.guestIp.toText]⟩]

end SlotId

namespace Slot

open Sequence

/-- Makes the cable in the new namespace, readies its inner end and hands the other to the host. -/
def layCable (id : SlotId) (origin : Handle) : Sequence Unit := do
  step "creating veth pair" (perform (.addVethPair id.vethName id.vpeerName))
  step "setting vpeer up" (perform (.setLinkUp id.vpeerName))
  step "adding vpeer address" (perform (.addAddress id.vpeerName id.vpeerCidr))
  step "moving veth to host namespace" (perform (.moveLink id.vethName origin))

/-- Readies the cable's outer end on the host. -/
def readyHostEnd (id : SlotId) (origin : Handle) : Sequence Unit := do
  step "entering host namespace" (perform (.enterNamespace origin))
  step "setting veth up" (perform (.setLinkUp id.vethName))
  step "adding veth address" (perform (.addAddress id.vethName id.vethCidr))

/-- Moves the thread back into the slot's namespace, which is open since it was made. -/
def reenter : Sequence Unit := do
  let slot ← get
  match slot.handle with
  | some handle => step "entering slot namespace" (perform (.enterNamespace handle))
  | none => step "reading namespace handle" (throw (.notFound slot.id.namespaceName))

/-- Makes the tap device, the way out and the exchange of addresses inside the namespace. -/
def furnish (id : SlotId) : Sequence Unit := do
  step "creating tap device" (perform (.addTap id.tapName))
  step "setting tap up" (perform (.setLinkUp id.tapName))
  step "adding tap address" (perform (.addAddress id.tapName id.tapCidr))
  step "setting loopback up" (perform (.setLinkUp loopback))
  step "adding namespace default route" (perform (.addRoute id.defaultRoute))
  id.natRules.forM fun rule => step "adding namespace NAT rule" (perform (.appendRule rule))

/-- Lets the host reach the slot and the slot reach outside. -/
def connectHost (id : SlotId) (egress : String) (origin : Handle) : Sequence Unit := do
  step "entering host namespace" (perform (.enterNamespace origin))
  step "adding host route" (perform (.addRoute id.hostRoute))
  (id.hostRules egress).forM fun rule =>
    step "adding host forwarding rule" (perform (.appendRule rule))

/-- Makes the whole network of a slot. The first failure stops it, and what was made until then
    stays. The thread is taken back to where it was in any case. -/
def create (egress : String) : Sequence Unit :=
  underGuard (step "capturing host namespace" (perform .currentNamespace)) fun origin => do
    let id := (← get).id
    let handle ← step "creating namespace" (perform (.createNamespace id.namespaceName))
    modify fun slot => slot.attachNamespace handle
    layCable id origin
    readyHostEnd id origin
    reenter
    furnish id
    step "initializing firewall" Firewall.setUp
    connectHost id egress origin

end Slot
end SlotPool
