import SlotPool.Address.Plan
import SlotPool.Text.Json
/-!
The plan of one slot as a record of texts, for operators and for programs that read JSON.
-/

namespace SlotPool

/-- The names and addresses of a slot, written out. -/
structure Topology where
  idx : Nat
  namespaceName : String
  veth : String
  vpeer : String
  tap : String
  vethIp : String
  vpeerIp : String
  cableMask : String
  hostIp : String
  hostCidr : String
  tapIp : String
  tapCidr : String
  namespaceIp : String
  tapMac : String
  deriving DecidableEq

/-- Writes out the plan of a slot. -/
def SlotId.topology (id : SlotId) : Topology where
  idx := id.val
  namespaceName := id.namespaceName
  veth := id.vethName
  vpeer := id.vpeerName
  tap := id.tapName
  vethIp := id.vethIp.toText
  vpeerIp := id.vpeerIp.toText
  cableMask := id.cableMask.toText
  hostIp := id.hostIp.toText
  hostCidr := id.hostCidr.toText
  tapIp := id.tapIp.toText
  tapCidr := id.tapCidr.toText
  namespaceIp := id.guestIp.toText
  tapMac := SlotPool.tapMac

namespace Topology

open Text.Json

/-- The members of the record in the order in which they are printed. -/
def members (t : Topology) : List (String × Scalar) :=
  [("idx", .number t.idx), ("namespace", .text t.namespaceName), ("veth", .text t.veth),
    ("vpeer", .text t.vpeer), ("tap", .text t.tap), ("veth_ip", .text t.vethIp),
    ("vpeer_ip", .text t.vpeerIp), ("vrt_mask", .text t.cableMask), ("host_ip", .text t.hostIp),
    ("host_cidr", .text t.hostCidr), ("tap_ip", .text t.tapIp), ("tap_cidr", .text t.tapCidr),
    ("namespace_ip", .text t.namespaceIp), ("tap_mac", .text t.tapMac)]

/-- One topology as a JSON object. -/
def render (t : Topology) : String := object 0 t.members

/-- Several topologies as a JSON list. -/
def renderAll (ts : List Topology) : String := objects (ts.map members)

end Topology
end SlotPool
