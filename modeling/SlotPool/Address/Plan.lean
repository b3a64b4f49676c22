import SlotPool.Address.Ipv4
/-!
The address plan: what the number of a slot fixes for it. Every name and address of a slot is a
function of its number, so that a slot can be found again after the process that made it is gone.
-/

namespace SlotPool

/-- How many slots the plan has room for: one block of four addresses each in a `/16` network. -/
abbrev planSize : Nat := 16384

/-- The number of a slot. -/
abbrev SlotId := Fin planSize

/-- The prefix length of the two ends of a virtual cable, and of a tap device and its guest. -/
def pairPrefix : Nat := 30

/-- The prefix length of an address that stands alone. -/
def hostPrefix : Nat := 32

/-- How many addresses a block of `pairPrefix` spans. -/
def blockSize : UInt32 := 4

/-- Where the addresses lie under which the host reaches the slots. -/
def hostNetwork : Ipv4 := .ofOctets 10 11 0 0

/-- Where the addresses of the virtual cables lie. -/
def cableNetwork : Ipv4 := .ofOctets 10 12 0 0

/-- Where the addresses of the tap devices and their guests lie. -/
def tapNetwork : Ipv4 := .ofOctets 10 13 0 0

/-- The hardware address of every tap device. Each lives in a namespace of its own. -/
def tapMac : String := "02:FC:00:00:00:05"

namespace SlotId

/-- The slot with the given number, if the plan has it. -/
def ofNat? (n : Nat) : Option SlotId :=
  if h : n < planSize then some ⟨n, h⟩ else none

/-- What is said of a number that is no slot's. -/
def outsidePlan (n : Nat) : String := s!"slot index {n} outside the address plan"

/-- The number as a 32-bit word. -/
def word (id : SlotId) : UInt32 := UInt32.ofNat id.val

/-- The name of the slot's network namespace. -/
def namespaceName (id : SlotId) : String := s!"ns-{id.val}"

/-- The end of the virtual cable that lies in the host namespace. -/
def vethName (id : SlotId) : String := s!"veth-{id.val}"

/-- The end of the virtual cable that lies in the slot's namespace. -/
def vpeerName (id : SlotId) : String := s!"vpeer-{id.val}"

/-- The tap device that the sandbox uses. -/
def tapName (id : SlotId) : String := s!"tap-{id.val}"

/-- Where the slot's block begins in the cable and tap networks. -/
def blockStart (id : SlotId) : UInt32 := id.word * blockSize

/-- The address of the cable's host end, the first of its block. -/
def vethIp (id : SlotId) : Ipv4 := cableNetwork.advance (id.blockStart + 1)

/-- The address of the cable's inner end, the second of its block. -/
def vpeerIp (id : SlotId) : Ipv4 := cableNetwork.advance (id.blockStart + 2)

/-- The mask of the cable's block. -/
def cableMask (_ : SlotId) : Ipv4 := Ipv4.mask pairPrefix

/-- The address under which the host reaches the slot. -/
def hostIp (id : SlotId) : Ipv4 := hostNetwork.advance (id.word + 1)

/-- The network that holds the host address alone. -/
def hostCidr (id : SlotId) : Cidr := ⟨id.hostIp, hostPrefix⟩

/-- The cable's host end with its prefix. -/
def vethCidr (id : SlotId) : Cidr := ⟨id.vethIp, pairPrefix⟩

/-- The cable's inner end with its prefix. -/
def vpeerCidr (id : SlotId) : Cidr := ⟨id.vpeerIp, pairPrefix⟩

/-- The address of the tap device, the first of its block. -/
def tapIp (id : SlotId) : Ipv4 := tapNetwork.advance (id.blockStart + 1)

/-- The tap device's address with its prefix. -/
def tapCidr (id : SlotId) : Cidr := ⟨id.tapIp, pairPrefix⟩

/-- The mask of the tap device's block. -/
def tapMask (_ : SlotId) : Ipv4 := Ipv4.mask pairPrefix

/-- The address of the guest behind the tap device, the second of its block. -/
def guestIp (id : SlotId) : Ipv4 := tapNetwork.advance (id.blockStart + 2)

/-- The addresses that stand for the slot's interfaces, each once, in order. -/
def interfaceIps (id : SlotId) : List Ipv4 :=
  [id.vethIp, id.vethIp.peer, id.hostIp].foldl
    (fun listed ip => if ip ∈ listed then listed else listed ++ [ip]) []

/-- Where the agent inside the guest answers. -/
def guestAgentIp (id : SlotId) : Ipv4 := id.hostIp

end SlotId
end SlotPool
