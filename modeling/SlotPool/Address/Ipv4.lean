/-!
IPv4 addresses as 32-bit words, and addresses with a prefix length.
-/

namespace SlotPool

/-- An IPv4 address, most significant octet first. -/
structure Ipv4 where
  bits : UInt32
  deriving DecidableEq, Inhabited

namespace Ipv4

/-- The address written `a.b.c.d`. -/
def ofOctets (a b c d : UInt8) : Ipv4 :=
  ⟨(a.toUInt32 <<< 24) ||| (b.toUInt32 <<< 16) ||| (c.toUInt32 <<< 8) ||| d.toUInt32⟩

/-- The four octets, most significant first. -/
def octets (ip : Ipv4) : List UInt8 :=
  [(ip.bits >>> 24).toUInt8, (ip.bits >>> 16).toUInt8, (ip.bits >>> 8).toUInt8, ip.bits.toUInt8]

/-- Dotted decimal notation. -/
def toText (ip : Ipv4) : String :=
  String.intercalate "." (ip.octets.map fun octet => toString octet.toNat)

/-- The address `count` places further on. -/
def advance (ip : Ipv4) (count : UInt32) : Ipv4 := ⟨ip.bits + count⟩

/-- The address that differs in the last bit only. -/
def peer (ip : Ipv4) : Ipv4 := ⟨ip.bits ^^^ 1⟩

/-- The mask whose first `length` bits are set. All 32 are set for a greater length. -/
def mask (length : Nat) : Ipv4 :=
  if length = 0 then ⟨0⟩ else ⟨0xFFFFFFFF <<< UInt32.ofNat (32 - min length 32)⟩

end Ipv4

/-- An address with the length of its network prefix. -/
structure Cidr where
  address : Ipv4
  length : Nat
  deriving DecidableEq, Inhabited

namespace Cidr

/-- The address and the length, with a slash between them. -/
def toText (cidr : Cidr) : String := s!"{cidr.address.toText}/{cidr.length}"

/-- The mask of the prefix. -/
def mask (cidr : Cidr) : Ipv4 := Ipv4.mask cidr.length

end Cidr
end SlotPool
