import Mathlib.Algebra.Group.Nat.Defs
import SlotPool.Address.Ipv4
/-!
The block of addresses to which an address with a prefix belongs. Its first address names the block and its last is
for all of them at once, so the hosts in it have those in between.
-/

namespace SlotPool

namespace Ipv4

theorem eq_iff {ip other : Ipv4} : ip = other ↔ ip.bits.toNat = other.bits.toNat := by
  obtain ⟨bits⟩ := ip
  obtain ⟨bits'⟩ := other
  rw [mk.injEq, UInt32.toNat_inj]

/-- The mask of a prefix has its bits set from the top down. The shift that makes it is not out of range even
    for a prefix of no bits. -/
theorem mask_toBitVec {length : Nat} (hlength : length ≤ 32) :
    (mask length).bits.toBitVec = BitVec.allOnes 32 <<< (32 - length) := by
  unfold mask
  split
  · subst length
    rfl
  · rename_i hpos
    have hshift : (32 - min length 32) % 32 = 32 - length := by omega
    simp [UInt32.toBitVec_shiftLeft, hshift]

/-- Under a mask the bits after the prefix are lost. -/
theorem and_mask {length : Nat} (hlength : length ≤ 32) (word : UInt32) :
    (word &&& (mask length).bits).toNat = 2 ^ (32 - length) * (word.toNat / 2 ^ (32 - length)) := by
  have hbits : word.toBitVec &&& (mask length).bits.toBitVec =
      (word.toBitVec >>> (32 - length)) <<< (32 - length) := by
    rw [mask_toBitVec hlength]
    ext i hi
    simp only [BitVec.getElem_and, BitVec.getElem_shiftLeft, BitVec.getElem_allOnes, BitVec.getElem_ushiftRight,
      Bool.and_true]
    by_cases hlow : i < 32 - length
    · simp [hlow]
    · have hsame : 32 - length + (i - (32 - length)) = i := by omega
      simp [hlow, hsame, BitVec.getLsbD_eq_getElem hi]
  have hfits : 2 ^ (32 - length) * (word.toNat / 2 ^ (32 - length)) < 2 ^ 32 :=
    Nat.lt_of_le_of_lt (Nat.mul_div_le ..) word.toNat_lt
  calc (word &&& (mask length).bits).toNat
      = ((word.toBitVec >>> (32 - length)) <<< (32 - length)).toNat := congrArg BitVec.toNat hbits
    _ = 2 ^ (32 - length) * (word.toNat / 2 ^ (32 - length)) % 2 ^ 32 := by
      rw [BitVec.toNat_shiftLeft, BitVec.toNat_ushiftRight, Nat.shiftLeft_eq, Nat.shiftRight_eq_div_pow, Nat.mul_comm]
      rfl
    _ = 2 ^ (32 - length) * (word.toNat / 2 ^ (32 - length)) := Nat.mod_eq_of_lt hfits

theorem not_mask {length : Nat} (hlength : length ≤ 32) :
    (~~~(mask length).bits).toNat = 2 ^ (32 - length) - 1 := by
  have hall : ∀ length : Fin 33, (~~~(mask length).bits).toNat = 2 ^ (32 - length.val) - 1 := by decide
  exact hall ⟨length, by omega⟩

end Ipv4

namespace Cidr

/-- The first address of the block. -/
def network (block : Cidr) : Ipv4 := ⟨block.address.bits &&& block.mask.bits⟩

/-- The last address of the block. -/
def broadcast (block : Cidr) : Ipv4 := ⟨block.network.bits ||| ~~~block.mask.bits⟩

/-- An address belongs to the block. -/
def Contains (block : Cidr) (ip : Ipv4) : Prop := ip.bits &&& block.mask.bits = block.network.bits

/-- An address is for a single host of the block. -/
def Usable (block : Cidr) (ip : Ipv4) : Prop := block.Contains ip ∧ ip ≠ block.network ∧ ip ≠ block.broadcast

variable {block other : Cidr} {ip : Ipv4}

/-- How many addresses a block has. -/
def size (block : Cidr) : Nat := 2 ^ (32 - block.length)

theorem network_toNat (hlength : block.length ≤ 32) :
    block.network.bits.toNat = block.size * (block.address.bits.toNat / block.size) :=
  Ipv4.and_mask hlength _

/-- The last address of a block, as a number: the first plus the size of the block less one. -/
theorem broadcast_toNat (hlength : block.length ≤ 32) :
    block.broadcast.bits.toNat = block.network.bits.toNat + (block.size - 1) := by
  have hpos : block.size - 1 < block.size := Nat.sub_lt (Nat.two_pow_pos _) Nat.one_pos
  have hor : block.broadcast.bits.toNat = block.network.bits.toNat ||| (block.size - 1) := by
    rw [broadcast, UInt32.toNat_or, mask, Ipv4.not_mask hlength]
    rfl
  rw [hor, network_toNat hlength]
  exact (Nat.two_pow_add_eq_or_of_lt hpos _).symm

theorem contains_iff (hlength : block.length ≤ 32) :
    block.Contains ip ↔ ip.bits.toNat / block.size = block.address.bits.toNat / block.size := by
  have hpos : 0 < block.size := Nat.two_pow_pos _
  rw [Contains, ← UInt32.toNat_inj, network_toNat hlength, mask, Ipv4.and_mask hlength]
  exact Nat.mul_right_inj (Nat.ne_of_gt hpos)

/-- Two blocks of one size that begin in different places have no address in common. -/
theorem apart (hlength : block.length = other.length) (hne : block.network ≠ other.network) :
    ¬ (block.Contains ip ∧ other.Contains ip) := by
  rintro ⟨hblock, hother⟩
  have hmask : block.mask = other.mask := congrArg Ipv4.mask hlength
  have hbits : block.network.bits = other.network.bits := by rw [← hblock, ← hother, hmask]
  exact hne (congrArg Ipv4.mk hbits)

/-- In a block of four addresses there is room for two hosts. -/
theorem usable_iff (hlength : block.length = 30) :
    block.Usable ip ↔ ip.bits.toNat = block.network.bits.toNat + 1 ∨
      ip.bits.toNat = block.network.bits.toNat + 2 := by
  have hle : block.length ≤ 32 := by omega
  have hsize : block.size = 4 := by simp [size, hlength]
  have hnetwork := network_toNat hle
  have hbroadcast := broadcast_toNat hle
  rw [Usable, contains_iff hle, Ne, Ne, Ipv4.eq_iff, Ipv4.eq_iff, hbroadcast]
  rw [hsize] at hnetwork ⊢
  omega

end Cidr
end SlotPool
