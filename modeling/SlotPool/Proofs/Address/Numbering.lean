import Mathlib.Data.List.Basic
import Mathlib.Data.Nat.Digits.Defs
import Mathlib.Data.String.Basic
import SlotPool.Proofs.Address.Blocks
import SlotPool.Proofs.Address.Names
/-!
What the plan fixes for two slots has nothing in common, up to the last number of the plan and whatever interface leads
outside, and what it fixes for one slot is in order.
-/

namespace SlotPool

/-- The length of the prefix of each of the plan's networks. -/
def networkPrefix : Nat := 16

namespace SlotId

/-- The names of a slot's devices. -/
def devices (id : SlotId) : List String := [id.vethName, id.vpeerName, id.tapName]

/-- The names of a slot's namespace and devices. -/
def names (id : SlotId) : List String := id.namespaceName :: id.devices

/-- The addresses of a slot. -/
def addresses (id : SlotId) : List Ipv4 := [id.vethIp, id.vpeerIp, id.hostIp, id.tapIp, id.guestIp]

/-- The blocks that are a slot's own. -/
def blocks (id : SlotId) : List Cidr := [id.vethCidr, id.tapCidr]

/-- The rules that are made for a slot, on the host and inside, other than those in the chain. -/
def rules (id : SlotId) (egress : String) : List Rule := id.hostRules egress ++ id.natRules ++ [id.hookRule]

/-- The arithmetic of the plan is exact: no sum or product wraps, and every address stays in its network. -/
structure Exact (id : SlotId) : Prop where
  word : id.word.toNat = id.val
  start : id.blockStart.toNat = id.word.toNat * blockSize.toNat
  first : (id.blockStart + 1).toNat = id.blockStart.toNat + 1
  second : (id.blockStart + 2).toNat = id.blockStart.toNat + 2
  next : (id.word + 1).toNat = id.word.toNat + 1
  veth : id.vethIp.bits.toNat = cableNetwork.bits.toNat + (id.blockStart + 1).toNat
  vpeer : id.vpeerIp.bits.toNat = cableNetwork.bits.toNat + (id.blockStart + 2).toNat
  host : id.hostIp.bits.toNat = hostNetwork.bits.toNat + (id.word + 1).toNat
  tap : id.tapIp.bits.toNat = tapNetwork.bits.toNat + (id.blockStart + 1).toNat
  guest : id.guestIp.bits.toNat = tapNetwork.bits.toNat + (id.blockStart + 2).toNat
  cables : ∀ ip ∈ [id.vethIp, id.vpeerIp], Cidr.Contains ⟨cableNetwork, networkPrefix⟩ ip
  hosts : Cidr.Contains ⟨hostNetwork, networkPrefix⟩ id.hostIp
  taps : ∀ ip ∈ [id.tapIp, id.guestIp], Cidr.Contains ⟨tapNetwork, networkPrefix⟩ ip

/-- What the plan fixes for one slot is in order. A cable and a tap device with its guest have the two host addresses
    of a block that has the slot's number. -/
structure Orderly (id : SlotId) : Prop where
  names : id.names.Nodup
  /-- a device name has room for 15 bytes -/
  short : ∀ name ∈ id.names, name.utf8ByteSize ≤ 15
  addresses : id.addresses.Nodup
  cable : ∀ ip, id.vethCidr.Usable ip ↔ ip = id.vethIp ∨ ip = id.vpeerIp
  tap : ∀ ip, id.tapCidr.Usable ip ↔ ip = id.tapIp ∨ ip = id.guestIp
  cableBlock : id.vethCidr.network.bits.toNat = cableNetwork.bits.toNat + 4 * id.val
  tapBlock : id.tapCidr.network.bits.toNat = tapNetwork.bits.toNat + 4 * id.val
  ends : id.vpeerCidr.network = id.vethCidr.network
  arithmetic : id.Exact

/-- What the plan fixes for two slots has nothing in common. -/
structure Apart (i j : SlotId) (egress : String) : Prop where
  names : i.names.Disjoint j.names
  addresses : i.addresses.Disjoint j.addresses
  route : i.hostRoute ≠ j.hostRoute
  rules : (i.rules egress).Disjoint (j.rules egress)
  blocks : ∀ block ∈ i.blocks, ∀ other ∈ j.blocks, ∀ ip, ¬ (block.Contains ip ∧ other.Contains ip)

variable {i j : SlotId} {egress : String} {ip : Ipv4}

/-! ### Numbers -/

theorem word_toNat : i.word.toNat = i.val := by
  have hlt : i.val < 16384 := i.isLt
  rw [word, UInt32.toNat_ofNat']
  omega

theorem blockStart_toNat : i.blockStart.toNat = i.val * 4 := by
  have hlt : i.val < 16384 := i.isLt
  rw [blockStart, UInt32.toNat_mul, word_toNat]
  exact Nat.mod_eq_of_lt (by simp [blockSize]; omega)

theorem next_toNat : (i.word + 1).toNat = i.val + 1 := by
  have hlt : i.val < 16384 := i.isLt
  rw [UInt32.toNat_add, word_toNat, UInt32.toNat_one]
  omega

theorem first_toNat : (i.blockStart + 1).toNat = i.val * 4 + 1 := by
  have hlt : i.val < 16384 := i.isLt
  rw [UInt32.toNat_add, blockStart_toNat, UInt32.toNat_one]
  omega

theorem second_toNat : (i.blockStart + 2).toNat = i.val * 4 + 2 := by
  have hlt : i.val < 16384 := i.isLt
  have htwo : (2 : UInt32).toNat = 2 := rfl
  rw [UInt32.toNat_add, blockStart_toNat, htwo]
  omega

/-- No sum with an address of the plan leaves the 32 bits. -/
theorem advance_toNat {network : Ipv4} {count : UInt32} (hnetwork : network.bits.toNat ≤ tapNetwork.bits.toNat)
    (hcount : count.toNat < 65536) : (network.advance count).bits.toNat = network.bits.toNat + count.toNat := by
  have htap : tapNetwork.bits.toNat = 168624128 := rfl
  rw [Ipv4.advance, UInt32.toNat_add]
  omega

@[simp]
theorem vethIp_toNat : i.vethIp.bits.toNat = 168558592 + (i.val * 4 + 1) := by
  have hlt : i.val < 16384 := i.isLt
  rw [vethIp, advance_toNat (by decide) (by rw [first_toNat]; omega), first_toNat]
  rfl

@[simp]
theorem vpeerIp_toNat : i.vpeerIp.bits.toNat = 168558592 + (i.val * 4 + 2) := by
  have hlt : i.val < 16384 := i.isLt
  rw [vpeerIp, advance_toNat (by decide) (by rw [second_toNat]; omega), second_toNat]
  rfl

@[simp]
theorem hostIp_toNat : i.hostIp.bits.toNat = 168493056 + (i.val + 1) := by
  have hlt : i.val < 16384 := i.isLt
  rw [hostIp, advance_toNat (by decide) (by rw [next_toNat]; omega), next_toNat]
  rfl

@[simp]
theorem tapIp_toNat : i.tapIp.bits.toNat = 168624128 + (i.val * 4 + 1) := by
  have hlt : i.val < 16384 := i.isLt
  rw [tapIp, advance_toNat (by decide) (by rw [first_toNat]; omega), first_toNat]
  rfl

@[simp]
theorem guestIp_toNat : i.guestIp.bits.toNat = 168624128 + (i.val * 4 + 2) := by
  have hlt : i.val < 16384 := i.isLt
  rw [guestIp, advance_toNat (by decide) (by rw [second_toNat]; omega), second_toNat]
  rfl

/-- An address stays in its network. -/
theorem contains_network {network : Ipv4} {count : Nat} (hnetwork : network.bits.toNat % 65536 = 0)
    (hip : ip.bits.toNat = network.bits.toNat + count) (hcount : count < 65536) :
    Cidr.Contains ⟨network, networkPrefix⟩ ip := by
  have hlength : (⟨network, networkPrefix⟩ : Cidr).length ≤ 32 := by simp [networkPrefix]
  rw [Cidr.contains_iff hlength, hip]
  simp only [Cidr.size, networkPrefix]
  omega

/-- Every address of a slot as a number, without any wrapping of machine words, since a slot's number is smaller
    than the plan. -/
theorem numbers_exact : i.Exact where
  word := word_toNat
  start := by rw [blockStart_toNat, word_toNat]; rfl
  first := by rw [first_toNat, blockStart_toNat]
  second := by rw [second_toNat, blockStart_toNat]
  next := by rw [next_toNat, word_toNat]
  veth := by rw [vethIp_toNat, first_toNat]; rfl
  vpeer := by rw [vpeerIp_toNat, second_toNat]; rfl
  host := by rw [hostIp_toNat, next_toNat]; rfl
  tap := by rw [tapIp_toNat, first_toNat]; rfl
  guest := by rw [guestIp_toNat, second_toNat]; rfl
  cables := by
    have hlt : i.val < 16384 := i.isLt
    have hveth := @contains_network i.vethIp cableNetwork _ (by decide) vethIp_toNat (by omega)
    have hvpeer := @contains_network i.vpeerIp cableNetwork _ (by decide) vpeerIp_toNat (by omega)
    simp [hveth, hvpeer]
  hosts := by
    have hlt : i.val < 16384 := i.isLt
    exact @contains_network i.hostIp hostNetwork _ (by decide) hostIp_toNat (by omega)
  taps := by
    have hlt : i.val < 16384 := i.isLt
    have htap := @contains_network i.tapIp tapNetwork _ (by decide) tapIp_toNat (by omega)
    have hguest := @contains_network i.guestIp tapNetwork _ (by decide) guestIp_toNat (by omega)
    simp [htap, hguest]

/-! ### One slot -/

theorem namespaceName_notMem : i.namespaceName ∉ j.devices := by
  simp [← String.toList_inj, devices, namespaceName, vethName, vpeerName, tapName, toString]

theorem names_nodup : i.names.Nodup :=
  List.nodup_cons.mpr ⟨namespaceName_notMem, by simp [devices]⟩

/-- Digits take one byte each. -/
theorem utf8ByteSize_ofList_digits {digits : List Char} (h : ∀ digit ∈ digits, digit.isDigit = true) :
    (String.ofList digits).utf8ByteSize = digits.length := by
  rw [String.utf8ByteSize_ofList]
  induction digits with
  | nil => rfl
  | cons digit digits ih =>
    have hdigit := h digit (List.mem_cons_self ..)
    have hsize : digit.utf8Size = 1 := by
      simp only [Char.isDigit, Bool.and_eq_true, decide_eq_true_eq] at hdigit
      exact Char.utf8Size_eq_one_iff.mpr (UInt32.le_trans hdigit.2 (by decide))
    rw [String.utf8Len_cons, ih fun other hother => h other (List.mem_cons_of_mem _ hother), hsize, List.length_cons]

/-- A slot's number takes at most five digits. -/
theorem repr_short : (Nat.repr i.val).utf8ByteSize ≤ 5 := by
  have hlt : i.val < 16384 := i.isLt
  have hsize := utf8ByteSize_ofList_digits fun digit (hdigit : digit ∈ (Nat.repr i.val).toList) =>
    isDigit_of_mem_repr hdigit
  rw [String.ofList_toList, String.length_toList] at hsize
  rw [hsize]
  exact Nat.repr_length i.val 5 (by decide) (by omega)

/-- The kernel allows fifteen bytes for the name of a device, and no name of a slot takes more. -/
theorem names_short : ∀ name ∈ i.names, name.utf8ByteSize ≤ 15 := by
  have hnumber := @repr_short i
  have hname {front : String} (hfront : front.utf8ByteSize ≤ 10) : (front ++ Nat.repr i.val).utf8ByteSize ≤ 15 := by
    rw [String.utf8ByteSize_append]
    omega
  intro name hmem
  simp only [names, devices, List.mem_cons, List.not_mem_nil, or_false] at hmem
  rcases hmem with rfl | rfl | rfl | rfl <;> exact hname (by decide)

theorem addresses_nodup : i.addresses.Nodup := by
  have hlt : i.val < 16384 := i.isLt
  simp [addresses, Ipv4.eq_iff]
  omega

/-- A block around one of the two addresses of a slot begins where the slot's number says. -/
theorem pair_network {block : Cidr} {network : Ipv4} {count : Nat} (hlength : block.length = pairPrefix)
    (hnetwork : network.bits.toNat % 4 = 0) (hcount : count < 4)
    (haddress : block.address.bits.toNat = network.bits.toNat + (i.val * 4 + count)) :
    block.network.bits.toNat = network.bits.toNat + 4 * i.val := by
  have hle : block.length ≤ 32 := by rw [hlength]; decide
  have hsize : block.size = 4 := by rw [Cidr.size, hlength]; rfl
  rw [Cidr.network_toNat hle, hsize, haddress]
  omega

theorem vethCidr_network : i.vethCidr.network.bits.toNat = cableNetwork.bits.toNat + 4 * i.val :=
  pair_network rfl (by decide) (by decide) vethIp_toNat

theorem vpeerCidr_network : i.vpeerCidr.network.bits.toNat = cableNetwork.bits.toNat + 4 * i.val :=
  pair_network rfl (by decide) (by decide) vpeerIp_toNat

theorem tapCidr_network : i.tapCidr.network.bits.toNat = tapNetwork.bits.toNat + 4 * i.val :=
  pair_network rfl (by decide) (by decide) tapIp_toNat

/-- What is fixed for one slot is in order: its names differ and have room, its addresses differ, and the usable
    addresses of its two blocks are those of the two ends of the cable, and of the tap device and the guest. -/
theorem orderly : i.Orderly where
  names := names_nodup
  short := names_short
  addresses := addresses_nodup
  cable ip := by
    have hbase : cableNetwork.bits.toNat = 168558592 := rfl
    rw [Cidr.usable_iff rfl, vethCidr_network, Ipv4.eq_iff, Ipv4.eq_iff, vethIp_toNat, vpeerIp_toNat]
    omega
  tap ip := by
    have hbase : tapNetwork.bits.toNat = 168624128 := rfl
    rw [Cidr.usable_iff rfl, tapCidr_network, Ipv4.eq_iff, Ipv4.eq_iff, tapIp_toNat, guestIp_toNat]
    omega
  cableBlock := vethCidr_network
  tapBlock := tapCidr_network
  ends := by rw [Ipv4.eq_iff, vpeerCidr_network, vethCidr_network]
  arithmetic := numbers_exact

/-! ### Two slots -/

theorem names_disjoint (hne : i ≠ j) : i.names.Disjoint j.names := by
  have hdevices : i.devices.Disjoint j.devices := by simp [devices, hne.symm]
  have hnamespace : i.namespaceName ∉ j.names := by simp [names, hne, namespaceName_notMem]
  exact List.disjoint_cons_left.mpr
    ⟨hnamespace, List.disjoint_cons_right.mpr ⟨namespaceName_notMem, hdevices⟩⟩

/-- No address belongs to two slots: those of different kinds lie in different networks, and those of one kind
    are numbered apart. -/
theorem addresses_disjoint (hne : i ≠ j) : i.addresses.Disjoint j.addresses := by
  have hi : i.val < 16384 := i.isLt
  have hj : j.val < 16384 := j.isLt
  have hval : i.val ≠ j.val := fun h => hne (Fin.ext h)
  simp [addresses, Ipv4.eq_iff]
  omega

/-- The translation rules inside a namespace name the slot's own addresses. -/
theorem natRules_apart {rule : Rule} (hi : rule ∈ i.natRules) (hj : rule ∈ j.natRules) : i = j := by
  simp only [natRules, List.mem_cons, List.not_mem_nil, or_false] at hi hj
  rcases hi with rfl | rfl
  · exact (by simpa using hj : i = j ∧ _).1
  · have htext : i.hostIp.toText = j.hostIp.toText := (by simpa using hj : _ ∧ _).1
    exact hostIp_inj (Ipv4.toText_inj htext)

theorem hookRule_notMem_natRules : i.hookRule ∉ j.natRules := by
  simp [hookRule, natRules]

theorem hookRule_inj (h : i.hookRule = j.hookRule) : i = j := by
  simpa [hookRule] using h

/-- No two slots have a rule in common, so that deleting the rules of one cannot take away one of the other.
    Each rule names an address or a device of its slot. -/
theorem rules_disjoint (hne : i ≠ j) : (i.rules egress).Disjoint (j.rules egress) := by
  intro rule hi hj
  simp only [rules, List.mem_append, List.mem_singleton, or_assoc] at hi hj
  -- rules of different kinds differ in their table or their chain, those of one kind in what they name
  rcases hi with hi | hi | rfl <;> rcases hj with hj | hj | hj
  · exact hne (hostRules_apart hi hj)
  · exact natRules_ne_hostRules hj hi
  · exact hookRule_ne_hostRules (hj ▸ hi)
  · exact natRules_ne_hostRules hi hj
  · exact hne (natRules_apart hi hj)
  · exact hookRule_notMem_natRules (hj ▸ hi)
  · exact hookRule_ne_hostRules hj
  · exact hookRule_notMem_natRules hj
  · exact hne (hookRule_inj hj)

/-- No address is in a block of one slot and in a block of another. -/
theorem blocks_apart (hne : i ≠ j) {block other : Cidr} (hblock : block ∈ i.blocks) (hother : other ∈ j.blocks) :
    ¬ (block.Contains ip ∧ other.Contains ip) := by
  have hi : i.val < 16384 := i.isLt
  have hj : j.val < 16384 := j.isLt
  have hval : i.val ≠ j.val := fun h => hne (Fin.ext h)
  have hcable : cableNetwork.bits.toNat = 168558592 := rfl
  have htap : tapNetwork.bits.toNat = 168624128 := rfl
  simp only [blocks, List.mem_cons, List.not_mem_nil, or_false] at hblock hother
  rcases hblock with rfl | rfl <;> rcases hother with rfl | rfl <;>
    refine Cidr.apart rfl fun h => ?_ <;>
    rw [Ipv4.eq_iff] at h <;>
    simp only [vethCidr_network, tapCidr_network] at h <;>
    omega

/-- Two slots have nothing in common, put together: names, addresses, routes, rules and blocks. -/
theorem apart (hne : i ≠ j) : i.Apart j egress where
  names := names_disjoint hne
  addresses := addresses_disjoint hne
  route h := hne (hostRoute_inj.mp h)
  rules := rules_disjoint hne
  blocks _ hblock _ hother _ := blocks_apart hne hblock hother

/-- What the plan fixes for each slot is in order, and for two slots it has nothing in common. -/
theorem plan_apart : (∀ id : SlotId, id.Orderly) ∧ ∀ (i j : SlotId) (egress : String), i ≠ j → i.Apart j egress :=
  ⟨fun _ => orderly, fun _ _ _ hne => apart hne⟩

/-- The interface that leads outside may even have the name of a slot's own device. -/
theorem plan_apart_ends : (0 : SlotId) ≠ 16383 ∧ Orderly 16383 ∧ Apart 0 16383 "veth-0" :=
  ⟨by decide, plan_apart.1 16383, plan_apart.2 0 16383 "veth-0" (by decide)⟩

end SlotId
end SlotPool
