import Std.Data.String.ToNat
import SlotPool.Slot.Layout
/-!
What the plan fixes for the slots does not collide: neither the names of two slots, nor those of one,
nor with the names that the host has of its own. No two slots have an address, a route or a rule on the
host in common.
-/

namespace SlotPool

theorem isDigit_of_mem_repr {n : Nat} {c : Char} (h : c ∈ (Nat.repr n).toList) : c.isDigit = true :=
  Nat.isDigit_of_mem_toDigits (b := 10) (by decide) (by decide) (by simpa [Nat.repr] using h)

/-- An address is determined by its four octets. -/
theorem Ipv4.octets_inj {a b : Ipv4} (h : a.octets = b.octets) : a = b := by
  obtain ⟨a⟩ := a
  obtain ⟨b⟩ := b
  have hbits : a.toNat = b.toNat := by
    have ha := a.toNat_lt
    have hb := b.toNat_lt
    simp only [octets, List.cons.injEq, ← UInt8.toNat_inj, UInt32.toNat_toUInt8,
      UInt32.toNat_shiftRight, and_true] at h
    simp [Nat.shiftRight_eq_div_pow] at h
    omega
  rw [UInt32.toNat_inj.mp hbits]

/-- An address is determined by its text: dots part the octets, and no octet has a dot in its own text. -/
theorem Ipv4.toText_inj {a b : Ipv4} (h : a.toText = b.toText) : a = b := by
  have hdots (ip : Ipv4) : ∀ part ∈ (ip.octets.map fun octet => toString octet.toNat).map String.toList,
      '.' ∉ part := by
    intro part hpart hdot
    obtain ⟨text, htext, rfl⟩ := List.mem_map.mp hpart
    obtain ⟨octet, -, rfl⟩ := List.mem_map.mp htext
    cases isDigit_of_mem_repr hdot
  have hlists := congrArg (List.splitOn '.') (congrArg String.toList h)
  simp only [toText, String.toList_intercalate] at hlists
  have hdot : ".".toList = ['.'] := by simp
  rw [hdot, List.splitOn_intercalate '.' (hdots a) (by simp [octets]),
    List.splitOn_intercalate '.' (hdots b) (by simp [octets]), List.map_map, List.map_map] at hlists
  refine octets_inj ((List.map_inj_right fun x y hxy => ?_).mp hlists)
  exact UInt8.toNat_inj.mp (Nat.repr_injective (String.toList_inj.mp hxy))

namespace SlotId

variable {i j : SlotId} {egress : String}

theorem numbered_inj {front : String} {m n : Nat} (h : front ++ Nat.repr m = front ++ Nat.repr n) :
    m = n :=
  Nat.repr_injective (String.append_right_inj front |>.mp h)

@[simp]
theorem namespaceName_inj : i.namespaceName = j.namespaceName ↔ i = j :=
  ⟨fun h => Fin.ext (numbered_inj h), congrArg _⟩

@[simp]
theorem vethName_inj : i.vethName = j.vethName ↔ i = j :=
  ⟨fun h => Fin.ext (numbered_inj h), congrArg _⟩

@[simp]
theorem vpeerName_inj : i.vpeerName = j.vpeerName ↔ i = j :=
  ⟨fun h => Fin.ext (numbered_inj h), congrArg _⟩

@[simp]
theorem tapName_inj : i.tapName = j.tapName ↔ i = j :=
  ⟨fun h => Fin.ext (numbered_inj h), congrArg _⟩

@[simp]
theorem namespaceName_ne_host : i.namespaceName ≠ hostNamespace := by
  simp [← String.toList_inj, namespaceName, hostNamespace, toString]

@[simp]
theorem host_ne_namespaceName : hostNamespace ≠ i.namespaceName := namespaceName_ne_host.symm

@[simp]
theorem vethName_ne_vpeerName : i.vethName ≠ j.vpeerName := by
  simp [← String.toList_inj, vethName, vpeerName, toString]

@[simp]
theorem vpeerName_ne_vethName : i.vpeerName ≠ j.vethName := vethName_ne_vpeerName.symm

@[simp]
theorem vethName_ne_tapName : i.vethName ≠ j.tapName := by
  simp [← String.toList_inj, vethName, tapName, toString]

@[simp]
theorem tapName_ne_vethName : i.tapName ≠ j.vethName := vethName_ne_tapName.symm

@[simp]
theorem vpeerName_ne_tapName : i.vpeerName ≠ j.tapName := by
  simp [← String.toList_inj, vpeerName, tapName, toString]

@[simp]
theorem tapName_ne_vpeerName : i.tapName ≠ j.vpeerName := vpeerName_ne_tapName.symm

@[simp]
theorem vethName_ne_loopback : i.vethName ≠ loopback := by
  simp [← String.toList_inj, vethName, loopback, toString]

@[simp]
theorem loopback_ne_vethName : loopback ≠ i.vethName := vethName_ne_loopback.symm

@[simp]
theorem vpeerName_ne_loopback : i.vpeerName ≠ loopback := by
  simp [← String.toList_inj, vpeerName, loopback, toString]

@[simp]
theorem loopback_ne_vpeerName : loopback ≠ i.vpeerName := vpeerName_ne_loopback.symm

@[simp]
theorem tapName_ne_loopback : i.tapName ≠ loopback := by
  simp [← String.toList_inj, tapName, loopback, toString]

@[simp]
theorem loopback_ne_tapName : loopback ≠ i.tapName := tapName_ne_loopback.symm

/-- The addresses by which the host reaches two slots are different, as the numbering does not wrap within the
    plan. -/
theorem hostIp_inj (h : i.hostIp = j.hostIp) : i = j := by
  have hbits := congrArg UInt32.toNat (congrArg Ipv4.bits h)
  have hi : i.val < 16384 := i.isLt
  have hj : j.val < 16384 := j.isLt
  simp only [hostIp, Ipv4.advance, word, hostNetwork, Ipv4.ofOctets, UInt32.toNat_add] at hbits
  refine Fin.ext ?_
  simp at hbits
  omega

theorem hostCidr_toText_inj (h : i.hostCidr.toText = j.hostCidr.toText) : i = j := by
  have hprefix : i.hostIp.toText = j.hostIp.toText := by
    simpa [Cidr.toText, hostCidr, toString] using h
  exact hostIp_inj (Ipv4.toText_inj hprefix)

@[simp]
theorem hostRoute_inj : i.hostRoute = j.hostRoute ↔ i = j := by
  refine ⟨fun h => ?_, congrArg _⟩
  have hdestination := Option.some.inj (congrArg Route.destination h)
  exact hostIp_inj (congrArg Cidr.address hdestination)

@[simp]
theorem defaultRoute_ne_hostRoute : i.defaultRoute ≠ j.hostRoute := by
  simp [defaultRoute, hostRoute]

/-- No two slots have a rule on the host in common. -/
theorem hostRules_apart {rule : Rule} (hi : rule ∈ i.hostRules egress)
    (hj : rule ∈ j.hostRules egress) : i = j := by
  simp only [hostRules, List.mem_cons, List.not_mem_nil, or_false] at hi hj
  rcases hi with rfl | rfl | rfl
  · rcases (by simpa using hj : i = j ∨ i.vethName = egress ∧ egress = j.vethName) with rfl | hveth
    · rfl
    · exact vethName_inj.mp (hveth.1.trans hveth.2)
  · rcases (by simpa using hj : (egress = j.vethName ∧ i.vethName = egress) ∨ i = j) with hveth | rfl
    · exact vethName_inj.mp (hveth.2.trans hveth.1)
    · rfl
  · exact hostCidr_toText_inj (by simpa using hj)

theorem natRules_ne_hostRules {rule : Rule} (hi : rule ∈ i.natRules) : rule ∉ j.hostRules egress := by
  simp only [natRules, List.mem_cons, List.not_mem_nil, or_false] at hi
  rcases hi with rfl | rfl <;> simp [hostRules]

theorem blockRules_ne_hostRules {rule : Rule} (hrule : rule ∈ blockRules) : rule ∉ j.hostRules egress := by
  simp only [blockRules, List.mem_cons, List.not_mem_nil, or_false] at hrule
  rcases hrule with rfl | rfl <;> simp [hostRules, egressChain]

theorem hookRule_ne_hostRules : i.hookRule ∉ j.hostRules egress := by
  simp [hookRule, hostRules, egressChain]

end SlotId
end SlotPool
