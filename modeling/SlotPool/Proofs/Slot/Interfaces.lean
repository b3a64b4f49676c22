import Mathlib.Data.Nat.Bitwise
import SlotPool.Proofs.Address.Numbering
import SlotPool.Proofs.Slot.Creation
/-!
The addresses that are listed for the interfaces of a slot, and the addresses that making its network provides. Making
it provides four, and all but one of those listed are among them: what is listed as the peer of the cable's host end is
the address of the cable's whole block, which is no end of it.
-/

namespace SlotPool

/-- The address that a call gives to an interface, or to which it makes a way. -/
def Call.provides? : Call → Option Ipv4
  | .addAddress _ address => some address.address
  | .addRoute route => route.destination.map (·.address)
  | _ => none

/-- The address that a call on record has provided. -/
def Record.provides? (record : Record) : Option Ipv4 :=
  match record.answer with
  | .returned (.ok _) => record.call.provides?
  | _ => none

namespace Ipv4

variable {ip : Ipv4}

/-- The peer of a peer is the address itself. -/
theorem peer_peer : ip.peer.peer = ip := by
  rw [peer, peer, UInt32.xor_assoc, UInt32.xor_self, UInt32.xor_zero]

theorem peer_toNat_of_even (heven : ip.bits.toNat % 2 = 0) : ip.peer.bits.toNat = ip.bits.toNat + 1 := by
  rw [peer, UInt32.toNat_xor]
  exact Nat.xor_one_of_even (Nat.even_iff.mpr heven)

theorem peer_toNat_of_odd (hodd : ip.bits.toNat % 2 = 1) : ip.peer.bits.toNat = ip.bits.toNat - 1 := by
  rw [peer, UInt32.toNat_xor]
  exact Nat.xor_one_of_odd (Nat.odd_iff.mpr hodd)

end Ipv4

namespace SlotId

/-- The addresses that making the network of a slot provides, in order. -/
def provided (id : SlotId) : List Ipv4 := [id.vpeerIp, id.vethIp, id.tapIp, id.hostIp]

/-- What there is to be said of the addresses that are listed for a slot. The peers of the cable's ends are the first
    and the last address of their block, and not each other. -/
structure Listed (id : SlotId) : Prop where
  outer : id.vethIp.peer = id.vethCidr.network
  back : id.vethCidr.network.peer = id.vethIp
  inner : id.vpeerIp.peer = id.vpeerCidr.broadcast
  listed : id.interfaceIps = [id.vethIp, id.vethIp.peer, id.hostIp]
  nodup : id.interfaceIps.Nodup
  provided : ∀ ip ∈ id.interfaceIps, ip ∈ id.provided ↔ ip ≠ id.vethIp.peer
  missed : id.vpeerIp ∉ id.interfaceIps
  /-- the address that is listed in its place is that of no slot -/
  stray : ∀ other : SlotId, id.vethIp.peer ∉ other.addresses

variable {id : SlotId} {egress : String} {origin handle : Handle}

@[simp]
theorem vethIp_peer_toNat : id.vethIp.peer.bits.toNat = 168558592 + id.val * 4 := by
  rw [Ipv4.peer_toNat_of_odd (by rw [vethIp_toNat]; omega), vethIp_toNat]
  omega

theorem vethIp_peer : id.vethIp.peer = id.vethCidr.network := by
  have hbase : cableNetwork.bits.toNat = 168558592 := rfl
  rw [Ipv4.eq_iff, vethIp_peer_toNat, vethCidr_network, hbase]
  omega

/-- The peer of the cable's inner end is the last address of their block: the number of the inner end is even,
    so flipping its last bit adds one to it. -/
theorem vpeerIp_peer : id.vpeerIp.peer = id.vpeerCidr.broadcast := by
  have hbase : cableNetwork.bits.toNat = 168558592 := rfl
  have hsize : id.vpeerCidr.size = 4 := rfl
  have hlength : id.vpeerCidr.length ≤ 32 := show pairPrefix ≤ 32 by decide
  rw [Ipv4.eq_iff, Ipv4.peer_toNat_of_even (by rw [vpeerIp_toNat]; omega), vpeerIp_toNat,
    Cidr.broadcast_toNat hlength, vpeerCidr_network, hbase, hsize]
  omega

theorem vethIp_peer_notMem {other : SlotId} : id.vethIp.peer ∉ other.addresses := by
  have hid : id.val < 16384 := id.isLt
  have hother : other.val < 16384 := other.isLt
  simp [addresses, Ipv4.eq_iff]
  omega

theorem listed_nodup : [id.vethIp, id.vethIp.peer, id.hostIp].Nodup := by
  have hid : id.val < 16384 := id.isLt
  simp [Ipv4.eq_iff]
  omega

theorem interfaceIps_eq : id.interfaceIps = [id.vethIp, id.vethIp.peer, id.hostIp] := by
  have hnodup := @listed_nodup id
  simp only [List.nodup_cons, List.mem_cons, List.not_mem_nil, or_false, not_or] at hnodup
  simp [interfaceIps, Ne.symm hnodup.1.1, Ne.symm hnodup.1.2, Ne.symm hnodup.2.1]

/-- The addresses that are listed for a slot, one by one: the outer end of the cable and the address by which
    the host reaches the slot are provided by its network. Between them stands the first address of the cable's
    block, which no interface of any slot has, and the inner end is missing. -/
theorem listed : id.Listed where
  outer := vethIp_peer
  back := vethIp_peer ▸ Ipv4.peer_peer
  inner := vpeerIp_peer
  listed := interfaceIps_eq
  nodup := interfaceIps_eq ▸ listed_nodup
  provided ip hip := by
    have hown {ip : Ipv4} (hip : ip ∈ id.addresses) : ip ≠ id.vethIp.peer := fun h => vethIp_peer_notMem (h ▸ hip)
    have hsubset : id.provided ⊆ id.addresses := by simp [SlotId.provided, addresses]
    rw [interfaceIps_eq] at hip
    simp only [List.mem_cons, List.not_mem_nil, or_false] at hip
    rcases hip with rfl | rfl | rfl
    · exact iff_of_true (by simp [SlotId.provided]) (hown (by simp [addresses]))
    · exact iff_of_false (fun h => vethIp_peer_notMem (hsubset h)) fun h => h rfl
    · exact iff_of_true (by simp [SlotId.provided]) (hown (by simp [addresses]))
  missed := by
    have hid : id.val < 16384 := id.isLt
    rw [interfaceIps_eq]
    simp [Ipv4.eq_iff]
    omega
  stray _ := vethIp_peer_notMem

/-- The peer of the cable's host end is not its inner end, nor the other way round. -/
theorem peer_ne_end : (0 : SlotId).vethIp.peer ≠ (0 : SlotId).vpeerIp ∧
    (0 : SlotId).vpeerIp.peer ≠ (0 : SlotId).vethIp ∧ (0 : SlotId).vpeerIp ∉ (0 : SlotId).interfaceIps ∧
    ∃ ip ∈ (0 : SlotId).interfaceIps, ip ∉ (0 : SlotId).provided := by
  decide

theorem creation_provided : (id.creation egress origin handle).filterMap (·.call.provides?) = id.provided :=
  rfl

/-- A call that may find nothing to act on provides nothing. -/
theorem creation_tolerant {chore : Chore} (hchore : chore ∈ id.creation egress origin handle)
    (htolerant : chore.tolerant = true) : chore.call.provides? = none := by
  revert chore
  simp [creation, natRules, hostRules, walling, unchaining, Chore.strict, Chore.lenient, Chore.within, Call.provides?]

end SlotId

/-- A chore that counts as done has provided what its call provides. -/
theorem Chore.provides_of_passed {chore : Chore} {result : Except NetworkError chore.call.Reply}
    (hpassed : chore.failure? result = none) (hstrict : chore.tolerant = true → chore.call.provides? = none) :
    Record.provides? ⟨chore.call, .returned result⟩ = chore.call.provides? := by
  cases result with
  | ok value => rfl
  | error cause =>
    have htolerant : chore.tolerant = true := by
      cases htolerant : chore.tolerant with
      | true => rfl
      | false => simp [Chore.failure?, htolerant] at hpassed
    exact (hstrict htolerant).symm

/-- Chores that are done up to the first failure provide what is first in the list, and all of it if none fails. -/
theorem Stopping.provided {chores : List Chore} {records : List Record} {ended : Except NetworkError Unit}
    (h : Stopping chores records ended)
    (hstrict : ∀ chore ∈ chores, chore.tolerant = true → chore.call.provides? = none) :
    records.filterMap Record.provides? <+: chores.filterMap (·.call.provides?) ∧
      (ended = .ok () → records.filterMap Record.provides? = chores.filterMap (·.call.provides?)) := by
  induction h with
  | done => exact ⟨List.prefix_rfl, fun _ => rfl⟩
  | pass hpassed hrest ih =>
    obtain ⟨hfirst, hchores⟩ := List.forall_mem_cons.mp hstrict
    obtain ⟨hfront, hall⟩ := ih hchores
    rw [List.filterMap_cons, List.filterMap_cons, Chore.provides_of_passed hpassed hfirst]
    split
    · exact ⟨hfront, hall⟩
    · exact ⟨List.cons_prefix_cons.mpr ⟨rfl, hfront⟩, fun hok => congrArg _ (hall hok)⟩
  | @stop chore chores failure result hfailed =>
    cases result with
    | ok value => cases hfailed
    | error cause => exact ⟨List.nil_prefix, fun hok => nomatch hok⟩

/-- What a guard does provides nothing. -/
theorem Restored.provided {made dropped : List Record} (h : Restored made dropped) :
    dropped.filterMap Record.provides? = [] := by
  cases h with
  | @back origin reply hcaptured => cases reply <;> rfl
  | unset hnone => rfl

namespace Operation

variable {σ : Type} {machine : Machine σ} {state : σ} {slot : Slot} {egress : String}

/-- Three addresses are listed for a slot, and making its network provides all of them but the second, on any machine
    and as far as it comes. This one is the address of the cable's block, and the cable's inner end is not listed. -/
theorem create_provides (machine : Machine σ) (state : σ) (slot : Slot) (egress : String) :
    slot.id.Listed ∧
    ((create.program egress slot).Returns machine state →
      ∃ result after last provided, (create.program egress slot).run machine state = (some (result, after), last) ∧
        (((create.program egress slot).trace machine state).map (·.toRecord)).filterMap Record.provides? = provided ∧
        provided <+: slot.id.provided ∧ (result = .ok () → provided = slot.id.provided)) := by
  refine ⟨slot.id.listed, fun hreturns => ?_⟩
  obtain ⟨result, after, last, hrun, origin, handle, made, dropped, htrace, hattempt⟩ :=
    (Slot.create_recorded slot egress).recorded hreturns
  obtain ⟨hfront, hall⟩ := hattempt.stopping.provided fun _ => SlotId.creation_tolerant
  rw [SlotId.creation_provided] at hfront hall
  have hprovided : (((create.program egress slot).trace machine state).map (·.toRecord)).filterMap Record.provides? =
      made.filterMap Record.provides? := by
    have htold : ((create.program egress slot).trace machine state).map (·.toRecord) = made ++ dropped := htrace
    rw [htold, List.filterMap_append, hattempt.restored.provided, List.append_nil]
  exact ⟨result, after, last, _, hrun, hprovided, hfront, hall⟩

/-- A network that is made without failures provides its four addresses, in order. -/
theorem create_provides_all :
    ∃ result after last,
      (create.program "eth0" (.fresh 0)).run (Rehearsal.rehearsing World.machine) (.start .fresh) =
        (some (result, after), last) ∧
      (((create.program "eth0" (.fresh 0)).trace (Rehearsal.rehearsing World.machine) (.start .fresh)).map
        (·.toRecord)).filterMap Record.provides? = (0 : SlotId).provided := by
  have hhoming : (Rehearsal.start World.fresh).Homing := ⟨rfl, fun _ hmem => nomatch hmem⟩
  obtain ⟨-, hcreate⟩ := create_provides (Rehearsal.rehearsing World.machine) (.start .fresh) (.fresh 0) "eth0"
  obtain ⟨result, after, last, provided, hrun, hprovided, -, hall⟩ := hcreate hhoming.meets.returns
  have hok : ((create.program "eth0" (.fresh 0)).run (Rehearsal.rehearsing World.machine)
      (.start .fresh)).1.map (·.1.isOk) = some true := by
    decide +kernel
  rw [hrun] at hok
  cases result with
  | ok value => exact ⟨_, after, last, hrun, hprovided.trans (hall rfl)⟩
  | error failure => cases hok

end Operation
end SlotPool
