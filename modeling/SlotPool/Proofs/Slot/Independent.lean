import SlotPool.Proofs.Slot.Beside
import SlotPool.Proofs.World.Alike
/-!
Operations on different slots do not depend on each other: without failures it does not matter which of
two comes first.
-/

namespace SlotPool.Operation

variable {σ : Type} {machine : Machine σ} {view : σ → World} {egress : String} {first second : Slot}

/-- What an operation has come to that ended on the host. -/
structure Landed (operation : Operation) (egress : String) (slot : Slot) (world : World)
    (result : Except operation.Failure Unit) (after : Slot) (world' : World) : Prop where
  run : (operation.program egress slot).run World.machine world = (some (result, after), world')
  only : (operation.program egress slot).run World.machine (world.only slot.id egress) =
    (some (result, after), world'.only slot.id egress)
  confined : Confined slot.id egress world after world'
  current : world'.current = hostNamespace

variable {operation : Operation} {slot after after' : Slot} {world world' earlier later : World}
  {result result' : Except operation.Failure Unit}

/-- What belongs to another slot is as it was, seen from the host. -/
theorem Landed.only_other {other : SlotId} (h : operation.Landed egress slot world result after world')
    (hcurrent : world.current = hostNamespace) (hother : other ≠ slot.id) :
    world'.only other egress = world.only other egress := by
  have hholdings := World.holdings_of_without hother h.confined.surroundings h.confined.elsewhere
  rw [World.only, World.only, hholdings, h.current, hcurrent]

/-- An operation comes to the same wherever the same belongs to its slot. -/
theorem Landed.same (h : operation.Landed egress slot world result after world')
    (h' : operation.Landed egress slot earlier result' after' later)
    (hsame : earlier.only slot.id egress = world.only slot.id egress) :
    result' = result ∧ after' = after ∧ later.only slot.id egress = world'.only slot.id egress := by
  have hrun := h'.only
  rw [hsame, h.only] at hrun
  obtain ⟨houtcome, honly⟩ := Prod.mk.inj hrun
  obtain ⟨hresult, hafter⟩ := Prod.mk.inj (Option.some.inj houtcome)
  exact ⟨hresult.symm, hafter.symm, honly.symm⟩

/-- Two machines to which the same was done for two slots, in either order, are alike. The machine is put
    together of what belongs to one slot, what belongs to the other and the rest; each part is the same on both.
    -/
theorem alike_of_landed {a b : Operation} {ra ra' : Except a.Failure Unit} {rb rb' : Except b.Failure Unit}
    {first' first'' second' second'' : Slot} {worldA worldB worldAB worldBA : World}
    (horderly : world.Orderly) (hhost : hostNamespace ∈ world.namespaces)
    (ha : a.Landed egress first world ra first' worldA)
    (hab : b.Landed egress second worldA rb' second'' worldAB)
    (hb : b.Landed egress second world rb second' worldB)
    (hba : a.Landed egress first worldB ra' first'' worldBA)
    (hfirst : worldAB.only first.id egress = worldBA.only first.id egress)
    (hsecond : worldAB.only second.id egress = worldBA.only second.id egress) :
    worldAB.Alike worldBA := by
  have hhosted {operation : Operation} {slot after : Slot} {world world' : World}
      {result : Except operation.Failure Unit} {ns : Namespace}
      (h : operation.Landed egress slot world result after world')
      (hns : world.namespaces[hostNamespace]? = some ns) :
      ∃ ns', world'.namespaces[hostNamespace]? = some ns' ∧
        ns'.without slot.id egress = ns.without slot.id egress := by
    have hsame := World.namespaces_of_without h.confined.surroundings (by simp : hostNamespace ≠ _)
    rw [hns, Option.map_some] at hsame
    exact Option.map_eq_some_iff.mp hsame
  obtain ⟨host, hns⟩ := Option.isSome_iff_exists.mp (Std.ExtTreeMap.mem_iff_isSome_getElem?.mp hhost)
  obtain ⟨hostA, hnsA, hwithoutA⟩ := hhosted ha hns
  obtain ⟨hostAB, hnsAB, hwithoutAB⟩ := hhosted hab hnsA
  obtain ⟨hostB, hnsB, hwithoutB⟩ := hhosted hb hns
  obtain ⟨hostBA, hnsBA, hwithoutBA⟩ := hhosted hba hnsB
  have horderlyA := horderly.change ha.confined.tidy ha.confined.surroundings
  have horderlyB := horderly.change hb.confined.tidy hb.confined.surroundings
  refine World.alike_of_parts hnsAB hnsBA
    (horderlyA.change hab.confined.tidy hab.confined.surroundings)
    (horderlyB.change hba.confined.tidy hba.confined.surroundings) hfirst hsecond ?_ ?_ ?_
  · calc (hostAB.without first.id egress).without second.id egress
        = (hostAB.without second.id egress).without first.id egress := Namespace.without_comm
      _ = (hostA.without second.id egress).without first.id egress := by rw [hwithoutAB]
      _ = (hostA.without first.id egress).without second.id egress := Namespace.without_comm
      _ = (host.without first.id egress).without second.id egress := by rw [hwithoutA]
      _ = (host.without second.id egress).without first.id egress := Namespace.without_comm
      _ = (hostB.without second.id egress).without first.id egress := by rw [hwithoutB]
      _ = (hostB.without first.id egress).without second.id egress := Namespace.without_comm
      _ = (hostBA.without first.id egress).without second.id egress := by rw [hwithoutBA]
  · intro name hname hown hown'
    rw [hab.confined.elsewhere name hname hown', ha.confined.elsewhere name hname hown,
      hba.confined.elsewhere name hname hown, hb.confined.elsewhere name hname hown']
  · intro link hveth hvpeer hveth' hvpeer'
    rw [World.peers_of_without hab.confined.surroundings hveth' hvpeer',
      World.peers_of_without ha.confined.surroundings hveth hvpeer,
      World.peers_of_without hba.confined.surroundings hveth hvpeer,
      World.peers_of_without hb.confined.surroundings hveth' hvpeer']

/-- It does not matter which of two operations on different slots comes first: each has the same result in
    either order and leaves its slot the same, and the machines are alike. Only the order of rules and routes on
    the host may tell which was first. -/
theorem Reached.commute {slots : List Slot} {state : σ} (hmachine : machine.Within view (World.replies .any))
    (hreached : Reached machine view egress slots state)
    (hhost : (view state).current = hostNamespace) (hfirst : first ∈ slots) (hsecond : second ∈ slots)
    (hother : first.id ≠ second.id) (a b : Operation) :
    ∃ resultA resultB first' second' worldA worldB worldAB worldBA,
      (a.program egress first).run World.machine (view state) = (some (resultA, first'), worldA) ∧
      (b.program egress second).run World.machine worldA = (some (resultB, second'), worldAB) ∧
      (b.program egress second).run World.machine (view state) = (some (resultB, second'), worldB) ∧
      (a.program egress first).run World.machine worldB = (some (resultA, first'), worldBA) ∧
      worldAB.Alike worldBA := by
  have hsound := hreached.sound hmachine
  have hland (operation : Operation) {slot : Slot} {world : World} (hslot : slot ∈ slots)
      (horderly : world.Orderly) (hcurrent : world.current = hostNamespace)
      (hmem : hostNamespace ∈ world.namespaces) :
      ∃ result after world', operation.Landed egress slot world result after world' := by
    obtain ⟨result, after, world', hrun, honly, hlanded⟩ := operation.run_only egress
      (hsound.homed slot hslot) (horderly _) hcurrent hmem
    exact ⟨result, after, world', hrun, honly, hlanded.1, hlanded.2⟩
  have hnext {operation : Operation} {slot after : Slot} {world world' : World}
      {result : Except operation.Failure Unit} (horderly : world.Orderly)
      (hmem : hostNamespace ∈ world.namespaces)
      (h : operation.Landed egress slot world result after world') :
      world'.Orderly ∧ hostNamespace ∈ world'.namespaces :=
    ⟨horderly.change h.confined.tidy h.confined.surroundings,
      World.mem_of_without h.confined.surroundings (by simp) hmem⟩
  obtain ⟨resultA, first', worldA, ha⟩ := hland a hfirst hsound.orderly hhost hsound.host
  obtain ⟨resultB, second', worldB, hb⟩ := hland b hsecond hsound.orderly hhost hsound.host
  obtain ⟨horderlyA, hmemA⟩ := hnext hsound.orderly hsound.host ha
  obtain ⟨horderlyB, hmemB⟩ := hnext hsound.orderly hsound.host hb
  obtain ⟨resultB', second'', worldAB, hab⟩ := hland b hsecond horderlyA ha.current hmemA
  obtain ⟨resultA', first'', worldBA, hba⟩ := hland a hfirst horderlyB hb.current hmemB
  obtain ⟨rfl, rfl, honlyB⟩ := hb.same hab (ha.only_other hhost hother.symm)
  obtain ⟨rfl, rfl, honlyA⟩ := ha.same hba (hb.only_other hhost hother)
  refine ⟨_, _, _, _, worldA, worldB, worldAB, worldBA, ha.run, hab.run, hb.run, hba.run, ?_⟩
  refine alike_of_landed hsound.orderly hsound.host ha hab hb hba ?_ ?_
  · rw [hab.only_other ha.current hother, honlyA]
  · rw [hba.only_other hb.current hother.symm, honlyB]

/-- Slot 0 is removed and slot 1 is made ready. In either order both end as they would alone, and the machines
    are alike. -/
theorem commute_neighbours :
    ∃ resultA resultB neighbour' other' worldA worldB worldAB worldBA,
      (Operation.remove.program "eth0" neighbour).run World.machine neighbourMade.2.machine =
        (some (resultA, neighbour'), worldA) ∧
      ((Operation.prepare .blocked).program "eth0" (.fresh 1)).run World.machine worldA =
        (some (resultB, other'), worldAB) ∧
      ((Operation.prepare .blocked).program "eth0" (.fresh 1)).run World.machine neighbourMade.2.machine =
        (some (resultB, other'), worldB) ∧
      (Operation.remove.program "eth0" neighbour).run World.machine worldB =
        (some (resultA, neighbour'), worldBA) ∧
      worldAB.Alike worldBA :=
  Reached.commute Rehearsal.rehearsing_within neighbourMade_reached neighbourMade_onHost (by simp) (by simp)
    (by decide) .remove (.prepare .blocked)

end SlotPool.Operation
