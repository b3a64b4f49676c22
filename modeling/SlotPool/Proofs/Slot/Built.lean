import SlotPool.Proofs.Slot.Reaped
import SlotPool.Proofs.Slot.Standing
import SlotPool.Proofs.World.Complete
/-!
Making the network of a slot, exactly. Where there is nothing of the slot, the machine is afterwards what it was
with the slot's network added, and with nothing else. Where there is something, clearing up takes away all that
could be in the way.
-/

namespace SlotPool

namespace Namespace

/-- A host afterwards has what it had before, and the outer end of a slot's cable, the route to the slot and its
    rules. -/
structure Extended (id : SlotId) (egress : String) (before after : Namespace) : Prop where
  veth : after.links[id.vethName]? = some ⟨true, [id.vethCidr]⟩
  links : ∀ name : String, name ≠ id.vethName → after.links[name]? = before.links[name]?
  routes : after.routes = before.routes ++ [id.hostRoute]
  rules : after.rules = before.rules ++ id.hostRules egress
  chains : after.chains = before.chains

variable {host first second : Namespace} {id : SlotId} {egress : String} {policy : Internet}

theorem reaching_extended : host.Extended id egress (host.reaching id egress) :=
  ⟨put_links_self, fun _ hname => put_links_other hname.symm, rfl, rfl, rfl⟩

/-- Namespaces with the same devices, routes, rules and chains are equal. The devices are compared by name,
    since they are a map. -/
theorem eq_of_tables (hlinks : ∀ name : String, second.links[name]? = first.links[name]?)
    (hroutes : second.routes = first.routes) (hrules : second.rules = first.rules)
    (hchains : second.chains = first.chains) : second = first := by
  have hsame : second.links = first.links := Std.ExtTreeMap.ext_getElem? fun {name} => hlinks name
  cases first
  cases second
  simp_all

/-- What a host looks like once it reaches a slot is fully determined by what it was before. -/
theorem Extended.unique (h : host.Extended id egress first) (h' : host.Extended id egress second) :
    second = first := by
  refine eq_of_tables (fun name => ?_) (h'.routes.trans h.routes.symm) (h'.rules.trans h.rules.symm)
    (h'.chains.trans h.chains.symm)
  by_cases hname : name = id.vethName
  · rw [hname, h'.veth, h.veth]
  · rw [h'.links name hname, h.links name hname]

theorem Exact.unique (h : first.Exact id policy) (h' : second.Exact id policy) : second = first := by
  refine eq_of_tables (fun name => ?_) (h'.routes.trans h.routes.symm) (h'.rules.trans h.rules.symm)
    (h'.chains.trans h.chains.symm)
  exact Option.ext fun link => (h'.links name link).trans (h.links name link).symm

end Namespace

namespace World

/-- Afterwards the thread is on the host, and the machine is what it was before with the complete network of a
    slot: there is its namespace, the host has its part, and the cable joins them. -/
structure Builds (id : SlotId) (egress : String) (before after : World) : Prop where
  current : after.current = hostNamespace
  inside : ∃ ns, after.namespaces[id.namespaceName]? = some ns ∧ ns.Exact id .allowed
  outside : ∃ host host', before.namespaces[hostNamespace]? = some host ∧
    after.namespaces[hostNamespace]? = some host' ∧ host.Extended id egress host'
  elsewhere : SameElsewhere id before after
  cable : after.peers[id.vethName]? = some id.vpeerName ∧ after.peers[id.vpeerName]? = some id.vethName
  cables : ∀ link, link ≠ id.vethName → link ≠ id.vpeerName → after.peers[link]? = before.peers[link]?

variable {world first second : World} {id : SlotId} {egress : String} {host : Namespace}

/-- The machine with a network laid on it is the machine that making the network is said to build. -/
theorem lay_builds (hcurrent : world.current = hostNamespace)
    (hhost : world.namespaces[hostNamespace]? = some host) :
    world.Builds id egress (world.lay egress (id, .allowed)) where
  current := hcurrent
  inside := ⟨_, lay_inside, id.furnished_exact .allowed⟩
  outside := ⟨host, host.reaching id egress, hhost, by rw [lay_host, hhost]; rfl, Namespace.reaching_extended⟩
  elsewhere := lay_elsewhere
  cable := lay_peers
  cables link hveth hvpeer := by
    simp [lay, withCable, Std.ExtTreeMap.getElem?_insert, hveth.symm, hvpeer.symm]

/-- There is one machine only that is what it was with the network of a slot. So to say that a machine builds
    the network is to say what is on it, table by table. -/
theorem Builds.unique (h : world.Builds id egress first) (h' : world.Builds id egress second) :
    second = first := by
  have hnamespaces : second.namespaces = first.namespaces := by
    refine Std.ExtTreeMap.ext_getElem? fun {name} => ?_
    by_cases hown : name = id.namespaceName
    · obtain ⟨ns, hns, hexact⟩ := h.inside
      obtain ⟨ns', hns', hexact'⟩ := h'.inside
      rw [hown, hns, hns', hexact.unique hexact']
    · by_cases hhost : name = hostNamespace
      · obtain ⟨before, after, hbefore, hafter, hextended⟩ := h.outside
        obtain ⟨before', after', hbefore', hafter', hextended'⟩ := h'.outside
        obtain rfl := Option.some.inj (hbefore.symm.trans hbefore')
        rw [hhost, hafter, hafter', hextended.unique hextended']
      · rw [h'.elsewhere name hhost hown, h.elsewhere name hhost hown]
  have hpeers : second.peers = first.peers := by
    refine Std.ExtTreeMap.ext_getElem? fun {link} => ?_
    by_cases hveth : link = id.vethName
    · rw [hveth, h'.cable.1, h.cable.1]
    · by_cases hvpeer : link = id.vpeerName
      · rw [hvpeer, h'.cable.2, h.cable.2]
      · rw [h'.cables link hveth hvpeer, h.cables link hveth hvpeer]
  have hcurrent : second.current = first.current := h'.current.trans h.current.symm
  obtain ⟨current, namespaces, peers⟩ := second
  exact congr (congr (congrArg World.mk hcurrent) hnamespaces) hpeers

/-- The machine in memory answers every call as it does. -/
theorem machine_meets {α : Type} {p : Program α} {world : World} :
    p.Meets machine (fun world => world) (replies .none) world := by
  induction p generalizing world with
  | done value => trivial
  | call c guards next ih => exact ⟨_, _, rfl, .inl rfl, ih _⟩

end World

namespace Operation

open Sequence

variable {world : World} {slot : Slot} {egress : String} {host : Namespace}

/-- Making the network of a slot takes no more than that neither its namespace nor its route is in the way. -/
theorem create_run (hcurrent : world.current = hostNamespace)
    (hhost : world.namespaces[hostNamespace]? = some host)
    (habsent : slot.id.namespaceName ∉ world.namespaces) (hroute : slot.id.hostRoute ∉ host.routes) :
    (create.program egress slot).run World.machine world =
      (some (.ok (), .standing slot.id .allowed), world.lay egress (slot.id, .allowed)) := by
  have hcreate : Triple (World.replies .none) (Attempt slot.id egress host)
      (fun made before => made.id = slot.id ∧ before = world) (Slot.create egress)
      (Staged world slot.id (some slot.id.handle) (some .allowed) hostNamespace (host.reaching slot.id egress)
        (slot.id.furnished .allowed) (World.withCable world.peers slot.id)) (Failed False slot.id egress host) :=
    Staged.create Hazard.none_strikes hcurrent hhost habsent hroute
  obtain ⟨⟨result, after⟩, made, hrun, hend⟩ := World.run_of_ensures (hcreate slot world ⟨rfl, rfl⟩)
  refine hrun.trans ?_
  cases result with
  | error failure => exact hend.1.elim
  | ok value =>
    have hstaged : Staged world slot.id _ _ hostNamespace _ _ _ after made := hend
    obtain rfl : after = .standing slot.id .allowed :=
      Slot.eq_outfitted hstaged.id_eq hstaged.handle hstaged.firewall
    rw [World.lay_eq_stage hcurrent hhost, hstaged.world_eq]

/-- On a machine on which there is nothing of a slot, its network is made, and nothing else. -/
theorem create_builds (hcurrent : world.current = hostNamespace) (hhost : hostNamespace ∈ world.namespaces)
    (hclear : world.Clear slot.id egress) :
    ∃ made, (create.program egress slot).run World.machine world =
        (some (.ok (), .standing slot.id .allowed), made) ∧
      world.Builds slot.id egress made ∧ ∀ other, world.Builds slot.id egress other → other = made := by
  obtain ⟨host, hns⟩ := Option.isSome_iff_exists.mp (Std.ExtTreeMap.mem_iff_isSome_getElem?.mp hhost)
  have hbuilds : world.Builds slot.id egress (world.lay egress (slot.id, .allowed)) := World.lay_builds hcurrent hns
  exact ⟨_, create_run hcurrent hns hclear.absent (hclear.host host hns).1, hbuilds,
    fun other hother => hbuilds.unique hother⟩

/-- A network is made beside that of a neighbour, and all that was there before is still there. -/
theorem create_builds_besideNeighbour : ∃ made,
    (create.program "eth0" (.fresh 1)).run World.machine neighbourMade.2.machine =
        (some (.ok (), .standing 1 .allowed), made) ∧
      neighbourMade.2.machine.Builds 1 "eth0" made := by
  have hhost : hostNamespace ∈ neighbourMade.2.machine.namespaces :=
    (neighbourMade_reached.sound Rehearsal.rehearsing_within).host
  have hclear : neighbourMade.2.machine.Clear (Slot.fresh 1).id "eth0" := neighbourMade_clear
  obtain ⟨made, hrun, hbuilds, -⟩ := create_builds neighbourMade_onHost hhost hclear
  exact ⟨made, hrun, hbuilds⟩

/-- Whatever there is of a slot on a machine, and whatever the slot remembers, after clearing up its network can
    be made. Its namespace is then as on every machine on which there was nothing of the slot. -/
theorem reap_create (hcurrent : world.current = hostNamespace) (hhost : hostNamespace ∈ world.namespaces)
    (hunrepeated : world.Unrepeated) :
    ∃ cleared made, (reap.program egress slot).run World.machine world =
        (some (.ok (), .fresh slot.id), cleared) ∧
      (create.program egress (.fresh slot.id)).run World.machine cleared =
        (some (.ok (), .standing slot.id .allowed), made) ∧
      cleared.Builds slot.id egress made ∧
      ∀ clean, clean.current = hostNamespace → hostNamespace ∈ clean.namespaces → clean.Clear slot.id egress →
        made.namespaces[slot.id.namespaceName]? =
          ((create.program egress (.fresh slot.id)).run World.machine clean).2.namespaces[slot.id.namespaceName]? := by
  obtain ⟨host, hns⟩ := Option.isSome_iff_exists.mp (Std.ExtTreeMap.mem_iff_isSome_getElem?.mp hhost)
  have hmeets : (reap.program egress slot).Meets World.machine (fun world => world) (World.replies .none) world :=
    World.machine_meets
  obtain ⟨cleared, hreap, houtside⟩ := reap_exact hcurrent hns hmeets
  obtain ⟨host', hns', hroutes, -⟩ := houtside.host
  -- no route stood twice, so none is left when one copy is deleted
  have hroute : slot.id.hostRoute ∉ host'.routes := hroutes ▸ (hunrepeated _ host hns).not_mem_erase
  refine ⟨cleared, _, hreap, create_run houtside.current hns' houtside.named hroute,
    World.lay_builds houtside.current hns', fun clean hclean hhere hclear => ?_⟩
  obtain ⟨found, hfound⟩ := Option.isSome_iff_exists.mp (Std.ExtTreeMap.mem_iff_isSome_getElem?.mp hhere)
  have hafresh : (create.program egress (.fresh slot.id)).run World.machine clean =
      (some (.ok (), .standing slot.id .allowed), clean.lay egress (slot.id, .allowed)) :=
    create_run hclean hfound hclear.absent (hclear.host found hfound).1
  rw [hafresh]
  exact World.lay_inside.trans World.lay_inside.symm

/-- The first slot as a process remembers it that has taken it over and blocked it. -/
def neighbourStale : Slot := { neighbour with state := .firewallReady none .blocked }

/-- The network of a slot whose process is gone is cleared up and made again. The namespace is then the same as
    on a fresh machine. -/
theorem reap_create_neighbourStale : ∃ cleared made,
    (reap.program "eth0" neighbourStale).run World.machine neighbourMade.2.machine =
        (some (.ok (), .fresh 0), cleared) ∧
      (create.program "eth0" (.fresh 0)).run World.machine cleared =
        (some (.ok (), .standing 0 .allowed), made) ∧
      made.namespaces["ns-0"]? =
        ((create.program "eth0" (.fresh 0)).run World.machine .fresh).2.namespaces["ns-0"]? := by
  have hhost : hostNamespace ∈ neighbourMade.2.machine.namespaces :=
    (neighbourMade_reached.sound Rehearsal.rehearsing_within).host
  obtain ⟨cleared, made, hreap, hcreate, -, hclean⟩ := @reap_create _ neighbourStale "eth0" neighbourMade_onHost
    hhost (neighbourMade_reached.unrepeated Rehearsal.rehearsing_within)
  exact ⟨cleared, made, hreap, hcreate,
    hclean .fresh rfl Std.ExtTreeMap.mem_insert_self (World.fresh_clear 0 "eth0")⟩

end Operation
end SlotPool
