import SlotPool.Proofs.World.Laid
/-!
The full network of a slot on a machine: all that belongs to the slot is there once, and none of it is
anywhere else. On a machine on which there is nothing but the networks of some slots, each of these slots has
its full network, and changing the network of one leaves the others as they are.
-/

namespace SlotPool

/-- A namespace holds what belongs in the namespace of a slot under a policy, once, and nothing else. -/
structure Namespace.Exact (ns : Namespace) (id : SlotId) (policy : Internet) : Prop where
  links : ∀ name link, ns.links[name]? = some link ↔
    name = loopback ∧ link = ⟨true, []⟩ ∨ name = id.vpeerName ∧ link = ⟨true, [id.vpeerCidr]⟩ ∨
      name = id.tapName ∧ link = ⟨true, [id.tapCidr]⟩
  routes : ns.routes = [id.defaultRoute]
  rules : ns.rules = id.natRules ++ id.hookRule :: policy.rules
  once : ns.rules.Nodup
  /-- the chain is hooked once -/
  hook : ns.rules.filter (· = id.hookRule) = [id.hookRule]
  /-- the chain has the rules of the policy -/
  chain : ns.rules.filter (fun rule => rule.table = .filter ∧ rule.chain = egressChain) = policy.rules
  chains : ns.chains = [(.filter, egressChain)]

/-- What the host holds for a slot, once. -/
structure Namespace.Leads (host : Namespace) (id : SlotId) (egress : String) : Prop where
  veth : host.links[id.vethName]? = some ⟨true, [id.vethCidr]⟩
  route : host.routes.filter (· = id.hostRoute) = [id.hostRoute]
  rules : host.rules.filter (· ∈ id.hostRules egress) = id.hostRules egress
  /-- no rule is there twice, unless the slot's own cable leads outside -/
  once : egress ≠ id.vethName → (host.rules.filter (· ∈ id.hostRules egress)).Nodup

/-- A furnished namespace has each device, address, route and rule of the slot once and has nothing else. -/
theorem SlotId.furnished_exact (id : SlotId) (policy : Internet) : (id.furnished policy).Exact id policy where
  links name link := by
    have hnames : id.vpeerName ≠ loopback ∧ id.tapName ≠ loopback ∧ id.vpeerName ≠ id.tapName := by simp
    have hlo : loopback = "lo" := rfl
    simp only [furnished, Namespace.put, Namespace.bare, Std.ExtTreeMap.getElem?_insert,
      Std.ExtTreeMap.getElem?_empty, Std.LawfulEqCmp.compare_eq_iff_eq]
    grind
  routes := rfl
  rules := rfl
  once := by cases policy <;> simp [furnished, natRules, hookRule, Internet.rules, blockRules]
  hook := by cases policy <;> simp [furnished, natRules, hookRule, Internet.rules, blockRules]
  chain := by
    cases policy <;> simp [furnished, natRules, hookRule, Internet.rules, blockRules, egressChain]
  chains := rfl

/-- The rules of a slot on the host are three, unless its own cable leads outside. -/
theorem SlotId.hostRules_nodup {id : SlotId} {egress : String} (hegress : egress ≠ id.vethName) :
    (id.hostRules egress).Nodup := by
  simp [hostRules, hegress.symm]

namespace World

/-- The thread is on the host, and a slot has its full network: all of it is there, once, and none of it is
    anywhere else. -/
structure Complete (world : World) (id : SlotId) (egress : String) (policy : Internet) : Prop where
  home : world.current = hostNamespace
  inside : ∃ ns, world.namespaces[id.namespaceName]? = some ns ∧ ns.Exact id policy
  outside : ∃ host, world.namespaces[hostNamespace]? = some host ∧ host.Leads id egress
  cable : world.peers[id.vethName]? = some id.vpeerName ∧ world.peers[id.vpeerName]? = some id.vethName
  veth : ∀ name, world.HasLink name id.vethName → name = hostNamespace
  vpeer : ∀ name, world.HasLink name id.vpeerName → name = id.namespaceName
  tap : ∀ name, world.HasLink name id.tapName → name = id.namespaceName

/-- But for one slot, the machine is as it was. -/
structure Beside (id : SlotId) (egress : String) (before after : World) : Prop where
  without : after.without id egress = before.without id egress
  elsewhere : SameElsewhere id before after

/-- What there is of a slot while the thread is on the host: its full network under a policy, or nothing. -/
def Holds (world : World) (id : SlotId) (egress : String) : Option Internet → Prop
  | some policy => world.Complete id egress policy
  | none => world.current = hostNamespace ∧ world.Clear id egress

/-- A slot has its full network under a policy afterwards, or nothing, and all else is as it was. -/
structure Resettles (id : SlotId) (egress : String) (settled : Option Internet) (before after : World) : Prop where
  own : after.Holds id egress settled
  others : Beside id egress before after

variable {world first second third : World} {id other : SlotId} {egress : String} {policy : Internet}
  {entries entries' before after : List (SlotId × Internet)}

theorem Beside.symm (h : Beside id egress first second) : Beside id egress second first :=
  ⟨h.without.symm, fun name hhost hown => (h.elsewhere name hhost hown).symm⟩

theorem Beside.trans (h : Beside id egress first second) (h' : Beside id egress second third) :
    Beside id egress first third :=
  ⟨h'.without.trans h.without, h.elsewhere.trans h'.elsewhere⟩

/-- The cable of a slot whose network is laid has its two ends on record, each as the peer of the other. The
    cables laid after it have other names. -/
theorem laid_cable (hentry : (id, policy) ∈ entries) :
    (laid egress entries).peers[id.vethName]? = some id.vpeerName ∧
      (laid egress entries).peers[id.vpeerName]? = some id.vethName := by
  induction entries using List.reverseRecOn with
  | nil => cases hentry
  | append_singleton entries entry ih =>
    have hpeers : (laid egress (entries ++ [entry])).peers = withCable (laid egress entries).peers entry.1 := by
      rw [laid_concat]
      rfl
    simp only [hpeers, withCable, Std.ExtTreeMap.getElem?_insert, Std.LawfulEqCmp.compare_eq_iff_eq]
    rcases List.mem_append.mp hentry with hold | hnew
    · obtain ⟨hveth, hvpeer⟩ := ih hold
      constructor
      · simp only [SlotId.vpeerName_ne_vethName, if_false, SlotId.vethName_inj]
        split
        · rename_i hsame
          rw [hsame]
        · exact hveth
      · simp only [SlotId.vethName_ne_vpeerName, if_false, SlotId.vpeerName_inj]
        split
        · rename_i hsame
          rw [hsame]
        · exact hvpeer
    · obtain rfl := List.mem_singleton.mp hnew
      simp

/-- The host has the outer end of the slot's cable, set up and with its address. What is laid for other slots
    leaves it there. -/
theorem laid_veth {host : Namespace} (hentry : (id, policy) ∈ entries)
    (hhost : (laid egress entries).namespaces[hostNamespace]? = some host) :
    host.links[id.vethName]? = some ⟨true, [id.vethCidr]⟩ := by
  induction entries using List.reverseRecOn generalizing host with
  | nil => cases hentry
  | append_singleton entries entry ih =>
    rw [laid_concat, lay_host] at hhost
    obtain ⟨found, hfound, rfl⟩ := Option.map_eq_some_iff.mp hhost
    simp only [Namespace.reaching, Namespace.put, Std.ExtTreeMap.getElem?_insert,
      Std.LawfulEqCmp.compare_eq_iff_eq, SlotId.vethName_inj]
    split
    · rename_i hsame
      rw [hsame]
    · rename_i hother
      rcases List.mem_append.mp hentry with hold | hnew
      · exact ih hold hfound
      · exact (hother (List.mem_singleton.mp hnew ▸ rfl)).elim

/-- The device for the guest is in the slot's own namespace. -/
theorem laid_tap {name : String} (hnodup : (entries.map Prod.fst).Nodup) (hentry : (id, policy) ∈ entries)
    (hlink : (laid egress entries).HasLink name id.tapName) : name = id.namespaceName := by
  by_contra hname
  obtain ⟨before, after, rfl⟩ := List.append_of_mem hentry
  obtain ⟨hrest, hid⟩ := nodup_without hnodup
  have hclear : (laid egress (before ++ after)).Clear id egress := (laid_grounded hrest).clear id hid
  obtain ⟨hwithout, helse⟩ : (laid egress _).without id egress = _ ∧ _ := laid_without hnodup
  refine hclear.links name _ (.inr (.inr rfl)) ?_
  obtain ⟨ns, hns, hmem⟩ := hlink
  by_cases hhost : name = hostNamespace
  · subst hhost
    have hsame := namespaces_of_without hwithout hname
    rw [hns] at hsame
    obtain ⟨ns', hns', hsame⟩ := Option.map_eq_some_iff.mp hsame.symm
    have hlinks := links_of_without hsame (by simp : id.tapName ≠ id.vethName) (by simp)
    rw [Std.ExtTreeMap.mem_iff_isSome_getElem?] at hmem
    exact ⟨ns', hns', Std.ExtTreeMap.mem_iff_isSome_getElem?.mpr (hlinks ▸ hmem)⟩
  · exact ⟨ns, (helse name hhost hname) ▸ hns, hmem⟩

/-- Each of the slots has its full network. -/
theorem laid_complete (hnodup : (entries.map Prod.fst).Nodup) (hentry : (id, policy) ∈ entries) :
    (laid egress entries).Complete id egress policy := by
  have hgrounded : (laid egress entries).Grounded egress _ := laid_grounded hnodup
  have hinside : (laid egress entries).namespaces[id.namespaceName]? = some (id.furnished policy) :=
    laid_inside hnodup hentry
  obtain ⟨host, hns⟩ := Option.isSome_iff_exists.mp
    (Std.ExtTreeMap.mem_iff_isSome_getElem?.mp hgrounded.host)
  obtain ⟨hroutes, hrules⟩ := laid_only hnodup hentry hns
  have honce : host.rules.filter (· ∈ id.hostRules egress) = id.hostRules egress := hrules
  have hleads : host.Leads id egress :=
    ⟨laid_veth hentry hns, hroutes, honce, fun hegress => by rw [honce]; exact SlotId.hostRules_nodup hegress⟩
  have htidy := hgrounded.orderly id
  have hexact := id.furnished_exact policy
  refine ⟨hgrounded.current, ⟨_, hinside, hexact⟩, ⟨host, hns, hleads⟩, laid_cable hentry, fun name hlink => ?_,
    htidy.vpeer, fun name => laid_tap hnodup hentry⟩
  rcases htidy.veth name hlink with hhost | rfl
  · exact hhost
  · -- the end of the cable that stays inside is the other one
    obtain ⟨ns, hns, hmem⟩ := hlink
    obtain rfl := Option.some.inj (hinside.symm.trans hns)
    obtain ⟨link, hlink⟩ := Option.isSome_iff_exists.mp (Std.ExtTreeMap.mem_iff_isSome_getElem?.mp hmem)
    have hnames := (hexact.links _ link).mp hlink
    simp at hnames

/-- Where a slot has no network, there is nothing of it. -/
theorem laid_clear (hnodup : (entries.map Prod.fst).Nodup) (hid : id ∉ entries.map Prod.fst) :
    (laid egress entries).Clear id egress :=
  (laid_grounded hnodup).clear id hid

/-- The namespaces of slots that are on record are those of the networks laid. -/
theorem laid_mem (hnodup : (entries.map Prod.fst).Nodup) :
    id.namespaceName ∈ (laid egress entries).namespaces ↔ id ∈ entries.map Prod.fst := by
  constructor
  · exact fun hmem => by_contra fun hid => (laid_clear hnodup hid).absent hmem
  · intro hmem
    obtain ⟨⟨found, policy⟩, hentry, rfl⟩ := List.mem_map.mp hmem
    rw [Std.ExtTreeMap.mem_iff_isSome_getElem?, laid_inside hnodup hentry]
    rfl

/-- But for a slot, the machine is as if that slot had no network. -/
theorem laid_filter (hnodup : (entries.map Prod.fst).Nodup) :
    Beside id egress (laid egress entries) (laid egress (entries.filter (·.1 ≠ id))) := by
  by_cases hmem : id ∈ entries.map Prod.fst
  · obtain ⟨⟨found, policy⟩, hentry, rfl⟩ := List.mem_map.mp hmem
    obtain ⟨before, after, rfl⟩ := List.append_of_mem hentry
    obtain ⟨-, hid⟩ := nodup_without hnodup
    have hfilter : (before ++ (found, policy) :: after).filter (·.1 ≠ found) = before ++ after := by
      have hothers : ∀ entry ∈ before ++ after, decide (entry.1 ≠ found) = true := fun entry hother =>
        decide_eq_true fun heq => hid (heq ▸ List.mem_map_of_mem hother)
      rw [← List.filter_eq_self.mpr hothers]
      simp [List.filter_append]
    obtain ⟨hwithout, helse⟩ : (laid egress _).without found egress = _ ∧ _ := laid_without hnodup
    rw [hfilter]
    exact Beside.symm ⟨hwithout, helse⟩
  · have hothers : ∀ entry ∈ entries, decide (entry.1 ≠ id) = true := fun entry hother =>
      decide_eq_true fun heq => hmem (heq ▸ List.mem_map_of_mem hother)
    rw [List.filter_eq_self.mpr hothers]
    exact ⟨rfl, .refl id _⟩

/-- Machines on which all slots but one have the same networks are the same but for that slot. -/
theorem laid_beside (hnodup : (entries.map Prod.fst).Nodup) (hnodup' : (entries'.map Prod.fst).Nodup)
    (hsame : entries'.filter (·.1 ≠ id) = entries.filter (·.1 ≠ id)) :
    Beside id egress (laid egress entries) (laid egress entries') :=
  (laid_filter hnodup).trans (hsame ▸ (laid_filter hnodup').symm)

end World
end SlotPool
