import SlotPool.Proofs.World.Apart
/-!
What it takes that a slot is connected: the network inside its namespace and on the host. The slots do
not get into each other's way.
-/

namespace SlotPool

/-- The namespace of a slot has all that a sandbox needs. -/
structure Namespace.Furnished (ns : Namespace) (id : SlotId) : Prop where
  loopback : ∃ link, ns.links[loopback]? = some link ∧ link.up = true
  vpeer : ns.links[id.vpeerName]? = some ⟨true, [id.vpeerCidr]⟩
  tap : ns.links[id.tapName]? = some ⟨true, [id.tapCidr]⟩
  route : id.defaultRoute ∈ ns.routes
  rules : ∀ rule ∈ id.natRules, rule ∈ ns.rules

/-- The host reaches a slot, and lets it reach outside. -/
structure Namespace.Reaches (host : Namespace) (id : SlotId) (egress : String) : Prop where
  veth : host.links[id.vethName]? = some ⟨true, [id.vethCidr]⟩
  route : id.hostRoute ∈ host.routes
  rules : ∀ rule ∈ id.hostRules egress, rule ∈ host.rules

/-- The complete network of a slot stands. -/
def World.Connected (world : World) (id : SlotId) (egress : String) : Prop :=
  (∃ ns, world.namespaces[id.namespaceName]? = some ns ∧ ns.Furnished id) ∧
    ∃ host, world.namespaces[hostNamespace]? = some host ∧ host.Reaches id egress

/-- Every slot has its devices where they belong. -/
def World.Orderly (world : World) : Prop := ∀ id, world.Tidy id

namespace World

variable {world after : World} {id other : SlotId} {egress : String}

theorem Connected.mem (h : world.Connected id egress) : id.namespaceName ∈ world.namespaces := by
  obtain ⟨⟨ns, hns, -⟩, -⟩ := h
  exact Std.ExtTreeMap.mem_iff_isSome_getElem?.mpr (by simp [hns])

/-- Apart from a slot, the namespaces are the same. -/
theorem namespaces_of_without (hsame : after.without id egress = world.without id egress)
    {name : String} (hname : name ≠ id.namespaceName) :
    after.namespaces[name]?.map (·.without id egress) =
      world.namespaces[name]?.map (·.without id egress) := by
  have hnamespaces := congrFun (congrArg Surroundings.namespaces hsame) name
  simpa only [without, if_neg hname] using hnamespaces

theorem mem_of_without {name : String} (hsame : after.without id egress = world.without id egress)
    (hname : name ≠ id.namespaceName) (hmem : name ∈ world.namespaces) : name ∈ after.namespaces := by
  have hnamespaces := congrArg Option.isSome (namespaces_of_without hsame hname)
  rw [Option.isSome_map, Option.isSome_map] at hnamespaces
  rw [Std.ExtTreeMap.mem_iff_isSome_getElem?] at hmem ⊢
  exact hnamespaces.trans hmem

theorem peers_of_without (hsame : after.without id egress = world.without id egress)
    {link : String} (hveth : link ≠ id.vethName) (hvpeer : link ≠ id.vpeerName) :
    after.peers[link]? = world.peers[link]? := by
  have hpeers := congrFun (congrArg Surroundings.peers hsame) link
  simpa [without, hveth, hvpeer] using hpeers

theorem links_of_without {ns ns' : Namespace} (hsame : ns'.without id egress = ns.without id egress)
    {link : String} (hveth : link ≠ id.vethName) (hvpeer : link ≠ id.vpeerName) :
    ns'.links[link]? = ns.links[link]? := by
  have hlinks := congrArg (fun ns => ns.links[link]?) hsame
  simpa [Namespace.without, Std.ExtTreeMap.getElem?_erase, hveth.symm, hvpeer.symm] using hlinks

/-- Where two machines agree but for one slot, they have the same devices, other than those of the slot's cable
    and those in its namespace. -/
theorem hasLink_of_without (hsame : after.without id egress = world.without id egress)
    {name link : String} (hname : name ≠ id.namespaceName) (hveth : link ≠ id.vethName)
    (hvpeer : link ≠ id.vpeerName) : after.HasLink name link ↔ world.HasLink name link := by
  have hnamespaces := namespaces_of_without hsame hname
  have hone {first second : World} {ns : Namespace}
      (hsame : second.namespaces[name]?.map (·.without id egress) =
        first.namespaces[name]?.map (·.without id egress))
      (hns : first.namespaces[name]? = some ns) (hmem : link ∈ ns.links) :
      second.HasLink name link := by
    rw [hns, Option.map_some] at hsame
    obtain ⟨ns', hns', hwithout⟩ := Option.map_eq_some_iff.mp hsame
    refine ⟨ns', hns', Std.ExtTreeMap.mem_iff_isSome_getElem?.mpr ?_⟩
    rw [links_of_without hwithout hveth hvpeer]
    exact Std.ExtTreeMap.mem_iff_isSome_getElem?.mp hmem
  constructor
  · rintro ⟨ns, hns, hmem⟩
    exact hone hnamespaces.symm hns hmem
  · rintro ⟨ns, hns, hmem⟩
    exact hone hnamespaces hns hmem

/-- What is done for one slot leaves the devices of the others where they are. -/
theorem Tidy.of_without (h : world.Tidy other) (hid : after.Tidy id) (hother : other ≠ id)
    (hsame : after.without id egress = world.without id egress) : after.Tidy other := by
  have hends : after.peers[other.vethName]? = world.peers[other.vethName]? ∧
      after.peers[other.vpeerName]? = world.peers[other.vpeerName]? :=
    ⟨peers_of_without hsame (by simpa using hother) (by simp),
      peers_of_without hsame (by simp) (by simpa using hother)⟩
  have hplace : other.namespaceName ≠ id.namespaceName := by simpa using hother
  constructor
  · constructor
    · rw [hends.1, hends.2]
      exact h.ends
    · rw [peers_of_without hsame (by simp) (by simp), peers_of_without hsame (by simp) (by simp)]
      exact h.loose
  · intro link hlink
    by_cases hveth : link = id.vethName
    · rcases hid.veth _ (hveth ▸ hlink) with hhost | hown
      · simp at hhost
      · exact (hplace hown).elim
    · by_cases hvpeer : link = id.vpeerName
      · exact (hplace (hid.vpeer _ (hvpeer ▸ hlink))).elim
      · exact h.inside link ((hasLink_of_without hsame hplace hveth hvpeer).mp hlink)
  · intro name hlink
    by_cases hname : name = id.namespaceName
    · have hforeign := hid.inside _ (hname ▸ hlink)
      simp [hother] at hforeign
    · exact h.vpeer name ((hasLink_of_without hsame hname (by simp) (by simpa using hother)).mp hlink)
  · intro name hlink
    by_cases hname : name = id.namespaceName
    · have hforeign := hid.inside _ (hname ▸ hlink)
      simp [hother] at hforeign
    · exact h.veth name ((hasLink_of_without hsame hname (by simpa using hother) (by simp)).mp hlink)
  · intro hsome
    rw [hasLink_of_without hsame (by simp) (by simpa using hother) (by simp),
      hasLink_of_without hsame hplace (by simpa using hother) (by simp)]
    exact h.anchored (hends.1 ▸ hsome)

/-- A fresh machine has nothing but the loopback device and the outside interface of the host. -/
theorem fresh_hasLink {name link : String} (h : World.fresh.HasLink name link) :
    name = hostNamespace ∧ (link = loopback ∨ link = outsideInterface) := by
  obtain ⟨ns, hns, hmem⟩ := h
  simp only [fresh, Std.ExtTreeMap.getElem?_insert, Std.LawfulEqCmp.compare_eq_iff_eq] at hns
  split at hns
  · rename_i hname
    obtain rfl := Option.some.inj hns
    have hlink : outsideInterface = link ∨ "lo" = link := by
      simpa [freshHost, Namespace.bare, Std.ExtTreeMap.mem_insert] using hmem
    exact ⟨hname.symm, hlink.elim (fun hout => .inr hout.symm) fun hlo => .inl hlo.symm⟩
  · simp at hns

theorem links_ne_outside (id : SlotId) : id.vethName ≠ outsideInterface ∧
    id.vpeerName ≠ outsideInterface ∧ id.tapName ≠ outsideInterface := by
  refine ⟨?_, ?_, ?_⟩ <;>
    simp [← String.toList_inj, SlotId.vethName, SlotId.vpeerName, SlotId.tapName, outsideInterface,
      toString]

/-- On a fresh machine all devices are in order, for there is none of any slot. -/
theorem fresh_orderly : World.fresh.Orderly := by
  intro id
  have hnone (link : String) : World.fresh.peers[link]? = none := by simp [fresh]
  refine ⟨⟨.inl ⟨hnone _, hnone _⟩, hnone _, hnone _⟩, fun link hlink => ?_, fun name hlink => ?_,
    fun name hlink => ?_, fun hsome => ?_⟩
  · obtain ⟨hname, -⟩ := fresh_hasLink hlink
    simp at hname
  · obtain ⟨-, hlo | hout⟩ := fresh_hasLink hlink
    · simp at hlo
    · exact ((links_ne_outside id).2.1 hout).elim
  · exact .inl (fresh_hasLink hlink).1
  · rw [hnone] at hsome
    cases hsome

theorem Orderly.change (h : world.Orderly) (hid : after.Tidy id)
    (hsame : after.without id egress = world.without id egress) : after.Orderly := by
  intro other
  by_cases hother : other = id
  · exact hother ▸ hid
  · exact (h other).of_without hid hother hsame

/-- A rule that is not one of the slot's own is there after a job for the slot if it was there before. -/
theorem mem_rules_of_without {ns ns' : Namespace}
    (hsame : ns'.without id egress = ns.without id egress) {rule : Rule}
    (hrule : rule ∉ id.hostRules egress) (hmem : rule ∈ ns.rules) : rule ∈ ns'.rules := by
  have hrules : ns'.rules.filter (· ∉ id.hostRules egress) = ns.rules.filter (· ∉ id.hostRules egress) :=
    congrArg Namespace.rules hsame
  have hleft : rule ∈ ns'.rules.filter (· ∉ id.hostRules egress) := by
    rw [hrules]
    exact List.mem_filter.mpr ⟨hmem, by simpa using hrule⟩
  exact (List.mem_filter.mp hleft).1

/-- A route that is not the slot's own is there after a job for the slot if it was there before. -/
theorem mem_routes_of_without {ns ns' : Namespace}
    (hsame : ns'.without id egress = ns.without id egress) {route : Route}
    (hroute : route ≠ id.hostRoute) (hmem : route ∈ ns.routes) : route ∈ ns'.routes := by
  have hroutes : ns'.routes.filter (· ≠ id.hostRoute) = ns.routes.filter (· ≠ id.hostRoute) :=
    congrArg Namespace.routes hsame
  have hleft : route ∈ ns'.routes.filter (· ≠ id.hostRoute) := by
    rw [hroutes]
    exact List.mem_filter.mpr ⟨hmem, by simpa using hroute⟩
  exact (List.mem_filter.mp hleft).1

/-- What is done for one slot leaves the others connected. -/
theorem Connected.of_without (h : world.Connected other egress) (hother : other ≠ id)
    (hsame : after.without id egress = world.without id egress) : after.Connected other egress := by
  obtain ⟨⟨ns, hns, hfurnished⟩, host, hhost, hreaches⟩ := h
  have hinside := namespaces_of_without hsame (by simpa using hother : other.namespaceName ≠ _)
  have houtside := namespaces_of_without hsame (by simp : hostNamespace ≠ _)
  rw [hns, Option.map_some] at hinside
  rw [hhost, Option.map_some] at houtside
  obtain ⟨ns', hns', hinside⟩ := Option.map_eq_some_iff.mp hinside
  obtain ⟨host', hhost', houtside⟩ := Option.map_eq_some_iff.mp houtside
  refine ⟨⟨ns', hns', ?_⟩, host', hhost', ?_⟩
  · constructor
    · rw [links_of_without hinside (by simp) (by simp)]
      exact hfurnished.loopback
    · rw [links_of_without hinside (by simp) (by simpa using hother)]
      exact hfurnished.vpeer
    · rw [links_of_without hinside (by simp) (by simp)]
      exact hfurnished.tap
    · exact mem_routes_of_without hinside (by simp) hfurnished.route
    · intro rule hrule
      exact mem_rules_of_without hinside (SlotId.natRules_ne_hostRules hrule) (hfurnished.rules rule hrule)
  · constructor
    · rw [links_of_without houtside (by simpa using hother) (by simp)]
      exact hreaches.veth
    · exact mem_routes_of_without houtside (by simpa using hother) hreaches.route
    · intro rule hrule
      exact mem_rules_of_without houtside (fun hown => hother (SlotId.hostRules_apart hrule hown))
        (hreaches.rules rule hrule)

/-- A change inside the slot's namespace that leaves devices, routes and the exchange of addresses. -/
theorem Connected.edit_inside {change : Namespace → Except NetworkError Namespace}
    (h : world.Connected id egress) (hcurrent : world.current = id.namespaceName)
    (hchange : ∀ ns ns', change ns = .ok ns' → ns'.links = ns.links ∧ ns'.routes = ns.routes ∧
      ∀ rule ∈ id.natRules, rule ∈ ns.rules → rule ∈ ns'.rules)
    (hanswer : world.edit change = (.ok (), after)) : after.Connected id egress := by
  obtain ⟨ns, ns', hns, hok, rfl⟩ := edit_ok hanswer
  obtain ⟨⟨inner, hinner, hfurnished⟩, host, hhost, hreaches⟩ := h
  rw [hcurrent] at hns ⊢
  obtain rfl : ns = inner := Option.some.inj (hns.symm.trans hinner)
  obtain ⟨hlinks, hroutes, hrules⟩ := hchange ns ns' hok
  refine ⟨⟨ns', by simp [setNamespace], ?_⟩, host, ?_, hreaches⟩
  · refine ⟨?_, ?_, ?_, ?_, fun rule hrule => hrules rule hrule (hfurnished.rules rule hrule)⟩
    · rw [hlinks]
      exact hfurnished.loopback
    · rw [hlinks]
      exact hfurnished.vpeer
    · rw [hlinks]
      exact hfurnished.tap
    · rw [hroutes]
      exact hfurnished.route
  · simp only [setNamespace, Std.ExtTreeMap.getElem?_insert, Std.LawfulEqCmp.compare_eq_iff_eq]
    rw [if_neg SlotId.namespaceName_ne_host]
    exact hhost

end World
end SlotPool
