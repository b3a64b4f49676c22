import SlotPool.Proofs.World.Screen
/-!
What belongs to one slot on a machine and what does not. Calls for a slot change only what belongs to
it, wherever the thread is, and they keep its cable in order.
-/

namespace SlotPool

/-- A namespace without what belongs to a slot there. -/
def Namespace.without (ns : Namespace) (id : SlotId) (egress : String) : Namespace where
  links := (ns.links.erase id.vethName).erase id.vpeerName
  routes := ns.routes.filter (· ≠ id.hostRoute)
  rules := ns.rules.filter (· ∉ id.hostRules egress)
  chains := ns.chains

/-- What is left of a machine without a slot: the other namespaces and the other cables. -/
structure Surroundings where
  namespaces : String → Option Namespace
  peers : String → Option String

namespace World

/-- A machine without what belongs to a slot. -/
def without (world : World) (id : SlotId) (egress : String) : Surroundings where
  namespaces name :=
    if name = id.namespaceName then none else world.namespaces[name]?.map (·.without id egress)
  peers link :=
    if link = id.vethName ∨ link = id.vpeerName then none else world.peers[link]?

/-- A link of the given name is in a namespace. -/
def HasLink (world : World) (name link : String) : Prop :=
  ∃ ns, world.namespaces[name]? = some ns ∧ link ∈ ns.links

/-- The cable of a slot has two ends or none, and its other devices are no ends of a cable. -/
structure Paired (world : World) (id : SlotId) : Prop where
  ends : (world.peers[id.vethName]? = none ∧ world.peers[id.vpeerName]? = none) ∨
    (world.peers[id.vethName]? = some id.vpeerName ∧ world.peers[id.vpeerName]? = some id.vethName)
  loose : world.peers[loopback]? = none ∧ world.peers[id.tapName]? = none

/-- The devices of a slot are where they belong: inside there are no others, the inner end of the cable
    is nowhere else, and the outer end is inside or on the host. -/
structure Tidy (world : World) (id : SlotId) : Prop extends Paired world id where
  inside : ∀ link, world.HasLink id.namespaceName link →
    link = loopback ∨ link = id.vethName ∨ link = id.vpeerName ∨ link = id.tapName
  vpeer : ∀ name, world.HasLink name id.vpeerName → name = id.namespaceName
  veth : ∀ name, world.HasLink name id.vethName → name = hostNamespace ∨ name = id.namespaceName
  /-- a cable that there is has an outer end -/
  anchored : world.peers[id.vethName]? = some id.vpeerName →
    world.HasLink hostNamespace id.vethName ∨ world.HasLink id.namespaceName id.vethName

variable {world after : World} {id : SlotId} {egress : String}

/-- Changing one namespace changes which devices there are in it, and in no other. -/
theorem hasLink_setNamespace {name changed link : String} {ns : Namespace} :
    (world.setNamespace changed ns).HasLink name link ↔
      if changed = name then link ∈ ns.links else world.HasLink name link := by
  simp only [HasLink, setNamespace, Std.ExtTreeMap.getElem?_insert,
    Std.LawfulEqCmp.compare_eq_iff_eq]
  split
  · simp
  · rfl

theorem hasLink_current {ns : Namespace} {link : String}
    (hns : world.namespaces[world.current]? = some ns) :
    world.HasLink world.current link ↔ link ∈ ns.links := by
  simp [HasLink, hns]

/-- Order among a slot's devices is a matter of which devices there are and which are joined, and of nothing
    else. -/
theorem Tidy.congr (h : world.Tidy id)
    (hlinks : ∀ name link, after.HasLink name link ↔ world.HasLink name link)
    (hpeers : after.peers = world.peers) : after.Tidy id where
  ends := hpeers ▸ h.ends
  loose := hpeers ▸ h.loose
  inside link hlink := h.inside link ((hlinks _ _).mp hlink)
  vpeer name hlink := h.vpeer name ((hlinks _ _).mp hlink)
  veth name hlink := h.veth name ((hlinks _ _).mp hlink)
  anchored hends := by
    rw [hlinks, hlinks]
    exact h.anchored (hpeers ▸ hends)

/-- A change of a namespace that is the slot's own, or in which nothing else is changed. -/
theorem without_setNamespace {name : String} {changed : Namespace}
    (hchanged : name ≠ id.namespaceName → ∃ ns, world.namespaces[name]? = some ns ∧
      changed.without id egress = ns.without id egress) :
    (world.setNamespace name changed).without id egress = world.without id egress := by
  simp only [without, setNamespace, Surroundings.mk.injEq, and_true]
  funext other
  split
  · rfl
  · rename_i hother
    simp only [Std.ExtTreeMap.getElem?_insert, Std.LawfulEqCmp.compare_eq_iff_eq]
    split
    · rename_i hname
      subst hname
      obtain ⟨ns, hns, hsame⟩ := hchanged hother
      rw [hns, Option.map_some, Option.map_some, hsame]
    · rfl

/-- A change that keeps the names of all links. -/
theorem edit_apart {change : Namespace → Except NetworkError Namespace}
    (hlinks : ∀ ns ns', change ns = .ok ns' → ∀ link, link ∈ ns'.links ↔ link ∈ ns.links)
    (hwithout : world.current ≠ id.namespaceName →
      ∀ ns ns', change ns = .ok ns' → ns'.without id egress = ns.without id egress)
    (h : world.Tidy id) (hanswer : world.edit change = (.ok (), after)) :
    after.Tidy id ∧ after.without id egress = world.without id egress := by
  obtain ⟨ns, ns', hns, hchange, rfl⟩ := edit_ok hanswer
  constructor
  · refine h.congr (fun name link => ?_) rfl
    rw [hasLink_setNamespace]
    split
    · rename_i hname
      rw [hlinks ns ns' hchange, ← hname, hasLink_current hns]
    · rfl
  · exact without_setNamespace fun hother => ⟨ns, hns, hwithout hother ns ns' hchange⟩

/-- Setting a device up changes the device and not which devices there are. -/
theorem mem_setLinkUp {name : String} {ns ns' : Namespace} (h : setLinkUp name ns = .ok ns')
    (link : String) : link ∈ ns'.links ↔ link ∈ ns.links := by
  unfold setLinkUp at h
  split at h
  · cases h
  · rename_i found hfound
    obtain rfl := by simpa using h
    have hmem : name ∈ ns.links := Std.ExtTreeMap.mem_iff_isSome_getElem?.mpr (by simp [hfound])
    simp only [Std.ExtTreeMap.mem_insert, Std.LawfulEqCmp.compare_eq_iff_eq]
    exact ⟨fun hlink => hlink.elim (fun heq => heq ▸ hmem) fun hlink => hlink, .inr⟩

/-- An address given to a device does not change which devices there are either. -/
theorem mem_addAddress {name : String} {address : Cidr} {ns ns' : Namespace}
    (h : addAddress name address ns = .ok ns') (link : String) :
    link ∈ ns'.links ↔ link ∈ ns.links := by
  unfold addAddress at h
  split at h
  · cases h
  · rename_i found hfound
    split at h
    · cases h
    · obtain rfl := by simpa using h
      have hmem : name ∈ ns.links := Std.ExtTreeMap.mem_iff_isSome_getElem?.mpr (by simp [hfound])
      simp only [Std.ExtTreeMap.mem_insert, Std.LawfulEqCmp.compare_eq_iff_eq]
      exact ⟨fun hlink => hlink.elim (fun heq => heq ▸ hmem) fun hlink => hlink, .inr⟩

end World

namespace Namespace

variable {ns ns' : Namespace} {id : SlotId} {egress : String}

/-- Only the ends of the slot's cable are changed. -/
theorem without_links {links : Named Link}
    (hlinks : ∀ name, name ≠ id.vethName → name ≠ id.vpeerName → links[name]? = ns.links[name]?) :
    { ns with links }.without id egress = ns.without id egress := by
  simp only [without, Namespace.mk.injEq, and_true]
  refine Std.ExtTreeMap.ext_getElem? fun name => ?_
  simp only [Std.ExtTreeMap.getElem?_erase, Std.LawfulEqCmp.compare_eq_iff_eq]
  split
  · rfl
  · rename_i hvpeer
    split
    · rfl
    · rename_i hveth
      exact hlinks name (Ne.symm hveth) (Ne.symm hvpeer)

/-- The outer end of a slot's cable belongs to the slot, so setting it up changes nothing that belongs to
    others. -/
theorem without_setLinkUp (h : World.setLinkUp id.vethName ns = .ok ns') :
    ns'.without id egress = ns.without id egress := by
  unfold World.setLinkUp at h
  split at h
  · cases h
  · obtain rfl := by simpa using h
    refine without_links fun name hveth _ => ?_
    rw [Std.ExtTreeMap.getElem?_insert, if_neg (by simpa using hveth.symm)]

/-- Nor does giving it an address. -/
theorem without_addAddress {address : Cidr} (h : World.addAddress id.vethName address ns = .ok ns') :
    ns'.without id egress = ns.without id egress := by
  unfold World.addAddress at h
  split at h
  · cases h
  · split at h
    · cases h
    · obtain rfl := by simpa using h
      refine without_links fun name hveth _ => ?_
      rw [Std.ExtTreeMap.getElem?_insert, if_neg (by simpa using hveth.symm)]

theorem without_addRoute (h : World.addRoute id.hostRoute ns = .ok ns') :
    ns'.without id egress = ns.without id egress := by
  obtain ⟨-, rfl⟩ := World.addRoute_ok h
  simp [without, List.filter_append]

theorem without_deleteRoute (h : World.deleteRoute id.hostRoute ns = .ok ns') :
    ns'.without id egress = ns.without id egress := by
  obtain ⟨-, rfl⟩ := World.deleteRoute_ok h
  simp only [without, Namespace.mk.injEq, ← List.erase_filter, true_and, and_true]
  exact List.erase_of_not_mem (by simp)

theorem without_appendRule {rule : Rule} (hrule : rule ∈ id.hostRules egress)
    (h : World.appendRule rule ns = .ok ns') : ns'.without id egress = ns.without id egress := by
  obtain rfl := World.appendRule_ok h
  simp [without, List.filter_append, hrule]

theorem without_deleteRule {rule : Rule} (hrule : rule ∈ id.hostRules egress)
    (h : World.deleteRule rule ns = .ok ns') : ns'.without id egress = ns.without id egress := by
  obtain ⟨-, rfl⟩ := World.deleteRule_ok h
  simp only [without, Namespace.mk.injEq, ← List.erase_filter, true_and, and_true]
  exact List.erase_of_not_mem (by simp [hrule])

end Namespace

namespace World

variable {world after : World} {id : SlotId} {egress : String}

/-- The other end of a cable end of the slot goes, if there is one. -/
theorem dropPeer_cases {link : String} (h : world.Paired id)
    (hlink : link = loopback ∨ link = id.vethName ∨ link = id.vpeerName ∨ link = id.tapName) :
    (world.dropPeer link = world ∧ (world.peers[id.vethName]? = some id.vpeerName →
        link ≠ id.vethName ∧ link ≠ id.vpeerName)) ∨
      ∃ peer, (link = id.vethName ∧ peer = id.vpeerName ∨ link = id.vpeerName ∧ peer = id.vethName) ∧
        world.dropPeer link = { world with
          peers := (world.peers.erase link).erase peer
          namespaces := world.namespaces.map fun _ ns => ns.dropLink peer } := by
  have hnone (hpeer : world.peers[link]? = none) : world.dropPeer link = world := by
    simp only [dropPeer, hpeer]
  rcases hlink with rfl | rfl | rfl | rfl
  · exact .inl ⟨hnone h.loose.1, fun _ => ⟨by simp, by simp⟩⟩
  · rcases h.ends with ⟨hveth, -⟩ | ⟨hveth, -⟩
    · exact .inl ⟨hnone hveth, fun hsome => by simp [hveth] at hsome⟩
    · exact .inr ⟨_, .inl ⟨rfl, rfl⟩, by simp only [dropPeer, hveth]⟩
  · rcases h.ends with ⟨hveth, hvpeer⟩ | ⟨-, hvpeer⟩
    · exact .inl ⟨hnone hvpeer, fun hsome => by simp [hveth] at hsome⟩
    · exact .inr ⟨_, .inr ⟨rfl, rfl⟩, by simp only [dropPeer, hvpeer]⟩
  · exact .inl ⟨hnone h.loose.2, fun _ => ⟨by simp, by simp⟩⟩

/-- What becomes of a world when the other ends of the slot's links go. -/
structure Unplugged (id : SlotId) (egress : String) (links : List String) (before after : World) :
    Prop where
  paired : after.Paired id
  without : after.without id egress = before.without id egress
  current : after.current = before.current
  fewer : ∀ name link, after.HasLink name link → before.HasLink name link
  /-- a cable that is still there was not touched -/
  kept : after.peers[id.vethName]? = some id.vpeerName →
    after = before ∧ id.vethName ∉ links ∧ id.vpeerName ∉ links

/-- A device of the slot goes, and with it at most the other end of the slot's own cable. That the cable is
    paired is what makes sure of it: else the other end might be a device of another slot. -/
theorem dropPeer_unplugged {link : String} (h : world.Paired id)
    (hlink : link = loopback ∨ link = id.vethName ∨ link = id.vpeerName ∨ link = id.tapName) :
    Unplugged id egress [link] world (world.dropPeer link) := by
  rcases dropPeer_cases h hlink with ⟨hsame, hkept⟩ | ⟨peer, hends, hdropped⟩
  · rw [hsame]
    refine ⟨h, rfl, rfl, fun _ _ hlink => hlink, fun hends => ⟨rfl, ?_⟩⟩
    obtain ⟨hveth, hvpeer⟩ := hkept hends
    exact ⟨by simpa using hveth.symm, by simpa using hvpeer.symm⟩
  · have hpeer : peer = id.vethName ∨ peer = id.vpeerName := by
      rcases hends with ⟨-, rfl⟩ | ⟨-, rfl⟩
      · exact .inr rfl
      · exact .inl rfl
    have hgone : (world.dropPeer link).peers[id.vethName]? = none ∧
        (world.dropPeer link).peers[id.vpeerName]? = none := by
      rw [hdropped]
      rcases hends with ⟨rfl, rfl⟩ | ⟨rfl, rfl⟩ <;> simp
    have hothers (other : String) (hveth : other ≠ id.vethName) (hvpeer : other ≠ id.vpeerName) :
        (world.dropPeer link).peers[other]? = world.peers[other]? := by
      rw [hdropped]
      rcases hends with ⟨rfl, rfl⟩ | ⟨rfl, rfl⟩ <;>
        simp [Std.ExtTreeMap.getElem?_erase, hveth.symm, hvpeer.symm]
    constructor
    · refine ⟨.inl hgone, ?_⟩
      rw [hothers _ (by simp) (by simp), hothers _ (by simp) (by simp)]
      exact h.loose
    · have hdrop (ns : Namespace) : (ns.dropLink peer).without id egress = ns.without id egress := by
        refine Namespace.without_links fun name hveth hvpeer => ?_
        rw [Std.ExtTreeMap.getElem?_erase, if_neg]
        rcases hpeer with rfl | rfl
        · simpa using hveth.symm
        · simpa using hvpeer.symm
      simp only [World.without, Surroundings.mk.injEq]
      constructor
      · funext name
        rw [hdropped]
        simp only [Std.ExtTreeMap.getElem?_map, Option.map_map, Function.comp_def, hdrop]
      · funext other
        split
        · rfl
        · rename_i hown
          exact hothers other (fun heq => hown (.inl heq)) fun heq => hown (.inr heq)
    · rw [hdropped]
    · rintro name other ⟨ns, hns, hmem⟩
      rw [hdropped] at hns
      simp only [Std.ExtTreeMap.getElem?_map, Option.map_eq_some_iff] at hns
      obtain ⟨old, hold, rfl⟩ := hns
      exact ⟨old, hold, Std.ExtTreeMap.mem_of_mem_erase hmem⟩
    · intro hsome
      rw [hgone.1] at hsome
      cases hsome

/-- The same for several devices one after another, as when a namespace is deleted with all that is in it. -/
theorem dropPeers_unplugged {links : List String} (h : world.Paired id)
    (hlinks : ∀ link ∈ links,
      link = loopback ∨ link = id.vethName ∨ link = id.vpeerName ∨ link = id.tapName) :
    Unplugged id egress links world (links.foldl dropPeer world) := by
  induction links generalizing world with
  | nil => exact ⟨h, rfl, rfl, fun _ _ hlink => hlink, fun _ => ⟨rfl, by simp, by simp⟩⟩
  | cons link links ih =>
    have hfirst : Unplugged id egress [link] world (world.dropPeer link) :=
      dropPeer_unplugged h (hlinks link (List.mem_cons_self ..))
    have hrest := ih hfirst.paired fun other hmem => hlinks other (List.mem_cons_of_mem _ hmem)
    refine ⟨hrest.paired, hrest.without.trans hfirst.without, hrest.current.trans hfirst.current,
      fun name other hlink => hfirst.fewer name other (hrest.fewer name other hlink), fun hends => ?_⟩
    obtain ⟨hsame, hveth, hvpeer⟩ := hrest.kept hends
    have hends' : (world.dropPeer link).peers[id.vethName]? = some id.vpeerName := hsame ▸ hends
    obtain ⟨hsame', hveth', hvpeer'⟩ := hfirst.kept hends'
    refine ⟨hsame.trans hsame', ?_, ?_⟩
    · simpa using ⟨by simpa using hveth', hveth⟩
    · simpa using ⟨by simpa using hvpeer', hvpeer⟩

/-- Unplugging the cable from where the thread is. -/
theorem deleteLink_apart (h : world.Tidy id) (hanswer : world.deleteLink id.vethName = (.ok (), after)) :
    after.Tidy id ∧ after.without id egress = world.without id egress := by
  obtain ⟨ns, hns, -, rfl⟩ := deleteLink_ok hanswer
  have hset : (world.setNamespace world.current (ns.dropLink id.vethName)).Paired id := ⟨h.ends, h.loose⟩
  have hunplugged : Unplugged id egress [id.vethName] _ _ :=
    dropPeer_unplugged hset (.inr (.inl rfl))
  have hfewer (name link : String) (hlink : World.HasLink
      ((world.setNamespace world.current (ns.dropLink id.vethName)).dropPeer id.vethName) name link) :
      world.HasLink name link := by
    have hleft := hasLink_setNamespace.mp (hunplugged.fewer name link hlink)
    split at hleft
    · rename_i hname
      exact ⟨ns, hname ▸ hns, Std.ExtTreeMap.mem_of_mem_erase hleft⟩
    · exact hleft
  constructor
  · refine ⟨hunplugged.paired, fun link hlink => h.inside link (hfewer _ _ hlink),
      fun name hlink => h.vpeer name (hfewer _ _ hlink),
      fun name hlink => h.veth name (hfewer _ _ hlink), fun hends => ?_⟩
    exact ((hunplugged.kept hends).2.1 (List.mem_singleton_self _)).elim
  · refine hunplugged.without.trans (without_setNamespace fun _ => ⟨ns, hns, ?_⟩)
    refine Namespace.without_links fun name hveth _ => ?_
    rw [Std.ExtTreeMap.getElem?_erase, if_neg (by simpa using hveth.symm)]

/-- The slot's namespace goes with all that is in it. -/
theorem deleteNamed_apart (h : world.Tidy id)
    (hanswer : world.deleteNamed id.namespaceName = (.ok (), after)) :
    after.Tidy id ∧ after.without id egress = world.without id egress := by
  obtain ⟨-, ns, hns, rfl⟩ := deleteNamed_ok hanswer
  have hlinks (link : String) (hlink : link ∈ ns.links.keys) :
      link = loopback ∨ link = id.vethName ∨ link = id.vpeerName ∨ link = id.tapName :=
    h.inside link ⟨ns, hns, Std.ExtTreeMap.mem_keys.mp hlink⟩
  have herased : World.Paired { world with namespaces := world.namespaces.erase id.namespaceName } id :=
    ⟨h.ends, h.loose⟩
  have hunplugged : Unplugged id egress ns.links.keys _ _ := dropPeers_unplugged herased hlinks
  have hgone (name link : String)
      (hlink : World.HasLink { world with namespaces := world.namespaces.erase id.namespaceName } name link) :
      name ≠ id.namespaceName ∧ world.HasLink name link := by
    obtain ⟨other, hother, hmem⟩ := hlink
    simp only [Std.ExtTreeMap.getElem?_erase, Std.LawfulEqCmp.compare_eq_iff_eq] at hother
    split at hother
    · cases hother
    · rename_i hname
      exact ⟨Ne.symm hname, other, hother, hmem⟩
  constructor
  · refine ⟨hunplugged.paired, fun link hlink => ?_, fun name hlink => ?_, fun name hlink => ?_,
      fun hends => ?_⟩
    · exact ((hgone _ _ (hunplugged.fewer _ _ hlink)).1 rfl).elim
    · exact h.vpeer name (hgone _ _ (hunplugged.fewer _ _ hlink)).2
    · exact h.veth name (hgone _ _ (hunplugged.fewer _ _ hlink)).2
    · obtain ⟨hsame, hveth, -⟩ := hunplugged.kept hends
      rw [hsame] at hends ⊢
      rcases h.anchored hends with ⟨host, hhost, hmem⟩ | ⟨inner, hinner, hmem⟩
      · refine .inl ⟨host, ?_, hmem⟩
        rw [Std.ExtTreeMap.getElem?_erase, if_neg (by simp)]
        exact hhost
      · obtain rfl : ns = inner := Option.some.inj (hns.symm.trans hinner)
        exact (hveth (Std.ExtTreeMap.mem_keys.mpr hmem)).elim
  · refine hunplugged.without.trans ?_
    simp only [without, Surroundings.mk.injEq, and_true]
    funext name
    split
    · rfl
    · rename_i hname
      rw [Std.ExtTreeMap.getElem?_erase, if_neg (by simpa using Ne.symm hname)]

/-- The slot's namespace is made anew. -/
theorem createNamed_apart {handle : Handle} (h : world.Tidy id)
    (hanswer : world.createNamed id.namespaceName = (.ok handle, after)) :
    after.Tidy id ∧ after.without id egress = world.without id egress := by
  obtain ⟨habsent, -, rfl⟩ := createNamed_ok hanswer
  have hlink (name link : String) (hlink : World.HasLink
      { world.setNamespace id.namespaceName .bare with current := id.namespaceName } name link) :
      (name = id.namespaceName ∧ link = loopback) ∨ world.HasLink name link := by
    have hleft := hasLink_setNamespace.mp hlink
    split at hleft
    · rename_i hname
      refine .inl ⟨hname.symm, ?_⟩
      have hloopback : "lo" = link := by simpa [Namespace.bare, Std.ExtTreeMap.mem_insert] using hleft
      exact hloopback.symm
    · exact .inr hleft
  constructor
  · refine ⟨⟨h.ends, h.loose⟩, fun link hfound => ?_, fun name hfound => ?_, fun name hfound => ?_,
      fun hends => ?_⟩
    · rcases hlink _ _ hfound with ⟨-, rfl⟩ | hold
      · exact .inl rfl
      · exact h.inside link hold
    · rcases hlink _ _ hfound with ⟨hname, -⟩ | hold
      · exact hname
      · exact h.vpeer name hold
    · rcases hlink _ _ hfound with ⟨hname, -⟩ | hold
      · exact .inr hname
      · exact h.veth name hold
    · rcases h.anchored hends with ⟨host, hhost, hmem⟩ | ⟨inner, hinner, -⟩
      · exact .inl (hasLink_setNamespace.mpr (by rw [if_neg (by simp)]; exact ⟨host, hhost, hmem⟩))
      · exact (habsent (Std.ExtTreeMap.mem_iff_isSome_getElem?.mpr (by simp [hinner]))).elim
  · have hset : (world.setNamespace id.namespaceName .bare).without id egress =
        world.without id egress := without_setNamespace fun hname => (hname rfl).elim
    exact hset

section

variable (h : world.Tidy id) (hcurrent : world.current = id.namespaceName)
include h hcurrent

/-- A tap device is made inside. -/
theorem addTap_apart (hanswer : world.edit (addTap id.tapName) = (.ok (), after)) :
    after.Tidy id ∧ after.without id egress = world.without id egress := by
  obtain ⟨ns, ns', hns, hchange, rfl⟩ := edit_ok hanswer
  obtain rfl : ns' = { ns with links := ns.links.insert id.tapName .plain } := by
    unfold addTap at hchange
    split at hchange
    · cases hchange
    · simpa using hchange.symm
  have hlink (name link : String) :
      (world.setNamespace world.current { ns with links := ns.links.insert id.tapName .plain }).HasLink
        name link ↔ (name = id.namespaceName ∧ link = id.tapName) ∨ world.HasLink name link := by
    rw [hasLink_setNamespace]
    split
    · rename_i hname
      rw [← hname, hasLink_current hns]
      simp only [Std.ExtTreeMap.mem_insert, Std.LawfulEqCmp.compare_eq_iff_eq, hcurrent, true_and]
      rw [eq_comm]
    · rename_i hname
      have hother : name ≠ id.namespaceName := fun heq => hname (hcurrent.trans heq.symm)
      simp [hother]
  constructor
  · refine ⟨⟨h.ends, h.loose⟩, fun link hfound => ?_, fun name hfound => ?_, fun name hfound => ?_,
      fun hends => ?_⟩
    · rcases (hlink _ _).mp hfound with ⟨-, rfl⟩ | hold
      · exact .inr (.inr (.inr rfl))
      · exact h.inside link hold
    · rcases (hlink _ _).mp hfound with ⟨hname, -⟩ | hold
      · exact hname
      · exact h.vpeer name hold
    · rcases (hlink _ _).mp hfound with ⟨hname, -⟩ | hold
      · exact .inr hname
      · exact h.veth name hold
    · exact (h.anchored hends).imp (fun hold => (hlink _ _).mpr (.inr hold))
        fun hold => (hlink _ _).mpr (.inr hold)
  · exact without_setNamespace fun hname => (hname hcurrent).elim

/-- A cable is laid inside. -/
theorem layCable_apart (hanswer : world.layCable id.vethName id.vpeerName = (.ok (), after)) :
    after.Tidy id ∧ after.without id egress = world.without id egress := by
  obtain ⟨ns, hns, rfl⟩ := layCable_ok hanswer
  have hset (name link : String) : (world.setNamespace world.current
      { ns with links := (ns.links.insert id.vethName .plain).insert id.vpeerName .plain }).HasLink
        name link ↔ (name = id.namespaceName ∧ (link = id.vethName ∨ link = id.vpeerName)) ∨
          world.HasLink name link := by
    rw [hasLink_setNamespace]
    split
    · rename_i hname
      rw [← hname, hasLink_current hns]
      simp only [Std.ExtTreeMap.mem_insert, Std.LawfulEqCmp.compare_eq_iff_eq, hcurrent]
      grind
    · rename_i hname
      have hother : name ≠ id.namespaceName := fun heq => hname (hcurrent.trans heq.symm)
      simp [hother]
  constructor
  · refine ⟨⟨.inr ?_, ?_⟩, fun link hfound => ?_, fun name hfound => ?_, fun name hfound => ?_,
      fun _ => .inr ((hset _ _).mpr (.inl ⟨rfl, .inl rfl⟩))⟩
    · simp only [Std.ExtTreeMap.getElem?_insert, Std.LawfulEqCmp.compare_eq_iff_eq]
      simp
    · simpa [Std.ExtTreeMap.getElem?_insert] using h.loose
    · rcases (hset _ _).mp hfound with ⟨-, rfl | rfl⟩ | hold
      · exact .inr (.inl rfl)
      · exact .inr (.inr (.inl rfl))
      · exact h.inside link hold
    · rcases (hset _ _).mp hfound with ⟨hname, -⟩ | hold
      · exact hname
      · exact h.vpeer name hold
    · rcases (hset _ _).mp hfound with ⟨hname, -⟩ | hold
      · exact .inr hname
      · exact h.veth name hold
  · have hwithout : (world.setNamespace world.current
        { ns with links := (ns.links.insert id.vethName .plain).insert id.vpeerName .plain }).without
          id egress = world.without id egress :=
      without_setNamespace fun hname => (hname hcurrent).elim
    refine Eq.trans ?_ hwithout
    simp only [without, Surroundings.mk.injEq, true_and]
    funext link
    split
    · rfl
    · rename_i hown
      simp only [setNamespace, Std.ExtTreeMap.getElem?_insert, Std.LawfulEqCmp.compare_eq_iff_eq]
      rw [if_neg fun heq => hown (.inr heq.symm), if_neg fun heq => hown (.inl heq.symm)]

/-- The outer end of the cable goes to the host. -/
theorem moveLink_apart {target : Handle} (htarget : target.label = hostNamespace)
    (hanswer : world.moveLink id.vethName target = (.ok (), after)) :
    after.Tidy id ∧ after.without id egress = world.without id egress := by
  obtain ⟨hmem, ns, hns, hveth, rfl⟩ := moveLink_ok hanswer
  rw [htarget] at hmem ⊢
  obtain ⟨host, hhost⟩ := Option.isSome_iff_exists.mp (Std.ExtTreeMap.mem_iff_isSome_getElem?.mp hmem)
  have hat (name : String) : ((world.namespaces.insert world.current
      (ns.dropLink id.vethName)).modify hostNamespace fun ns =>
        { ns with links := ns.links.insert id.vethName .plain })[name]? =
      if name = hostNamespace then some { host with links := host.links.insert id.vethName .plain }
      else if name = id.namespaceName then some (ns.dropLink id.vethName)
      else world.namespaces[name]? := by
    rw [Std.ExtTreeMap.getElem?_modify]
    simp only [Std.ExtTreeMap.getElem?_insert, Std.LawfulEqCmp.compare_eq_iff_eq, hcurrent]
    grind [SlotId.namespaceName_ne_host]
  have hlink (name link : String) : World.HasLink
      { world with namespaces := (world.namespaces.insert world.current
        (ns.dropLink id.vethName)).modify hostNamespace fun ns =>
          { ns with links := ns.links.insert id.vethName .plain } } name link →
      (name = hostNamespace ∧ link = id.vethName) ∨ world.HasLink name link := by
    rintro ⟨found, hfound, hmem⟩
    simp only [hat] at hfound
    split at hfound
    · rename_i hname
      obtain rfl := Option.some.inj hfound
      rcases Std.ExtTreeMap.mem_insert.mp hmem with heq | hold
      · exact .inl ⟨hname, (Std.LawfulEqCmp.compare_eq_iff_eq.mp heq).symm⟩
      · exact .inr ⟨host, hname ▸ hhost, hold⟩
    · split at hfound
      · rename_i hname
        obtain rfl := Option.some.inj hfound
        exact .inr ⟨ns, (hname.trans hcurrent.symm) ▸ hns, Std.ExtTreeMap.mem_of_mem_erase hmem⟩
      · exact .inr ⟨found, hfound, hmem⟩
  constructor
  · refine ⟨⟨h.ends, h.loose⟩, fun link hfound => ?_, fun name hfound => ?_, fun name hfound => ?_,
      fun _ => .inl ⟨_, (hat _).trans (if_pos rfl), by simp [Std.ExtTreeMap.mem_insert]⟩⟩
    · rcases hlink _ _ hfound with ⟨hname, -⟩ | hold
      · simp at hname
      · exact h.inside link hold
    · rcases hlink _ _ hfound with ⟨-, hname⟩ | hold
      · simp at hname
      · exact h.vpeer name hold
    · rcases hlink _ _ hfound with ⟨hname, -⟩ | hold
      · exact .inl hname
      · exact h.veth name hold
  · simp only [without, Surroundings.mk.injEq, and_true]
    funext name
    split
    · rfl
    · rename_i hname
      simp only [hat, if_neg hname]
      split
      · rename_i hhostName
        rw [hhostName, hhost, Option.map_some, Option.map_some]
        refine congrArg some (Namespace.without_links fun link hveth _ => ?_)
        rw [Std.ExtTreeMap.getElem?_insert, if_neg (by simpa using hveth.symm)]
      · rfl

end

/-- A change inside that leaves the devices alone. -/
theorem edit_inside_apart {change : Namespace → Except NetworkError Namespace}
    (hlinks : ∀ ns ns', change ns = .ok ns' → ns'.links = ns.links) (h : world.Tidy id)
    (hcurrent : world.current = id.namespaceName) (hanswer : world.edit change = (.ok (), after)) :
    after.Tidy id ∧ after.without id egress = world.without id egress :=
  edit_apart (fun ns ns' hchange link => by rw [hlinks ns ns' hchange])
    (fun hother => (hother hcurrent).elim) h hanswer

/-- Rules are no devices: emptying a chain leaves the devices as they are. -/
theorem flushChain_links {table : Table} {chain : String} (ns ns' : Namespace)
    (h : flushChain table chain ns = .ok ns') : ns'.links = ns.links := by
  unfold flushChain at h
  split at h
  · obtain rfl := by simpa using h
    rfl
  · cases h

/-- A new chain leaves the devices as they are. -/
theorem newChain_links {table : Table} {chain : String} (ns ns' : Namespace)
    (h : newChain table chain ns = .ok ns') : ns'.links = ns.links := by
  unfold newChain at h
  split at h
  · cases h
  · obtain rfl := by simpa using h
    rfl

/-- Deleting a chain leaves the devices as they are. -/
theorem deleteChain_links {table : Table} {chain : String} (ns ns' : Namespace)
    (h : deleteChain table chain ns = .ok ns') : ns'.links = ns.links := by
  unfold deleteChain at h
  split at h
  · cases h
  · split at h
    · cases h
    · obtain rfl := by simpa using h
      rfl

theorem appendRule_links {rule : Rule} (ns ns' : Namespace) (h : appendRule rule ns = .ok ns') :
    ns'.links = ns.links := by
  rw [appendRule_ok h]

theorem deleteRule_links {rule : Rule} (ns ns' : Namespace) (h : deleteRule rule ns = .ok ns') :
    ns'.links = ns.links := by
  rw [(deleteRule_ok h).2]

/-- The calls made wherever the thread is change only what belongs to the slot. -/
theorem outer_apart {call : Call} {value : call.Reply} (hcall : Call.Outer id egress call)
    (h : world.Tidy id) (hanswer : world.answer call = (.ok value, after)) :
    after.Tidy id ∧ after.without id egress = world.without id egress := by
  have hroute {change : Namespace → Except NetworkError Namespace}
      (hlinks : ∀ ns ns', change ns = .ok ns' → ns'.links = ns.links)
      (hwithout : ∀ ns ns', change ns = .ok ns' → ns'.without id egress = ns.without id egress)
      (hanswer : world.edit change = (.ok (), after)) :
      after.Tidy id ∧ after.without id egress = world.without id egress :=
    edit_apart (fun ns ns' hchange link => by rw [hlinks ns ns' hchange]) (fun _ => hwithout) h hanswer
  cases hcall with
  | onRecord =>
    obtain ⟨-, rfl⟩ := by simpa [answer] using hanswer
    exact ⟨h, rfl⟩
  | probe =>
    rw [linkExists_ok hanswer]
    exact ⟨h, rfl⟩
  | up =>
    exact edit_apart (fun _ _ => mem_setLinkUp) (fun _ _ _ => Namespace.without_setLinkUp) h hanswer
  | address =>
    exact edit_apart (fun _ _ => mem_addAddress) (fun _ _ _ => Namespace.without_addAddress) h hanswer
  | unplug => exact deleteLink_apart h hanswer
  | route =>
    exact hroute (fun ns ns' hchange => by rw [(addRoute_ok hchange).2])
      (fun _ _ => Namespace.without_addRoute) hanswer
  | unroute =>
    exact hroute (fun ns ns' hchange => by rw [(deleteRoute_ok hchange).2])
      (fun _ _ => Namespace.without_deleteRoute) hanswer
  | rule rule hrule =>
    exact hroute appendRule_links (fun _ _ => Namespace.without_appendRule hrule) hanswer
  | unrule rule hrule =>
    exact hroute deleteRule_links (fun _ _ => Namespace.without_deleteRule hrule) hanswer

/-- So do the calls that furnish the slot's namespace. -/
theorem inner_apart {call : Call} {value : call.Reply}
    (hcall : Call.Inner id (fun target => target.label = hostNamespace) call) (h : world.Tidy id)
    (hcurrent : world.current = id.namespaceName) (hanswer : world.answer call = (.ok value, after)) :
    after.Tidy id ∧ after.without id egress = world.without id egress := by
  have hinside {change : Namespace → Except NetworkError Namespace}
      (hlinks : ∀ ns ns', change ns = .ok ns' → ∀ link, link ∈ ns'.links ↔ link ∈ ns.links)
      (hanswer : world.edit change = (.ok (), after)) :
      after.Tidy id ∧ after.without id egress = world.without id egress :=
    edit_apart hlinks (fun hother => (hother hcurrent).elim) h hanswer
  cases hcall with
  | cable => exact layCable_apart h hcurrent hanswer
  | up link hlink => exact hinside (fun _ _ => mem_setLinkUp) hanswer
  | vpeer => exact hinside (fun _ _ => mem_addAddress) hanswer
  | move origin horigin => exact moveLink_apart h hcurrent horigin hanswer
  | tap => exact addTap_apart h hcurrent hanswer
  | address => exact hinside (fun _ _ => mem_addAddress) hanswer
  | route =>
    exact hinside (fun ns ns' hchange link => by rw [(addRoute_ok hchange).2]) hanswer
  | rule rule hrule => exact edit_inside_apart appendRule_links h hcurrent hanswer

end World
end SlotPool
