import SlotPool.Proofs.World.Holdings
/-!
A machine with nothing on it but what belongs to one slot. The calls made for the slot are answered there
as on the whole machine, and they change there what they change on the whole machine.
-/

namespace SlotPool

/-- The machine with nothing but what belongs to a slot. -/
def World.only (world : World) (id : SlotId) (egress : String) : World where
  current := world.current
  namespaces := (world.holdings id egress).namespaces
  peers := (world.holdings id egress).peers

/-- A call has the same answer and the same effect on what belongs to a slot when nothing else is
    there. -/
def World.Mirrors (world : World) (id : SlotId) (egress : String) (call : Call) : Prop :=
  (world.only id egress).answer call =
    ((world.answer call).1, (world.answer call).2.only id egress)

namespace Namespace

variable {ns : Namespace} {id : SlotId} {egress : String}

theorem only_links {link : String} :
    (ns.only id egress).links[link]? = if link = id.vethName then ns.links[link]? else none := by
  simp only [only, Std.ExtTreeMap.getElem?_filter']
  split <;> cases ns.links[link]? <;> simp_all

/-- A change of the slot's end of the cable. -/
theorem only_put {link : Link} :
    ({ ns with links := ns.links.insert id.vethName link } : Namespace).only id egress =
      { ns.only id egress with links := (ns.only id egress).links.insert id.vethName link } := by
  simp only [only, Namespace.mk.injEq, and_true]
  refine Std.ExtTreeMap.ext_getElem? fun name => ?_
  simp only [Std.ExtTreeMap.getElem?_filter', Std.ExtTreeMap.getElem?_insert,
    Std.LawfulEqCmp.compare_eq_iff_eq]
  grind

theorem only_dropLink {link : String} : (ns.dropLink link).only id egress = (ns.only id egress).dropLink link := by
  simp only [only, dropLink, Namespace.mk.injEq, and_true]
  refine Std.ExtTreeMap.ext_getElem? fun name => ?_
  simp only [Std.ExtTreeMap.getElem?_filter', Std.ExtTreeMap.getElem?_erase,
    Std.LawfulEqCmp.compare_eq_iff_eq]
  grind

theorem mem_only_links : id.vethName ∈ (ns.only id egress).links ↔ id.vethName ∈ ns.links := by
  rw [Std.ExtTreeMap.mem_iff_isSome_getElem?, Std.ExtTreeMap.mem_iff_isSome_getElem?, only_links,
    if_pos rfl]

theorem setLinkUp_only : World.setLinkUp id.vethName (ns.only id egress) =
    (World.setLinkUp id.vethName ns).map (·.only id egress) := by
  simp only [World.setLinkUp, only_links, if_pos]
  cases ns.links[id.vethName]? with
  | none => rfl
  | some link => exact congrArg Except.ok only_put.symm

/-- On the lone machine the outer end of the cable is there just when it is on the whole machine, so giving it
    an address has the same answer and the same effect. -/
theorem addAddress_only {address : Cidr} : World.addAddress id.vethName address (ns.only id egress) =
    (World.addAddress id.vethName address ns).map (·.only id egress) := by
  simp only [World.addAddress, only_links, if_pos]
  cases ns.links[id.vethName]? with
  | none => rfl
  | some link =>
    by_cases haddress : address ∈ link.addresses
    · simp only [haddress, if_true]
      rfl
    · simp only [haddress, if_false]
      exact congrArg Except.ok only_put.symm

/-- The host's route to the slot is refused just when it is there already, and the lone machine knows of it. -/
theorem addRoute_only : World.addRoute id.hostRoute (ns.only id egress) =
    (World.addRoute id.hostRoute ns).map (·.only id egress) := by
  have hmem : id.hostRoute ∈ (ns.only id egress).routes ↔ id.hostRoute ∈ ns.routes := by
    simp [only]
  simp only [World.addRoute, hmem]
  split
  · rfl
  · simp [Except.map, only, List.filter_append]

/-- The first copy of the slot's route is the first that is left on the lone machine. -/
theorem deleteRoute_only : World.deleteRoute id.hostRoute (ns.only id egress) =
    (World.deleteRoute id.hostRoute ns).map (·.only id egress) := by
  have hmem : id.hostRoute ∈ (ns.only id egress).routes ↔ id.hostRoute ∈ ns.routes := by
    simp [only]
  simp only [World.deleteRoute, hmem]
  split
  · simp [Except.map, only, List.erase_filter]
  · rfl

/-- A rule of the slot's own is added at the end on both machines. -/
theorem appendRule_only {rule : Rule} (hrule : rule ∈ id.hostRules egress) :
    World.appendRule rule (ns.only id egress) = (World.appendRule rule ns).map (·.only id egress) := by
  have hchain (ns : Namespace) : ns.hasChain rule.table rule.chain = true := by
    have hbuiltin : (rule.table, rule.chain) ∈ builtinChains := by
      simp only [SlotId.hostRules, List.mem_cons, List.not_mem_nil, or_false] at hrule
      rcases hrule with rfl | rfl | rfl <;> simp [builtinChains]
    simp [hasChain, hbuiltin]
  simp [World.appendRule, hchain, Except.map, only, List.filter_append, hrule]

/-- The first copy of a rule of the slot's own is the first that is left on the lone machine. -/
theorem deleteRule_only {rule : Rule} (hrule : rule ∈ id.hostRules egress) :
    World.deleteRule rule (ns.only id egress) = (World.deleteRule rule ns).map (·.only id egress) := by
  have hmem : rule ∈ (ns.only id egress).rules ↔ rule ∈ ns.rules := by
    simp [only, hrule]
  simp only [World.deleteRule, hmem]
  split
  · simp [Except.map, only, List.erase_filter]
  · rfl

end Namespace

namespace World

variable {world : World} {id : SlotId} {egress : String}

/-- The lone machine has the slot's namespace as it is, and of the host what belongs to the slot. It has no
    other namespace. -/
theorem only_namespaces {name : String} : (world.only id egress).namespaces[name]? =
    if name = id.namespaceName then world.namespaces[name]?
    else if name = hostNamespace then world.namespaces[name]?.map (·.only id egress) else none := by
  by_cases hown : name = id.namespaceName
  · rw [if_pos hown, hown]
    exact holdings_inside
  · rw [if_neg hown]
    by_cases hhost : name = hostNamespace
    · rw [if_pos hhost, hhost]
      exact holdings_host
    · rw [if_neg hhost]
      exact holdings_elsewhere hhost hown

theorem only_peers {link : String} : (world.only id egress).peers[link]? =
    if link = id.vethName ∨ link = id.vpeerName ∨ link = id.tapName then world.peers[link]? else none := by
  simp only [only, holdings, Std.ExtTreeMap.getElem?_filter']
  split <;> cases world.peers[link]? <;> simp_all

theorem only_inside : (world.only id egress).namespaces[id.namespaceName]? =
    world.namespaces[id.namespaceName]? := holdings_inside

theorem only_host : (world.only id egress).namespaces[hostNamespace]? =
    world.namespaces[hostNamespace]?.map (·.only id egress) := holdings_host

theorem mem_only {name : String} (hname : name = hostNamespace ∨ name = id.namespaceName) :
    name ∈ (world.only id egress).namespaces ↔ name ∈ world.namespaces := by
  rw [Std.ExtTreeMap.mem_iff_isSome_getElem?, Std.ExtTreeMap.mem_iff_isSome_getElem?]
  rcases hname with rfl | rfl
  · rw [only_host, Option.isSome_map]
  · rw [only_inside]

/-- A change inside the slot's namespace is the same change on the lone machine. -/
theorem only_setNamespace_inside {ns : Namespace} :
    (world.setNamespace id.namespaceName ns).only id egress =
      (world.only id egress).setNamespace id.namespaceName ns := by
  refine congrArg (fun namespaces => World.mk world.current namespaces _)
    (Std.ExtTreeMap.ext_getElem? fun name => ?_)
  change ((world.setNamespace id.namespaceName ns).only id egress).namespaces[name]? = _
  simp only [only_namespaces, setNamespace, Std.ExtTreeMap.getElem?_insert,
    Std.LawfulEqCmp.compare_eq_iff_eq]
  grind [SlotId.namespaceName_ne_host]

/-- A change of the host is, on the lone machine, the change of what belongs to the slot there. -/
theorem only_setNamespace_host {ns : Namespace} :
    (world.setNamespace hostNamespace ns).only id egress =
      (world.only id egress).setNamespace hostNamespace (ns.only id egress) := by
  refine congrArg (fun namespaces => World.mk world.current namespaces _)
    (Std.ExtTreeMap.ext_getElem? fun name => ?_)
  change ((world.setNamespace hostNamespace ns).only id egress).namespaces[name]? = _
  simp only [only_namespaces, setNamespace, Std.ExtTreeMap.getElem?_insert,
    Std.LawfulEqCmp.compare_eq_iff_eq]
  grind [SlotId.namespaceName_ne_host]

/-- An edit inside, or one on the host that concerns only what belongs to the slot. -/
theorem only_edit {change : Namespace → Except NetworkError Namespace}
    (hcurrent : world.current = hostNamespace ∨ world.current = id.namespaceName)
    (hchange : world.current = hostNamespace →
      ∀ ns, change (ns.only id egress) = (change ns).map (·.only id egress)) :
    (world.only id egress).edit change =
      ((world.edit change).1, (world.edit change).2.only id egress) := by
  rcases hcurrent with hhost | hinside
  · have hat : (world.only id egress).namespaces[(world.only id egress).current]? =
        world.namespaces[world.current]?.map (·.only id egress) := by
      rw [show (world.only id egress).current = world.current from rfl, hhost, only_host]
    simp only [edit, hat]
    cases world.namespaces[world.current]? with
    | none => rfl
    | some ns =>
      simp only [Option.map_some, hchange hhost]
      cases change ns with
      | error failure => rfl
      | ok changed =>
        simp only [Except.map]
        rw [hhost, only_setNamespace_host, show (world.only id egress).current = hostNamespace from hhost]
  · have hat : (world.only id egress).namespaces[(world.only id egress).current]? =
        world.namespaces[world.current]? := by
      rw [show (world.only id egress).current = world.current from rfl, hinside, only_inside]
    simp only [edit, hat]
    cases world.namespaces[world.current]? with
    | none => rfl
    | some ns =>
      simp only
      cases change ns with
      | error failure => rfl
      | ok changed =>
        simp only
        rw [hinside, only_setNamespace_inside, show (world.only id egress).current = id.namespaceName from hinside]

/-- The other end of a device of the slot goes here as there. -/
theorem only_dropPeer {link : String} (h : world.Paired id)
    (hlink : link = loopback ∨ link = id.vethName ∨ link = id.vpeerName ∨ link = id.tapName) :
    (world.only id egress).dropPeer link = (world.dropPeer link).only id egress := by
  have hpeer : (world.only id egress).peers[link]? = world.peers[link]? := by
    rw [only_peers]
    split
    · rfl
    · rename_i hother
      obtain rfl : link = loopback := hlink.resolve_right hother
      exact h.loose.1.symm
  simp only [dropPeer, hpeer]
  cases world.peers[link]? with
  | none => rfl
  | some peer =>
    simp only [only, World.mk.injEq, true_and]
    constructor
    · refine Std.ExtTreeMap.ext_getElem? fun name => ?_
      have hleft : (world.only id egress).namespaces[name]? = _ := only_namespaces
      have hright : (World.only { world with
        peers := (world.peers.erase link).erase peer
        namespaces := world.namespaces.map fun _ ns => ns.dropLink peer } id egress).namespaces[name]? = _ :=
        only_namespaces
      simp only [only] at hleft hright
      rw [Std.ExtTreeMap.getElem?_map, hleft, hright]
      split
      · rw [Std.ExtTreeMap.getElem?_map]
      · split
        · simp only [Std.ExtTreeMap.getElem?_map, Option.map_map, Function.comp_def,
            Namespace.only_dropLink]
        · rfl
    · refine Std.ExtTreeMap.ext_getElem? fun other => ?_
      simp only [holdings, Std.ExtTreeMap.getElem?_filter', Std.ExtTreeMap.getElem?_erase]
      grind

/-- Devices of the slot are dropped alike on both machines, since the other ends of their cables belong to the
    slot. -/
theorem only_dropPeers {links : List String} (h : world.Paired id)
    (hlinks : ∀ link ∈ links,
      link = loopback ∨ link = id.vethName ∨ link = id.vpeerName ∨ link = id.tapName) :
    links.foldl dropPeer (world.only id egress) = (links.foldl dropPeer world).only id egress := by
  induction links generalizing world with
  | nil => rfl
  | cons link links ih =>
    have hlink := hlinks link (List.mem_cons_self ..)
    have hfirst : Unplugged id egress [link] world (world.dropPeer link) := dropPeer_unplugged h hlink
    rw [List.foldl_cons, List.foldl_cons, only_dropPeer h hlink]
    exact ih hfirst.paired fun other hmem => hlinks other (List.mem_cons_of_mem _ hmem)

theorem mirrors_currentNamespace : world.Mirrors id egress .currentNamespace := rfl

theorem mirrors_enter {target : Handle}
    (htarget : target.label = hostNamespace ∨ target.label = id.namespaceName) :
    world.Mirrors id egress (.enterNamespace target) := by
  simp only [Mirrors, answer, enter, mem_only htarget]
  split <;> rfl

theorem mirrors_open : world.Mirrors id egress (.openNamespace id.namespaceName) := by
  simp only [Mirrors, answer, openNamed, mem_only (.inr rfl)]
  split <;> rfl

/-- The slot's namespace is on record on the lone machine just when it is on the whole one, so it can be made on
    both or on neither. -/
theorem mirrors_create : world.Mirrors id egress (.createNamespace id.namespaceName) := by
  simp only [Mirrors, answer, createNamed, mem_only (.inr rfl)]
  split
  · rfl
  · refine congrArg (Prod.mk _) ?_
    exact congrArg (fun made : World => { made with current := id.namespaceName })
      only_setNamespace_inside.symm

/-- Deleting the slot's namespace drops the same devices on both machines. -/
theorem mirrors_deleteNamed (h : world.Tidy id) :
    world.Mirrors id egress (.deleteNamespace id.namespaceName) := by
  have herase : World.only { world with namespaces := world.namespaces.erase id.namespaceName } id egress =
      { world.only id egress with
        namespaces := (world.only id egress).namespaces.erase id.namespaceName } := by
    refine congrArg (fun namespaces => World.mk world.current namespaces _)
      (Std.ExtTreeMap.ext_getElem? fun name => ?_)
    change (World.only { world with namespaces := world.namespaces.erase id.namespaceName } id
      egress).namespaces[name]? = _
    simp only [only_namespaces, Std.ExtTreeMap.getElem?_erase, Std.LawfulEqCmp.compare_eq_iff_eq]
    grind [SlotId.namespaceName_ne_host]
  simp only [Mirrors, answer, deleteNamed, SlotId.namespaceName_ne_host, if_false, only_inside]
  cases hns : world.namespaces[id.namespaceName]? with
  | none => rfl
  | some ns =>
    refine congrArg (Prod.mk _) ?_
    rw [← herase]
    exact only_dropPeers ⟨h.ends, h.loose⟩ fun link hlink =>
      h.inside link ⟨ns, hns, Std.ExtTreeMap.mem_keys.mp hlink⟩

section

variable (hcurrent : world.current = hostNamespace ∨ world.current = id.namespaceName)
include hcurrent

/-- What the lone machine has where the thread is. -/
theorem only_current : (world.only id egress).namespaces[(world.only id egress).current]? =
    if world.current = id.namespaceName then world.namespaces[world.current]?
    else world.namespaces[world.current]?.map (·.only id egress) := by
  change (world.only id egress).namespaces[world.current]? = _
  rw [only_namespaces]
  split
  · rfl
  · rename_i hown
    rw [if_pos (hcurrent.resolve_right hown)]

/-- A look for the outer end of the cable has the same answer, on the host and inside. -/
theorem mirrors_linkExists : world.Mirrors id egress (.linkExists id.vethName) := by
  simp only [Mirrors, answer, only_current hcurrent]
  by_cases hown : world.current = id.namespaceName
  · simp only [if_pos hown]
    cases world.namespaces[world.current]? <;> rfl
  · simp only [if_neg hown]
    cases world.namespaces[world.current]? with
    | none => rfl
    | some ns => simp only [Option.map_some, Namespace.mem_only_links]

/-- Pulling the outer end of the cable is answered alike, and both ends go on both machines. -/
theorem mirrors_deleteLink (h : world.Tidy id) : world.Mirrors id egress (.deleteLink id.vethName) := by
  have hdropped (ns : Namespace) : (world.setNamespace world.current ns).Paired id := ⟨h.ends, h.loose⟩
  have hset (ns : Namespace) : (world.only id egress).setNamespace (world.only id egress).current
      (if world.current = id.namespaceName then ns else ns.only id egress) =
        (world.setNamespace world.current ns).only id egress := by
    change (world.only id egress).setNamespace world.current _ = _
    split
    · rename_i hown
      rw [hown, only_setNamespace_inside]
    · rename_i hown
      rw [hcurrent.resolve_right hown, only_setNamespace_host]
  simp only [Mirrors, answer, deleteLink, only_current hcurrent]
  cases world.namespaces[world.current]? with
  | none => simp [only]
  | some ns =>
    have hafter : (World.only (world.setNamespace world.current (ns.dropLink id.vethName)) id egress).dropPeer
        id.vethName = _ := only_dropPeer (hdropped (ns.dropLink id.vethName)) (.inr (.inl rfl))
    rw [← hset] at hafter
    by_cases hown : world.current = id.namespaceName
    · simp only [if_pos hown] at hafter ⊢
      split
      · rfl
      · exact congrArg (Prod.mk _) hafter
    · simp only [if_neg hown, Namespace.only_dropLink] at hafter
      simp only [if_neg hown, Option.map_some, Namespace.mem_only_links]
      split
      · rfl
      · exact congrArg (Prod.mk _) hafter

end

/-- Inside the slot's namespace a cable is laid on both machines alike. -/
theorem mirrors_layCable (hcurrent : world.current = id.namespaceName) :
    world.Mirrors id egress (.addVethPair id.vethName id.vpeerName) := by
  simp only [Mirrors, answer, layCable, only_current (.inr hcurrent), if_pos hcurrent]
  cases world.namespaces[world.current]? with
  | none => rfl
  | some ns =>
    simp only
    split
    · rfl
    · refine congrArg (Prod.mk _) ?_
      have hset (changed : Namespace) : (world.only id egress).setNamespace (world.only id egress).current changed =
          (world.setNamespace world.current changed).only id egress := by
        change (world.only id egress).setNamespace world.current changed = _
        rw [hcurrent, only_setNamespace_inside]
      rw [hset]
      refine congrArg (fun peers => World.mk world.current _ peers) (Std.ExtTreeMap.ext_getElem? fun link => ?_)
      simp only [only, holdings, setNamespace, Std.ExtTreeMap.getElem?_filter',
        Std.ExtTreeMap.getElem?_insert, Std.LawfulEqCmp.compare_eq_iff_eq]
      grind

/-- The outer end of the cable is moved to the host on both machines. Elsewhere it could not be mirrored: the
    lone machine has no other namespace to move it to. -/
theorem mirrors_moveLink {target : Handle} (hcurrent : world.current = id.namespaceName)
    (htarget : target.label = hostNamespace) : world.Mirrors id egress (.moveLink id.vethName target) := by
  simp only [Mirrors, answer, moveLink, only_current (.inr hcurrent), if_pos hcurrent,
    mem_only (.inl htarget)]
  split
  · rfl
  · cases world.namespaces[world.current]? with
    | none => rfl
    | some ns =>
      simp only
      split
      · rfl
      · refine congrArg (Prod.mk _) (congrArg (fun namespaces => World.mk world.current namespaces _)
          (Std.ExtTreeMap.ext_getElem? fun name => ?_))
        rw [htarget, hcurrent, show (world.only id egress).current = id.namespaceName from hcurrent]
        change _ = (World.only { world with
          namespaces := (world.namespaces.insert id.namespaceName (ns.dropLink id.vethName)).modify
            hostNamespace fun ns => { ns with links := ns.links.insert id.vethName .plain } }
          id egress).namespaces[name]?
        simp only [Std.ExtTreeMap.getElem?_modify, Std.ExtTreeMap.getElem?_insert,
          Std.LawfulEqCmp.compare_eq_iff_eq, only_namespaces]
        by_cases hown : name = id.namespaceName
        · subst hown
          simp
        · by_cases hhost : name = hostNamespace
          · subst hhost
            simp only [hown, if_false, if_true, Ne.symm hown, Option.map_map]
            refine congrFun (congrArg Option.map (funext fun ns => ?_)) _
            exact Namespace.only_put.symm
          · simp [hown, hhost, Ne.symm hhost, Ne.symm hown]

/-- The calls made wherever the thread is are mirrored while it is on the host or inside. -/
theorem mirrors_outer {call : Call} (hcall : Call.Outer id egress call) (h : world.Tidy id)
    (hcurrent : world.current = hostNamespace ∨ world.current = id.namespaceName) :
    world.Mirrors id egress call := by
  cases hcall with
  | onRecord => simp only [Mirrors, answer, mem_only (.inr rfl)]
  | probe => exact mirrors_linkExists hcurrent
  | up => exact only_edit hcurrent fun _ _ => Namespace.setLinkUp_only
  | address => exact only_edit hcurrent fun _ _ => Namespace.addAddress_only
  | unplug => exact mirrors_deleteLink hcurrent h
  | route => exact only_edit hcurrent fun _ _ => Namespace.addRoute_only
  | unroute => exact only_edit hcurrent fun _ _ => Namespace.deleteRoute_only
  | rule rule hrule => exact only_edit hcurrent fun _ _ => Namespace.appendRule_only hrule
  | unrule rule hrule => exact only_edit hcurrent fun _ _ => Namespace.deleteRule_only hrule

/-- So is every edit while the thread is inside. -/
theorem only_edit_inside {change : Namespace → Except NetworkError Namespace}
    (hcurrent : world.current = id.namespaceName) : (world.only id egress).edit change =
      ((world.edit change).1, (world.edit change).2.only id egress) :=
  only_edit (.inr hcurrent) fun hhost => by simp [hcurrent] at hhost

theorem mirrors_newChain {table : Table} {chain : String} (hcurrent : world.current = id.namespaceName) :
    world.Mirrors id egress (.newChain table chain) := only_edit_inside hcurrent

theorem mirrors_appendRule {rule : Rule} (hcurrent : world.current = id.namespaceName) :
    world.Mirrors id egress (.appendRule rule) := only_edit_inside hcurrent

/-- All calls that are made for a slot inside its namespace are mirrored, wherever the guard that they are under
    may lead. -/
theorem mirrors_inner {call : Call}
    (hcall : Call.Inner id (fun target => target.label = hostNamespace) call)
    (hcurrent : world.current = id.namespaceName) : world.Mirrors id egress call := by
  cases hcall with
  | cable => exact mirrors_layCable hcurrent
  | move origin horigin => exact mirrors_moveLink hcurrent horigin
  | _ => exact only_edit_inside hcurrent

theorem mirrors_ruling {call : Call} (hcall : Call.Ruling call)
    (hcurrent : world.current = id.namespaceName) : world.Mirrors id egress call := by
  cases hcall <;> exact only_edit_inside hcurrent

theorem mirrors_unchaining {call : Call} (hcall : Call.Unchaining id call)
    (hcurrent : world.current = id.namespaceName) : world.Mirrors id egress call := by
  cases hcall <;> exact only_edit_inside hcurrent

end World
end SlotPool
