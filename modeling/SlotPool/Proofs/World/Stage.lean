import SlotPool.Proofs.Address.Names
import SlotPool.Proofs.World.Replies
/-!
A machine on which a slot is being made: what there is on the host and in the slot's namespace is known
exactly, and everything else is as it was.
-/

namespace SlotPool

namespace Namespace

/-- Puts a link into a namespace, in place of one of the same name. -/
def put (ns : Namespace) (name : String) (link : Link) : Namespace :=
  { ns with links := ns.links.insert name link }

variable {ns : Namespace} {name other : String} {link link' : Link}

@[simp]
theorem put_links_self : (ns.put name link).links[name]? = some link := by
  simp [put]

theorem put_links_other (h : name ≠ other) : (ns.put name link).links[other]? = ns.links[other]? := by
  simp [put, Std.ExtTreeMap.getElem?_insert, h]

@[simp]
theorem put_put : (ns.put name link).put name link' = ns.put name link' := by
  simp only [put, Namespace.mk.injEq, and_true]
  refine Std.ExtTreeMap.ext_getElem? fun other => ?_
  simp only [Std.ExtTreeMap.getElem?_insert]
  split <;> rfl

theorem put_comm (h : name ≠ other) :
    (ns.put name link).put other link' = (ns.put other link').put name link := by
  simp only [put, Namespace.mk.injEq, and_true]
  refine Std.ExtTreeMap.ext_getElem? fun found => ?_
  simp only [Std.ExtTreeMap.getElem?_insert, Std.LawfulEqCmp.compare_eq_iff_eq]
  grind

/-- A device that was not there, put and dropped again, leaves no trace. -/
theorem dropLink_put (h : ns.links[name]? = none) : (ns.put name link).dropLink name = ns := by
  obtain ⟨links, routes, rules, chains⟩ := ns
  simp only [put, dropLink, Namespace.mk.injEq, and_true]
  refine Std.ExtTreeMap.ext_getElem? fun found => ?_
  simp only [Std.ExtTreeMap.getElem?_erase, Std.ExtTreeMap.getElem?_insert,
    Std.LawfulEqCmp.compare_eq_iff_eq]
  grind

theorem setLinkUp_of (h : ns.links[name]? = some link) :
    World.setLinkUp name ns = .ok (ns.put name { link with up := true }) := by
  simp only [World.setLinkUp, h]
  rfl

theorem setLinkUp_put : World.setLinkUp name (ns.put name link) =
    .ok (ns.put name { link with up := true }) := by
  simp only [World.setLinkUp, put_links_self]
  exact congrArg Except.ok put_put

theorem addAddress_put {address : Cidr} {up : Bool} :
    World.addAddress name address (ns.put name ⟨up, []⟩) = .ok (ns.put name ⟨up, [address]⟩) := by
  simp only [World.addAddress, put_links_self, List.not_mem_nil, if_false, List.nil_append]
  exact congrArg Except.ok put_put

/-- A tap device that is not there yet is added plain: down and without an address. -/
theorem addTap_put (h : ns.links[name]? = none) :
    World.addTap name ns = .ok (ns.put name .plain) := by
  have habsent : name ∉ ns.links := by
    rw [Std.ExtTreeMap.mem_iff_isSome_getElem?, h]
    simp
  rw [World.addTap, if_neg habsent]
  rfl

theorem bare_links (h : loopback ≠ name) : bare.links[name]? = none := by
  have hlo : "lo" ≠ name := h
  simp [bare, hlo]

end Namespace

namespace World

/-- The machine with other contents on the host and in the namespace of a slot, and other cables. -/
def stage (base : World) (id : SlotId) (current : String) (host inner : Namespace)
    (peers : Named String) : World where
  current
  namespaces := (base.namespaces.insert hostNamespace host).insert id.namespaceName inner
  peers

variable {base : World} {id : SlotId} {current : String} {host inner changed : Namespace}
  {peers : Named String}

theorem stage_inner :
    (base.stage id current host inner peers).namespaces[id.namespaceName]? = some inner := by
  simp [stage]

theorem stage_host :
    (base.stage id current host inner peers).namespaces[hostNamespace]? = some host := by
  simp only [stage, Std.ExtTreeMap.getElem?_insert, Std.LawfulEqCmp.compare_eq_iff_eq]
  rw [if_neg SlotId.namespaceName_ne_host]
  simp

/-- On the stage of a slot, what is done inside its namespace changes what is known of the inside. -/
theorem stage_edit_inner {change : Namespace → Except NetworkError Namespace}
    (hchange : change inner = .ok changed) :
    (base.stage id id.namespaceName host inner peers).edit change =
      (.ok (), base.stage id id.namespaceName host changed peers) := by
  have hcurrent : (base.stage id id.namespaceName host inner peers).namespaces[
      (base.stage id id.namespaceName host inner peers).current]? = some inner := stage_inner
  simp only [edit, hcurrent, hchange, Prod.mk.injEq, true_and]
  simp only [setNamespace, stage, World.mk.injEq, true_and, and_true]
  refine Std.ExtTreeMap.ext_getElem? fun name => ?_
  simp only [Std.ExtTreeMap.getElem?_insert]
  split <;> rfl

/-- What is done on the host changes what is known of the host. -/
theorem stage_edit_host {change : Namespace → Except NetworkError Namespace}
    (hchange : change host = .ok changed) :
    (base.stage id hostNamespace host inner peers).edit change =
      (.ok (), base.stage id hostNamespace changed inner peers) := by
  have hcurrent : (base.stage id hostNamespace host inner peers).namespaces[
      (base.stage id hostNamespace host inner peers).current]? = some host := stage_host
  simp only [edit, hcurrent, hchange, Prod.mk.injEq, true_and]
  simp only [setNamespace, stage, World.mk.injEq, true_and, and_true]
  refine Std.ExtTreeMap.ext_getElem? fun name => ?_
  simp only [Std.ExtTreeMap.getElem?_insert, Std.LawfulEqCmp.compare_eq_iff_eq]
  grind [SlotId.namespaceName_ne_host]

/-- An edit that fails leaves the stage as it is. -/
theorem stage_edit_fails {change : Namespace → Except NetworkError Namespace} {failure : NetworkError}
    (hchange : change inner = .error failure) :
    (base.stage id id.namespaceName host inner peers).edit change =
      (.error failure, base.stage id id.namespaceName host inner peers) := by
  have hcurrent : (base.stage id id.namespaceName host inner peers).namespaces[
      (base.stage id id.namespaceName host inner peers).current]? = some inner := stage_inner
  simp only [edit, hcurrent, hchange]

theorem stage_open : (base.stage id current host inner peers).openNamed id.namespaceName =
    (.ok ⟨id.namespaceName, true⟩, base.stage id current host inner peers) := by
  have hmem : id.namespaceName ∈ (base.stage id current host inner peers).namespaces := by simp [stage]
  rw [openNamed, if_pos hmem]

/-- The slot's namespace can be entered, since it is on record. -/
theorem stage_enter_inner {handle : Handle} (hhandle : handle.label = id.namespaceName) :
    (base.stage id current host inner peers).enter handle =
      (.ok (), base.stage id id.namespaceName host inner peers) := by
  have hmem : handle.label ∈ (base.stage id current host inner peers).namespaces := by
    rw [hhandle]
    simp [stage]
  rw [enter, if_pos hmem, hhandle]
  rfl

/-- The host can be entered as well. -/
theorem stage_enter_host {handle : Handle} (hhandle : handle.label = hostNamespace) :
    (base.stage id current host inner peers).enter handle =
      (.ok (), base.stage id hostNamespace host inner peers) := by
  have hmem : handle.label ∈ (base.stage id current host inner peers).namespaces := by
    rw [hhandle]
    simp [stage, Std.ExtTreeMap.mem_insert]
  rw [enter, if_pos hmem, hhandle]
  rfl

/-- Making the namespace of a slot begins the first stage. -/
theorem createNamed_stage (hhost : base.namespaces[hostNamespace]? = some host)
    (habsent : id.namespaceName ∉ base.namespaces) :
    base.createNamed id.namespaceName = (.ok ⟨id.namespaceName, true⟩,
      base.stage id id.namespaceName host .bare base.peers) := by
  rw [createNamed, if_neg habsent]
  simp only [Prod.mk.injEq, true_and, stage, setNamespace, World.mk.injEq, and_true]
  refine Std.ExtTreeMap.ext_getElem? fun name => ?_
  simp only [Std.ExtTreeMap.getElem?_insert, Std.LawfulEqCmp.compare_eq_iff_eq]
  grind

/-- The cables with that of a slot. -/
def withCable (peers : Named String) (id : SlotId) : Named String :=
  (peers.insert id.vethName id.vpeerName).insert id.vpeerName id.vethName

/-- A cable whose ends are not there yet is laid inside, with both ends plain and joined. -/
theorem stage_layCable (hveth : inner.links[id.vethName]? = none)
    (hvpeer : inner.links[id.vpeerName]? = none) :
    (base.stage id id.namespaceName host inner peers).layCable id.vethName id.vpeerName =
      (.ok (), base.stage id id.namespaceName host
        ((inner.put id.vethName .plain).put id.vpeerName .plain) (withCable peers id)) := by
  have hcurrent : (base.stage id id.namespaceName host inner peers).namespaces[
      (base.stage id id.namespaceName host inner peers).current]? = some inner := stage_inner
  have habsent : ¬ (id.vethName ∈ inner.links ∨ id.vpeerName ∈ inner.links) := by
    simp [Std.ExtTreeMap.mem_iff_isSome_getElem?, hveth, hvpeer]
  simp only [layCable, hcurrent, if_neg habsent, Prod.mk.injEq, true_and]
  simp only [setNamespace, stage, withCable, World.mk.injEq, true_and, and_true, Namespace.put]
  refine Std.ExtTreeMap.ext_getElem? fun name => ?_
  simp only [Std.ExtTreeMap.getElem?_insert]
  split <;> rfl

/-- The outer end of the cable is moved to the host, where it is plain again. -/
theorem stage_moveLink {target : Handle} {link : Link} (htarget : target.label = hostNamespace)
    (hlink : inner.links[id.vethName]? = some link) :
    (base.stage id id.namespaceName host inner peers).moveLink id.vethName target =
      (.ok (), base.stage id id.namespaceName (host.put id.vethName .plain)
        (inner.dropLink id.vethName) peers) := by
  have hcurrent : (base.stage id id.namespaceName host inner peers).namespaces[
      (base.stage id id.namespaceName host inner peers).current]? = some inner := stage_inner
  have hmem : target.label ∈ (base.stage id id.namespaceName host inner peers).namespaces := by
    rw [htarget]
    simp [stage, Std.ExtTreeMap.mem_insert]
  have hpresent : id.vethName ∈ inner.links := by
    simp [Std.ExtTreeMap.mem_iff_isSome_getElem?, hlink]
  simp only [moveLink, hcurrent, hmem, hpresent, not_true_eq_false, if_false, Prod.mk.injEq, true_and]
  simp only [stage, World.mk.injEq, true_and, and_true, htarget, Namespace.put]
  refine Std.ExtTreeMap.ext_getElem? fun name => ?_
  simp only [Std.ExtTreeMap.getElem?_modify, Std.ExtTreeMap.getElem?_insert,
    Std.LawfulEqCmp.compare_eq_iff_eq]
  grind [SlotId.namespaceName_ne_host]

end World
end SlotPool
