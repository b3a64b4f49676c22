import SlotPool.Proofs.Address.Names
import SlotPool.Proofs.World.Tables
/-!
What there is outside a slot's namespace, exactly. Each deletion on the host takes one copy of a route or a rule
away, and what is absent is known to be absent when a deletion fails for it.
-/

namespace SlotPool.World

variable {world after : World} {id : SlotId} {egress : String} {routes : List Route} {rules : List Rule}
  {plugged named : Prop}

/-- The thread is on the host, where there are exactly these routes and rules. The outer end of a slot's cable
    and the slot's namespace are there only under these conditions. -/
structure Outside (id : SlotId) (routes : List Route) (rules : List Rule) (plugged named : Prop)
    (world : World) : Prop where
  current : world.current = hostNamespace
  host : ∃ ns, world.namespaces[hostNamespace]? = some ns ∧ ns.routes = routes ∧ ns.rules = rules ∧
    (id.vethName ∈ ns.links → plugged)
  named : id.namespaceName ∈ world.namespaces → named

/-- When only devices go, the routes and rules on the host are still known. -/
theorem Outside.unlinked (h : world.Outside id routes rules plugged named) (hless : Unlinked world after)
    (hhost : hostNamespace ∈ world.namespaces) : after.Outside id routes rules plugged named where
  current := hless.current.trans h.current
  host := by
    obtain ⟨ns', hns'⟩ := Option.isSome_iff_exists.mp
      (Std.ExtTreeMap.mem_iff_isSome_getElem?.mp ((hless.namespaces _).mpr hhost))
    obtain ⟨ns, hns, hroutes, hrules, hlinks⟩ := hless.tables _ ns' hns'
    obtain ⟨found, hfound, rfl, rfl, hplugged⟩ := h.host
    obtain rfl := Option.some.inj (hns.symm.trans hfound)
    exact ⟨ns', hns', hroutes, hrules, fun hlink => hplugged (hlinks _ hlink)⟩
  named hname := h.named ((hless.namespaces _).mp hname)

/-- A deletion from the host's tables. It fails only for what is absent. -/
theorem Outside.edit {change : Namespace → Except NetworkError Namespace} {routes' : List Route}
    {rules' : List Rule} {result : Except NetworkError Unit} (h : world.Outside id routes rules plugged named)
    (hchange : ∀ ns : Namespace, ns.routes = routes → ns.rules = rules →
      (∃ what, change ns = .error (.notFound what) ∧ routes' = routes ∧ rules' = rules) ∨
        change ns = .ok { ns with routes := routes', rules := rules' })
    (hanswer : world.edit change = (result, after)) :
    after.Outside id routes' rules' plugged named ∧ ∀ failure, result = .error failure → failure.isNotFound = true := by
  obtain ⟨ns, hns, hroutes, hrules, hplugged⟩ := h.host
  have hcurrent : world.namespaces[world.current]? = some ns := h.current ▸ hns
  rcases hchange ns hroutes hrules with ⟨what, hfail, rfl, rfl⟩ | hok
  · obtain ⟨rfl, rfl⟩ := Prod.mk.inj (by simpa only [World.edit, hcurrent, hfail] using hanswer)
    exact ⟨h, fun _ hresult => Except.error.inj hresult ▸ rfl⟩
  · obtain ⟨rfl, rfl⟩ := Prod.mk.inj (by simpa only [World.edit, hcurrent, hok] using hanswer)
    refine ⟨⟨h.current, ⟨{ ns with routes := routes', rules := rules' }, ?_, rfl, rfl, hplugged⟩,
      fun hname => h.named ?_⟩, by simp⟩
    · simp [setNamespace, h.current]
    · exact ((samePlaces_setNamespace hcurrent).namespaces _).mp hname

/-- After a deletion one copy of the rule is gone. The deletion fails only for a rule that is absent, and then
    there was none to take away, so the same can be said after either answer. -/
theorem Outside.unrule {rule : Rule} {result : Except NetworkError Unit}
    (h : world.Outside id routes rules plugged named) (hanswer : world.edit (deleteRule rule) = (result, after)) :
    after.Outside id routes (rules.erase rule) plugged named ∧
      ∀ failure, result = .error failure → failure.isNotFound = true := by
  refine h.edit (fun ns hroutes hrules => ?_) hanswer
  by_cases hmem : rule ∈ rules
  · exact .inr (by rw [deleteRule, hrules, if_pos hmem, hroutes])
  · exact .inl ⟨rule.toText, by rw [deleteRule, hrules, if_neg hmem], rfl, List.erase_of_not_mem hmem⟩

/-- After a deletion one copy of the route is gone, and it fails only for a route that is absent. -/
theorem Outside.unroute {route : Route} {result : Except NetworkError Unit}
    (h : world.Outside id routes rules plugged named) (hanswer : world.edit (deleteRoute route) = (result, after)) :
    after.Outside id (routes.erase route) rules plugged named ∧
      ∀ failure, result = .error failure → failure.isNotFound = true := by
  refine h.edit (fun ns hroutes hrules => ?_) hanswer
  by_cases hmem : route ∈ routes
  · exact .inr (by rw [deleteRoute, hroutes, if_pos hmem, hrules])
  · exact .inl ⟨route.toText, by rw [deleteRoute, hroutes, if_neg hmem], List.erase_of_not_mem hmem, rfl⟩

theorem Outside.present (h : world.Outside id routes rules plugged named) : hostNamespace ∈ world.namespaces := by
  obtain ⟨ns, hns, -⟩ := h.host
  exact Std.ExtTreeMap.mem_iff_isSome_getElem?.mpr (by simp [hns])

/-- After a deletion the outer end of the cable is gone, and it fails only if the host has none. -/
theorem Outside.unplug {result : Except NetworkError Unit} (h : world.Outside id routes rules plugged named)
    (hanswer : world.deleteLink id.vethName = (result, after)) :
    after.Outside id routes rules False named ∧ ∀ failure, result = .error failure → failure.isNotFound = true := by
  obtain ⟨ns, hns, hroutes, hrules, hplugged⟩ := h.host
  have hcurrent : world.namespaces[world.current]? = some ns := h.current ▸ hns
  cases result with
  | ok value =>
    obtain ⟨found, hfound, -, rfl⟩ := deleteLink_ok hanswer
    obtain rfl := Option.some.inj (hcurrent.symm.trans hfound)
    have hset : (world.setNamespace world.current (ns.dropLink id.vethName)).Outside id routes rules False named := by
      refine ⟨h.current, ⟨ns.dropLink id.vethName, ?_, hroutes, hrules, ?_⟩, fun hname => h.named ?_⟩
      · simp [setNamespace, h.current]
      · simp [Namespace.dropLink]
      · exact ((samePlaces_setNamespace hcurrent).namespaces _).mp hname
    exact ⟨hset.unlinked unlinked_dropPeer hset.present, by simp⟩
  | error failure =>
    obtain ⟨hnotFound, habsent⟩ := deleteLink_error hanswer
    have hfailed : world.answer (.deleteLink id.vethName) = (.error failure, after) := hanswer
    obtain rfl := answer_error hfailed
    exact ⟨⟨h.current, ⟨ns, hns, hroutes, hrules, habsent ns hcurrent⟩, h.named⟩,
      fun _ hresult => Except.error.inj hresult ▸ hnotFound⟩

/-- After a deletion the slot's namespace is gone, and it fails only if there is none on record. -/
theorem Outside.erase {result : Except NetworkError Unit} (h : world.Outside id routes rules plugged named)
    (hanswer : world.deleteNamed id.namespaceName = (result, after)) :
    after.Outside id routes rules plugged False ∧
      ∀ failure, result = .error failure → failure.isNotFound = true := by
  obtain ⟨ns, hns, hparts⟩ := h.host
  cases result with
  | ok value =>
    have herased : Outside id routes rules plugged False
        { world with namespaces := world.namespaces.erase id.namespaceName } := by
      refine ⟨h.current, ⟨ns, ?_, hparts⟩, by simp⟩
      simp [Std.ExtTreeMap.getElem?_erase, hns, SlotId.namespaceName_ne_host]
    exact ⟨herased.unlinked (deleteNamed_tables hanswer) herased.present, by simp⟩
  | error failure =>
    obtain ⟨hnotFound, habsent⟩ := deleteNamed_error hanswer
    have hfailed : world.answer (.deleteNamespace id.namespaceName) = (.error failure, after) := hanswer
    obtain rfl := answer_error hfailed
    exact ⟨⟨h.current, h.host, habsent SlotId.namespaceName_ne_host⟩,
      fun _ hresult => Except.error.inj hresult ▸ hnotFound⟩

section

variable {ns : Namespace} (hns : world.namespaces[world.current]? = some ns)
include hns

theorem deleteRule_absent {rule : Rule} (habsent : rule ∉ ns.rules) :
    world.edit (deleteRule rule) = (.error (.notFound rule.toText), world) := by
  simp only [World.edit, hns, deleteRule, if_neg habsent]

theorem deleteRoute_absent {route : Route} (habsent : route ∉ ns.routes) :
    world.edit (deleteRoute route) = (.error (.notFound route.toText), world) := by
  simp only [World.edit, hns, deleteRoute, if_neg habsent]

theorem deleteLink_absent {name : String} (habsent : name ∉ ns.links) :
    world.deleteLink name = (.error (.notFound name), world) := by
  simp only [deleteLink, hns, habsent, not_false_eq_true, if_true]

end

theorem deleteNamed_absent {name : String} (habsent : name ∉ world.namespaces) :
    world.deleteNamed name = (.error (.notFound name), world) := by
  have hnone : world.namespaces[name]? = none := Std.ExtTreeMap.getElem?_eq_none habsent
  simp only [deleteNamed, hnone, ite_self]

end SlotPool.World

namespace SlotPool

/-- There is nothing in a namespace of what a slot has on the host. -/
structure Namespace.Bereft (id : SlotId) (egress : String) (ns : Namespace) : Prop where
  veth : id.vethName ∉ ns.links
  route : id.hostRoute ∉ ns.routes
  rules : ∀ rule ∈ id.hostRules egress, rule ∉ ns.rules

namespace World

/-- Nothing of a slot is left: it has no namespace, and there is nothing of it on the host. -/
structure Rid (id : SlotId) (egress : String) (world : World) : Prop where
  unnamed : id.namespaceName ∉ world.namespaces
  host : ∀ ns : Namespace, world.namespaces[hostNamespace]? = some ns → ns.Bereft id egress

/-- Where the cable and the namespace are gone, it is for the tables to say whether anything is left. -/
theorem Outside.rid_iff {world : World} {id : SlotId} {egress : String} {routes : List Route} {rules : List Rule}
    (h : world.Outside id routes rules False False) :
    world.Rid id egress ↔ id.hostRoute ∉ routes ∧ ∀ rule ∈ id.hostRules egress, rule ∉ rules := by
  obtain ⟨ns, hns, rfl, rfl, hveth⟩ := h.host
  constructor
  · intro hrid
    exact ⟨(hrid.host ns hns).route, (hrid.host ns hns).rules⟩
  · intro habsent
    refine ⟨h.named, fun found hfound => ?_⟩
    obtain rfl := Option.some.inj (hns.symm.trans hfound)
    exact ⟨hveth, habsent.1, habsent.2⟩

end World
end SlotPool
