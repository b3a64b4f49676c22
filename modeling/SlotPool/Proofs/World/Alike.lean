import Mathlib.Data.List.Perm.Basic
import SlotPool.Proofs.World.Only
/-!
Machines that are the same but for the order of the host's routes and rules. A machine is made up, in
this sense, of what belongs to two slots and of what belongs to neither.
-/

namespace SlotPool

/-- The same namespace, but for the order of routes and rules. -/
structure Namespace.Alike (ns ns' : Namespace) : Prop where
  links : ns.links = ns'.links
  routes : ns.routes.Perm ns'.routes
  rules : ns.rules.Perm ns'.rules
  chains : ns.chains = ns'.chains

/-- The same machine, but for the order of the host's routes and rules. -/
structure World.Alike (world world' : World) : Prop where
  current : world.current = world'.current
  host : Option.Rel Namespace.Alike world.namespaces[hostNamespace]? world'.namespaces[hostNamespace]?
  namespaces : ∀ name, name ≠ hostNamespace → world.namespaces[name]? = world'.namespaces[name]?
  peers : world.peers = world'.peers

namespace Namespace

variable {ns ns' : Namespace} {id other : SlotId} {egress : String}

/-- It does not matter which of two slots is left out first. -/
theorem without_comm : (ns.without id egress).without other egress =
    (ns.without other egress).without id egress := by
  simp only [without, List.filter_filter, Namespace.mk.injEq, and_true]
  refine ⟨Std.ExtTreeMap.ext_getElem? fun link => ?_, ?_, ?_⟩
  · simp only [Std.ExtTreeMap.getElem?_erase, Std.LawfulEqCmp.compare_eq_iff_eq]
    grind
  · exact List.filter_congr fun _ _ => Bool.and_comm ..
  · exact List.filter_congr fun _ _ => Bool.and_comm ..

/-- A list is made up of two kinds of entries and the rest. -/
theorem perm_of_filters {α : Type} [DecidableEq α] {list list' : List α} (first second : α → Bool)
    (hfirst : list.filter first = list'.filter first) (hsecond : list.filter second = list'.filter second)
    (hrest : (list.filter (! first ·)).filter (! second ·) = (list'.filter (! first ·)).filter (! second ·)) :
    list.Perm list' := by
  refine List.perm_iff_count.mpr fun x => ?_
  have hcount (kind : α → Bool) (hx : kind x = true) (h : list.filter kind = list'.filter kind) :
      list.count x = list'.count x := by
    rw [← List.count_filter (l := list) hx, ← List.count_filter (l := list') hx, h]
  by_cases hx : first x = true
  · exact hcount first hx hfirst
  · by_cases hy : second x = true
    · exact hcount second hy hsecond
    · rw [List.filter_filter, List.filter_filter] at hrest
      exact hcount _ (by simp [hx, hy]) hrest

/-- The host is made up of what two slots have there and of the rest. The inner ends of their cables are
    not there. -/
theorem alike_of_parts (hid : ns.only id egress = ns'.only id egress)
    (hother : ns.only other egress = ns'.only other egress)
    (hrest : (ns.without id egress).without other egress = (ns'.without id egress).without other egress)
    (hvpeer : ns.links[id.vpeerName]? = ns'.links[id.vpeerName]? ∧
      ns.links[other.vpeerName]? = ns'.links[other.vpeerName]?) : ns.Alike ns' where
  links := by
    refine Std.ExtTreeMap.ext_getElem? fun link => ?_
    have hveth {slot : SlotId} (h : ns.only slot egress = ns'.only slot egress) :
        ns.links[slot.vethName]? = ns'.links[slot.vethName]? := by
      have hlinks := congrArg (fun ns => ns.links[slot.vethName]?) h
      simpa only [only_links, if_pos] using hlinks
    have hlinks := congrArg (fun ns => ns.links[link]?) hrest
    simp only [without, Std.ExtTreeMap.getElem?_erase, Std.LawfulEqCmp.compare_eq_iff_eq] at hlinks
    grind
  routes := by
    refine perm_of_filters (· = id.hostRoute) (· = other.hostRoute)
      (congrArg Namespace.routes hid) (congrArg Namespace.routes hother) ?_
    simpa [without] using congrArg Namespace.routes hrest
  rules := by
    refine perm_of_filters (· ∈ id.hostRules egress) (· ∈ other.hostRules egress)
      (congrArg Namespace.rules hid) (congrArg Namespace.rules hother) ?_
    simpa [without] using congrArg Namespace.rules hrest
  chains := (congrArg Namespace.chains hrest :)

end Namespace

namespace World

variable {world world' : World} {id other : SlotId} {egress : String}

/-- A machine is made up of what belongs to two slots and of the rest. -/
theorem alike_of_parts {host host' : Namespace}
    (hhost : world.namespaces[hostNamespace]? = some host)
    (hhost' : world'.namespaces[hostNamespace]? = some host')
    (horderly : world.Orderly) (horderly' : world'.Orderly)
    (hid : world.only id egress = world'.only id egress)
    (hsecond : world.only other egress = world'.only other egress)
    (hrest : (host.without id egress).without other egress =
      (host'.without id egress).without other egress)
    (helse : ∀ name, name ≠ hostNamespace → name ≠ id.namespaceName → name ≠ other.namespaceName →
      world.namespaces[name]? = world'.namespaces[name]?)
    (hpeers : ∀ link, link ≠ id.vethName → link ≠ id.vpeerName → link ≠ other.vethName →
      link ≠ other.vpeerName → world.peers[link]? = world'.peers[link]?) : world.Alike world' where
  current := (congrArg World.current hid :)
  host := by
    have honly {slot : SlotId} (h : world.only slot egress = world'.only slot egress) :
        host.only slot egress = host'.only slot egress := by
      have hlookup := congrArg (fun world => world.namespaces[hostNamespace]?) h
      simpa [only_host, hhost, hhost'] using hlookup
    have habsent {some : World} {ns : Namespace} (slot : SlotId) (h : some.Orderly)
        (hns : some.namespaces[hostNamespace]? = .some ns) : ns.links[slot.vpeerName]? = none := by
      refine Std.ExtTreeMap.getElem?_eq_none fun hmem => ?_
      have hname := (h slot).vpeer _ ⟨ns, hns, hmem⟩
      simp at hname
    rw [hhost, hhost']
    refine .some (Namespace.alike_of_parts (honly hid) (honly hsecond) hrest ⟨?_, ?_⟩)
    · rw [habsent id horderly hhost, habsent id horderly' hhost']
    · rw [habsent other horderly hhost, habsent other horderly' hhost']
  namespaces name hname := by
    have hinside {slot : SlotId} (h : world.only slot egress = world'.only slot egress) :
        world.namespaces[slot.namespaceName]? = world'.namespaces[slot.namespaceName]? := by
      have hlookup := congrArg (fun world => world.namespaces[slot.namespaceName]?) h
      simpa only [only_inside] using hlookup
    by_cases hown : name = id.namespaceName
    · exact hown ▸ hinside hid
    · by_cases hown' : name = other.namespaceName
      · exact hown' ▸ hinside hsecond
      · exact helse name hname hown hown'
  peers := by
    refine Std.ExtTreeMap.ext_getElem? fun link => ?_
    have hfirst := congrArg (fun world => world.peers[link]?) hid
    have hnext := congrArg (fun world => world.peers[link]?) hsecond
    simp only [only_peers] at hfirst hnext
    have hlink := hpeers link
    grind

end World
end SlotPool
