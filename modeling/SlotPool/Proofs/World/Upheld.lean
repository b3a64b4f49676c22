import Mathlib.Data.List.Count
import SlotPool.Proofs.World.Moored
/-!
The tables of a slot whose network was made. What is done for other slots leaves its route and its rules on the
host and does not touch the rules inside its namespace, wherever the other slots have their devices.
-/

namespace SlotPool.World

/-- The route and the rules of a slot are on the host once, and the rules in its namespace, if that is still there,
    fit. -/
structure Upheld (id : SlotId) (egress : String) (fits : List Rule → Prop) (world : World) : Prop where
  host : ∃ ns, world.namespaces[hostNamespace]? = some ns ∧ (ns.only id egress).routes = [id.hostRoute] ∧
    (ns.only id egress).rules = id.hostRules egress
  inside : ∀ ns : Namespace, world.namespaces[id.namespaceName]? = some ns → fits ns.rules

variable {world after : World} {id other : SlotId} {egress : String} {fits : List Rule → Prop}

theorem Upheld.mem_host (h : world.Upheld id egress fits) : hostNamespace ∈ world.namespaces := by
  obtain ⟨ns, hns, -⟩ := h.host
  exact Std.ExtTreeMap.mem_iff_isSome_getElem?.mpr (by simp [hns])

/-- On the host and inside there are the same tables as before. -/
theorem Upheld.tables (h : world.Upheld id egress fits) (hhost : hostNamespace ∈ after.namespaces)
    (htables : ∀ name ns', name = hostNamespace ∨ name = id.namespaceName → after.namespaces[name]? = some ns' →
      ∃ ns, world.namespaces[name]? = some ns ∧ ns'.routes = ns.routes ∧ ns'.rules = ns.rules) :
    after.Upheld id egress fits where
  host := by
    obtain ⟨ns', hns'⟩ := Option.isSome_iff_exists.mp (Std.ExtTreeMap.mem_iff_isSome_getElem?.mp hhost)
    obtain ⟨ns, hns, hroutes, hrules⟩ := htables _ ns' (.inl rfl) hns'
    obtain ⟨found, hfound, hroute, hown⟩ := h.host
    obtain rfl := Option.some.inj (hns.symm.trans hfound)
    refine ⟨ns', hns', ?_, ?_⟩
    · simpa only [Namespace.only, hroutes] using hroute
    · simpa only [Namespace.only, hrules] using hown
  inside ns' hns' := by
    obtain ⟨ns, hns, -, hrules⟩ := htables _ ns' (.inr rfl) hns'
    exact hrules ▸ h.inside ns hns

theorem Upheld.unlinked (h : world.Upheld id egress fits) (hless : Unlinked world after) :
    after.Upheld id egress fits :=
  h.tables ((hless.namespaces _).mpr h.mem_host) fun name ns' _ hns' => by
    obtain ⟨ns, hns, hroutes, hrules, -⟩ := hless.tables name ns' hns'
    exact ⟨ns, hns, hroutes, hrules⟩

/-- A change of the tables where the thread is. -/
theorem Upheld.edit {change : Namespace → Except NetworkError Namespace} (h : world.Upheld id egress fits)
    (hhost : world.current = hostNamespace → ∀ ns ns', change ns = .ok ns' → ns'.only id egress = ns.only id egress)
    (hinside : world.current = id.namespaceName → ∀ ns ns', change ns = .ok ns' → fits ns.rules → fits ns'.rules)
    (hanswer : world.edit change = (.ok (), after)) : after.Upheld id egress fits := by
  obtain ⟨ns, ns', hns, hchange, rfl⟩ := edit_ok hanswer
  constructor
  · obtain ⟨found, hfound, hroute, hrules⟩ := h.host
    by_cases hcurrent : world.current = hostNamespace
    · obtain rfl := Option.some.inj (hns.symm.trans (hcurrent ▸ hfound))
      have hsame := hhost hcurrent ns ns' hchange
      exact ⟨ns', by simp [setNamespace, hcurrent], hsame ▸ hroute, hsame ▸ hrules⟩
    · exact ⟨found, by simpa [setNamespace, Std.ExtTreeMap.getElem?_insert, hcurrent] using hfound, hroute, hrules⟩
  · intro found hfound
    simp only [setNamespace, Std.ExtTreeMap.getElem?_insert, Std.LawfulEqCmp.compare_eq_iff_eq] at hfound
    split at hfound
    · rename_i hcurrent
      obtain rfl := Option.some.inj hfound
      exact hinside hcurrent ns ns' hchange (h.inside ns (hcurrent ▸ hns))
    · exact h.inside found hfound

/-- When one copy of the route and of each rule is taken away, none is left. -/
theorem Upheld.spent {ns : Namespace} (h : world.Upheld id egress fits)
    (hns : world.namespaces[hostNamespace]? = some ns) :
    id.hostRoute ∉ ns.routes.erase id.hostRoute ∧
      ∀ rule ∈ id.hostRules egress, rule ∉ ns.rules.diff (id.hostRules egress) := by
  obtain ⟨found, hfound, hroute, hrules⟩ := h.host
  obtain rfl := Option.some.inj (hns.symm.trans hfound)
  have honce : ns.routes.filter (· = id.hostRoute) = [id.hostRoute] := hroute
  have hown : ns.rules.filter (· ∈ id.hostRules egress) = id.hostRules egress := hrules
  constructor
  · have hcount : ns.routes.count id.hostRoute = [id.hostRoute].count id.hostRoute := by
      rw [← honce, List.count_filter (by simp)]
    rw [← List.count_eq_zero, List.count_erase_self, hcount, List.count_singleton_self]
  · intro rule hrule
    have hcount : (ns.rules.filter (· ∈ id.hostRules egress)).count rule = ns.rules.count rule :=
      List.count_filter (decide_eq_true hrule)
    rw [hown] at hcount
    rw [← List.count_eq_zero, List.count_diff, ← hcount, Nat.sub_self]

/-- Whatever namespace is deleted. -/
theorem Upheld.deleteNamed {name : String} (h : world.Upheld id egress fits)
    (hanswer : world.deleteNamed name = (.ok (), after)) : after.Upheld id egress fits := by
  have hless := deleteNamed_tables hanswer
  have hhost := (deleteNamed_ok hanswer).1
  refine h.tables ((hless.namespaces _).mpr ?_) fun place ns' _ hns' => ?_
  · exact Std.ExtTreeMap.mem_erase.mpr ⟨by simpa using hhost, h.mem_host⟩
  · obtain ⟨ns, hns, hroutes, hrules, -⟩ := hless.tables place ns' hns'
    exact ⟨ns, getElem?_of_erase hns, hroutes, hrules⟩

section

variable (h : world.Upheld id egress fits) (hother : other ≠ id)
include h hother

/-- A namespace made for another slot leaves the tables of this one as they are. -/
theorem Upheld.createNamed {handle : Handle} (hanswer : world.createNamed other.namespaceName = (.ok handle, after)) :
    after.Upheld id egress fits := by
  obtain ⟨-, -, rfl⟩ := createNamed_ok hanswer
  refine h.tables (Std.ExtTreeMap.mem_insert.mpr (.inr h.mem_host)) fun name ns' hname hns' => ?_
  have hplace : ¬ other.namespaceName = name := by
    rcases hname with rfl | rfl
    · exact SlotId.namespaceName_ne_host
    · simpa using hother
  simp only [setNamespace, Std.ExtTreeMap.getElem?_insert, Std.LawfulEqCmp.compare_eq_iff_eq, if_neg hplace] at hns'
  exact ⟨ns', hns', rfl, rfl⟩

/-- The calls that are made for another slot on the host or in its own namespace. -/
theorem Upheld.outer_call {call : Call} {value : call.Reply} (hcall : Call.Outer other egress call)
    (hcurrent : world.current = hostNamespace ∨ world.current = other.namespaceName)
    (hanswer : world.answer call = (.ok value, after)) : after.Upheld id egress fits := by
  have hedit {change : Namespace → Except NetworkError Namespace}
      (hchange : ∀ ns ns', change ns = .ok ns' → ns'.without other egress = ns.without other egress)
      (hanswer : world.edit change = (.ok (), after)) : after.Upheld id egress fits := by
    refine h.edit (fun _ ns ns' hok => only_of_without hother.symm (hchange ns ns' hok)) (fun hinside => ?_) hanswer
    rcases hcurrent with hhost | hown
    · exact (SlotId.host_ne_namespaceName (hhost.symm.trans hinside)).elim
    · exact (hother (SlotId.namespaceName_inj.mp (hown.symm.trans hinside))).elim
  cases hcall with
  | onRecord =>
    obtain ⟨-, rfl⟩ := by simpa [answer] using hanswer
    exact h
  | probe =>
    rw [linkExists_ok hanswer]
    exact h
  | unplug => exact h.unlinked (unlinked_deleteLink hanswer)
  | up => exact hedit (fun _ _ => Namespace.without_setLinkUp) hanswer
  | address => exact hedit (fun _ _ => Namespace.without_addAddress) hanswer
  | route => exact hedit (fun _ _ => Namespace.without_addRoute) hanswer
  | unroute => exact hedit (fun _ _ => Namespace.without_deleteRoute) hanswer
  | rule rule hrule => exact hedit (fun _ _ => Namespace.without_appendRule hrule) hanswer
  | unrule rule hrule => exact hedit (fun _ _ => Namespace.without_deleteRule hrule) hanswer

variable (hcurrent : world.current = other.namespaceName)
include hcurrent

/-- A change in the namespace of another slot. -/
theorem Upheld.edit_other {change : Namespace → Except NetworkError Namespace}
    (hanswer : world.edit change = (.ok (), after)) : after.Upheld id egress fits :=
  h.edit (fun hhost => (SlotId.namespaceName_ne_host (hcurrent.symm.trans hhost)).elim)
    (fun hinside => (hother (SlotId.namespaceName_inj.mp (hcurrent.symm.trans hinside))).elim) hanswer

/-- The calls that furnish the namespace of another slot. -/
theorem Upheld.inner_call {call : Call} {value : call.Reply}
    (hcall : Call.Inner other (fun target => target.label = hostNamespace) call)
    (hanswer : world.answer call = (.ok value, after)) : after.Upheld id egress fits := by
  have hplace {name : String} (hname : name = hostNamespace ∨ name = id.namespaceName) : ¬ world.current = name := by
    rw [hcurrent]
    rcases hname with rfl | rfl
    · exact SlotId.namespaceName_ne_host
    · simpa using hother
  cases hcall with
  | cable =>
    obtain ⟨ns, hns, rfl⟩ := layCable_ok hanswer
    refine h.tables (Std.ExtTreeMap.mem_insert.mpr (.inr h.mem_host)) fun name ns' hname hns' => ?_
    simp only [setNamespace, Std.ExtTreeMap.getElem?_insert, Std.LawfulEqCmp.compare_eq_iff_eq,
      if_neg (hplace hname)] at hns'
    exact ⟨ns', hns', rfl, rfl⟩
  | move origin horigin =>
    obtain ⟨-, ns, hns, -, rfl⟩ := moveLink_ok hanswer
    refine h.tables (Std.ExtTreeMap.mem_modify.mpr (Std.ExtTreeMap.mem_insert.mpr (.inr h.mem_host)))
      fun name ns' hname hns' => ?_
    have hsame : (world.namespaces.insert world.current (ns.dropLink other.vethName))[name]? =
        world.namespaces[name]? := by
      simp only [Std.ExtTreeMap.getElem?_insert, Std.LawfulEqCmp.compare_eq_iff_eq, if_neg (hplace hname)]
    rw [Std.ExtTreeMap.getElem?_modify] at hns'
    split at hns'
    · rename_i htarget
      obtain rfl := Std.LawfulEqCmp.compare_eq_iff_eq.mp htarget
      obtain ⟨found, hfound, rfl⟩ := Option.map_eq_some_iff.mp hns'
      exact ⟨found, hsame.symm.trans hfound, rfl, rfl⟩
    · exact ⟨ns', hsame.symm.trans hns', rfl, rfl⟩
  | _ => exact h.edit_other hother hcurrent hanswer

end
end SlotPool.World
