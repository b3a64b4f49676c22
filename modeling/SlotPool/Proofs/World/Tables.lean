import Mathlib.Data.List.Nodup
import SlotPool.Proofs.World.Places
/-!
Routes and rules. They are changed one at a time and only in the namespace in which the thread is; what is done
to links leaves them alone.
-/

namespace SlotPool.World

variable {world after : World}

/-- Every namespace has the routes and the rules that it had, and no link that it did not have. -/
structure Unlinked (before after : World) : Prop extends SamePlaces before after where
  tables : ∀ (name : String) (ns' : Namespace), after.namespaces[name]? = some ns' →
    ∃ ns : Namespace, before.namespaces[name]? = some ns ∧ ns'.routes = ns.routes ∧ ns'.rules = ns.rules ∧
      ∀ link, link ∈ ns'.links → link ∈ ns.links

theorem Unlinked.refl (world : World) : Unlinked world world :=
  ⟨.refl world, fun _ ns hns => ⟨ns, hns, rfl, rfl, fun _ hlink => hlink⟩⟩

/-- Two changes that only touch devices are one such change. -/
theorem Unlinked.trans {first second third : World} (h : Unlinked first second) (h' : Unlinked second third) :
    Unlinked first third where
  toSamePlaces := h.toSamePlaces.trans h'.toSamePlaces
  tables name ns'' hns'' := by
    obtain ⟨ns', hns', hroutes', hrules', hlinks'⟩ := h'.tables name ns'' hns''
    obtain ⟨ns, hns, hroutes, hrules, hlinks⟩ := h.tables name ns' hns'
    exact ⟨ns, hns, hroutes'.trans hroutes, hrules'.trans hrules, fun link hlink => hlinks link (hlinks' link hlink)⟩

/-- When the other end of a cable goes, no table of routes or rules is touched. -/
theorem unlinked_dropPeer {link : String} : Unlinked world (world.dropPeer link) := by
  refine ⟨samePlaces_dropPeer, fun name ns' hns' => ?_⟩
  unfold dropPeer at hns'
  split at hns'
  · exact (Unlinked.refl world).tables name ns' hns'
  · rw [Std.ExtTreeMap.getElem?_map, Option.map_eq_some_iff] at hns'
    obtain ⟨ns, hns, rfl⟩ := hns'
    exact ⟨ns, hns, rfl, rfl, fun _ hlink => Std.ExtTreeMap.mem_of_mem_erase hlink⟩

theorem unlinked_dropPeers {links : List String} : Unlinked world (links.foldl dropPeer world) := by
  induction links generalizing world with
  | nil => exact .refl world
  | cons link links ih => exact unlinked_dropPeer.trans ih

/-- A change where the thread is touches no table if it keeps the routes and the rules there. -/
theorem unlinked_setNamespace {ns changed : Namespace} (hns : world.namespaces[world.current]? = some ns)
    (hroutes : changed.routes = ns.routes) (hrules : changed.rules = ns.rules)
    (hlinks : ∀ link, link ∈ changed.links → link ∈ ns.links) :
    Unlinked world (world.setNamespace world.current changed) := by
  refine ⟨samePlaces_setNamespace hns, fun name ns' hns' => ?_⟩
  simp only [setNamespace, Std.ExtTreeMap.getElem?_insert, Std.LawfulEqCmp.compare_eq_iff_eq] at hns'
  split at hns'
  · rename_i hname
    obtain rfl := Option.some.inj hns'
    exact ⟨ns, hname ▸ hns, hroutes, hrules, hlinks⟩
  · exact ⟨ns', hns', rfl, rfl, fun _ hlink => hlink⟩

theorem unlinked_deleteLink {name : String} (hanswer : world.deleteLink name = (.ok (), after)) :
    Unlinked world after := by
  obtain ⟨ns, hns, -, rfl⟩ := deleteLink_ok hanswer
  have hdropped : Unlinked world (world.setNamespace world.current (ns.dropLink name)) :=
    unlinked_setNamespace hns rfl rfl fun _ hlink => Std.ExtTreeMap.mem_of_mem_erase hlink
  exact hdropped.trans unlinked_dropPeer

/-- A namespace that is left when another is deleted has its routes and its rules. -/
theorem deleteNamed_tables {name : String} (hanswer : world.deleteNamed name = (.ok (), after)) :
    Unlinked { world with namespaces := world.namespaces.erase name } after := by
  obtain ⟨-, ns, -, rfl⟩ := deleteNamed_ok hanswer
  exact unlinked_dropPeers

theorem getElem?_of_erase {name other : String} {ns : Namespace}
    (hns : (world.namespaces.erase name)[other]? = some ns) : world.namespaces[other]? = some ns := by
  simp only [Std.ExtTreeMap.getElem?_erase, Std.LawfulEqCmp.compare_eq_iff_eq] at hns
  split at hns
  · cases hns
  · exact hns

/-- No route stands twice in one namespace. -/
def Unrepeated (world : World) : Prop :=
  ∀ (name : String) (ns : Namespace), world.namespaces[name]? = some ns → ns.routes.Nodup

/-- No namespace of a fresh machine has a route twice. -/
theorem fresh_unrepeated : fresh.Unrepeated := by
  intro name ns hns
  simp only [fresh, Std.ExtTreeMap.getElem?_insert] at hns
  split at hns
  · obtain rfl := Option.some.inj hns
    exact List.nodup_nil
  · simp at hns

theorem Unrepeated.unlinked (h : world.Unrepeated) (hless : Unlinked world after) : after.Unrepeated := by
  intro name ns' hns'
  obtain ⟨ns, hns, hroutes, -⟩ := hless.tables name ns' hns'
  exact hroutes ▸ h name ns hns

/-- Where one namespace has no route twice and the others have none either, there is none anywhere. -/
theorem Unrepeated.insert {name current : String} {ns : Namespace} {peers : Named String} (h : world.Unrepeated)
    (hns : ns.routes.Nodup) : Unrepeated ⟨current, world.namespaces.insert name ns, peers⟩ := by
  intro other found hfound
  simp only [Std.ExtTreeMap.getElem?_insert] at hfound
  split at hfound
  · exact Option.some.inj hfound ▸ hns
  · exact h other found hfound

theorem Unrepeated.edit {change : Namespace → Except NetworkError Namespace} (h : world.Unrepeated)
    (hchange : ∀ ns ns', change ns = .ok ns' → ns.routes.Nodup → ns'.routes.Nodup)
    (hanswer : world.edit change = (.ok (), after)) : after.Unrepeated := by
  obtain ⟨ns, ns', hns, hok, rfl⟩ := edit_ok hanswer
  exact h.insert (hchange ns ns' hok (h _ ns hns))

theorem addRoute_nodup {route : Route} (ns ns' : Namespace) (hok : addRoute route ns = .ok ns')
    (hroutes : ns.routes.Nodup) : ns'.routes.Nodup := by
  obtain ⟨habsent, rfl⟩ := addRoute_ok hok
  exact List.nodup_append.mpr ⟨hroutes, List.nodup_singleton _, fun other hother last hlast hsame =>
    habsent (List.mem_singleton.mp hlast ▸ hsame ▸ hother)⟩

theorem deleteRoute_nodup {route : Route} (ns ns' : Namespace) (hok : deleteRoute route ns = .ok ns')
    (hroutes : ns.routes.Nodup) : ns'.routes.Nodup := by
  obtain ⟨-, rfl⟩ := deleteRoute_ok hok
  exact hroutes.erase route

/-- Moving a device repeats no route. -/
theorem Unrepeated.moveLink {name : String} {target : Handle} (h : world.Unrepeated)
    (hanswer : world.moveLink name target = (.ok (), after)) : after.Unrepeated := by
  obtain ⟨-, ns, hns, -, rfl⟩ := moveLink_ok hanswer
  have hleft : Unrepeated { world with namespaces := world.namespaces.insert world.current (ns.dropLink name) } :=
    h.insert (h _ ns hns)
  intro other found hfound
  simp only [Std.ExtTreeMap.getElem?_modify] at hfound
  split at hfound
  · obtain ⟨before, hbefore, rfl⟩ := Option.map_eq_some_iff.mp hfound
    exact hleft _ before hbefore
  · exact hleft other found hfound

/-- A route is added only where it does not stand, so no call makes one stand twice. -/
theorem Unrepeated.answer {call : Call} {value : call.Reply} (h : world.Unrepeated)
    (hanswer : world.answer call = (.ok value, after)) : after.Unrepeated := by
  cases call with
  | currentNamespace | namespaceExists name | egressInterface =>
    obtain ⟨-, rfl⟩ := by simpa [World.answer] using hanswer
    exact h
  | openNamespace name =>
    obtain ⟨-, -, rfl⟩ := openNamed_ok hanswer
    exact h
  | linkExists name =>
    rw [linkExists_ok hanswer]
    exact h
  | enterNamespace target =>
    obtain ⟨-, rfl⟩ := enter_ok hanswer
    exact h
  | createNamespace name =>
    obtain ⟨-, -, rfl⟩ := createNamed_ok hanswer
    exact h.insert List.nodup_nil
  | deleteNamespace name =>
    have herased : Unrepeated { world with namespaces := world.namespaces.erase name } :=
      fun other ns hns => h other ns (getElem?_of_erase hns)
    exact herased.unlinked (deleteNamed_tables hanswer)
  | addVethPair name peer =>
    obtain ⟨ns, hns, rfl⟩ := layCable_ok hanswer
    exact h.insert (h _ ns hns)
  | moveLink link target => exact h.moveLink hanswer
  | deleteLink name => exact h.unlinked (unlinked_deleteLink hanswer)
  | addRoute route => exact h.edit addRoute_nodup hanswer
  | deleteRoute route => exact h.edit deleteRoute_nodup hanswer
  | _ =>
    refine h.edit (fun ns ns' hok hroutes => ?_) hanswer
    simp only [addTap, setLinkUp, addAddress, appendRule, deleteRule, newChain, flushChain, deleteChain] at hok
    repeat' split at hok
    all_goals first
      | cases hok; exact hroutes
      | cases hok

theorem Unrepeated.replies {hazard : Hazard} {call : Call} {guards : List Handle}
    {result : Except NetworkError call.Reply} (h : world.Unrepeated)
    (hreply : replies hazard call guards world result after) : after.Unrepeated :=
  replies_keeps hreply h fun _ hanswer => h.answer hanswer

end SlotPool.World
