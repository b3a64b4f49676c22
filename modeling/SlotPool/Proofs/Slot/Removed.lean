import Mathlib.Data.List.Count
import SlotPool.Proofs.Slot.Cleared
import SlotPool.Proofs.Slot.Mild
import SlotPool.Proofs.Slot.Operation
import SlotPool.Proofs.World.Shrinks
/-!
Taking a complete network away, exactly. A removal goes on past failures, and it counts what is absent as
removed. If the thread is not taken back after the firewall was closed, what is on the host is absent from where
the thread is. Then a removal that succeeds has left it, and otherwise nothing is left.
-/

namespace SlotPool

open Sequence

namespace Namespace.Bereft

variable {id : SlotId} {egress : String} {ns ns' : Namespace}

/-- A complete namespace of a slot has nothing of what the slot has on the host: not the outer end of the cable,
    not the host's route and none of the host's rules. -/
theorem furnished : (id.furnished .allowed).Bereft id egress := by
  refine ⟨?_, ?_, fun rule hrule hmem => ?_⟩
  · rw [Std.ExtTreeMap.mem_iff_isSome_getElem?, SlotId.furnished, put_links_other (by simp),
      put_links_other (by simp), put_links_other (by simp), bare_links (by simp)]
    simp
  · intro hmem
    exact SlotId.defaultRoute_ne_hostRoute (List.mem_singleton.mp hmem).symm
  · rcases List.mem_append.mp hmem with hnat | hhook
    · exact SlotId.natRules_ne_hostRules hnat hrule
    · obtain rfl := List.mem_singleton.mp hhook
      exact SlotId.hookRule_ne_hostRules hrule

/-- Fewer rules, and other chains. -/
theorem less (h : ns.Bereft id egress) (hlinks : ns'.links = ns.links) (hroutes : ns'.routes = ns.routes)
    (hrules : ∀ rule ∈ ns'.rules, rule ∈ ns.rules) : ns'.Bereft id egress where
  veth := hlinks ▸ h.veth
  route := hroutes ▸ h.route
  rules rule hrule hmem := h.rules rule hrule (hrules rule hmem)

/-- Adding a rule that is none of the host's rules keeps it so. -/
theorem append {rule : Rule} (hother : rule ∉ id.hostRules egress) (hok : World.appendRule rule ns = .ok ns')
    (h : ns.Bereft id egress) : ns'.Bereft id egress := by
  rw [World.appendRule_ok hok]
  refine ⟨h.veth, h.route, fun own hown hmem => ?_⟩
  rcases List.mem_append.mp hmem with hold | hnew
  · exact h.rules own hown hold
  · exact hother (List.mem_singleton.mp hnew ▸ hown)

/-- Emptying a chain only takes rules away. -/
theorem flush {table : Table} {chain : String} (hok : World.flushChain table chain ns = .ok ns')
    (h : ns.Bereft id egress) : ns'.Bereft id egress := by
  unfold World.flushChain at hok
  split at hok
  · obtain rfl := by simpa using hok
    exact h.less rfl rfl fun rule hmem => (List.mem_filter.mp hmem).1
  · cases hok

theorem unrule {rule : Rule} (hok : World.deleteRule rule ns = .ok ns') (h : ns.Bereft id egress) :
    ns'.Bereft id egress := by
  obtain ⟨-, rfl⟩ := World.deleteRule_ok hok
  exact h.less rfl rfl fun rule hmem => List.mem_of_mem_erase hmem

/-- A new chain brings no rule. -/
theorem chain {table : Table} {chain : String} (hok : World.newChain table chain ns = .ok ns')
    (h : ns.Bereft id egress) : ns'.Bereft id egress := by
  unfold World.newChain at hok
  split at hok
  · cases hok
  · obtain rfl := by simpa using hok
    exact h.less rfl rfl fun _ hmem => hmem

/-- Taking a chain away brings nothing either. -/
theorem unchain {table : Table} {chain : String} (hok : World.deleteChain table chain ns = .ok ns')
    (h : ns.Bereft id egress) : ns'.Bereft id egress := by
  unfold World.deleteChain at hok
  split at hok
  · cases hok
  · split at hok
    · cases hok
    · obtain rfl := by simpa using hok
      exact h.less rfl rfl fun _ hmem => hmem

end Namespace.Bereft

theorem World.Clear.rid {world : World} {id : SlotId} {egress : String} (h : world.Clear id egress) :
    world.Rid id egress where
  unnamed := h.absent
  host ns hns := ⟨fun hlink => h.links _ _ (.inl rfl) ⟨ns, hns, hlink⟩, (h.host ns hns).1, (h.host ns hns).2⟩

/-- A job that takes the firewall away: only the slot's namespace has changed since the network was complete, and
    the thread is there or on the host. -/
structure Unwalling (id : SlotId) (egress : String) (base : World) (host : Namespace) (peers : Named String)
    (slot : Slot) (world : World) : Prop where
  id_eq : slot.id = id
  home : ∀ handle, slot.handle = some handle → handle.label = id.namespaceName
  thread : world.current = hostNamespace ∨ world.current = id.namespaceName
  staged : ∃ inner : Namespace, inner.Bereft id egress ∧ world = base.stage id world.current host inner peers

namespace Unwalling

variable {hazard : Hazard} {id : SlotId} {egress : String} {base : World} {host : Namespace}
  {peers : Named String} {slot after : Slot} {world world' : World}

/-- While the thread is in the slot's namespace. -/
def Inside (id : SlotId) (egress : String) (base : World) (host : Namespace) (peers : Named String)
    (slot : Slot) (world : World) : Prop :=
  Unwalling id egress base host peers slot world ∧ world.current = id.namespaceName

/-- The thread is back on the host, unless a guard may have failed to take it there. -/
def Back (hazard : Hazard) (id : SlotId) (egress : String) (base : World) (host : Namespace)
    (peers : Named String) (slot : Slot) (world : World) : Prop :=
  Unwalling id egress base host peers slot world ∧ (world.current = hostNamespace ∨ ¬ hazard.Returns)

theorem memory (h : Unwalling id egress base host peers slot world) (hid : after.id = slot.id)
    (hhandle : after.handle = slot.handle) : Unwalling id egress base host peers after world :=
  ⟨hid.trans h.id_eq, hhandle ▸ h.home, h.thread, h.staged⟩

theorem onHost (h : Unwalling id egress base host peers slot world) :
    world.namespaces[hostNamespace]? = some host := by
  obtain ⟨inner, -, hstaged⟩ := h.staged
  rw [hstaged]
  exact World.stage_host

/-- Entering the host or the slot's namespace changes nothing of either. -/
theorem enter {target : Handle} (h : Unwalling id egress base host peers slot world)
    (htarget : target.label = hostNamespace ∨ target.label = id.namespaceName)
    (hanswer : world.enter target = (.ok (), world')) : Unwalling id egress base host peers slot world' := by
  obtain ⟨-, rfl⟩ := World.enter_ok hanswer
  obtain ⟨inner, hbereft, hstaged⟩ := h.staged
  refine ⟨h.id_eq, h.home, htarget, inner, hbereft, ?_⟩
  rw [hstaged]
  rfl

/-- A change of the slot's namespace. -/
theorem Inside.edit {change : Namespace → Except NetworkError Namespace}
    (h : Inside id egress base host peers slot world)
    (hchange : ∀ ns ns' : Namespace, change ns = .ok ns' → ns.Bereft id egress → ns'.Bereft id egress)
    (hanswer : world.edit change = (.ok (), world')) : Inside id egress base host peers slot world' := by
  obtain ⟨⟨hid, hhome, hthread, inner, hbereft, hstaged⟩, hcurrent⟩ := h
  obtain ⟨ns, changed, hns, hok, -⟩ := World.edit_ok hanswer
  rw [hstaged, hcurrent] at hanswer hns
  obtain rfl : inner = ns := Option.some.inj (World.stage_inner.symm.trans hns)
  rw [World.stage_edit_inner hok] at hanswer
  obtain rfl := (Prod.mk.inj hanswer).2
  exact ⟨⟨hid, hhome, .inr rfl, changed, hchange _ _ hok hbereft, rfl⟩, rfl⟩

variable (hazard id egress base host peers)

/-- What is done for a firewall changes the slot's namespace alone, and puts nothing there that belongs on the
    host. -/
theorem wall :
    Wall (World.replies hazard) (fun _ => True) id
      (fun origin => origin.label = hostNamespace ∨ origin.label = id.namespaceName)
      (fun handle => handle.label = id.namespaceName) (Unwalling id egress base host peers)
      (Inside id egress base host peers) (Inside id egress base host peers) where
  of_inside h := h.1
  holds _ := trivial
  id_eq h := h.id_eq
  handle h hsome := h.home _ hsome
  capture h hreply := by
    obtain ⟨rfl, hcaptured⟩ := World.replies_captured hreply
    exact ⟨h, fun origin hresult => hcaptured origin hresult ▸ h.thread⟩
  returns htarget h hreply := World.replies_keeps hreply h fun _ hanswer => h.enter htarget hanswer
  opens h hreply := by
    obtain ⟨rfl, hlabel⟩ := World.replies_opened hreply
    exact ⟨h, hlabel⟩
  enters htarget h hreply := by
    have hkept := World.replies_keeps hreply h fun _ hanswer => h.enter (.inr htarget) hanswer
    refine ⟨hkept, ?_⟩
    rintro rfl
    exact ⟨hkept, (World.replies_entered hreply).trans htarget⟩
  rules hc h hreply := World.replies_keeps hreply h fun _ hanswer => by
    cases hc with
    | flush => exact h.edit (fun _ _ => Namespace.Bereft.flush) hanswer
    | rule rule hrule =>
      exact h.edit (fun _ _ => Namespace.Bereft.append (SlotId.blockRules_ne_hostRules hrule)) hanswer
  unchains hc h _ hreply := World.replies_keeps hreply h fun _ hanswer => by
    cases hc with
    | unhook => exact h.edit (fun _ _ => Namespace.Bereft.unrule) hanswer
    | unchain => exact h.edit (fun _ _ => Namespace.Bereft.unchain) hanswer
  chains h _ hreply := by
    have hkept := World.replies_keeps hreply h fun _ hanswer =>
      h.edit (fun _ _ => Namespace.Bereft.chain) hanswer
    exact ⟨hkept, fun _ => hkept⟩
  hooks {guards slot world result world'} h hreply := by
    have hkept : Inside id egress base host peers slot world' := World.replies_keeps hreply h fun _ hanswer =>
      h.edit (fun _ _ => Namespace.Bereft.append SlotId.hookRule_ne_hostRules) hanswer
    exact ⟨hkept, fun _ => ⟨hkept.1.memory (by simp) (by simp), hkept.2⟩⟩
  made_holds _ := trivial
  memory hid hhandle _ := ⟨fun h => h.memory hid hhandle, fun h => ⟨h.1.memory hid hhandle, h.2⟩⟩

/-- A job that begins on the host ends there, unless the guard fails to take the thread back. Where it ends
    otherwise is the slot's namespace. -/
theorem around :
    Around (World.replies hazard) (fun _ => True) (fun origin => origin.label = hostNamespace)
      (Unwalling id egress base host peers)
      (fun slot world => Unwalling id egress base host peers slot world ∧ world.current = hostNamespace)
      (Back hazard id egress base host peers) where
  holds _ := trivial
  returns {origin slot world result world'} horigin h hreply := by
    rcases hreply with hanswered | ⟨failure, hstruck, rfl, rfl⟩
    · have hmem : origin.label ∈ world.namespaces := by
        rw [horigin, Std.ExtTreeMap.mem_iff_isSome_getElem?, h.onHost]
        rfl
      obtain ⟨rfl, rfl⟩ := World.enter_mem hmem hanswered
      exact ⟨h.enter (.inl horigin) hanswered, .inl horigin⟩
    · exact ⟨h, .inr fun hreturns => hreturns _ _ hstruck⟩
  out h := h.1
  stays h := ⟨h.1, .inl h.2⟩
  captures h hreply := by
    obtain ⟨rfl, hcaptured⟩ := World.replies_captured hreply
    exact ⟨⟨h.1, .inl h.2⟩, fun origin hresult => hcaptured origin hresult ▸ h.2⟩
  unwalled h := ⟨h.1.memory (by simp) (by simp), h.2⟩

end Unwalling

/-- The thread is in the namespace of a slot, which is deleted, and all that belongs to the slot on the host
    stands. -/
structure World.Stranded (id : SlotId) (egress : String) (world : World) : Prop where
  current : world.current = id.namespaceName
  unnamed : id.namespaceName ∉ world.namespaces
  host : ∃ ns : Namespace, world.namespaces[hostNamespace]? = some ns ∧ id.hostRoute ∈ ns.routes ∧
    ∀ rule ∈ id.hostRules egress, rule ∈ ns.rules

/-- Where a removal leads that succeeds: nothing is left and the thread is on the host, or the thread was not
    taken back. -/
def Removed (hazard : Hazard) (id : SlotId) (egress : String) (_ : Slot) (world : World) : Prop :=
  world.current = hostNamespace ∧ world.Rid id egress ∨ ¬ hazard.Returns ∧ world.Stranded id egress

section

variable {hazard : Hazard} {id : SlotId} {egress : String} {inside : List NetworkError} (hplain : hazard.Plain)
include hplain

/-- From the host, all that belongs to the slot is found. So what is left when the deletions succeed is known
    exactly: nothing. -/
theorem Outlying.removeOutside {routes : List Route} {rules : List Rule} {struck : Prop}
    (hstruck : hazard.Strikes → struck) (hinside : inside ≠ [] → struck) :
    Triple (World.replies hazard) (fun _ => True) (Outlying (·.id = id) id routes rules True True)
      (Slot.removeOutside id egress inside)
      (Outlying (· = .fresh id) id (routes.erase id.hostRoute) (rules.diff (id.hostRules egress)) False False)
      fun _ _ => struck := by
  have hlist : AllLead (World.replies hazard) (Outlying (·.id = id) id routes rules True True)
      ((id.hostRules egress).map (fun rule =>
          Slot.deletion "deleting host forwarding rule" (perform (.deleteRule rule)))
        ++ [Slot.deletion "deleting host route" (perform (.deleteRoute id.hostRoute)),
          Slot.deletion "deleting veth" (perform (.deleteLink id.vethName))])
      (Outlying (·.id = id) id (routes.erase id.hostRoute) (rules.diff (id.hostRules egress)) False True) struck :=
    unruleAll hplain hstruck (.cons (unroute hplain hstruck) (.cons (unplug hplain hstruck) .nil))
  have hforget (slot : Slot) (world : World) (h : Outlying (·.id = id) id (routes.erase id.hostRoute)
      (rules.diff (id.hostRules egress)) False True slot world) :
      Outlying (· = .fresh id) id (routes.erase id.hostRoute) (rules.diff (id.hostRules egress)) False True
        slot.clearNetwork.2 world :=
    ⟨by rw [← h.1]; rfl, h.2⟩
  exact AllLead.collect hlist hforget (.cons (erase hplain hstruck) .nil) hinside

/-- Where there is nothing of what a slot has on the host, nothing of it is found, and every deletion there
    counts it as removed. -/
theorem Unchanged.outside {memory : Slot → Prop} {base : World} {ns : Namespace} {struck : Prop}
    (hstruck : hazard.Strikes → struck) (hhere : base.namespaces[base.current]? = some ns)
    (hbereft : ns.Bereft id egress) :
    AllLead (World.replies hazard) (Unchanged memory base)
      ((id.hostRules egress).map (fun rule =>
          Slot.deletion "deleting host forwarding rule" (perform (.deleteRule rule)))
        ++ [Slot.deletion "deleting host route" (perform (.deleteRoute id.hostRoute)),
          Slot.deletion "deleting veth" (perform (.deleteLink id.vethName))])
      (Unchanged memory base) struck := by
  refine .same fun steps hmem => ?_
  rcases List.mem_append.mp hmem with hmap | hlast
  · obtain ⟨rule, hrule, rfl⟩ := List.mem_map.mp hmap
    exact unrule hplain hstruck hhere hbereft hrule
  · simp only [List.mem_cons, List.not_mem_nil, or_false] at hlast
    rcases hlast with rfl | rfl
    · exact unroute hplain hstruck hhere hbereft
    · exact unplug hplain hstruck hhere hbereft

/-- A slot that is removed already can be removed again, and nothing changes. -/
theorem Unchanged.remove {base : World} {ns : Namespace} {struck : Prop} (hstruck : hazard.Strikes → struck)
    (hcurrent : base.current = hostNamespace) (hns : base.namespaces[hostNamespace]? = some ns)
    (hrid : base.Rid id egress) :
    Triple (World.replies hazard) (fun _ => True) (Unchanged (· = .fresh id) base) (Slot.remove egress)
      (Unchanged (· = .fresh id) base) fun _ _ => struck := by
  have hhere : base.namespaces[base.current]? = some ns := hcurrent ▸ hns
  have herase : Triple (World.replies hazard) (fun _ => True) (Unchanged (· = .fresh id) base)
      (Slot.deletion "deleting namespace" (perform (.deleteNamespace id.namespaceName)))
      (Unchanged (· = .fresh id) base) fun _ _ => struck :=
    .delete (World.ensures_delete hplain hstruck (Unchanged.refused (World.deleteNamed_absent hrid.unnamed)))
  have hforget (slot : Slot) (world : World) (h : Unchanged (· = .fresh id) base slot world) :
      Unchanged (· = .fresh id) base slot.clearNetwork.2 world :=
    ⟨by rw [h.1]; rfl, h.2⟩
  have houtside : Triple (World.replies hazard) (fun _ => True) (Unchanged (· = .fresh id) base)
      (Slot.removeOutside id egress []) (Unchanged (· = .fresh id) base) fun _ _ => struck :=
    AllLead.collect (Unchanged.outside hplain hstruck hhere (hrid.host ns hns)) hforget (.cons herase .nil)
      fun hprior => (hprior rfl).elim
  refine .get fun seen => ?_
  rintro slot world ⟨rfl, h⟩
  obtain rfl : slot = .fresh id := h.1
  -- no firewall is remembered that could be closed
  exact houtside _ world h

/-- From the slot's namespace, only that namespace itself is found, since namespaces are deleted by name from
    anywhere. The deletions of the rules, the route and the cable find nothing, and the removal succeeds. -/
theorem Unchanged.removeOutside {base : World} {ns host : Namespace}
    (hcurrent : base.current = id.namespaceName) (hns : base.namespaces[id.namespaceName]? = some ns)
    (hbereft : ns.Bereft id egress) (hhost : base.namespaces[hostNamespace]? = some host)
    (hroute : id.hostRoute ∈ host.routes) (hrules : ∀ rule ∈ id.hostRules egress, rule ∈ host.rules) :
    Triple (World.replies hazard) (fun _ => True) (Unchanged (·.id = id) base)
      (Slot.removeOutside id egress inside) (fun _ world => world.Stranded id egress) fun _ _ => True := by
  have hstruck (_ : hazard.Strikes) : True := trivial
  have hhere : base.namespaces[base.current]? = some ns := hcurrent ▸ hns
  have herase (slot : Slot) (world : World) (result : Except NetworkError Unit) (world' : World)
      (h : Unchanged (·.id = id) base slot world)
      (hanswer : world.answer (.deleteNamespace id.namespaceName) = (result, world')) :
      world'.Stranded id egress ∧ ∀ failure, result = .error failure → failure.isNotFound = true := by
    rw [h.2] at hanswer
    cases result with
    | error failure =>
      have habsent := (World.deleteNamed_error hanswer).2 SlotId.namespaceName_ne_host
      exact (habsent (Std.ExtTreeMap.mem_iff_isSome_getElem?.mpr (by simp [hns]))).elim
    | ok value =>
      obtain ⟨hthread, hplaces⟩ := World.deleteNamed_places hanswer
      have hleft : hostNamespace ∈ world'.namespaces :=
        (hplaces _).mpr ⟨SlotId.host_ne_namespaceName, Std.ExtTreeMap.mem_iff_isSome_getElem?.mpr (by simp [hhost])⟩
      obtain ⟨host', hhost'⟩ := Option.isSome_iff_exists.mp (Std.ExtTreeMap.mem_iff_isSome_getElem?.mp hleft)
      obtain ⟨found, hfound, hroutes, hsame, -⟩ := (World.deleteNamed_tables hanswer).tables _ host' hhost'
      obtain rfl := Option.some.inj (hhost.symm.trans (World.getElem?_of_erase hfound))
      refine ⟨⟨hthread.trans hcurrent, fun hmem => ((hplaces _).mp hmem).1 rfl, host', hhost', ?_, ?_⟩, by simp⟩
      · exact hroutes ▸ hroute
      · exact hsame ▸ hrules
  exact AllLead.collect (Unchanged.outside hplain hstruck hhere hbereft) (fun _ _ h => h)
    (.cons (.delete (World.ensures_delete hplain hstruck herase)) .nil) fun _ => trivial

omit hplain in
/-- What is taken from the host, one copy of each, was made there once. -/
theorem Outlying.rid {memory : Slot → Prop} {host : Namespace} {slot : Slot} {world : World}
    (hroute : id.hostRoute ∉ host.routes) (hrules : ∀ rule ∈ id.hostRules egress, rule ∉ host.rules)
    (h : Outlying memory id ((host.routes ++ [id.hostRoute]).erase id.hostRoute)
      ((host.rules ++ id.hostRules egress).diff (id.hostRules egress)) False False slot world) :
    world.Rid id egress := by
  refine h.2.rid_iff.mpr ⟨?_, fun rule hrule => ?_⟩
  · rw [List.erase_append_right _ hroute]
    simpa using hroute
  · rw [← List.count_eq_zero, List.count_diff, List.count_append, List.count_eq_zero.mpr (hrules rule hrule)]
    omega

/-- Whatever calls fail, a removal that succeeds has left nothing unless the thread was not taken back. Which of
    the two it is depends on where the thread is after the firewall was closed. -/
theorem Unwalling.remove {base : World} {host : Namespace} {peers : Named String}
    (hroute : id.hostRoute ∉ host.routes) (hrules : ∀ rule ∈ id.hostRules egress, rule ∉ host.rules) :
    Triple (World.replies hazard) (fun _ => True)
      (fun slot world => Unwalling id egress base (host.reaching id egress) peers slot world ∧
        world.current = hostNamespace)
      (Slot.remove egress) (Removed hazard id egress) fun _ _ => True := by
  have hclose : Triple (World.replies hazard) (fun _ => True)
      (fun slot world => Unwalling id egress base (host.reaching id egress) peers slot world ∧
        world.current = hostNamespace)
      Slot.closeFirewall (Back hazard id egress base (host.reaching id egress) peers) fun _ _ => True :=
    ((wall hazard id egress base (host.reaching id egress) peers).closeFirewall
      (around hazard id egress base (host.reaching id egress) peers)).of_bare.mono
        (fun _ _ h => h) (fun _ _ h => h) fun _ _ _ => trivial
  have hrest (inside : List NetworkError) : Triple (World.replies hazard) (fun _ => True)
      (Back hazard id egress base (host.reaching id egress) peers) (Slot.removeOutside id egress inside)
      (Removed hazard id egress) fun _ _ => True := by
    intro slot world hback
    rcases hback.1.thread with hcurrent | hcurrent
    · have hstart : Outlying (·.id = id) id (host.routes ++ [id.hostRoute]) (host.rules ++ id.hostRules egress)
          True True slot world :=
        ⟨hback.1.id_eq, hcurrent, ⟨_, hback.1.onHost, rfl, rfl, fun _ => trivial⟩, fun _ => trivial⟩
      exact (Outlying.removeOutside hplain (fun _ => trivial) (fun _ => trivial) slot world hstart).mono
        (fun _ _ _ h => .inl ⟨h.2.current, h.rid hroute hrules⟩) fun _ _ _ h => h
    · have hstray := hback.2.resolve_left fun hhost => SlotId.namespaceName_ne_host (hcurrent.symm.trans hhost)
      obtain ⟨inner, hbereft, hstaged⟩ := hback.1.staged
      have hinner : world.namespaces[id.namespaceName]? = some inner := by
        rw [hstaged]
        exact World.stage_inner
      have hstart : Unchanged (·.id = id) world slot world := ⟨hback.1.id_eq, rfl⟩
      have hstands : ∀ rule ∈ id.hostRules egress, rule ∈ (host.reaching id egress).rules :=
        fun rule hrule => List.mem_append_right _ hrule
      exact (Unchanged.removeOutside hplain hcurrent hinner hbereft hback.1.onHost
        (List.mem_append_right _ (List.mem_singleton_self _)) hstands slot world hstart).mono
          (fun _ _ _ h => .inr ⟨hstray, h⟩) fun _ _ _ h => h
  refine .get fun seen => ?_
  rintro slot world ⟨rfl, h⟩
  obtain rfl := h.1.id_eq
  exact Triple.bind hclose hrest slot world h

end

/-- On a machine where every fault that is ordered fails in one way, the calls of a program fail in that way or
    not at all. -/
theorem Rehearsal.Failing.meets {α : Type} {failure : NetworkError} {p : Program α} {rehearsal : Rehearsal World}
    (h : rehearsal.Failing failure) :
    p.Meets (rehearsing World.machine) (·.machine) (World.replies fun _ _ struck => struck = failure) rehearsal :=
  have hmild : p.Mild (rehearsing World.machine) (·.machine) (World.replies fun _ _ struck => struck = failure)
      (World.replies fun _ _ struck => struck = failure) (fun _ : Program Unit => False) rehearsal :=
    Program.mild_of_strict Failing.answer (fun _ _ _ _ _ hreply => hreply) h
  hmild.meets

namespace Operation

variable {σ : Type} {machine : Machine σ} {view : σ → World} {egress : String} {state state' begun last : σ}
  {slot made after : Slot} {hazard : Hazard}

/-- After a complete network was made where nothing was left of the slot, a removal that succeeds has left
    nothing, and the thread is on the host, whatever calls failed in it. Only if a guard may fail to take the
    thread back, the thread may be left in the slot's namespace, which is deleted, and then all that belongs to
    the slot on the host stands. -/
theorem removed_or_stranded (hmachine : machine.Within view (World.replies .any))
    (hcurrent : (view state).current = hostNamespace) (hhost : hostNamespace ∈ (view state).namespaces)
    (hrid : (view state).Rid slot.id egress)
    (hcreate : (create.program egress slot).run machine state = (some (.ok (), made), state'))
    (hbegun : view begun = view state') (hplain : hazard.Plain)
    (hmeets : (remove.program egress made).Meets machine view (World.replies hazard) begun)
    (hremove : (remove.program egress made).run machine begun = (some (.ok (), after), last)) :
    (view last).current = hostNamespace ∧ (view last).Rid slot.id egress ∨
      ¬ hazard.Returns ∧ (view last).Stranded slot.id egress := by
  obtain ⟨host, hns⟩ := Option.isSome_iff_exists.mp (Std.ExtTreeMap.mem_iff_isSome_getElem?.mp hhost)
  obtain ⟨-, hroute, hrules⟩ := hrid.host host hns
  have hbuilds : Triple (World.replies .any) (Attempt slot.id egress host)
      (fun made world => made.id = slot.id ∧ world = view state) (Slot.create egress)
      (Staged (view state) slot.id (some slot.id.handle) (some .allowed) hostNamespace
        (host.reaching slot.id egress) (slot.id.furnished .allowed) (World.withCable (view state).peers slot.id))
      (Failed True slot.id egress host) :=
    Staged.create (fun _ => trivial) hcurrent hns hrid.unnamed fun _ => trivial
  have hstaged : Staged (view state) slot.id (some slot.id.handle) (some .allowed) hostNamespace
      (host.reaching slot.id egress) (slot.id.furnished .allowed) (World.withCable (view state).peers slot.id)
      made (view begun) := hbegun ▸ hbuilds.run hmachine ⟨rfl, rfl⟩ hcreate
  have hhome (handle : Handle) (hsome : made.handle = some handle) : handle.label = slot.id.namespaceName := by
    obtain rfl := Option.some.inj (hstaged.handle.symm.trans hsome)
    rfl
  have hback : (view begun).current = hostNamespace := by
    rw [hstaged.world_eq]
    rfl
  have hstart : Unwalling slot.id egress (view state) (host.reaching slot.id egress)
      (World.withCable (view state).peers slot.id) made (view begun) := by
    refine ⟨hstaged.id_eq, hhome, .inl hback, _, .furnished, ?_⟩
    rw [hback]
    exact hstaged.world_eq
  obtain ⟨⟨result, ended⟩, finish, hrun, hend⟩ :=
    hmeets.run (Unwalling.remove hplain hroute hrules made _ ⟨hstart, hback⟩)
  obtain ⟨hresult, rfl⟩ := Prod.mk.inj (hremove.symm.trans hrun)
  obtain ⟨rfl, rfl⟩ := Prod.mk.inj (Option.some.inj hresult)
  exact hend

/-- The second move between namespaces fails. -/
def strayFault : Fault := ⟨"enter_namespace", 1, 1, some (.command "ip" "failed")⟩

/-- How the network of the first slot is removed when the thread is not taken back. -/
def strayRemoval : Option (Except NetworkError Unit × Slot) × Rehearsal World :=
  (remove.program "eth0" neighbour).run (Rehearsal.rehearsing World.machine) (neighbourMade.2.order strayFault)

theorem strayRemoval_results :
    neighbourMade.1.map (fun ended => (ended.1.isOk, ended.2)) = some (true, neighbour) ∧
      neighbourMade.2.faults.isEmpty ∧ neighbourMade.2.refused = [] ∧
      strayRemoval.1.map (·.1.isOk) = some true ∧ strayRemoval.2.machine.current = "ns-0" ∧
      strayRemoval.2.machine.namespaces[hostNamespace]?.map (·.rules) = some ((0 : SlotId).hostRules "eth0") := by
  decide +kernel

/-- The guard of the firewall cannot take the thread back. The removal then looks for everything in the slot's
    own namespace, finds nothing there, counts it as removed and succeeds. -/
theorem stranded_strayRemoval : ∃ after, strayRemoval = (some (.ok (), after), strayRemoval.2) ∧
    strayRemoval.2.machine.Stranded 0 "eth0" := by
  obtain ⟨hmade, hfaults, hrefused, hremoved, hthread, -⟩ := strayRemoval_results
  obtain ⟨⟨result, made⟩, hended, hmade⟩ := Option.map_eq_some_iff.mp hmade
  obtain ⟨hok, rfl⟩ := Prod.mk.inj hmade
  obtain ⟨⟨result', after⟩, hended', hok'⟩ := Option.map_eq_some_iff.mp hremoved
  cases result with
  | error failure => cases hok
  | ok value =>
    cases result' with
    | error failure => cases hok'
    | ok value =>
      have hcreate : neighbourMade = (some (.ok (), neighbour), neighbourMade.2) := Prod.ext hended rfl
      have hremove : strayRemoval = (some (.ok (), after), strayRemoval.2) := Prod.ext hended' rfl
      have hfailing : (neighbourMade.2.order strayFault).Failing (.command "ip" "failed") := by
        refine ⟨hrefused, fun fault hmem => ?_⟩
        rw [Rehearsal.order, List.isEmpty_iff.mp hfaults] at hmem
        obtain rfl := List.mem_singleton.mp hmem
        rfl
      have hrid : World.fresh.Rid 0 "eth0" := (World.fresh_clear 0 "eth0").rid
      have hplain : Hazard.Plain fun _ _ failure => failure = .command "ip" "failed" := by
        rintro _ _ _ rfl
        rfl
      have hsame : (neighbourMade.2.order strayFault).machine = neighbourMade.2.machine := rfl
      have hend := removed_or_stranded Rehearsal.rehearsing_within rfl Std.ExtTreeMap.mem_insert_self hrid hcreate
        hsame hplain hfailing.meets hremove
      refine ⟨after, hremove, (hend.resolve_left fun hnone => ?_).2⟩
      have hstray : "ns-0" = hostNamespace := hthread.symm.trans hnone.1
      exact absurd hstray (by decide)

/-- The removal of a complete network succeeds and leaves the slot's rules: the one call that fails is that by
    which the guard would have taken the thread back. -/
theorem removal_leaves_rules :
    neighbourMade.1.map (fun ended => (ended.1.isOk, ended.2)) = some (true, neighbour) ∧
      strayRemoval.1.map (·.1.isOk) = some true ∧ strayRemoval.2.machine.current ≠ hostNamespace ∧
      ¬ strayRemoval.2.machine.Rid 0 "eth0" := by
  obtain ⟨hmade, -, -, hremoved, hthread, hrules⟩ := strayRemoval_results
  refine ⟨hmade, hremoved, ?_, fun hrid => ?_⟩
  · rw [hthread]
    decide
  · obtain ⟨ns, hns, hleft⟩ := Option.map_eq_some_iff.mp hrules
    have hleft : ns.rules = (0 : SlotId).hostRules "eth0" := hleft
    have hrule : ((0 : SlotId).hostRules "eth0").head (by decide) ∈ (0 : SlotId).hostRules "eth0" := List.head_mem _
    refine (hrid.host ns hns).rules _ hrule ?_
    rw [hleft]
    exact hrule

end Operation
end SlotPool
