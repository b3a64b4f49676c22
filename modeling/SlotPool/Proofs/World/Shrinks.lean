import Mathlib.Data.List.Perm.Subperm
import SlotPool.Proofs.World.Holdings
/-!
What belongs to a slot only gets less under the calls that take it away, and under those that are made
for its firewall. When nothing of it is left, the machine is what it would be without the slot.
-/

namespace SlotPool.World

/-- No link, namespace, route or rule of a slot is there that was not there before. -/
structure Shrinks (id : SlotId) (egress : String) (before after : World) : Prop where
  links : ∀ name link, after.HasLink name link → before.HasLink name link
  namespaces : ∀ name, name ∈ after.namespaces → name ∈ before.namespaces
  host : ∀ ns', after.namespaces[hostNamespace]? = some ns' →
    ∃ ns, before.namespaces[hostNamespace]? = some ns ∧
      (ns'.only id egress).routes.Sublist (ns.only id egress).routes ∧
      (ns'.only id egress).rules.Sublist (ns.only id egress).rules

variable {world after : World} {id : SlotId} {egress : String}

theorem Shrinks.refl (world : World) : Shrinks id egress world world :=
  ⟨fun _ _ h => h, fun _ h => h, fun ns h => ⟨ns, h, .refl _, .refl _⟩⟩

/-- What has become less twice has become less. -/
theorem Shrinks.trans {first second third : World} (h : Shrinks id egress first second)
    (h' : Shrinks id egress second third) : Shrinks id egress first third where
  links name link hlink := h.links name link (h'.links name link hlink)
  namespaces name hname := h.namespaces name (h'.namespaces name hname)
  host ns'' hns'' := by
    obtain ⟨ns', hns', hroutes', hrules'⟩ := h'.host ns'' hns''
    obtain ⟨ns, hns, hroutes, hrules⟩ := h.host ns' hns'
    exact ⟨ns, hns, hroutes'.trans hroutes, hrules'.trans hrules⟩

/-- Moving the thread changes nothing else. -/
theorem Shrinks.moved (world : World) (current : String) :
    Shrinks id egress world { world with current } :=
  ⟨fun _ _ h => h, fun _ h => h, fun ns h => ⟨ns, h, .refl _, .refl _⟩⟩

/-- A change where the thread is makes less of what belongs to a slot if no device comes with it, and on the
    host no route and no rule of the slot. -/
theorem shrinks_setNamespace {ns ns' : Namespace} (hns : world.namespaces[world.current]? = some ns)
    (hlinks : ∀ link, link ∈ ns'.links → link ∈ ns.links)
    (hless : world.current = hostNamespace →
      (ns'.only id egress).routes.Sublist (ns.only id egress).routes ∧
      (ns'.only id egress).rules.Sublist (ns.only id egress).rules) :
    Shrinks id egress world (world.setNamespace world.current ns') where
  links name link hlink := by
    have hleft := hasLink_setNamespace.mp hlink
    split at hleft
    · rename_i hname
      exact ⟨ns, hname ▸ hns, hlinks link hleft⟩
    · exact hleft
  namespaces name hname := ((samePlaces_setNamespace hns).namespaces name).mp hname
  host found hfound := by
    simp only [setNamespace, Std.ExtTreeMap.getElem?_insert, Std.LawfulEqCmp.compare_eq_iff_eq] at hfound
    split at hfound
    · rename_i hcurrent
      obtain rfl := Option.some.inj hfound
      exact ⟨ns, hcurrent ▸ hns, hless hcurrent⟩
    · exact ⟨found, hfound, .refl _, .refl _⟩

/-- An edit that adds no link, and on the host nothing of the slot. -/
theorem shrinks_edit {change : Namespace → Except NetworkError Namespace}
    (hlinks : ∀ ns ns', change ns = .ok ns' → ns'.links = ns.links)
    (hless : world.current = hostNamespace → ∀ ns ns', change ns = .ok ns' →
      (ns'.only id egress).routes.Sublist (ns.only id egress).routes ∧
      (ns'.only id egress).rules.Sublist (ns.only id egress).rules)
    (hanswer : world.edit change = (.ok (), after)) : Shrinks id egress world after := by
  obtain ⟨ns, ns', hns, hchange, rfl⟩ := edit_ok hanswer
  exact shrinks_setNamespace hns (fun link hlink => hlinks ns ns' hchange ▸ hlink)
    fun hcurrent => hless hcurrent ns ns' hchange

/-- When the other end of a cable goes, there is less than before. -/
theorem shrinks_dropPeer {link : String} : Shrinks id egress world (world.dropPeer link) := by
  unfold dropPeer
  split
  · exact .refl world
  · rename_i peer _
    refine ⟨?_, fun name hname => Std.ExtTreeMap.mem_map.mp hname, fun ns' hns' => ?_⟩
    · rintro name other ⟨ns', hns', hmem⟩
      rw [Std.ExtTreeMap.getElem?_map, Option.map_eq_some_iff] at hns'
      obtain ⟨ns, hns, rfl⟩ := hns'
      exact ⟨ns, hns, Std.ExtTreeMap.mem_of_mem_erase hmem⟩
    · rw [Std.ExtTreeMap.getElem?_map, Option.map_eq_some_iff] at hns'
      obtain ⟨ns, hns, rfl⟩ := hns'
      exact ⟨ns, hns, .refl _, .refl _⟩

theorem shrinks_dropPeers {links : List String} :
    Shrinks id egress world (links.foldl dropPeer world) := by
  induction links generalizing world with
  | nil => exact .refl world
  | cons link links ih => exact shrinks_dropPeer.trans ih

/-- Deleting a device only takes away, whichever slot the device belongs to. -/
theorem shrinks_deleteLink {link : String} (hanswer : world.deleteLink link = (.ok (), after)) :
    Shrinks id egress world after := by
  obtain ⟨ns, hns, -, rfl⟩ := deleteLink_ok hanswer
  have hset : Shrinks id egress world (world.setNamespace world.current (ns.dropLink link)) :=
    shrinks_setNamespace hns (fun _ hlink => Std.ExtTreeMap.mem_of_mem_erase hlink)
      fun _ => ⟨.refl _, .refl _⟩
  exact hset.trans shrinks_dropPeer

/-- Deleting a namespace only takes away. -/
theorem shrinks_deleteNamed {name : String} (hanswer : world.deleteNamed name = (.ok (), after)) :
    Shrinks id egress world after := by
  obtain ⟨hhost, ns, -, rfl⟩ := deleteNamed_ok hanswer
  have herased : Shrinks id egress world { world with namespaces := world.namespaces.erase name } := by
    have hleft {other : String} {found : Namespace} (hfound : (world.namespaces.erase name)[other]? = some found) :
        world.namespaces[other]? = some found := by
      simp only [Std.ExtTreeMap.getElem?_erase, Std.LawfulEqCmp.compare_eq_iff_eq] at hfound
      split at hfound
      · cases hfound
      · exact hfound
    refine ⟨?_, fun other hmem => Std.ExtTreeMap.mem_of_mem_erase hmem,
      fun found hfound => ⟨found, hleft hfound, .refl _, .refl _⟩⟩
    rintro other link ⟨found, hfound, hmem⟩
    exact ⟨found, hleft hfound, hmem⟩
  exact herased.trans shrinks_dropPeers

/-- The calls by which a slot is taken away make what belongs to it less. -/
theorem shrinks_unmaking {call : Call} {value : call.Reply} (hcall : Call.Unmaking id egress call)
    (hanswer : world.answer call = (.ok value, after)) : Shrinks id egress world after := by
  cases hcall with
  | onRecord =>
    obtain ⟨-, rfl⟩ := by simpa [answer] using hanswer
    exact .refl _
  | probe =>
    rw [linkExists_ok hanswer]
    exact .refl world
  | unplug => exact shrinks_deleteLink hanswer
  | unroute =>
    refine shrinks_edit (fun ns ns' hchange => by rw [(deleteRoute_ok hchange).2])
      (fun _ ns ns' hchange => ?_) hanswer
    rw [(deleteRoute_ok hchange).2]
    exact ⟨(List.erase_sublist ..).filter _, .refl _⟩
  | unrule rule hrule =>
    refine shrinks_edit deleteRule_links (fun _ ns ns' hchange => ?_) hanswer
    rw [(deleteRule_ok hchange).2]
    exact ⟨.refl _, (List.erase_sublist ..).filter _⟩

/-- The rules of a firewall are no rules of the host. -/
theorem shrinks_ruling {call : Call} {value : call.Reply} (hcall : Call.Ruling call)
    (hanswer : world.answer call = (.ok value, after)) : Shrinks id egress world after := by
  cases hcall with
  | flush =>
    refine shrinks_edit flushChain_links (fun _ ns ns' hchange => ?_) hanswer
    unfold flushChain at hchange
    split at hchange
    · obtain rfl := by simpa using hchange
      exact ⟨.refl _, List.filter_sublist.filter _⟩
    · cases hchange
  | rule rule hrule =>
    refine shrinks_edit appendRule_links (fun _ ns ns' hchange => ?_) hanswer
    rw [appendRule_ok hchange]
    simp [Namespace.only, List.filter_append, SlotId.blockRules_ne_hostRules hrule]

theorem shrinks_hook (hanswer : world.edit (appendRule id.hookRule) = (.ok (), after)) :
    Shrinks id egress world after := by
  refine shrinks_edit appendRule_links (fun _ ns ns' hchange => ?_) hanswer
  rw [appendRule_ok hchange]
  simp [Namespace.only, List.filter_append, SlotId.hookRule_ne_hostRules]

/-- A new chain brings no device, no route and no rule. -/
theorem shrinks_newChain {table : Table} {chain : String}
    (hanswer : world.edit (newChain table chain) = (.ok (), after)) : Shrinks id egress world after := by
  refine shrinks_edit newChain_links (fun _ ns ns' hchange => ?_) hanswer
  unfold newChain at hchange
  split at hchange
  · cases hchange
  · obtain rfl := by simpa using hchange
    exact ⟨.refl _, .refl _⟩

/-- Taking a chain away, with its hook and its rules, only takes away. -/
theorem shrinks_unchaining {call : Call} {value : call.Reply} (hcall : Call.Unchaining id call)
    (hanswer : world.answer call = (.ok value, after)) : Shrinks id egress world after := by
  cases hcall with
  | unhook =>
    refine shrinks_edit deleteRule_links (fun _ ns ns' hchange => ?_) hanswer
    rw [(deleteRule_ok hchange).2]
    exact ⟨.refl _, (List.erase_sublist ..).filter _⟩
  | unchain =>
    refine shrinks_edit deleteChain_links (fun _ ns ns' hchange => ?_) hanswer
    unfold deleteChain at hchange
    split at hchange
    · cases hchange
    · split at hchange
      · cases hchange
      · obtain rfl := by simpa using hchange
        exact ⟨.refl _, .refl _⟩

/-- Nothing is there of a slot: no namespace, no link, no entry among the cables, and no route or rule on
    the host. -/
structure Clear (world : World) (id : SlotId) (egress : String) : Prop where
  absent : id.namespaceName ∉ world.namespaces
  links : ∀ name link, link = id.vethName ∨ link = id.vpeerName ∨ link = id.tapName →
    ¬ world.HasLink name link
  peers : ∀ link, link = id.vethName ∨ link = id.vpeerName ∨ link = id.tapName → world.peers[link]? = none
  host : ∀ ns, world.namespaces[hostNamespace]? = some ns →
    id.hostRoute ∉ ns.routes ∧ ∀ rule ∈ id.hostRules egress, rule ∉ ns.rules

/-- Where there is nothing of a slot, its devices are in order. -/
theorem Clear.tidy (h : world.Clear id egress) (hloopback : world.peers[loopback]? = none) :
    world.Tidy id where
  ends := .inl ⟨h.peers _ (.inl rfl), h.peers _ (.inr (.inl rfl))⟩
  loose := ⟨hloopback, h.peers _ (.inr (.inr rfl))⟩
  inside _ hlink := by
    obtain ⟨ns, hns, -⟩ := hlink
    exact (h.absent (Std.ExtTreeMap.mem_iff_isSome_getElem?.mpr (by simp [hns]))).elim
  vpeer name hlink := (h.links name _ (.inr (.inl rfl)) hlink).elim
  veth name hlink := (h.links name _ (.inl rfl) hlink).elim
  anchored hends := by
    rw [h.peers _ (.inl rfl)] at hends
    cases hends

/-- A fresh machine has nothing of any slot. -/
theorem fresh_clear (id : SlotId) (egress : String) : fresh.Clear id egress where
  absent hmem := by
    simp [fresh, Std.ExtTreeMap.mem_insert, SlotId.namespaceName_ne_host.symm] at hmem
  links name link hlink hhas := by
    obtain ⟨-, hlo | hout⟩ := fresh_hasLink hhas
    · rcases hlink with rfl | rfl | rfl <;> simp at hlo
    · have houtside := links_ne_outside id
      rcases hlink with rfl | rfl | rfl <;> simp_all
  peers link _ := by simp [fresh]
  host ns hns := by
    obtain rfl : freshHost = ns := by simpa [fresh] using hns
    exact ⟨List.not_mem_nil, fun _ _ => List.not_mem_nil⟩

/-- What is done for one slot leaves nothing of another. -/
theorem Clear.of_without {other : SlotId} (h : world.Clear other egress) (htidy : after.Tidy id)
    (hother : other ≠ id) (hsame : after.without id egress = world.without id egress)
    (helse : SameElsewhere id world after) : after.Clear other egress where
  absent hmem := by
    have hns := helse other.namespaceName (by simp) (by simpa using hother)
    rw [Std.ExtTreeMap.mem_iff_isSome_getElem?, hns, Std.ExtTreeMap.getElem?_eq_none h.absent] at hmem
    cases hmem
  links name link hlink hhas := by
    by_cases hname : name = id.namespaceName
    · have hforeign := htidy.inside link (hname ▸ hhas)
      rcases hlink with rfl | rfl | rfl <;> simp [hother] at hforeign
    · refine h.links name link hlink ((hasLink_of_without hsame hname ?_ ?_).mp hhas)
      · rcases hlink with rfl | rfl | rfl <;> simp [hother]
      · rcases hlink with rfl | rfl | rfl <;> simp [hother]
  peers link hlink := by
    rw [← h.peers link hlink]
    refine peers_of_without hsame ?_ ?_
    · rcases hlink with rfl | rfl | rfl <;> simp [hother]
    · rcases hlink with rfl | rfl | rfl <;> simp [hother]
  host ns' hns' := by
    have hhosts := namespaces_of_without hsame (by simp : hostNamespace ≠ _)
    rw [hns', Option.map_some] at hhosts
    obtain ⟨ns, hns, hwithout⟩ := Option.map_eq_some_iff.mp hhosts.symm
    obtain ⟨hroute, hrules⟩ := h.host ns hns
    refine ⟨fun hmem => hroute (mem_routes_of_without hwithout (by simpa using hother) hmem),
      fun rule hrule hmem => hrules rule hrule ?_⟩
    exact mem_rules_of_without hwithout (fun hown => hother (SlotId.hostRules_apart hrule hown)) hmem

/-- A namespace in which nothing belongs to a slot is the same without the slot. -/
theorem eq_of_without {ns ns' : Namespace} (hsame : ns'.without id egress = ns.without id egress)
    (hroutes : ∀ ns'' ∈ [ns, ns'], id.hostRoute ∉ ns''.routes)
    (hrules : ∀ ns'' ∈ [ns, ns'], ∀ rule ∈ id.hostRules egress, rule ∉ ns''.rules)
    (hlinks : ∀ ns'' ∈ [ns, ns'], id.vethName ∉ ns''.links ∧ id.vpeerName ∉ ns''.links) : ns' = ns := by
  have hself (ns : Namespace) (hroutes : id.hostRoute ∉ ns.routes)
      (hrules : ∀ rule ∈ id.hostRules egress, rule ∉ ns.rules)
      (hlinks : id.vethName ∉ ns.links ∧ id.vpeerName ∉ ns.links) : ns.without id egress = ns := by
    obtain ⟨links, routes, rules, chains⟩ := ns
    simp only [Namespace.without, Namespace.mk.injEq, and_true]
    refine ⟨Std.ExtTreeMap.ext_getElem? fun link => ?_, ?_, ?_⟩
    · have hveth := Std.ExtTreeMap.getElem?_eq_none hlinks.1
      have hvpeer := Std.ExtTreeMap.getElem?_eq_none hlinks.2
      simp only [Std.ExtTreeMap.getElem?_erase, Std.LawfulEqCmp.compare_eq_iff_eq]
      grind
    · refine List.filter_eq_self.mpr fun route hroute => ?_
      have hother : route ≠ id.hostRoute := fun heq => hroutes (heq ▸ hroute)
      simpa using hother
    · refine List.filter_eq_self.mpr fun rule hrule => ?_
      have hother : rule ∉ id.hostRules egress := fun hown => hrules rule hown hrule
      simpa using hother
  rw [← hself ns (hroutes ns (by simp)) (hrules ns (by simp)) (hlinks ns (by simp)), ← hsame,
    hself ns' (hroutes ns' (by simp)) (hrules ns' (by simp)) (hlinks ns' (by simp))]

/-- Machines on which nothing is there of a slot are the same when they are so without the slot. -/
theorem Clear.eq_of_without (h : world.Clear id egress) (h' : after.Clear id egress)
    (hcurrent : after.current = world.current)
    (hsame : after.without id egress = world.without id egress) (helse : SameElsewhere id world after) :
    after = world := by
  have hnamespaces : after.namespaces = world.namespaces := by
    refine Std.ExtTreeMap.ext_getElem? fun name => ?_
    by_cases hown : name = id.namespaceName
    · rw [hown, Std.ExtTreeMap.getElem?_eq_none h.absent, Std.ExtTreeMap.getElem?_eq_none h'.absent]
    · by_cases hhost : name = hostNamespace
      · have hhosts := namespaces_of_without hsame (hhost ▸ hown)
        rw [hhost]
        cases hns : world.namespaces[hostNamespace]? with
        | none => simpa [hns] using hhosts
        | some ns =>
          rw [hns, Option.map_some] at hhosts
          obtain ⟨ns', hns', hwithout⟩ := Option.map_eq_some_iff.mp hhosts
          rw [hns']
          refine congrArg some (World.eq_of_without hwithout ?_ ?_ ?_)
          · simpa using ⟨(h.host ns hns).1, (h'.host ns' hns').1⟩
          · simpa using ⟨(h.host ns hns).2, (h'.host ns' hns').2⟩
          · have hlinks {some : World} {found : Namespace} (h : some.Clear id egress)
                (hfound : some.namespaces[hostNamespace]? = .some found) :
                id.vethName ∉ found.links ∧ id.vpeerName ∉ found.links :=
              ⟨fun hmem => h.links _ _ (.inl rfl) ⟨found, hfound, hmem⟩,
                fun hmem => h.links _ _ (.inr (.inl rfl)) ⟨found, hfound, hmem⟩⟩
            simpa using ⟨hlinks h hns, hlinks h' hns'⟩
      · exact helse name hhost hown
  have hpeers : after.peers = world.peers := by
    refine Std.ExtTreeMap.ext_getElem? fun link => ?_
    by_cases hlink : link = id.vethName ∨ link = id.vpeerName
    · have hlink' : link = id.vethName ∨ link = id.vpeerName ∨ link = id.tapName :=
        hlink.imp_right .inl
      rw [h.peers link hlink', h'.peers link hlink']
    · exact peers_of_without hsame (fun hveth => hlink (.inl hveth)) fun hvpeer => hlink (.inr hvpeer)
  obtain ⟨current, namespaces, peers⟩ := after
  exact congr (congr (congrArg World.mk hcurrent) hnamespaces) hpeers

end SlotPool.World
