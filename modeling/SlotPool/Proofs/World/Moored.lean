import SlotPool.Proofs.World.Complete
import SlotPool.Proofs.World.Outside
/-!
A slot whose network was made, on a machine on which anything else may be. The other cables need not be in order,
and when one of them is cut an end of the slot's cable may go with it. But the slot's devices are nowhere else, and
what there is of its cable is on record as long as it stands.
-/

namespace SlotPool.World

/-- The devices of a slot are nowhere but where they belong. An end of its cable that is on record leads to the
    other end, and it stands where it belongs unless it is among `gone`. -/
structure Moored (id : SlotId) (gone : List String) (world : World) : Prop where
  veth : ∀ name, world.HasLink name id.vethName → name = hostNamespace
  vpeer : ∀ name, world.HasLink name id.vpeerName → name = id.namespaceName
  tap : ∀ name, world.HasLink name id.tapName → name = id.namespaceName
  inside : ∀ link, world.HasLink id.namespaceName link →
    link = loopback ∨ link = id.vpeerName ∨ link = id.tapName
  loose : world.peers[loopback]? = none ∧ world.peers[id.tapName]? = none
  outer : ∀ peer, world.peers[id.vethName]? = some peer →
    peer = id.vpeerName ∧ (id.vethName ∈ gone ∨ world.HasLink hostNamespace id.vethName)
  inner : ∀ peer, world.peers[id.vpeerName]? = some peer →
    peer = id.vethName ∧ (id.vpeerName ∈ gone ∨ world.HasLink id.namespaceName id.vpeerName)

variable {world after : World} {id other : SlotId} {egress : String} {gone : List String}

/-- Links of others may come, and links may go that are among `gone`. -/
theorem Moored.change (h : world.Moored id [])
    (hlinks : ∀ name link, after.HasLink name link → world.HasLink name link ∨
      name ≠ id.namespaceName ∧ link ≠ id.vethName ∧ link ≠ id.vpeerName ∧ link ≠ id.tapName)
    (hstay : ∀ name link, world.HasLink name link → link = id.vethName ∨ link = id.vpeerName →
      link ∈ gone ∨ after.HasLink name link)
    (hpeers : ∀ link, link = loopback ∨ link = id.vethName ∨ link = id.vpeerName ∨ link = id.tapName →
      after.peers[link]? = world.peers[link]?) : after.Moored id gone where
  veth name hlink := (hlinks name _ hlink).elim (h.veth name) fun hother => (hother.2.1 rfl).elim
  vpeer name hlink := (hlinks name _ hlink).elim (h.vpeer name) fun hother => (hother.2.2.1 rfl).elim
  tap name hlink := (hlinks name _ hlink).elim (h.tap name) fun hother => (hother.2.2.2 rfl).elim
  inside link hlink := (hlinks _ link hlink).elim (h.inside link) fun hother => (hother.1 rfl).elim
  loose := by
    rw [hpeers _ (.inl rfl), hpeers _ (.inr (.inr (.inr rfl)))]
    exact h.loose
  outer peer hpeer := by
    rw [hpeers _ (.inr (.inl rfl))] at hpeer
    obtain ⟨hpair, hstands⟩ := h.outer peer hpeer
    exact ⟨hpair, hstay _ _ (hstands.resolve_left List.not_mem_nil) (.inl rfl)⟩
  inner peer hpeer := by
    rw [hpeers _ (.inr (.inr (.inl rfl)))] at hpeer
    obtain ⟨hpair, hstands⟩ := h.inner peer hpeer
    exact ⟨hpair, hstay _ _ (hstands.resolve_left List.not_mem_nil) (.inr rfl)⟩

/-- The same links, and the same cables. -/
theorem Moored.congr (h : world.Moored id [])
    (hlinks : ∀ name link, after.HasLink name link ↔ world.HasLink name link)
    (hpeers : after.peers = world.peers) : after.Moored id [] :=
  h.change (fun name link hlink => .inl ((hlinks name link).mp hlink))
    (fun name link hlink _ => .inr ((hlinks name link).mpr hlink)) fun _ _ => by rw [hpeers]

theorem hasLink_dropPeer {name link other : String} (hlink : (world.dropPeer link).HasLink name other) :
    world.HasLink name other := by
  obtain ⟨ns', hns', hmem⟩ := hlink
  obtain ⟨ns, hns, -, -, hless⟩ := unlinked_dropPeer.tables name ns' hns'
  exact ⟨ns, hns, hless other hmem⟩

/-- An end that is dropped because the other went is no longer on record. -/
theorem hasLink_of_dropPeer {name link other : String} (hlink : world.HasLink name other) :
    (world.dropPeer link).HasLink name other ∨ (world.dropPeer link).peers[other]? = none := by
  unfold dropPeer
  split
  · exact .inl hlink
  · rename_i peer _
    by_cases hother : other = peer
    · exact .inr (by simp [hother])
    · obtain ⟨ns, hns, hmem⟩ := hlink
      refine .inl ⟨ns.dropLink peer, by simp [hns], ?_⟩
      exact Std.ExtTreeMap.mem_erase.mpr ⟨by simpa using Ne.symm hother, hmem⟩

/-- Entries among the cables only go. -/
theorem peers_dropPeer {link other peer : String} (hpeer : (world.dropPeer link).peers[other]? = some peer) :
    world.peers[other]? = some peer ∧ other ≠ link := by
  unfold dropPeer at hpeer
  split at hpeer
  · rename_i hnone
    refine ⟨hpeer, ?_⟩
    rintro rfl
    rw [hnone] at hpeer
    cases hpeer
  · simp only [Std.ExtTreeMap.getElem?_erase, Std.LawfulEqCmp.compare_eq_iff_eq] at hpeer
    split at hpeer
    · cases hpeer
    · split at hpeer
      · cases hpeer
      · rename_i hlink
        exact ⟨hpeer, Ne.symm hlink⟩

/-- When the other end of a link has gone as well, the link need not be excused any longer. -/
theorem Moored.dropPeer {link : String} (h : world.Moored id (link :: gone)) :
    (world.dropPeer link).Moored id gone where
  veth name hlink := h.veth name (hasLink_dropPeer hlink)
  vpeer name hlink := h.vpeer name (hasLink_dropPeer hlink)
  tap name hlink := h.tap name (hasLink_dropPeer hlink)
  inside other hlink := h.inside other (hasLink_dropPeer hlink)
  loose := by
    refine ⟨Option.eq_none_iff_forall_ne_some.mpr fun peer hpeer => ?_,
      Option.eq_none_iff_forall_ne_some.mpr fun peer hpeer => ?_⟩
    · have hbefore := (peers_dropPeer hpeer).1
      rw [h.loose.1] at hbefore
      cases hbefore
    · have hbefore := (peers_dropPeer hpeer).1
      rw [h.loose.2] at hbefore
      cases hbefore
  outer peer hpeer := by
    obtain ⟨hbefore, hother⟩ := peers_dropPeer hpeer
    refine (h.outer peer hbefore).imp_right fun hstands => ?_
    rcases hstands with hmem | hlink
    · exact .inl ((List.mem_cons.mp hmem).resolve_left hother)
    · exact .inr ((hasLink_of_dropPeer hlink).resolve_right (by simp [hpeer]))
  inner peer hpeer := by
    obtain ⟨hbefore, hother⟩ := peers_dropPeer hpeer
    refine (h.inner peer hbefore).imp_right fun hstands => ?_
    rcases hstands with hmem | hlink
    · exact .inl ((List.mem_cons.mp hmem).resolve_left hother)
    · exact .inr ((hasLink_of_dropPeer hlink).resolve_right (by simp [hpeer]))

theorem Moored.dropPeers {links : List String} (h : world.Moored id links) :
    (links.foldl World.dropPeer world).Moored id [] := by
  induction links generalizing world with
  | nil => exact h
  | cons link links ih => exact ih h.dropPeer

/-- A change of the namespace in which the thread is that keeps the names of its links. -/
theorem Moored.edit {change : Namespace → Except NetworkError Namespace} (h : world.Moored id [])
    (hlinks : ∀ ns ns', change ns = .ok ns' → ∀ link, link ∈ ns'.links ↔ link ∈ ns.links)
    (hanswer : world.edit change = (.ok (), after)) : after.Moored id [] := by
  obtain ⟨ns, ns', hns, hchange, rfl⟩ := edit_ok hanswer
  refine h.congr (fun name link => ?_) rfl
  rw [hasLink_setNamespace]
  split
  · rename_i hname
    rw [hlinks ns ns' hchange, ← hname, hasLink_current hns]
  · rfl

theorem Moored.edit_tables {change : Namespace → Except NetworkError Namespace} (h : world.Moored id [])
    (hlinks : ∀ ns ns', change ns = .ok ns' → ns'.links = ns.links)
    (hanswer : world.edit change = (.ok (), after)) : after.Moored id [] :=
  h.edit (fun ns ns' hchange link => by rw [hlinks ns ns' hchange]) hanswer

/-- A link that is taken out of the namespace in which the thread is, before the other end of its cable goes. -/
theorem Moored.dropLink {name : String} {ns : Namespace} (h : world.Moored id [])
    (hns : world.namespaces[world.current]? = some ns) :
    (world.setNamespace world.current (ns.dropLink name)).Moored id [name] := by
  refine h.change (fun place link hlink => ?_) (fun place link hlink _ => ?_) fun _ _ => rfl
  · have hleft := hasLink_setNamespace.mp hlink
    split at hleft
    · rename_i hplace
      exact .inl ⟨ns, hplace ▸ hns, Std.ExtTreeMap.mem_of_mem_erase hleft⟩
    · exact .inl hleft
  · by_cases hname : link = name
    · exact .inl (List.mem_singleton.mpr hname)
    · refine .inr (hasLink_setNamespace.mpr ?_)
      split
      · rename_i hplace
        rw [← hplace, hasLink_current hns] at hlink
        exact Std.ExtTreeMap.mem_erase.mpr ⟨by simpa using Ne.symm hname, hlink⟩
      · exact hlink

/-- A namespace that is taken away, before the other ends of its cables go. -/
theorem Moored.erase {name : String} {ns : Namespace} (h : world.Moored id [])
    (hns : world.namespaces[name]? = some ns) :
    Moored id ns.links.keys { world with namespaces := world.namespaces.erase name } := by
  refine h.change (fun place link hlink => ?_) (fun place link hlink _ => ?_) fun _ _ => rfl
  · obtain ⟨found, hfound, hmem⟩ := hlink
    exact .inl ⟨found, getElem?_of_erase hfound, hmem⟩
  · obtain ⟨found, hfound, hmem⟩ := hlink
    by_cases hplace : place = name
    · obtain rfl := Option.some.inj (hns.symm.trans (hplace ▸ hfound))
      exact .inl (Std.ExtTreeMap.mem_keys.mpr hmem)
    · refine .inr ⟨found, ?_, hmem⟩
      simpa [Std.ExtTreeMap.getElem?_erase, Ne.symm hplace] using hfound

/-- Whatever link is deleted, and wherever. -/
theorem Moored.deleteLink {name : String} (h : world.Moored id [])
    (hanswer : world.deleteLink name = (.ok (), after)) : after.Moored id [] := by
  obtain ⟨ns, hns, -, rfl⟩ := deleteLink_ok hanswer
  exact (h.dropLink hns).dropPeer

/-- Whatever namespace is deleted. -/
theorem Moored.deleteNamed {name : String} (h : world.Moored id [])
    (hanswer : world.deleteNamed name = (.ok (), after)) : after.Moored id [] := by
  obtain ⟨-, ns, hns, rfl⟩ := deleteNamed_ok hanswer
  exact (h.erase hns).dropPeers

/-- The calls that are made for any slot wherever the thread is. -/
theorem Moored.outer_call {call : Call} {value : call.Reply} (h : world.Moored id [])
    (hcall : Call.Outer other egress call) (hanswer : world.answer call = (.ok value, after)) :
    after.Moored id [] := by
  cases hcall with
  | onRecord =>
    obtain ⟨-, rfl⟩ := by simpa [answer] using hanswer
    exact h
  | probe =>
    rw [linkExists_ok hanswer]
    exact h
  | up => exact h.edit (fun _ _ => mem_setLinkUp) hanswer
  | address => exact h.edit (fun _ _ => mem_addAddress) hanswer
  | unplug => exact h.deleteLink hanswer
  | route => exact h.edit_tables (fun ns ns' hchange => by rw [(addRoute_ok hchange).2]) hanswer
  | unroute => exact h.edit_tables (fun ns ns' hchange => by rw [(deleteRoute_ok hchange).2]) hanswer
  | rule rule hrule => exact h.edit_tables appendRule_links hanswer
  | unrule rule hrule => exact h.edit_tables deleteRule_links hanswer

/-- What is added under the names of another slot, outside the slot's namespace. -/
theorem Moored.add (h : world.Moored id []) (hother : other ≠ id)
    (hlinks : ∀ name link, after.HasLink name link → world.HasLink name link ∨ name ≠ id.namespaceName ∧
      (link = loopback ∨ link = other.vethName ∨ link = other.vpeerName ∨ link = other.tapName))
    (hstay : ∀ name link, world.HasLink name link → link ≠ other.vethName → after.HasLink name link)
    (hpeers : ∀ link, link ≠ other.vethName → link ≠ other.vpeerName → after.peers[link]? = world.peers[link]?) :
    after.Moored id [] := by
  refine h.change (fun name link hlink => (hlinks name link hlink).imp_right fun hnew => ⟨hnew.1, ?_⟩)
    (fun name link hlink hown => .inr (hstay name link hlink ?_)) fun link hown => hpeers link ?_ ?_
  · rcases hnew.2 with rfl | rfl | rfl | rfl <;> simp [hother]
  · rcases hown with rfl | rfl <;> simp [hother.symm]
  · rcases hown with rfl | rfl | rfl | rfl <;> simp [hother.symm]
  · rcases hown with rfl | rfl | rfl | rfl <;> simp [hother.symm]

/-- A namespace made for another slot leaves the devices of this one where they are. -/
theorem Moored.createNamed {handle : Handle} (h : world.Moored id []) (hother : other ≠ id)
    (hanswer : world.createNamed other.namespaceName = (.ok handle, after)) : after.Moored id [] := by
  obtain ⟨habsent, -, rfl⟩ := createNamed_ok hanswer
  refine h.add hother (fun name link hlink => ?_) (fun name link hlink _ => hasLink_setNamespace.mpr ?_)
    fun _ _ _ => rfl
  · have hleft := hasLink_setNamespace.mp hlink
    split at hleft
    · rename_i hname
      have hloopback : "lo" = link := by simpa [Namespace.bare, Std.ExtTreeMap.mem_insert] using hleft
      exact .inr ⟨hname ▸ (by simpa using hother), .inl hloopback.symm⟩
    · exact .inl hleft
  · rw [if_neg]
    · exact hlink
    · rintro rfl
      obtain ⟨ns, hns, -⟩ := hlink
      exact habsent (Std.ExtTreeMap.mem_iff_isSome_getElem?.mpr (by simp [hns]))

/-- A link that is moved is afterwards where it was moved to, and all others are where they were. -/
theorem hasLink_moveLink {name : String} {target : Handle} (hanswer : world.moveLink name target = (.ok (), after)) :
    (∀ place link, after.HasLink place link → world.HasLink place link ∨ place = target.label ∧ link = name) ∧
      ∀ place link, world.HasLink place link → link ≠ name → after.HasLink place link := by
  obtain ⟨-, ns, hns, -, rfl⟩ := moveLink_ok hanswer
  have hleft {place link : String} : (world.setNamespace world.current (ns.dropLink name)).HasLink place link →
      world.HasLink place link := by
    intro hlink
    have hfound := hasLink_setNamespace.mp hlink
    split at hfound
    · rename_i hplace
      exact ⟨ns, hplace ▸ hns, Std.ExtTreeMap.mem_of_mem_erase hfound⟩
    · exact hfound
  have hkept {place link : String} (hlink : world.HasLink place link) (hother : link ≠ name) :
      (world.setNamespace world.current (ns.dropLink name)).HasLink place link := by
    refine hasLink_setNamespace.mpr ?_
    split
    · rename_i hplace
      rw [← hplace, hasLink_current hns] at hlink
      exact Std.ExtTreeMap.mem_erase.mpr ⟨by simpa using hother.symm, hlink⟩
    · exact hlink
  constructor
  · rintro place link ⟨found, hfound, hmem⟩
    rw [Std.ExtTreeMap.getElem?_modify] at hfound
    split at hfound
    · rename_i hplace
      obtain rfl := Std.LawfulEqCmp.compare_eq_iff_eq.mp hplace
      obtain ⟨before, hbefore, rfl⟩ := Option.map_eq_some_iff.mp hfound
      rcases Std.ExtTreeMap.mem_insert.mp hmem with heq | hold
      · exact .inr ⟨rfl, (Std.LawfulEqCmp.compare_eq_iff_eq.mp heq).symm⟩
      · exact .inl (hleft ⟨before, hbefore, hold⟩)
    · exact .inl (hleft ⟨found, hfound, hmem⟩)
  · intro place link hlink hother
    obtain ⟨found, hfound, hmem⟩ := hkept hlink hother
    by_cases hplace : target.label = place
    · subst hplace
      refine ⟨{ found with links := found.links.insert name .plain }, ?_, Std.ExtTreeMap.mem_insert.mpr (.inr hmem)⟩
      rw [Std.ExtTreeMap.getElem?_modify, if_pos (by simp)]
      exact Option.map_eq_some_iff.mpr ⟨found, hfound, rfl⟩
    · refine ⟨found, ?_, hmem⟩
      rw [Std.ExtTreeMap.getElem?_modify, if_neg (by simpa using hplace)]
      exact hfound

/-- The calls that furnish the namespace of another slot. -/
theorem Moored.inner_call {call : Call} {value : call.Reply} (h : world.Moored id []) (hother : other ≠ id)
    (hcall : Call.Inner other (fun target => target.label = hostNamespace) call)
    (hcurrent : world.current = other.namespaceName) (hanswer : world.answer call = (.ok value, after)) :
    after.Moored id [] := by
  have hplace {name : String} (hname : world.current = name) : name ≠ id.namespaceName := by
    rw [← hname, hcurrent]
    simpa using hother
  cases hcall with
  | cable =>
    obtain ⟨ns, hns, rfl⟩ := layCable_ok hanswer
    refine h.add hother (fun name link hlink => ?_) (fun name link hlink _ => hasLink_setNamespace.mpr ?_)
      fun link hveth hvpeer => ?_
    · have hleft := hasLink_setNamespace.mp hlink
      split at hleft
      · rename_i hname
        simp only [Std.ExtTreeMap.mem_insert, Std.LawfulEqCmp.compare_eq_iff_eq] at hleft
        rcases hleft with rfl | rfl | hold
        · exact .inr ⟨hplace hname, .inr (.inr (.inl rfl))⟩
        · exact .inr ⟨hplace hname, .inr (.inl rfl)⟩
        · exact .inl ⟨ns, hname ▸ hns, hold⟩
      · exact .inl hleft
    · split
      · rename_i hname
        rw [← hname, hasLink_current hns] at hlink
        simp [hlink]
      · exact hlink
    · simp [Std.ExtTreeMap.getElem?_insert, hveth.symm, hvpeer.symm]
  | move origin horigin =>
    obtain ⟨hnew, hstay⟩ := hasLink_moveLink hanswer
    obtain ⟨-, ns, -, -, rfl⟩ := moveLink_ok hanswer
    refine h.add hother (fun name link hlink => (hnew name link hlink).imp_right ?_) hstay fun _ _ _ => rfl
    rintro ⟨rfl, rfl⟩
    exact ⟨horigin ▸ SlotId.host_ne_namespaceName, .inr (.inl rfl)⟩
  | tap =>
    obtain ⟨ns, ns', hns, hchange, rfl⟩ := edit_ok hanswer
    obtain rfl : ns' = { ns with links := ns.links.insert other.tapName .plain } := by
      unfold addTap at hchange
      split at hchange
      · cases hchange
      · simpa using hchange.symm
    refine h.add hother (fun name link hlink => ?_) (fun name link hlink _ => hasLink_setNamespace.mpr ?_)
      fun _ _ _ => rfl
    · have hleft := hasLink_setNamespace.mp hlink
      split at hleft
      · rename_i hname
        rcases Std.ExtTreeMap.mem_insert.mp hleft with heq | hold
        · exact .inr ⟨hplace hname, .inr (.inr (.inr (Std.LawfulEqCmp.compare_eq_iff_eq.mp heq).symm))⟩
        · exact .inl ⟨ns, hname ▸ hns, hold⟩
      · exact .inl hleft
    · split
      · rename_i hname
        rw [← hname, hasLink_current hns] at hlink
        exact Std.ExtTreeMap.mem_insert.mpr (.inr hlink)
      · exact hlink
  | up link hlink => exact h.edit (fun _ _ => mem_setLinkUp) hanswer
  | vpeer => exact h.edit (fun _ _ => mem_addAddress) hanswer
  | address => exact h.edit (fun _ _ => mem_addAddress) hanswer
  | route => exact h.edit_tables (fun ns ns' hchange => by rw [(addRoute_ok hchange).2]) hanswer
  | rule rule hrule => exact h.edit_tables appendRule_links hanswer

/-! ### What is done for the slot itself changes nothing else -/

theorem beside_setNamespace {changed : Namespace}
    (hcurrent : world.current = hostNamespace ∨ world.current = id.namespaceName)
    (hchanged : world.current = hostNamespace → ∃ ns, world.namespaces[world.current]? = some ns ∧
      changed.without id egress = ns.without id egress) :
    Beside id egress world (world.setNamespace world.current changed) :=
  ⟨without_setNamespace fun hname => hchanged (hcurrent.resolve_right hname), sameElsewhere_setNamespace hcurrent⟩

/-- A change where the thread is leaves all that is beside the slot's network, if on the host it changes only
    what belongs to the slot. -/
theorem beside_edit {change : Namespace → Except NetworkError Namespace}
    (hcurrent : world.current = hostNamespace ∨ world.current = id.namespaceName)
    (hchange : world.current = hostNamespace → ∀ ns ns', change ns = .ok ns' →
      ns'.without id egress = ns.without id egress)
    (hanswer : world.edit change = (.ok (), after)) : Beside id egress world after := by
  obtain ⟨ns, ns', hns, hok, rfl⟩ := edit_ok hanswer
  exact beside_setNamespace hcurrent fun hhost => ⟨ns, hns, hchange hhost ns ns' hok⟩

/-- With an end of the slot's cable, nothing goes but the other end. -/
theorem Moored.beside_dropPeer {link : String} (h : world.Moored id gone)
    (hlink : link = loopback ∨ link = id.vethName ∨ link = id.vpeerName ∨ link = id.tapName) :
    Beside id egress world (world.dropPeer link) := by
  cases hpeer : world.peers[link]? with
  | none =>
    have hsame : world.dropPeer link = world := by simp only [World.dropPeer, hpeer]
    rw [hsame]
    exact ⟨rfl, .refl id world⟩
  | some peer =>
    have hends : link = id.vethName ∧ peer = id.vpeerName ∨ link = id.vpeerName ∧ peer = id.vethName := by
      rcases hlink with rfl | rfl | rfl | rfl
      · simp [h.loose.1] at hpeer
      · exact .inl ⟨rfl, (h.outer peer hpeer).1⟩
      · exact .inr ⟨rfl, (h.inner peer hpeer).1⟩
      · simp [h.loose.2] at hpeer
    have hdropped : world.dropPeer link = { world with
        peers := (world.peers.erase link).erase peer
        namespaces := world.namespaces.map fun _ ns => ns.dropLink peer } := by
      simp only [World.dropPeer, hpeer]
    rw [hdropped]
    constructor
    · simp only [World.without, Surroundings.mk.injEq]
      constructor
      · funext name
        have hsame (ns : Namespace) : (ns.dropLink peer).without id egress = ns.without id egress := by
          refine Namespace.without_links fun other hveth hvpeer => ?_
          rw [Std.ExtTreeMap.getElem?_erase, if_neg]
          rcases hends with ⟨-, rfl⟩ | ⟨-, rfl⟩
          · simpa using hvpeer.symm
          · simpa using hveth.symm
        simp only [Std.ExtTreeMap.getElem?_map, Option.map_map, Function.comp_def, hsame]
      · funext other
        split
        · rfl
        · rename_i hown
          simp only [Std.ExtTreeMap.getElem?_erase, Std.LawfulEqCmp.compare_eq_iff_eq]
          rcases hends with ⟨rfl, rfl⟩ | ⟨rfl, rfl⟩ <;> grind
    · intro name hhost hown
      rw [Std.ExtTreeMap.getElem?_map]
      cases hns : world.namespaces[name]? with
      | none => rfl
      | some ns =>
        have habsent : peer ∉ ns.links := by
          intro hmem
          rcases hends with ⟨-, rfl⟩ | ⟨-, rfl⟩
          · exact hown (h.vpeer name ⟨ns, hns, hmem⟩)
          · exact hhost (h.veth name ⟨ns, hns, hmem⟩)
        rw [Option.map_some, Namespace.dropLink_of_notMem habsent]

/-- Dropping the slot's devices takes away nothing beside the slot's network. Here it is enough that the slot is
    moored: the other cables need not be in order. -/
theorem Moored.beside_dropPeers {links : List String} (h : world.Moored id links)
    (hlinks : ∀ link ∈ links, link = loopback ∨ link = id.vethName ∨ link = id.vpeerName ∨ link = id.tapName) :
    Beside id egress world (links.foldl World.dropPeer world) := by
  induction links generalizing world with
  | nil => exact ⟨rfl, .refl id world⟩
  | cons link links ih =>
    have hfirst : Beside id egress world (world.dropPeer link) :=
      h.beside_dropPeer (hlinks link (List.mem_cons_self ..))
    exact hfirst.trans (ih h.dropPeer fun other hmem => hlinks other (List.mem_cons_of_mem _ hmem))

/-- Pulling the outer end of the slot's cable takes away nothing beside it. -/
theorem Moored.beside_unplug (h : world.Moored id [])
    (hcurrent : world.current = hostNamespace ∨ world.current = id.namespaceName)
    (hanswer : world.deleteLink id.vethName = (.ok (), after)) : Beside id egress world after := by
  obtain ⟨ns, hns, -, rfl⟩ := deleteLink_ok hanswer
  have hset : Beside id egress world (world.setNamespace world.current (ns.dropLink id.vethName)) := by
    refine beside_setNamespace hcurrent fun _ => ⟨ns, hns, Namespace.without_links fun name hveth _ => ?_⟩
    rw [Std.ExtTreeMap.getElem?_erase, if_neg (by simpa using hveth.symm)]
  exact hset.trans ((h.dropLink hns).beside_dropPeer (.inr (.inl rfl)))

/-- Deleting the slot's namespace takes away nothing beside it. -/
theorem Moored.beside_erase (h : world.Moored id []) (hanswer : world.deleteNamed id.namespaceName = (.ok (), after)) :
    Beside id egress world after := by
  obtain ⟨-, ns, hns, rfl⟩ := deleteNamed_ok hanswer
  have herased : Beside id egress world { world with namespaces := world.namespaces.erase id.namespaceName } := by
    constructor
    · simp only [World.without, Surroundings.mk.injEq, and_true]
      funext name
      split
      · rfl
      · rename_i hname
        rw [Std.ExtTreeMap.getElem?_erase, if_neg (by simpa using Ne.symm hname)]
    · intro name _ hown
      simp [Std.ExtTreeMap.getElem?_erase, hown.symm]
  refine herased.trans ((h.erase hns).beside_dropPeers fun link hlink => ?_)
  exact (h.inside link ⟨ns, hns, Std.ExtTreeMap.mem_keys.mp hlink⟩).imp_right .inr

/-- The calls by which a slot is taken away from the host. -/
theorem Moored.beside_unmaking {call : Call} {value : call.Reply} (h : world.Moored id [])
    (hcurrent : world.current = hostNamespace ∨ world.current = id.namespaceName)
    (hcall : Call.Unmaking id egress call) (hanswer : world.answer call = (.ok value, after)) :
    Beside id egress world after := by
  cases hcall with
  | onRecord =>
    obtain ⟨-, rfl⟩ := by simpa [answer] using hanswer
    exact ⟨rfl, .refl id _⟩
  | probe =>
    rw [linkExists_ok hanswer]
    exact ⟨rfl, .refl id world⟩
  | unplug => exact h.beside_unplug hcurrent hanswer
  | unroute => exact beside_edit hcurrent (fun _ _ _ => Namespace.without_deleteRoute) hanswer
  | unrule rule hrule => exact beside_edit hcurrent (fun _ _ _ => Namespace.without_deleteRule hrule) hanswer

/-- Where the namespace is gone and nothing is left on the host, nothing is left of the slot anywhere. -/
theorem Moored.clear (h : world.Moored id []) (hrid : world.Rid id egress) : world.Clear id egress := by
  have hveth {name : String} (hlink : world.HasLink name id.vethName) : False := by
    obtain rfl := h.veth name hlink
    obtain ⟨ns, hns, hmem⟩ := hlink
    exact (hrid.host ns hns).veth hmem
  have hinside {name link : String} (hname : name = id.namespaceName) (hlink : world.HasLink name link) : False := by
    obtain ⟨ns, hns, -⟩ := hlink
    exact hrid.unnamed (Std.ExtTreeMap.mem_iff_isSome_getElem?.mpr (by simp [← hname, hns]))
  refine ⟨hrid.unnamed, fun name link hown hlink => ?_, fun link hown => ?_, fun ns hns => ?_⟩
  · rcases hown with rfl | rfl | rfl
    · exact hveth hlink
    · exact hinside (h.vpeer name hlink) hlink
    · exact hinside (h.tap name hlink) hlink
  · refine Option.eq_none_iff_forall_ne_some.mpr fun peer hpeer => ?_
    rcases hown with rfl | rfl | rfl
    · exact hveth ((h.outer peer hpeer).2.resolve_left List.not_mem_nil)
    · exact hinside rfl ((h.inner peer hpeer).2.resolve_left List.not_mem_nil)
    · simp [h.loose.2] at hpeer
  · exact ⟨(hrid.host ns hns).route, (hrid.host ns hns).rules⟩

end SlotPool.World
