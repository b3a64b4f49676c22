import SlotPool.Proofs.World.Connected
import SlotPool.Proofs.World.Places
/-!
What belongs to a slot on a machine: its namespace, its end of the cable, its route and its rules on the
host, and its entries among the cables. What is done for another slot leaves all that as it is.
-/

namespace SlotPool

/-- What belongs to a slot on the host. -/
def Namespace.only (ns : Namespace) (id : SlotId) (egress : String) : Namespace where
  links := ns.links.filter fun link _ => link = id.vethName
  routes := ns.routes.filter (· = id.hostRoute)
  rules := ns.rules.filter (· ∈ id.hostRules egress)
  chains := []

/-- A device that is not there can be dropped without a trace. -/
theorem Namespace.dropLink_of_notMem {ns : Namespace} {link : String} (h : link ∉ ns.links) :
    ns.dropLink link = ns := by
  obtain ⟨links, routes, rules, chains⟩ := ns
  have habsent : links[link]? = none := Std.ExtTreeMap.getElem?_eq_none h
  simp only [dropLink, Namespace.mk.injEq, and_true]
  refine Std.ExtTreeMap.ext_getElem? fun other => ?_
  simp only [Std.ExtTreeMap.getElem?_erase, Std.LawfulEqCmp.compare_eq_iff_eq]
  grind

/-- What belongs to a slot. -/
structure Holdings where
  namespaces : Named Namespace
  peers : Named String

namespace World

/-- What belongs to a slot on a machine: its namespace with all that is in it, and on the host and among
    the cables whatever is named for it. -/
def holdings (world : World) (id : SlotId) (egress : String) : Holdings where
  namespaces := world.namespaces.filterMap fun name ns =>
    if name = id.namespaceName then some ns
    else if name = hostNamespace then some (ns.only id egress)
    else none
  peers := world.peers.filter fun link _ =>
    link = id.vethName ∨ link = id.vpeerName ∨ link = id.tapName

/-- The namespaces that are neither the host nor a slot's own are the same. -/
def SameElsewhere (id : SlotId) (before after : World) : Prop :=
  ∀ name, name ≠ hostNamespace → name ≠ id.namespaceName →
    after.namespaces[name]? = before.namespaces[name]?

variable {world after : World} {id other : SlotId} {egress : String}

theorem SameElsewhere.refl (id : SlotId) (world : World) : SameElsewhere id world world :=
  fun _ _ _ => rfl

theorem SameElsewhere.trans {first second third : World} (h : SameElsewhere id first second)
    (h' : SameElsewhere id second third) : SameElsewhere id first third :=
  fun name hhost hown => (h' name hhost hown).trans (h name hhost hown)

@[simp]
theorem holdings_inside :
    (world.holdings id egress).namespaces[id.namespaceName]? = world.namespaces[id.namespaceName]? := by
  simp [holdings]

@[simp]
theorem holdings_host : (world.holdings id egress).namespaces[hostNamespace]? =
    world.namespaces[hostNamespace]?.map (·.only id egress) := by
  cases hns : world.namespaces[hostNamespace]? <;> simp [holdings, hns]

theorem holdings_elsewhere {name : String} (hhost : name ≠ hostNamespace)
    (hown : name ≠ id.namespaceName) : (world.holdings id egress).namespaces[name]? = none := by
  simp [holdings, hhost, hown]

/-- What a slot has on the host does not change when all that changes there belongs to another. -/
theorem only_of_without {ns ns' : Namespace} (hother : other ≠ id)
    (hsame : ns'.without id egress = ns.without id egress) :
    ns'.only other egress = ns.only other egress := by
  have hroutes : ns'.routes.filter (· ≠ id.hostRoute) = ns.routes.filter (· ≠ id.hostRoute) :=
    congrArg Namespace.routes hsame
  have hrules : ns'.rules.filter (· ∉ id.hostRules egress) = ns.rules.filter (· ∉ id.hostRules egress) :=
    congrArg Namespace.rules hsame
  have hroute (route : Route) (hroute : route = other.hostRoute) : route ≠ id.hostRoute := by
    simpa [hroute] using hother
  have hrule (rule : Rule) (hrule : rule ∈ other.hostRules egress) : rule ∉ id.hostRules egress :=
    fun hown => hother (SlotId.hostRules_apart hrule hown)
  have hlinks : ns'.links.filter (fun link _ => link = other.vethName) =
      ns.links.filter (fun link _ => link = other.vethName) := by
    refine Std.ExtTreeMap.ext_getElem? fun link => ?_
    rw [Std.ExtTreeMap.getElem?_filter', Std.ExtTreeMap.getElem?_filter']
    by_cases hlink : link = other.vethName
    · rw [links_of_without hsame (by simpa [hlink] using hother) (by simp [hlink])]
    · simp [hlink]
  have hkeep {α : Type} (mine foreign : α → Bool) (list : List α)
      (h : ∀ x, mine x = true → foreign x = true) :
      list.filter mine = (list.filter foreign).filter mine := by
    rw [List.filter_filter]
    refine List.filter_congr fun x _ => ?_
    cases hx : mine x with
    | false => rfl
    | true => simp [h x hx]
  simp only [Namespace.only, Namespace.mk.injEq, and_true]
  refine ⟨hlinks, ?_, ?_⟩
  · rw [hkeep (· = other.hostRoute) (· ≠ id.hostRoute) ns'.routes (by simpa using hroute), hroutes,
      ← hkeep _ _ _ (by simpa using hroute)]
  · rw [hkeep (· ∈ other.hostRules egress) (· ∉ id.hostRules egress) ns'.rules (by simpa using hrule),
      hrules, ← hkeep _ _ _ (by simpa using hrule)]

/-- What is done for one slot leaves alone what belongs to another. -/
theorem holdings_of_without (hother : other ≠ id)
    (hsame : after.without id egress = world.without id egress) (helse : SameElsewhere id world after) :
    after.holdings other egress = world.holdings other egress := by
  have hinside : after.namespaces[other.namespaceName]? = world.namespaces[other.namespaceName]? :=
    helse _ (by simp) (by simpa using hother)
  have hhost : after.namespaces[hostNamespace]?.map (·.only other egress) =
      world.namespaces[hostNamespace]?.map (·.only other egress) := by
    have hwithout := namespaces_of_without hsame (by simp : hostNamespace ≠ _)
    cases hbefore : world.namespaces[hostNamespace]? with
    | none =>
      rw [hbefore, Option.map_none, Option.map_eq_none_iff] at hwithout
      rw [hwithout]
    | some ns =>
      rw [hbefore, Option.map_some] at hwithout
      obtain ⟨ns', hns', hwithout⟩ := Option.map_eq_some_iff.mp hwithout
      rw [hns', Option.map_some, Option.map_some, only_of_without hother hwithout]
  have hnamespaces : (after.holdings other egress).namespaces = (world.holdings other egress).namespaces := by
    refine Std.ExtTreeMap.ext_getElem? fun name => ?_
    by_cases hown : name = other.namespaceName
    · rw [hown, holdings_inside, holdings_inside, hinside]
    · by_cases hname : name = hostNamespace
      · rw [hname, holdings_host, holdings_host, hhost]
      · rw [holdings_elsewhere hname hown, holdings_elsewhere hname hown]
  have hpeers : (after.holdings other egress).peers = (world.holdings other egress).peers := by
    refine Std.ExtTreeMap.ext_getElem? fun link => ?_
    simp only [holdings, Std.ExtTreeMap.getElem?_filter']
    by_cases hlink : link = other.vethName ∨ link = other.vpeerName ∨ link = other.tapName
    · rw [peers_of_without hsame]
      · rcases hlink with rfl | rfl | rfl <;> simp [hother]
      · rcases hlink with rfl | rfl | rfl <;> simp [hother]
    · simp [hlink]
  rw [show after.holdings other egress =
    ⟨(after.holdings other egress).namespaces, (after.holdings other egress).peers⟩ from rfl,
    hnamespaces, hpeers]

section

variable (hcurrent : world.current = hostNamespace ∨ world.current = id.namespaceName)
include hcurrent

/-- A change of the namespace in which the thread is changes nothing elsewhere. -/
theorem sameElsewhere_setNamespace {changed : Namespace} :
    SameElsewhere id world (world.setNamespace world.current changed) := by
  intro name hhost hown
  simp only [setNamespace, Std.ExtTreeMap.getElem?_insert, Std.LawfulEqCmp.compare_eq_iff_eq]
  rw [if_neg]
  rintro rfl
  exact hcurrent.elim hhost hown

theorem sameElsewhere_edit {change : Namespace → Except NetworkError Namespace}
    (hanswer : world.edit change = (.ok (), after)) : SameElsewhere id world after := by
  obtain ⟨ns, ns', -, -, rfl⟩ := edit_ok hanswer
  exact sameElsewhere_setNamespace hcurrent

end

/-- The ends of the slot's cable are on the host or inside. -/
def Bound (world : World) (id : SlotId) : Prop :=
  ∀ name link, link = id.vethName ∨ link = id.vpeerName → world.HasLink name link →
    name = hostNamespace ∨ name = id.namespaceName

theorem Tidy.bound (h : world.Tidy id) : world.Bound id := by
  rintro name link (rfl | rfl) hlink
  · exact h.veth name hlink
  · exact .inr (h.vpeer name hlink)

/-- When a device of the slot goes, the only device that may go with it is of the same slot and is on the host
    or in the slot's namespace. So nothing changes elsewhere. -/
theorem sameElsewhere_dropPeer {link : String} (h : world.Paired id) (hbound : world.Bound id)
    (hlink : link = loopback ∨ link = id.vethName ∨ link = id.vpeerName ∨ link = id.tapName) :
    SameElsewhere id world (world.dropPeer link) := by
  rcases dropPeer_cases h hlink with ⟨hsame, -⟩ | ⟨peer, hends, hdropped⟩
  · rw [hsame]
    exact .refl id world
  · have hpeer : peer = id.vethName ∨ peer = id.vpeerName := by
      rcases hends with ⟨-, rfl⟩ | ⟨-, rfl⟩
      · exact .inr rfl
      · exact .inl rfl
    intro name hhost hown
    rw [hdropped, Std.ExtTreeMap.getElem?_map]
    cases hns : world.namespaces[name]? with
    | none => rfl
    | some ns =>
      have habsent : peer ∉ ns.links := fun hmem =>
        (hbound name peer hpeer ⟨ns, hns, hmem⟩).elim hhost hown
      rw [Option.map_some, Namespace.dropLink_of_notMem habsent]

/-- The same for several devices of the slot. -/
theorem sameElsewhere_dropPeers {links : List String} (h : world.Paired id) (hbound : world.Bound id)
    (hlinks : ∀ link ∈ links,
      link = loopback ∨ link = id.vethName ∨ link = id.vpeerName ∨ link = id.tapName) :
    SameElsewhere id world (links.foldl dropPeer world) := by
  induction links generalizing world with
  | nil => exact .refl id world
  | cons link links ih =>
    have hlink := hlinks link (List.mem_cons_self ..)
    have hfirst : Unplugged id "" [link] world (world.dropPeer link) := dropPeer_unplugged h hlink
    exact (sameElsewhere_dropPeer h hbound hlink).trans
      (ih hfirst.paired (fun name other hends hhas => hbound name other hends (hfirst.fewer name other hhas))
        fun other hmem => hlinks other (List.mem_cons_of_mem _ hmem))

/-- Deleting the namespace of a slot takes away what is in it, and the outer end of its cable with it. -/
theorem sameElsewhere_deleteNamed (h : world.Tidy id)
    (hanswer : world.deleteNamed id.namespaceName = (.ok (), after)) : SameElsewhere id world after := by
  obtain ⟨-, ns, hns, rfl⟩ := deleteNamed_ok hanswer
  have hleft (name link : String)
      (hlink : World.HasLink { world with namespaces := world.namespaces.erase id.namespaceName } name link) :
      world.HasLink name link := by
    obtain ⟨found, hfound, hmem⟩ := hlink
    simp only [Std.ExtTreeMap.getElem?_erase, Std.LawfulEqCmp.compare_eq_iff_eq] at hfound
    split at hfound
    · cases hfound
    · exact ⟨found, hfound, hmem⟩
  have herased : SameElsewhere id world
      { world with namespaces := world.namespaces.erase id.namespaceName } := by
    intro name _ hown
    simp [Std.ExtTreeMap.getElem?_erase, hown.symm]
  refine herased.trans (sameElsewhere_dropPeers ⟨h.ends, h.loose⟩ (fun name link hends hlink =>
    h.bound name link hends (hleft name link hlink)) fun link hlink => ?_)
  exact h.inside link ⟨ns, hns, Std.ExtTreeMap.mem_keys.mp hlink⟩

theorem sameElsewhere_createNamed {handle : Handle}
    (hanswer : world.createNamed id.namespaceName = (.ok handle, after)) :
    SameElsewhere id world after := by
  obtain ⟨-, -, rfl⟩ := createNamed_ok hanswer
  intro name _ hown
  simp [setNamespace, Std.ExtTreeMap.getElem?_insert, hown.symm]

/-- The calls made wherever the thread is change nothing elsewhere, if it is on the host or inside. -/
theorem sameElsewhere_outer {call : Call} {value : call.Reply} (hcall : Call.Outer id egress call)
    (h : world.Tidy id) (hcurrent : world.current = hostNamespace ∨ world.current = id.namespaceName)
    (hanswer : world.answer call = (.ok value, after)) : SameElsewhere id world after := by
  cases hcall with
  | onRecord =>
    obtain ⟨-, rfl⟩ := by simpa [answer] using hanswer
    exact .refl id _
  | probe =>
    rw [linkExists_ok hanswer]
    exact .refl id world
  | unplug =>
    obtain ⟨ns, hns, -, rfl⟩ := deleteLink_ok hanswer
    have hbound : (world.setNamespace world.current (ns.dropLink id.vethName)).Bound id := by
      intro name link hends hlink
      have hleft := hasLink_setNamespace.mp hlink
      split at hleft
      · rename_i hname
        exact hname ▸ hcurrent
      · exact h.bound name link hends hleft
    exact (sameElsewhere_setNamespace hcurrent).trans
      (sameElsewhere_dropPeer ⟨h.ends, h.loose⟩ hbound (.inr (.inl rfl)))
  | _ => exact sameElsewhere_edit hcurrent hanswer

/-- So do the calls that furnish the slot's namespace. -/
theorem sameElsewhere_inner {call : Call} {value : call.Reply}
    (hcall : Call.Inner id (fun target => target.label = hostNamespace) call)
    (hcurrent : world.current = id.namespaceName) (hanswer : world.answer call = (.ok value, after)) :
    SameElsewhere id world after := by
  cases hcall with
  | cable =>
    obtain ⟨ns, -, rfl⟩ := layCable_ok hanswer
    exact sameElsewhere_setNamespace (.inr hcurrent)
  | move origin horigin =>
    obtain ⟨-, ns, -, -, rfl⟩ := moveLink_ok hanswer
    intro name hhost hown
    have hcurrentName : ¬ world.current = name := fun heq => hown (heq ▸ hcurrent)
    simp only [horigin, Std.ExtTreeMap.getElem?_modify, Std.ExtTreeMap.getElem?_insert,
      Std.LawfulEqCmp.compare_eq_iff_eq, if_neg hhost.symm, if_neg hcurrentName]
  | _ => exact sameElsewhere_edit (.inr hcurrent) hanswer

end World
end SlotPool
