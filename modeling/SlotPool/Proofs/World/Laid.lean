import Mathlib.Data.List.Induction
import Mathlib.Data.List.Nodup
import SlotPool.Proofs.Slot.Staged
import SlotPool.Proofs.World.Shrinks
/-!
Machines on which there is nothing but complete networks of slots. The networks of two slots have nothing in
common, so each can be taken away or given another policy as if it were the only one.
-/

namespace SlotPool.World

/-- The machine with the complete network of a slot, under a policy. -/
def lay (egress : String) (world : World) (entry : SlotId × Internet) : World where
  current := world.current
  namespaces := (world.namespaces.modify hostNamespace (·.reaching entry.1 egress)).insert
    entry.1.namespaceName (entry.1.furnished entry.2)
  peers := withCable world.peers entry.1

/-- The machine on which nothing was made but the networks of these slots, one after the other. -/
def laid (egress : String) (entries : List (SlotId × Internet)) : World :=
  entries.foldl (lay egress) .fresh

section

variable {world world' : World} {id other : SlotId} {egress : String} {policy policy' : Internet}
  {host : Namespace}

/-- Laying a network is to set the stage of a slot with everything on it: the host reaches the slot, its
    namespace is furnished, and its cable is joined. -/
theorem lay_eq_stage (hcurrent : world.current = hostNamespace)
    (hhost : world.namespaces[hostNamespace]? = some host) :
    world.lay egress (id, policy) = world.stage id hostNamespace (host.reaching id egress)
      (id.furnished policy) (withCable world.peers id) := by
  simp only [lay, stage, hcurrent, World.mk.injEq, true_and, and_true]
  refine Std.ExtTreeMap.ext_getElem? fun name => ?_
  simp only [Std.ExtTreeMap.getElem?_insert, Std.ExtTreeMap.getElem?_modify, Std.LawfulEqCmp.compare_eq_iff_eq]
  grind

@[simp]
theorem lay_inside : (world.lay egress (id, policy)).namespaces[id.namespaceName]? =
    some (id.furnished policy) := by
  simp [lay]

theorem lay_host : (world.lay egress (id, policy)).namespaces[hostNamespace]? =
    world.namespaces[hostNamespace]?.map (·.reaching id egress) := by
  simp [lay, Std.ExtTreeMap.getElem?_insert, SlotId.namespaceName_ne_host]

theorem lay_elsewhere : SameElsewhere id world (world.lay egress (id, policy)) := by
  intro name hhost hown
  simp [lay, Std.ExtTreeMap.getElem?_insert, Std.ExtTreeMap.getElem?_modify, hhost.symm, hown.symm]

/-- The host without a slot is the same whether the slot is reached from there or not. -/
theorem reaching_without : (host.reaching id egress).without id egress = host.without id egress := by
  simp only [Namespace.without, Namespace.reaching, Namespace.put, Namespace.mk.injEq, and_true]
  refine ⟨Std.ExtTreeMap.ext_getElem? fun link => ?_, ?_, ?_⟩
  · simp only [Std.ExtTreeMap.getElem?_erase, Std.ExtTreeMap.getElem?_insert,
      Std.LawfulEqCmp.compare_eq_iff_eq]
    grind
  · simp [List.filter_append]
  · simp [List.filter_append]

/-- All that is laid for a slot belongs to the slot. -/
theorem lay_without : (world.lay egress (id, policy)).without id egress = world.without id egress := by
  simp only [without, Surroundings.mk.injEq]
  constructor
  · funext name
    by_cases hown : name = id.namespaceName
    · rw [if_pos hown, if_pos hown]
    · rw [if_neg hown, if_neg hown]
      by_cases hhost : name = hostNamespace
      · rw [hhost, lay_host, Option.map_map]
        exact congrArg (Option.map · _) (funext fun host => reaching_without)
      · rw [lay_elsewhere name hhost hown]
  · funext link
    split
    · rfl
    · simp only [lay, withCable, Std.ExtTreeMap.getElem?_insert, Std.LawfulEqCmp.compare_eq_iff_eq]
      grind

/-- Hosts that are the same without a slot stay so when another is reached from there. -/
theorem reaching_same {host' : Namespace} (hsame : host'.without other egress = host.without other egress) :
    (host'.reaching id egress).without other egress = (host.reaching id egress).without other egress := by
  have hroutes : host'.routes.filter (· ≠ other.hostRoute) = host.routes.filter (· ≠ other.hostRoute) :=
    congrArg Namespace.routes hsame
  have hrules : host'.rules.filter (· ∉ other.hostRules egress) =
      host.rules.filter (· ∉ other.hostRules egress) := congrArg Namespace.rules hsame
  have hchains : host'.chains = host.chains := by
    simpa only [Namespace.without] using congrArg Namespace.chains hsame
  have hlinks (link : String) (hveth : link ≠ other.vethName) (hvpeer : link ≠ other.vpeerName) :
      host'.links[link]? = host.links[link]? := links_of_without hsame hveth hvpeer
  simp only [Namespace.without, Namespace.reaching, Namespace.put, Namespace.mk.injEq, List.filter_append,
    hroutes, hrules, hchains, and_true]
  refine Std.ExtTreeMap.ext_getElem? fun link => ?_
  simp only [Std.ExtTreeMap.getElem?_erase, Std.ExtTreeMap.getElem?_insert, Std.LawfulEqCmp.compare_eq_iff_eq]
  grind

/-- Machines that are the same without a slot stay so when the network of another is made. -/
theorem lay_same (hsame : world'.without other egress = world.without other egress) :
    (world'.lay egress (id, policy)).without other egress =
      (world.lay egress (id, policy)).without other egress := by
  have hhosts := namespaces_of_without hsame (by simp : hostNamespace ≠ other.namespaceName)
  simp only [without, Surroundings.mk.injEq]
  constructor
  · funext name
    by_cases hown : name = other.namespaceName
    · rw [if_pos hown, if_pos hown]
    · rw [if_neg hown, if_neg hown]
      by_cases hname : name = id.namespaceName
      · rw [hname, lay_inside, lay_inside]
      · by_cases hhost : name = hostNamespace
        · rw [hhost, lay_host, lay_host]
          cases hns : world.namespaces[hostNamespace]? with
          | none => simpa [hns] using hhosts
          | some host =>
            rw [hns, Option.map_some] at hhosts
            obtain ⟨host', hns', hwithout⟩ := Option.map_eq_some_iff.mp hhosts
            rw [hns']
            exact congrArg some (reaching_same hwithout)
        · rw [lay_elsewhere name hhost hname, lay_elsewhere name hhost hname]
          exact namespaces_of_without hsame hown
  · funext link
    split
    · rfl
    · rename_i hlink
      have hpeers := peers_of_without hsame (fun hveth => hlink (.inl hveth)) fun hvpeer => hlink (.inr hvpeer)
      simp only [lay, withCable, Std.ExtTreeMap.getElem?_insert, hpeers]

/-- What is laid for one slot is laid on both machines alike, so what another slot sees elsewhere stays the
    same. -/
theorem lay_sameElsewhere (helse : SameElsewhere other world world') :
    SameElsewhere other (world.lay egress (id, policy)) (world'.lay egress (id, policy)) := by
  intro name hhost hown
  by_cases hname : name = id.namespaceName
  · rw [hname, lay_inside, lay_inside]
  · rw [lay_elsewhere name hhost hname, lay_elsewhere name hhost hname]
    exact helse name hhost hown

/-- Where the links are after a network was made. -/
theorem lay_hasLink {name link : String} (hlink : (world.lay egress (id, policy)).HasLink name link) :
    name = id.namespaceName ∧ (link = loopback ∨ link = id.vpeerName ∨ link = id.tapName) ∨
      name ≠ id.namespaceName ∧ (world.HasLink name link ∨ name = hostNamespace ∧ link = id.vethName) := by
  obtain ⟨ns, hns, hmem⟩ := hlink
  by_cases hname : name = id.namespaceName
  · refine .inl ⟨hname, ?_⟩
    rw [hname, lay_inside] at hns
    obtain rfl := Option.some.inj hns
    have hlo : loopback = "lo" := rfl
    simp only [SlotId.furnished, Namespace.put, Namespace.bare, Std.ExtTreeMap.mem_insert,
      Std.LawfulEqCmp.compare_eq_iff_eq, Std.ExtTreeMap.not_mem_empty, or_false, hlo] at hmem ⊢
    grind
  · refine .inr ⟨hname, ?_⟩
    by_cases hhost : name = hostNamespace
    · rw [hhost, lay_host] at hns
      obtain ⟨host, hhosts, rfl⟩ := Option.map_eq_some_iff.mp hns
      rcases Std.ExtTreeMap.mem_insert.mp hmem with hveth | hold
      · exact .inr ⟨hhost, (Std.LawfulEqCmp.compare_eq_iff_eq.mp hveth).symm⟩
      · exact .inl ⟨host, hhost ▸ hhosts, hold⟩
    · rw [lay_elsewhere name hhost hname] at hns
      exact .inl ⟨ns, hns, hmem⟩

theorem lay_peers : (world.lay egress (id, policy)).peers[id.vethName]? = some id.vpeerName ∧
    (world.lay egress (id, policy)).peers[id.vpeerName]? = some id.vethName := by
  simp only [lay, withCable, Std.ExtTreeMap.getElem?_insert, Std.LawfulEqCmp.compare_eq_iff_eq]
  simp

theorem lay_loose (hclear : world.Clear id egress) (hloopback : world.peers[loopback]? = none) :
    (world.lay egress (id, policy)).peers[loopback]? = none ∧
      (world.lay egress (id, policy)).peers[id.tapName]? = none := by
  have htap := hclear.peers id.tapName (.inr (.inr rfl))
  simp [lay, withCable, Std.ExtTreeMap.getElem?_insert, hloopback, htap]

/-- The cable ends on the host. -/
theorem lay_veth (hhost : hostNamespace ∈ world.namespaces) :
    (world.lay egress (id, policy)).HasLink hostNamespace id.vethName := by
  obtain ⟨host, hns⟩ := Option.isSome_iff_exists.mp (Std.ExtTreeMap.mem_iff_isSome_getElem?.mp hhost)
  refine ⟨host.reaching id egress, by rw [lay_host, hns, Option.map_some], ?_⟩
  simp [Namespace.reaching, Namespace.put, Std.ExtTreeMap.mem_insert]

/-- The devices of a slot are where they belong when its network is complete. -/
theorem lay_tidy (hclear : world.Clear id egress) (hloopback : world.peers[loopback]? = none)
    (hhost : hostNamespace ∈ world.namespaces) : (world.lay egress (id, policy)).Tidy id := by
  refine ⟨⟨.inr lay_peers, lay_loose hclear hloopback⟩, fun link hlink => ?_, fun name hlink => ?_,
    fun name hlink => ?_, fun _ => .inl (lay_veth hhost)⟩
  · rcases lay_hasLink hlink with ⟨-, hown⟩ | ⟨hname, -⟩
    · grind
    · exact (hname rfl).elim
  · rcases lay_hasLink hlink with ⟨hname, -⟩ | ⟨-, hold | hveth⟩
    · exact hname
    · exact (hclear.links name _ (.inr (.inl rfl)) hold).elim
    · simp at hveth
  · rcases lay_hasLink hlink with ⟨hname, -⟩ | ⟨-, hold | hveth⟩
    · exact .inr hname
    · exact (hclear.links name _ (.inl rfl) hold).elim
    · exact .inl hveth.1

end

section

variable {id : SlotId} {egress : String} {policy policy' : Internet} {entry : SlotId × Internet}
  {entries before after : List (SlotId × Internet)}

theorem nodup_without (hnodup : ((before ++ (id, policy) :: after).map Prod.fst).Nodup) :
    ((before ++ after).map Prod.fst).Nodup ∧ id ∉ (before ++ after).map Prod.fst := by
  rw [List.map_append, List.map_cons, List.nodup_middle] at hnodup
  rw [List.map_append]
  exact ⟨(List.nodup_cons.mp hnodup).2, (List.nodup_cons.mp hnodup).1⟩

theorem laid_concat : laid egress (entries ++ [entry]) = (laid egress entries).lay egress entry := by
  simp [laid]

theorem laid_current : (laid egress entries).current = hostNamespace := by
  induction entries using List.reverseRecOn with
  | nil => rfl
  | append_singleton entries entry ih =>
    rw [laid_concat]
    exact ih

/-- What holds of a machine with nothing but the networks of these slots. -/
structure Grounded (world : World) (egress : String) (ids : List SlotId) : Prop where
  current : world.current = hostNamespace
  host : hostNamespace ∈ world.namespaces
  orderly : world.Orderly
  clear : ∀ id, id ∉ ids → world.Clear id egress

theorem Grounded.loopback {world : World} {ids : List SlotId} (h : world.Grounded egress ids) :
    world.peers[SlotPool.loopback]? = none :=
  (h.orderly 0).loose.1

/-- A machine with nothing but networks of slots is in order for each of these slots, and clear of all others.
    -/
theorem laid_grounded (hnodup : (entries.map Prod.fst).Nodup) :
    (laid egress entries).Grounded egress (entries.map Prod.fst) := by
  induction entries using List.reverseRecOn with
  | nil => exact ⟨rfl, by simp [laid, fresh], fresh_orderly, fun id _ => fresh_clear id egress⟩
  | append_singleton entries entry ih =>
    rw [List.map_append, List.nodup_append] at hnodup
    have h := ih hnodup.1
    have hnew : entry.1 ∉ entries.map Prod.fst := fun hmem => hnodup.2.2 _ hmem _ (by simp) rfl
    have htidy : ((laid egress entries).lay egress entry).Tidy entry.1 :=
      lay_tidy (h.clear _ hnew) h.loopback h.host
    have hsame : ((laid egress entries).lay egress entry).without entry.1 egress =
        (laid egress entries).without entry.1 egress := lay_without
    rw [laid_concat]
    refine ⟨h.current, mem_of_without hsame (by simp) h.host, h.orderly.change htidy hsame, fun id hid => ?_⟩
    rw [List.map_append, List.mem_append, not_or] at hid
    exact (h.clear id hid.1).of_without htidy (by simpa using hid.2) hsame lay_elsewhere

/-- The namespace of a slot whose network is laid is furnished for the slot's policy. The networks laid later
    leave it alone, since the identities are distinct. -/
theorem laid_inside (hnodup : (entries.map Prod.fst).Nodup) (hentry : (id, policy) ∈ entries) :
    (laid egress entries).namespaces[id.namespaceName]? = some (id.furnished policy) := by
  induction entries using List.reverseRecOn with
  | nil => cases hentry
  | append_singleton entries entry ih =>
    rw [List.map_append, List.nodup_append] at hnodup
    rw [laid_concat]
    rcases List.mem_append.mp hentry with hold | hnew
    · have hother : id ≠ entry.1 := hnodup.2.2 _ (List.mem_map_of_mem hold) _ (by simp)
      exact (lay_elsewhere _ (by simp) (by simpa using hother)).trans (ih hnodup.1 hold)
    · obtain rfl := List.mem_singleton.mp hnew
      exact lay_inside

/-- A slot has its route and its rules on the host once each. -/
theorem laid_only {host : Namespace} (hnodup : (entries.map Prod.fst).Nodup)
    (hentry : (id, policy) ∈ entries) (hhost : (laid egress entries).namespaces[hostNamespace]? = some host) :
    (host.only id egress).routes = [id.hostRoute] ∧ (host.only id egress).rules = id.hostRules egress := by
  induction entries using List.reverseRecOn generalizing host with
  | nil => cases hentry
  | append_singleton entries entry ih =>
    rw [List.map_append, List.nodup_append] at hnodup
    rw [laid_concat, lay_host] at hhost
    obtain ⟨found, hfound, rfl⟩ := Option.map_eq_some_iff.mp hhost
    rcases List.mem_append.mp hentry with hold | hnew
    · have hother : id ≠ entry.1 := hnodup.2.2 _ (List.mem_map_of_mem hold) _ (by simp)
      rw [only_of_without hother reaching_without]
      exact ih hnodup.1 hold hfound
    · obtain rfl := List.mem_singleton.mp hnew
      have hnew : id ∉ entries.map Prod.fst := fun hmem => hnodup.2.2 _ hmem _ (by simp) rfl
      obtain ⟨hroute, hrules⟩ := ((laid_grounded hnodup.1).clear id hnew).host found hfound
      have hnoRoute : found.routes.filter (· = id.hostRoute) = [] :=
        List.filter_eq_nil_iff.mpr fun route hmem heq => hroute (of_decide_eq_true heq ▸ hmem)
      have hnoRule : found.rules.filter (· ∈ id.hostRules egress) = [] :=
        List.filter_eq_nil_iff.mpr fun rule hmem hown => hrules rule (of_decide_eq_true hown) hmem
      simp [Namespace.only, Namespace.reaching, List.filter_append, hnoRoute, hnoRule]

/-- Without a slot, everything is as if its network had not been made. -/
theorem laid_without (hnodup : ((before ++ (id, policy) :: after).map Prod.fst).Nodup) :
    (laid egress (before ++ (id, policy) :: after)).without id egress =
        (laid egress (before ++ after)).without id egress ∧
      SameElsewhere id (laid egress (before ++ after)) (laid egress (before ++ (id, policy) :: after)) := by
  induction after using List.reverseRecOn with
  | nil =>
    rw [laid_concat, List.append_nil]
    exact ⟨lay_without, lay_elsewhere⟩
  | append_singleton after entry ih =>
    rw [← List.cons_append, ← List.append_assoc, List.map_append, List.nodup_append] at hnodup
    obtain ⟨hsame, helse⟩ := ih hnodup.1
    rw [← List.cons_append, ← List.append_assoc, ← List.append_assoc, laid_concat, laid_concat]
    exact ⟨lay_same hsame, lay_sameElsewhere helse⟩

/-- A slot whose policy is changed is as if its network had been made under that policy. -/
theorem laid_setNamespace (hnodup : ((before ++ (id, policy) :: after).map Prod.fst).Nodup) :
    (laid egress (before ++ (id, policy) :: after)).setNamespace id.namespaceName (id.furnished policy') =
      laid egress (before ++ (id, policy') :: after) := by
  induction after using List.reverseRecOn with
  | nil =>
    rw [laid_concat, laid_concat]
    simp only [lay, setNamespace, World.mk.injEq, true_and, and_true]
    refine Std.ExtTreeMap.ext_getElem? fun name => ?_
    simp only [Std.ExtTreeMap.getElem?_insert]
    split <;> rfl
  | append_singleton after entry ih =>
    rw [← List.cons_append, ← List.append_assoc, List.map_append, List.nodup_append] at hnodup
    have hother : id ≠ entry.1 := hnodup.2.2 _ (by simp) _ (by simp)
    rw [← List.cons_append, ← List.append_assoc, laid_concat, ← List.cons_append, ← List.append_assoc,
      laid_concat, ← ih hnodup.1]
    simp only [lay, setNamespace, World.mk.injEq, true_and, and_true]
    refine Std.ExtTreeMap.ext_getElem? fun name => ?_
    have hname : id.namespaceName ≠ entry.1.namespaceName := by simpa using hother
    have hown : id.namespaceName ≠ hostNamespace := SlotId.namespaceName_ne_host
    simp only [Std.ExtTreeMap.getElem?_insert, Std.ExtTreeMap.getElem?_modify,
      Std.LawfulEqCmp.compare_eq_iff_eq]
    grind

end

end SlotPool.World
