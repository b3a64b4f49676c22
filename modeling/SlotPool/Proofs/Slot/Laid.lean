import SlotPool.Proofs.Slot.Mild
import SlotPool.Proofs.Slot.Standing
/-!
Jobs on a machine on which there is nothing but complete networks of slots. When calls fail, but none while
the thread is taken back or a network is undone, a job leaves such a machine: with the network of its slot
under the policy that was asked for, or without that network when the job fails.
-/

namespace SlotPool

open Sequence

/-- Nothing went wrong while a slot that could not be made ready was undone. -/
def PrepareFailure.Clean : PrepareFailure → Prop
  | .probe _ teardown | .create _ teardown | .firewall _ teardown => teardown = none

/-- What there is of a slot can be removed without a trace, so that the machine is as `base`. -/
def Removable (id : SlotId) (egress : String) (base : World) : Assertion World := fun slot world =>
  Left id egress base (fun _ => True) [id.hostRoute] (id.hostRules egress) True True slot world ∧
    Quiet slot world

section

variable {id : SlotId} {egress : String} {base world : World} {ids : List SlotId} {slot : Slot}
  {memory : Slot → Prop}

theorem Left.restored (h : Left id egress base memory [] [] False False slot world)
    (hbase : base.Grounded egress ids) (hid : id ∉ ids) : world = base :=
  have hclear := hbase.clear id hid
  have hconfined := h.onHost.1
  hclear.eq_of_without (h.remnant.clear hconfined.tidy hclear hconfined.surroundings)
    (h.onHost.2.trans hbase.current.symm) hconfined.surroundings hconfined.elsewhere

/-- Where there is nothing of a slot, there is no more left of it than of an attempt. -/
theorem left_of_grounded (hbase : base.Grounded egress ids) (hid : id ∉ ids) :
    Left id egress base (fun _ => True) [id.hostRoute] (id.hostRules egress) True True (.fresh id) base := by
  obtain ⟨host, hns⟩ := Option.isSome_iff_exists.mp (Std.ExtTreeMap.mem_iff_isSome_getElem?.mp hbase.host)
  obtain ⟨hroute, hrules⟩ := (hbase.clear id hid).host host hns
  have hhome : (Slot.fresh id).Homed := fun _ hnone => by cases hnone
  exact ⟨trivial, Confined.start egress hhome (hbase.orderly id) hbase.current,
    .of_attempt ⟨host, hns, Namespace.attempted_refl⟩ hroute hrules⟩

theorem remove_restores (hbase : base.Grounded egress ids) (hid : id ∉ ids) :
    Flawless (World.replies .none) (Removable id egress base) (Slot.remove egress)
      (fun _ world => world = base) :=
  (Left.remove hbase.host).weaken fun _ _ h => h.restored hbase hid

/-- Clearing up after a slot of which nothing is laid leaves the machine as it would be without the slot: what
    could be left of it is taken away, and no other slot is touched. -/
theorem reap_restores (hbase : base.Grounded egress ids) (hid : id ∉ ids) :
    Flawless (World.replies .none)
      (Left id egress base (fun _ => True) [id.hostRoute] (id.hostRules egress) True True) (Slot.reap egress)
      (fun slot world => slot = .fresh id ∧ world = base) := by
  refine (Left.reap hbase.host).weaken fun slot world h => ⟨?_, h.restored hbase hid⟩
  obtain ⟨found, state⟩ := slot
  obtain rfl : found = id := h.onHost.1.id_eq
  obtain rfl : state = .noNetwork := h.memory
  rfl

end

section

variable {id : SlotId} {egress : String} {policy wanted : Internet} {slot : Slot} {world : World}
  {opened : Option Handle} {before after entries : List (SlotId × Internet)}

/-- The machine is the stage on which it is itself. -/
theorem World.stage_self {host inner : Namespace} (hcurrent : world.current = hostNamespace)
    (hhost : world.namespaces[hostNamespace]? = some host) :
    world.stage id hostNamespace host inner world.peers = world.setNamespace id.namespaceName inner := by
  simp only [World.stage, World.setNamespace, hcurrent, World.mk.injEq, true_and, and_true]
  refine Std.ExtTreeMap.ext_getElem? fun name => ?_
  simp only [Std.ExtTreeMap.getElem?_insert, Std.LawfulEqCmp.compare_eq_iff_eq]
  grind

variable (hnodup : ((before ++ (id, policy) :: after).map Prod.fst).Nodup)
include hnodup

/-- A slot whose network is complete but for what is in the chain can be removed without a trace. What is
    outside its namespace is there once, and what is inside goes with the namespace. -/
theorem removable_laid {rules : List Rule} (hslot : slot.id = id) (hopened : id.Opens slot.handle)
    (hworld : world = (World.laid egress (before ++ (id, policy) :: after)).setNamespace id.namespaceName
      (id.walled rules)) (hrules : ∀ rule ∈ rules, rule ∈ blockRules) :
    Removable id egress (World.laid egress (before ++ after)) slot world := by
  let laid := World.laid egress (before ++ (id, policy) :: after)
  have hgrounded : laid.Grounded egress _ := World.laid_grounded hnodup
  have hentry : (id, policy) ∈ before ++ (id, policy) :: after := by simp
  have hinside : laid.namespaces[id.namespaceName]? = some (id.furnished policy) :=
    World.laid_inside hnodup hentry
  obtain ⟨hwithout, helse⟩ : laid.without id egress = _ ∧ _ := World.laid_without hnodup
  obtain ⟨host, hns⟩ := Option.isSome_iff_exists.mp
    (Std.ExtTreeMap.mem_iff_isSome_getElem?.mp hgrounded.host)
  have hcurrent : world.current = hostNamespace := hworld ▸ hgrounded.current
  have hhost : world.namespaces[hostNamespace]? = some host := by
    rw [hworld, World.setNamespace, Std.ExtTreeMap.getElem?_insert]
    simpa using hns
  have htidy : world.Tidy id := by
    refine (hgrounded.orderly id).congr (fun name link => ?_) (by rw [hworld]; rfl)
    rw [hworld, World.hasLink_setNamespace]
    split
    · rename_i hname
      subst hname
      have hlinks : (id.walled rules).links = (id.furnished policy).links := rfl
      simp [World.HasLink, hinside, hlinks]
    · rfl
  have hsurroundings : world.without id egress =
      (World.laid egress (before ++ after)).without id egress := by
    rw [hworld]
    exact (World.without_setNamespace fun hown => (hown rfl).elim).trans hwithout
  have helsewhere : World.SameElsewhere id (World.laid egress (before ++ after)) world := by
    refine helse.trans fun name hhost hown => ?_
    rw [hworld, World.setNamespace, Std.ExtTreeMap.getElem?_insert]
    simp [Ne.symm hown]
  constructor
  · refine ⟨trivial, ⟨⟨⟨hslot, ?_, htidy, hsurroundings⟩, .inl hcurrent, helsewhere⟩, hcurrent⟩,
      fun _ => trivial, fun _ => trivial, fun ns found => ?_, fun ns found => ?_⟩
    · intro handle hhandle
      rw [hopened handle hhandle]
    · obtain rfl := Option.some.inj (hhost.symm.trans found)
      rw [(World.laid_only hnodup hentry hns).1]
    · obtain rfl := Option.some.inj (hhost.symm.trans found)
      rw [(World.laid_only hnodup hentry hns).2]
  · cases hfirewall : slot.firewall with
    | none => exact quiet_of_bare (by rw [Slot.hasFirewall, hfirewall]; rfl)
    | some applied =>
      have hwalled : Staged.Walled laid id slot.handle (some applied) hostNamespace host laid.peers slot world :=
        ⟨rules, hrules, hslot, rfl, hfirewall, by rw [World.stage_self hgrounded.current hns, hworld]⟩
      exact Staged.quiet hopened hwalled

/-- A policy is applied to a slot on the machine, or the slot can be removed without a trace. A failure on the
    way leaves some blocking rules in the chain and changes nothing else. -/
theorem configure_laid {hazard : Hazard} (hreturns : hazard.Returns) (hopened : id.Opens opened) :
    Triple (World.replies hazard) (fun _ => True)
      (fun slot world => slot = .outfitted id opened policy ∧
        world = World.laid egress (before ++ (id, policy) :: after))
      (inNamespace (Firewall.configure wanted))
      (fun slot world => slot = .outfitted id opened wanted ∧
        world = World.laid egress (before ++ (id, wanted) :: after))
      (fun slot world => hazard.Strikes ∧
        Removable id egress (World.laid egress (before ++ after)) slot world) := by
  let laid := World.laid egress (before ++ (id, policy) :: after)
  have hgrounded : laid.Grounded egress _ := World.laid_grounded hnodup
  have hentry : (id, policy) ∈ before ++ (id, policy) :: after := by simp
  have hinside : laid.namespaces[id.namespaceName]? = some (id.furnished policy) :=
    World.laid_inside hnodup hentry
  obtain ⟨host, hns⟩ := Option.isSome_iff_exists.mp
    (Std.ExtTreeMap.mem_iff_isSome_getElem?.mp hgrounded.host)
  have hself (inner : Namespace) : laid.stage id hostNamespace host inner laid.peers =
      laid.setNamespace id.namespaceName inner := World.stage_self hgrounded.current hns
  have hfurnished : laid.setNamespace id.namespaceName (id.furnished policy) = laid :=
    World.laid_setNamespace hnodup
  have hstart : Staged laid id opened (some policy) hostNamespace host (id.walled policy.rules) laid.peers
      (.outfitted id opened policy) laid :=
    ⟨rfl, rfl, rfl, by rw [hself]; exact hfurnished.symm⟩
  rintro slot world ⟨rfl, rfl⟩
  have hitself : hazard.Strikes → hazard.Strikes := fun h => h
  refine (Staged.configure_from hitself hreturns hopened Internet.rules_block rfl _ _ hstart).mono
    (fun _ slot world h => ?_) fun _ slot world h => ⟨h.1, ?_⟩
  · refine ⟨Slot.eq_outfitted h.id_eq h.handle h.firewall, ?_⟩
    rw [h.world_eq, hself]
    exact World.laid_setNamespace hnodup
  · obtain ⟨-, rules, hrules, h⟩ := h
    refine removable_laid hnodup h.id_eq (h.handle ▸ hopened) ?_ hrules
    rw [h.world_eq, hself]

theorem laid_removable (hslot : slot.id = id) (hopened : id.Opens slot.handle) :
    Removable id egress (World.laid egress (before ++ after)) slot
      (World.laid egress (before ++ (id, policy) :: after)) :=
  removable_laid hnodup hslot hopened (World.laid_setNamespace hnodup).symm Internet.rules_block

end

section

variable {σ : Type} {hazard : Hazard} {machine : Machine σ} {view : σ → World} {s : σ} {id : SlotId}
  {egress : String} {policy wanted : Internet} {slot : Slot} {opened : Option Handle}
  {before after entries : List (SlotId × Internet)}

/-- Where no call fails, what can be removed is removed. -/
theorem remove_attains {base : World} {ids : List SlotId} (hbase : base.Grounded egress ids)
    (hid : id ∉ ids) (h : Removable id egress base slot (view s)) :
    Attains hazard machine view egress (Slot.remove egress) (fun _ _ world => world = base) (fun _ _ _ => False)
      slot s :=
  attains_undoing (.remove slot) (remove_restores hbase hid slot (view s) h)

theorem reap_attains {base : World} {ids : List SlotId} (hbase : base.Grounded egress ids) (hid : id ∉ ids)
    (h : Left id egress base (fun _ => True) [id.hostRoute] (id.hostRules egress) True True slot (view s)) :
    Attains hazard machine view egress (Slot.reap egress) (fun _ slot world => slot = .fresh id ∧ world = base)
      (fun _ _ _ => False) slot s :=
  attains_undoing (.reap slot) (reap_restores hbase hid slot (view s) h)

/-- A policy is applied to a slot, or the slot is removed without a trace. The removal finds everything, since
    no call fails in it. -/
theorem apply_attains {ε : Type} {blame : NetworkError → Option NetworkError → ε} (hreturns : hazard.Returns)
    (hnodup : ((before ++ (id, policy) :: after).map Prod.fst).Nodup) (hopened : id.Opens opened)
    (hview : view s = World.laid egress (before ++ (id, policy) :: after)) :
    Attains hazard machine view egress
      (Slot.orUndo (inNamespace (Firewall.configure wanted)) (Slot.remove egress) blame)
      (fun _ slot world => slot = .outfitted id opened wanted ∧
        world = World.laid egress (before ++ (id, wanted) :: after))
      (fun failure _ world => (∃ cause, failure = blame cause none) ∧ hazard.Strikes ∧
        world = World.laid egress (before ++ after)) (.outfitted id opened policy) s := by
  obtain ⟨hrest, hid⟩ := World.nodup_without hnodup
  have hconfigure : Attains hazard machine view egress (inNamespace (Firewall.configure wanted))
      (fun _ slot world => slot = .outfitted id opened wanted ∧
        world = World.laid egress (before ++ (id, wanted) :: after))
      (fun _ slot world => hazard.Strikes ∧
        Removable id egress (World.laid egress (before ++ after)) slot world) (.outfitted id opened policy) s :=
    attains_of_ensures (configure_laid hnodup hreturns hopened _ _ ⟨rfl, hview⟩)
  exact hconfigure.orUndo fun _ _ h =>
    (remove_attains (World.laid_grounded hrest) hid h.2).mono (fun _ _ _ hdone => ⟨h.1, hdone⟩)
      fun _ _ _ h => h

section

variable (hnodup : (entries.map Prod.fst).Nodup) (hid : id ∉ entries.map Prod.fst)
include hnodup hid

/-- The network of a slot is made, or what was made of it can be cleared away. The machine had nothing of the
    slot, so what belongs to it comes from this attempt. -/
theorem create_attains (hreturns : hazard.Returns) (hview : view s = World.laid egress entries) :
    Attains hazard machine view egress (Slot.create egress)
      (fun _ slot world => slot = .standing id .allowed ∧
        world = World.laid egress (entries ++ [(id, .allowed)]))
      (fun _ slot world => hazard.Strikes ∧ Left id egress (World.laid egress entries) (fun _ => True)
        [id.hostRoute] (id.hostRules egress) True True slot world) (.fresh id) s := by
  have hgrounded : (World.laid egress entries).Grounded egress _ := World.laid_grounded hnodup
  obtain ⟨host, hns⟩ := Option.isSome_iff_exists.mp
    (Std.ExtTreeMap.mem_iff_isSome_getElem?.mp hgrounded.host)
  have hclear := hgrounded.clear id hid
  obtain ⟨hroute, hrules⟩ := hclear.host host hns
  have honHost : Confined.OnHost id egress (World.laid egress entries) (.fresh id) (view s) := by
    rw [hview]
    exact (left_of_grounded hgrounded hid).onHost
  have hlands := Operation.create.lands hreturns hgrounded.host _ _ honHost
  have hcreate : Triple (World.replies hazard) (Attempt id egress host)
      (fun slot world => slot.id = id ∧ world = World.laid egress entries) (Slot.create egress)
      (Staged (World.laid egress entries) id (some id.handle) (some .allowed) hostNamespace (host.reaching id egress)
        (id.furnished .allowed) (World.withCable (World.laid egress entries).peers id))
      (Failed hazard.Strikes id egress host) :=
    Staged.create (fun h => h) hgrounded.current hns hclear.absent fun hmem => (hroute hmem).elim
  refine attains_of_ensures ((hlands.and (hcreate _ _ ⟨rfl, hview⟩)).mono (fun _ slot world h => ?_)
    fun _ slot world h => ⟨h.2.1, trivial, h.1, .of_attempt h.2.2 hroute hrules⟩)
  have hstaged := h.2
  refine ⟨Slot.eq_outfitted hstaged.id_eq hstaged.handle hstaged.firewall, ?_⟩
  rw [hstaged.world_eq, World.laid_concat, World.lay_eq_stage hgrounded.current hns]

/-- The network of a slot is made, or nothing of it is left, and then nothing is told but why it could not be
    made. -/
theorem createAfresh_attains (hreturns : hazard.Returns) (hview : view s = World.laid egress entries) :
    Attains hazard machine view egress (Slot.createAfresh egress)
      (fun _ slot world => slot = .standing id .allowed ∧
        world = World.laid egress (entries ++ [(id, .allowed)]))
      (fun failure _ world => failure.Clean ∧ hazard.Strikes ∧ world = World.laid egress entries)
      (.fresh id) s := by
  have hgrounded : (World.laid egress entries).Grounded egress _ := World.laid_grounded hnodup
  have hleft : Left id egress (World.laid egress entries) (fun _ => True) [id.hostRoute]
      (id.hostRules egress) True True (.fresh id) (view s) := by
    rw [hview]
    exact left_of_grounded hgrounded hid
  have hreaped : Attains hazard machine view egress (Sequence.failure? (Slot.reap egress))
      (fun _ slot world => slot = .fresh id ∧ world = World.laid egress entries)
      (fun (failure : PrepareFailure) _ world =>
        failure.Clean ∧ hazard.Strikes ∧ world = World.laid egress entries) (.fresh id) s :=
    .failure? ((reap_attains hgrounded hid hleft).mono (fun _ _ _ h => h) fun _ _ _ => False.elim)
  refine hreaped.bind fun _ slot s' h => ?_
  obtain ⟨rfl, hview⟩ := h
  have hmade : Attains hazard machine view egress
      (Slot.orUndo (Slot.create egress) (Slot.reap egress) PrepareFailure.create)
      (fun _ slot world => slot = .standing id .allowed ∧
        world = World.laid egress (entries ++ [(id, .allowed)]))
      (fun failure _ world => (∃ cause, failure = .create cause none) ∧ hazard.Strikes ∧
        world = World.laid egress entries) (.fresh id) s' :=
    (create_attains hnodup hid hreturns hview).orUndo fun _ _ h =>
      (reap_attains hgrounded hid h.2).mono (fun _ _ _ hdone => ⟨h.1, hdone.2⟩) fun _ _ _ h => h
  refine hmade.mono (fun _ _ _ h => h) ?_
  rintro failure slot world ⟨⟨cause, rfl⟩, hundone⟩
  exact ⟨rfl, hundone⟩

/-- A fresh slot has nothing that could not be removed. -/
theorem fresh_removable (hview : view s = World.laid egress entries) :
    Removable id egress (World.laid egress entries) (.fresh id) (view s) := by
  rw [hview]
  exact ⟨left_of_grounded (World.laid_grounded hnodup) hid, quiet_of_bare rfl⟩

end

/-- A probe changes nothing, and what it finds is so. If it does not find out, calls may fail. -/
theorem probe_attains {ε : Type} {err : ε → Assertion World} :
    Attains hazard machine view egress (attempt (perform (.namespaceExists id.namespaceName)))
      (fun result after world => (after = slot ∧ world = view s) ∧
        (∀ cause, result = .error cause → hazard.Strikes) ∧
        ∀ found, result = .ok found → (found = true ↔ id.namespaceName ∈ (view s).namespaces)) err slot s := by
  have hprobe : Ensures (World.replies hazard) (fun _ => True)
      (perform (.namespaceExists id.namespaceName))
      (fun found after world => (after = slot ∧ world = view s) ∧
        (found = true ↔ id.namespaceName ∈ (view s).namespaces))
      (fun _ after world => hazard.Strikes ∧ after = slot ∧ world = view s) slot (view s) := by
    rw [ensures_perform]
    refine ⟨trivial, fun result world' hreply => ?_⟩
    rcases hreply with hanswered | ⟨failure, hstruck, rfl, rfl⟩
    · obtain ⟨rfl, rfl⟩ := Prod.mk.inj hanswered
      exact ⟨⟨rfl, rfl⟩, by simp⟩
    · exact ⟨⟨_, _, _, hstruck⟩, rfl, rfl⟩
  refine .attempt ((attains_of_ensures hprobe).mono
    (fun found slot world h => ⟨h.1, ?_, ?_⟩) fun failure slot world h => ⟨h.2, fun _ _ => h.1, ?_⟩)
  · rintro other ⟨⟩
  · rintro other ⟨⟩
    exact h.2
  · rintro other ⟨⟩

/-- When the probe failed, what there is of the slot is removed. -/
theorem unprobed_attains {α : Type} {base : World} {ids : List SlotId} {cause : NetworkError}
    {ok : α → Assertion World} (hbase : base.Grounded egress ids) (hid : id ∉ ids)
    (h : Removable id egress base slot (view s)) :
    Attains hazard machine view egress (do throw (.probe cause (← failure? (Slot.remove egress)))) ok
      (fun (failure : PrepareFailure) _ world => failure.Clean ∧ world = base) slot s := by
  have hremoved : Attains hazard machine view egress (failure? (Slot.remove egress))
      (fun failure _ world => failure = none ∧ world = base)
      (fun (failure : PrepareFailure) _ world => failure.Clean ∧ world = base) slot s :=
    .failure? ((remove_attains hbase hid h).mono (fun _ _ _ h => ⟨rfl, h⟩) fun _ _ _ => False.elim)
  exact hremoved.bind fun _ _ _ h => attains_throw h

/-- Whatever calls fail of those that may, a slot of which there is nothing is made ready, or there is nothing
    of it afterwards. -/
theorem prepare_fresh (hreturns : hazard.Returns) (hnodup : (entries.map Prod.fst).Nodup)
    (hid : id ∉ entries.map Prod.fst) (hview : view s = World.laid egress entries) :
    Attains hazard machine view egress (Slot.prepare egress policy)
      (fun _ slot world => slot = .standing id policy ∧
        world = World.laid egress (entries ++ [(id, policy)]))
      (fun failure _ world => failure.Clean ∧ hazard.Strikes ∧ world = World.laid egress entries)
      (.fresh id) s := by
  have hgrounded : (World.laid egress entries).Grounded egress _ := World.laid_grounded hnodup
  have hprovide : Attains hazard machine view egress (Slot.provide egress)
      (fun _ slot world => slot = .standing id .allowed ∧
        world = World.laid egress (entries ++ [(id, .allowed)]))
      (fun failure _ world => failure.Clean ∧ hazard.Strikes ∧ world = World.laid egress entries)
      (.fresh id) s := by
    refine .get (probe_attains.bind fun result slot s' h => ?_)
    obtain ⟨⟨rfl, hsame⟩, hcause, hfound⟩ := h
    have hview' : view s' = World.laid egress entries := hsame.trans hview
    cases result with
    | error cause =>
      exact (unprobed_attains hgrounded hid (fresh_removable hnodup hid hview')).mono (fun _ _ _ h => h)
        fun _ _ _ h => ⟨h.1, hcause cause rfl, h.2⟩
    | ok found =>
      have habsent : ¬ found = true := by
        rw [hfound found rfl, hview]
        exact (hgrounded.clear id hid).absent
      obtain rfl : found = false := by simpa using habsent
      exact createAfresh_attains hnodup hid hreturns hview'
  refine hprovide.bind fun _ slot s' h => ?_
  obtain ⟨rfl, hview'⟩ := h
  have hnodup' : ((entries ++ [(id, Internet.allowed)]).map Prod.fst).Nodup := by
    rw [List.map_append, List.nodup_append_comm]
    exact List.nodup_cons.mpr ⟨hid, hnodup⟩
  rw [Slot.standing_eq]
  refine (apply_attains hreturns hnodup' id.opens_some hview').mono (fun _ _ _ h => h) ?_
  rintro failure slot world ⟨⟨cause, rfl⟩, hstruck, hworld⟩
  exact ⟨rfl, hstruck, by rw [hworld, List.append_nil]⟩

section

variable (hnodup : ((before ++ (id, policy) :: after).map Prod.fst).Nodup)
  (hview : view s = World.laid egress (before ++ (id, policy) :: after)) (hopened : id.Opens opened)
include hnodup hview hopened

/-- A slot on the machine is made ready, or it is taken away. It may have its namespace open or not; only its
    policy changes. -/
theorem prepare_outfitted (hreturns : hazard.Returns) :
    Attains hazard machine view egress (Slot.prepare egress wanted)
      (fun _ slot world => slot = .outfitted id opened wanted ∧
        world = World.laid egress (before ++ (id, wanted) :: after))
      (fun failure _ world => failure.Clean ∧ hazard.Strikes ∧ world = World.laid egress (before ++ after))
      (.outfitted id opened policy) s := by
  obtain ⟨hrest, hid⟩ := World.nodup_without hnodup
  have hentry : (id, policy) ∈ before ++ (id, policy) :: after := by simp
  have hprovide : Attains hazard machine view egress (Slot.provide egress)
      (fun _ slot world => slot = .outfitted id opened policy ∧
        world = World.laid egress (before ++ (id, policy) :: after))
      (fun failure _ world => failure.Clean ∧ hazard.Strikes ∧ world = World.laid egress (before ++ after))
      (.outfitted id opened policy) s := by
    refine .get (probe_attains.bind fun result slot s' h => ?_)
    obtain ⟨⟨rfl, hsame⟩, hcause, hfound⟩ := h
    have hview' := hsame.trans hview
    cases result with
    | error cause =>
      exact (unprobed_attains (World.laid_grounded hrest) hid (hview' ▸ laid_removable hnodup rfl hopened)).mono
        (fun _ _ _ h => h) fun _ _ _ h => ⟨h.1, hcause cause rfl, h.2⟩
    | ok found =>
      have hmem : id.namespaceName ∈ (World.laid egress (before ++ (id, policy) :: after)).namespaces := by
        rw [Std.ExtTreeMap.mem_iff_isSome_getElem?, World.laid_inside hnodup hentry]
        rfl
      obtain rfl : found = true := (hfound found rfl).mpr (hview ▸ hmem)
      exact .get (attains_pure ⟨rfl, hview'⟩)
  refine hprovide.bind fun _ slot s' h => ?_
  obtain ⟨rfl, hview'⟩ := h
  refine (apply_attains hreturns hnodup hopened hview').mono (fun _ _ _ h => h) ?_
  rintro failure slot world ⟨⟨cause, rfl⟩, hundone⟩
  exact ⟨rfl, hundone⟩

/-- A slot on the machine is opened for reuse, or it is taken away. -/
theorem release_outfitted (hreturns : hazard.Returns) :
    Attains hazard machine view egress (Slot.release egress)
      (fun _ slot world => slot = .outfitted id opened .allowed ∧
        world = World.laid egress (before ++ (id, .allowed) :: after))
      (fun failure _ world => failure.teardown = none ∧ world = World.laid egress (before ++ after))
      (.outfitted id opened policy) s := by
  refine Attains.mono (apply_attains hreturns hnodup hopened hview) (fun _ _ _ h => h) ?_
  rintro failure slot world ⟨⟨cause, rfl⟩, -, hworld⟩
  exact ⟨rfl, hworld⟩

end

/-- A slot on the machine is removed, whatever is known of it. -/
theorem remove_laid (hnodup : ((before ++ (id, policy) :: after).map Prod.fst).Nodup)
    (hview : view s = World.laid egress (before ++ (id, policy) :: after)) (hslot : slot.id = id)
    (hopened : id.Opens slot.handle) :
    Attains hazard machine view egress (Slot.remove egress)
      (fun _ _ world => world = World.laid egress (before ++ after)) (fun _ _ _ => False) slot s :=
  have hwithout := World.nodup_without hnodup
  remove_attains (World.laid_grounded hwithout.1) hwithout.2 (hview ▸ laid_removable hnodup hslot hopened)

theorem remove_fresh (hnodup : (entries.map Prod.fst).Nodup) (hid : id ∉ entries.map Prod.fst)
    (hview : view s = World.laid egress entries) :
    Attains hazard machine view egress (Slot.remove egress) (fun _ _ world => world = World.laid egress entries)
      (fun _ _ _ => False) (.fresh id) s :=
  remove_attains (World.laid_grounded hnodup) hid (fresh_removable hnodup hid hview)

end

end SlotPool
