import SlotPool.Proofs.Slot.Laid
import SlotPool.Proofs.World.Complete
/-!
Slots whose networks another process has left. Nothing is remembered of such a slot, so its namespace is
entered by name, and a firewall of its own replaces whatever chain is there. Where no call fails, it is then
like any other slot: a job changes its network alone, and it can be taken away although there is no handle.
-/

namespace SlotPool

open Sequence

/-- What is known of a slot is that it has its network under a policy. If there is a handle, it leads to the
    namespace. -/
structure Slot.Keeps (slot : Slot) (policy : Internet) : Prop where
  firewall : slot.firewall = some policy
  opened : slot.id.Opens slot.handle

theorem Slot.outfitted_keeps {id : SlotId} {opened : Option Handle} {policy : Internet}
    (hopened : id.Opens opened) : (Slot.outfitted id opened policy).Keeps policy :=
  ⟨rfl, hopened⟩

theorem Slot.Keeps.eq_outfitted {slot : Slot} {policy : Internet} (h : slot.Keeps policy) :
    slot = .outfitted slot.id slot.handle policy :=
  Slot.eq_outfitted rfl rfl h.firewall

/-- Either nothing is known of a slot, or it is one of those on the machine. -/
def Slot.Known (slot : Slot) (entries : List (SlotId × Internet)) : Prop :=
  slot = .fresh slot.id ∨ ∃ policy, (slot.id, policy) ∈ entries ∧ slot.Keeps policy

theorem Slot.Known.opened {slot : Slot} {entries : List (SlotId × Internet)} (h : slot.Known entries) :
    slot.id.Opens slot.handle := by
  rcases h with hfresh | ⟨policy, -, hkeeps⟩
  · rw [hfresh]
    rintro handle ⟨⟩
  · exact hkeeps.opened

/-- The networks of the other slots stay as they are. That of one slot is there under a policy afterwards, or it
    is not there. -/
structure Resettled (id : SlotId) (settled : Option Internet) (entries entries' : List (SlotId × Internet)) :
    Prop where
  nodup : (entries'.map Prod.fst).Nodup
  others : entries'.filter (·.1 ≠ id) = entries.filter (·.1 ≠ id)
  own : ∀ policy, (id, policy) ∈ entries' ↔ settled = some policy

namespace Resettled

variable {id other : SlotId} {policy wanted : Internet} {settled : Option Internet}
  {entries entries' before after : List (SlotId × Internet)}

theorem mem_other (h : Resettled id settled entries entries') (hother : other ≠ id) :
    (other, policy) ∈ entries' ↔ (other, policy) ∈ entries := by
  have hmem (list : List (SlotId × Internet)) :
      (other, policy) ∈ list.filter (·.1 ≠ id) ↔ (other, policy) ∈ list := by simp [hother]
  rw [← hmem entries', h.others, hmem]

theorem absent (h : Resettled id none entries entries') : id ∉ entries'.map Prod.fst := by
  intro hmem
  obtain ⟨⟨found, policy⟩, hentry, rfl⟩ := List.mem_map.mp hmem
  cases (h.own policy).mp hentry

/-- On a machine with nothing but the networks of slots, the change is just this. -/
theorem resettles {egress : String} (h : Resettled id settled entries entries')
    (hnodup : (entries.map Prod.fst).Nodup) :
    World.Resettles id egress settled (World.laid egress entries) (World.laid egress entries') where
  own := by
    cases settled with
    | some policy => exact World.laid_complete h.nodup ((h.own policy).mpr rfl)
    | none => exact ⟨World.laid_current, World.laid_clear h.nodup h.absent⟩
  others := World.laid_beside hnodup h.nodup h.others

/-- The policy of a slot is changed. -/
theorem replace (hnodup : ((before ++ (id, policy) :: after).map Prod.fst).Nodup) :
    Resettled id (some wanted) (before ++ (id, policy) :: after) (before ++ (id, wanted) :: after) where
  nodup := by simpa using hnodup
  others := by simp [List.filter_append]
  own found := by
    obtain ⟨-, hid⟩ := World.nodup_without hnodup
    have habsent : (id, found) ∉ before ++ after := fun hmem => hid (List.mem_map_of_mem hmem)
    rw [List.mem_append, not_or] at habsent
    simp [habsent, eq_comm]

/-- The network of a slot is made. -/
theorem concat (hnodup : (entries.map Prod.fst).Nodup) (hid : id ∉ entries.map Prod.fst) :
    Resettled id (some policy) entries (entries ++ [(id, policy)]) where
  nodup := by
    rw [List.map_append, List.nodup_append_comm]
    exact List.nodup_cons.mpr ⟨hid, hnodup⟩
  others := by simp [List.filter_append]
  own found := by
    have habsent : (id, found) ∉ entries := fun hmem => hid (List.mem_map_of_mem hmem)
    simp [habsent, eq_comm]

/-- The network of a slot is taken away. -/
theorem without (hnodup : ((before ++ (id, policy) :: after).map Prod.fst).Nodup) :
    Resettled id none (before ++ (id, policy) :: after) (before ++ after) where
  nodup := (World.nodup_without hnodup).1
  others := by simp [List.filter_append]
  own found := by
    have habsent : (id, found) ∉ before ++ after := fun hmem =>
      (World.nodup_without hnodup).2 (List.mem_map_of_mem hmem)
    simpa using habsent

/-- There was no network that could be taken away. -/
theorem same (hnodup : (entries.map Prod.fst).Nodup) (hid : id ∉ entries.map Prod.fst) :
    Resettled id none entries entries where
  nodup := hnodup
  others := rfl
  own found := by
    have habsent : (id, found) ∉ entries := fun hmem => hid (List.mem_map_of_mem hmem)
    simpa using habsent

/-- What is known of the other slots is still so. -/
theorem known {slot : Slot} (h : Resettled id settled entries entries') (hother : slot.id ≠ id)
    (hknown : slot.Known entries) : slot.Known entries' :=
  hknown.imp_right fun ⟨policy, hentry, hkeeps⟩ => ⟨policy, (h.mem_other hother).mpr hentry, hkeeps⟩

theorem absent_other (h : Resettled id settled entries entries') (hother : other ≠ id)
    (habsent : other ∉ entries.map Prod.fst) : other ∉ entries'.map Prod.fst := by
  intro hmem
  obtain ⟨⟨found, policy⟩, hentry, rfl⟩ := List.mem_map.mp hmem
  exact habsent (List.mem_map_of_mem ((h.mem_other hother).mp hentry))

end Resettled

/-- Where no call fails, a firewall is set up whatever chain was left there. The hook of the earlier one is
    deleted first, since a chain to which a rule leads cannot be deleted. -/
theorem Staged.replaceChain {base : World} {id : SlotId} {host : Namespace} {peers : Named String}
    {opened : Option Handle} {rules : List Rule} (hrules : ∀ rule ∈ rules, rule ∈ blockRules) :
    Flawless (World.replies .none)
      (Staged base id opened none id.namespaceName host (id.walled rules) peers) Firewall.setUp
      (Staged base id opened (some .allowed) id.namespaceName host (id.walled []) peers) := by
  let cleared : Namespace := { id.walled [] with rules := id.natRules, chains := [] }
  let chained : Namespace := { id.walled [] with rules := id.natRules }
  have hchain : World.newChain .filter egressChain cleared = .ok chained := by
    have habsent : ¬ cleared.hasChain .filter egressChain = true := by
      have hchains : cleared.chains = [] := rfl
      rw [Namespace.hasChain, hchains]
      decide
    rw [World.newChain, if_neg habsent]
    rfl
  have hhook : World.appendRule id.hookRule chained = .ok (id.walled []) := by
    have hbuiltin : chained.hasChain id.hookRule.table id.hookRule.chain = true := by
      simp [Namespace.hasChain, SlotId.hookRule, builtinChains]
    rw [World.appendRule, if_pos hbuiltin]
    rfl
  have hinstall : Flawless (World.replies .none)
      (Staged base id opened none id.namespaceName host (id.walled []) peers)
      (modify fun slot => (slot.installFirewall .allowed).2 : Sequence Unit)
      (Staged base id opened (some .allowed) id.namespaceName host (id.walled []) peers) :=
    .modify fun slot world h => ⟨by simpa using h.id_eq, by simpa using h.handle,
      Slot.installFirewall_firewall h.firewall, h.world_eq⟩
  refine .get fun seen => .ite (fun _ => ?_) fun hhas => ?_
  · rintro slot world ⟨rfl, h⟩
    rw [h.id_eq]
    refine Triple.bind (unwall hrules) (fun _ => ?_) slot world h
    refine .bind (.step (does (World.stage_edit_inner hchain))) fun _ => ?_
    exact .bind (.step (does (World.stage_edit_inner hhook))) fun _ => hinstall
  · rintro slot world ⟨rfl, h⟩
    simp [Slot.hasFirewall, h.firewall] at hhas

section

variable {σ : Type} {machine : Machine σ} {view : σ → World} {s : σ} {id : SlotId} {egress : String}
  {policy wanted : Internet} {slot : Slot} {before after entries : List (SlotId × Internet)}

/-- A namespace that was left is entered by name, and gets a firewall with nothing blocked. The slot remembers
    no handle afterwards, as the namespace was not opened for good. -/
theorem adopt_laid (hnodup : ((before ++ (id, policy) :: after).map Prod.fst).Nodup) :
    Ensures (World.replies .none) (fun _ => True) (inNamespace Firewall.setUp)
      (fun _ slot world => slot = .outfitted id none .allowed ∧
        world = World.laid egress (before ++ (id, .allowed) :: after))
      (fun _ _ _ => False) (.fresh id) (World.laid egress (before ++ (id, policy) :: after)) := by
  let laid := World.laid egress (before ++ (id, policy) :: after)
  have hgrounded : laid.Grounded egress _ := World.laid_grounded hnodup
  obtain ⟨host, hns⟩ := Option.isSome_iff_exists.mp
    (Std.ExtTreeMap.mem_iff_isSome_getElem?.mp hgrounded.host)
  have hself (inner : Namespace) : laid.stage id hostNamespace host inner laid.peers =
      laid.setNamespace id.namespaceName inner := World.stage_self hgrounded.current hns
  have hstart : Staged laid id none none hostNamespace host (id.walled policy.rules) laid.peers (.fresh id) laid :=
    ⟨rfl, rfl, rfl, by rw [hself]; exact (World.laid_setNamespace hnodup).symm⟩
  refine Staged.visit Hazard.none_returns (by rintro handle ⟨⟩) (fun slot world h => ?_)
    (fun _ _ _ _ _ hstruck _ => hstruck.elim) hstart
  refine (Staged.replaceChain Internet.rules_block slot world h).mono (fun _ slot world h => ?_)
    fun _ _ _ => False.elim
  obtain ⟨hhost, hhome⟩ := h.home
  refine ⟨hhost, Slot.eq_outfitted hhome.id_eq hhome.handle hhome.firewall, ?_⟩
  have hopen : laid.setNamespace id.namespaceName (id.furnished .allowed) =
      World.laid egress (before ++ (id, .allowed) :: after) := World.laid_setNamespace hnodup
  rw [hhome.world_eq, hself]
  exact hopen

/-- A slot is made ready whose network was left by another process. It has the policy that is asked for now,
    whatever it was before. -/
theorem prepare_adopted (hnodup : ((before ++ (id, policy) :: after).map Prod.fst).Nodup)
    (hview : view s = World.laid egress (before ++ (id, policy) :: after)) :
    Attains .none machine view egress (Slot.prepare egress wanted)
      (fun _ slot world => slot = .outfitted id none wanted ∧
        world = World.laid egress (before ++ (id, wanted) :: after))
      (fun _ _ _ => False) (.fresh id) s := by
  have hopened : id.Opens none := by rintro handle ⟨⟩
  have hentry : (id, policy) ∈ before ++ (id, policy) :: after := by simp
  have hprovide : Attains .none machine view egress (Slot.provide egress)
      (fun _ slot world => slot = .outfitted id none .allowed ∧
        world = World.laid egress (before ++ (id, .allowed) :: after))
      (fun _ _ _ => False) (.fresh id) s := by
    refine .get (probe_attains.bind fun result slot s' h => ?_)
    obtain ⟨⟨rfl, hsame⟩, hcause, hfound⟩ := h
    have hview' := hsame.trans hview
    cases result with
    | error cause => exact (Hazard.none_strikes (hcause cause rfl)).elim
    | ok found =>
      have hmem : id.namespaceName ∈ (World.laid egress (before ++ (id, policy) :: after)).namespaces := by
        rw [Std.ExtTreeMap.mem_iff_isSome_getElem?, World.laid_inside hnodup hentry]
        rfl
      obtain rfl : found = true := (hfound found rfl).mpr (hview ▸ hmem)
      have hadopt : Attains .none machine view egress (inNamespace Firewall.setUp)
          (fun _ slot world => slot = .outfitted id none .allowed ∧
            world = World.laid egress (before ++ (id, .allowed) :: after))
          (fun _ _ _ => False) (.fresh id) s' :=
        attains_of_ensures (hview' ▸ adopt_laid hnodup)
      have hundone : Attains .none machine view egress
          (Slot.orUndo (inNamespace Firewall.setUp) (Slot.remove egress) PrepareFailure.firewall)
          (fun _ slot world => slot = .outfitted id none .allowed ∧
            world = World.laid egress (before ++ (id, .allowed) :: after))
          (fun failure _ _ => (∃ cause, failure = .firewall cause none) ∧ False) (.fresh id) s' :=
        hadopt.orUndo fun _ _ h => h.elim
      exact .get (hundone.mono (fun _ _ _ h => h) fun _ _ _ h => h.2)
  refine hprovide.bind fun _ slot s' h => ?_
  obtain ⟨rfl, hview'⟩ := h
  have hnodup' : ((before ++ (id, Internet.allowed) :: after).map Prod.fst).Nodup := by simpa using hnodup
  exact (apply_attains Hazard.none_returns hnodup' hopened hview').mono (fun _ _ _ h => h)
    fun _ _ _ h => Hazard.none_strikes h.2.1

section

variable (hnodup : (entries.map Prod.fst).Nodup) (hview : view s = World.laid egress entries)
include hnodup hview

/-- Where no call fails, a slot is made ready: one that is known to have its network, one whose network was
    left, and one that has none. -/
theorem prepare_settles (hslot : slot.Known entries) :
    Attains .none machine view egress (Slot.prepare egress wanted)
      (fun _ made world => (made = .outfitted slot.id
          (if slot.id.namespaceName ∈ (view s).namespaces then slot.handle else some slot.id.handle) wanted) ∧
        ∃ entries', Resettled slot.id (some wanted) entries entries' ∧ world = World.laid egress entries')
      (fun _ _ _ => False) slot s := by
  have hfound : slot.id.namespaceName ∈ (view s).namespaces ↔ slot.id ∈ entries.map Prod.fst := by
    rw [hview, World.laid_mem hnodup]
  by_cases hmem : slot.id ∈ entries.map Prod.fst
  · rw [if_pos (hfound.mpr hmem)]
    rcases hslot with hfresh | ⟨policy, hentry, hkeeps⟩
    · obtain ⟨⟨id, policy⟩, hentry, hid⟩ := List.mem_map.mp hmem
      obtain rfl : id = slot.id := hid
      obtain ⟨before, after, rfl⟩ := List.append_of_mem hentry
      have hhandle : slot.handle = none := by rw [hfresh]; rfl
      rw [hhandle, hfresh]
      refine (prepare_adopted hnodup hview).mono ?_ fun _ _ _ h => h
      rintro - made world ⟨hmade, rfl⟩
      exact ⟨hmade, _, .replace hnodup, rfl⟩
    · obtain ⟨before, after, rfl⟩ := List.append_of_mem hentry
      have hprepare : Attains .none machine view egress (Slot.prepare egress wanted) _ _
          (.outfitted slot.id slot.handle policy) s :=
        prepare_outfitted hnodup hview hkeeps.opened Hazard.none_returns
      rw [← hkeeps.eq_outfitted] at hprepare
      refine hprepare.mono ?_ fun _ _ _ h => Hazard.none_strikes h.2.1
      rintro - made world ⟨hmade, rfl⟩
      exact ⟨hmade, _, .replace hnodup, rfl⟩
  · rw [if_neg (mt hfound.mp hmem)]
    rcases hslot with hfresh | ⟨policy, hentry, -⟩
    · rw [hfresh]
      refine (prepare_fresh Hazard.none_returns hnodup hmem hview).mono ?_ fun _ _ _ h => Hazard.none_strikes h.2.1
      rintro - made world ⟨hmade, rfl⟩
      exact ⟨hmade, _, .concat hnodup hmem, rfl⟩
    · exact (hmem (List.mem_map_of_mem hentry)).elim

/-- Where no call fails, a slot is opened for reuse: the network stays, and its policy lets everything pass. -/
theorem release_settles {policy : Internet} (hentry : (slot.id, policy) ∈ entries) (hkeeps : slot.Keeps policy) :
    Attains .none machine view egress (Slot.release egress)
      (fun _ made world => made = .outfitted slot.id slot.handle .allowed ∧
        ∃ entries', Resettled slot.id (some .allowed) entries entries' ∧ world = World.laid egress entries')
      (fun _ _ _ => False) slot s := by
  obtain ⟨before, after, rfl⟩ := List.append_of_mem hentry
  have hconfigure : Attains .none machine view egress (Slot.release egress) _ _
      (.outfitted slot.id slot.handle policy) s :=
    apply_attains Hazard.none_returns hnodup hkeeps.opened hview
  rw [← hkeeps.eq_outfitted] at hconfigure
  refine hconfigure.mono ?_ fun _ _ _ h => Hazard.none_strikes h.2.1
  rintro - made world ⟨hmade, rfl⟩
  exact ⟨hmade, _, .replace hnodup, rfl⟩

/-- Where no call fails, the network of a slot is removed, whether or not it is known and whether or not there
    is a handle. -/
theorem remove_settles (hslot : slot.Known entries) :
    Attains .none machine view egress (Slot.remove egress)
      (fun _ _ world => ∃ entries', Resettled slot.id none entries entries' ∧ world = World.laid egress entries')
      (fun _ _ _ => False) slot s := by
  by_cases hmem : slot.id ∈ entries.map Prod.fst
  · obtain ⟨⟨id, policy⟩, hentry, hid⟩ := List.mem_map.mp hmem
    obtain rfl : id = slot.id := hid
    obtain ⟨before, after, rfl⟩ := List.append_of_mem hentry
    refine (remove_laid hnodup hview rfl hslot.opened).mono ?_ fun _ _ _ h => h
    rintro - made world rfl
    exact ⟨_, .without hnodup, rfl⟩
  · rcases hslot with hfresh | ⟨policy, hentry, -⟩
    · rw [hfresh]
      refine (remove_fresh hnodup hmem hview).mono ?_ fun _ _ _ h => h
      rintro - made world rfl
      exact ⟨_, .same hnodup hmem, rfl⟩
    · exact (hmem (List.mem_map_of_mem hentry)).elim

end

end
end SlotPool
