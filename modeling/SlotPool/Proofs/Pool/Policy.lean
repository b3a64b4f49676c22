import Mathlib.Data.List.Nodup
import SlotPool.Proofs.Pool.Turn
import SlotPool.Proofs.Slot.Policy
/-!
The policies of all slots of a pool. Whatever fails, a slot that remembers a policy has it on the
machine, and this is so of every slot there is: in a queue, on its way, or with a caller.
-/

namespace SlotPool

variable {σ : Type} {machine : Machine σ} {view : σ → World} {hazard : Hazard} {egress : String}
  {permit : Permit σ} {vacant : Prop}

/-- A call by which a guard takes the thread back changes no namespace, so what is known of the policies stays
    true, whether it succeeds or not. -/
theorem Screened.kept_enter {id : SlotId} {screens : SlotId → Option Screen} {origin : Handle}
    {world world' : World} {result : Except NetworkError Unit}
    (hreply : World.replies hazard (.enterNamespace origin) [] world result world')
    (h : Kept id screens world) : Kept id screens world' := by
  refine World.replies_keeps hreply h fun _ hanswer => ?_
  have hsame (other : SlotId) : world'.screen other = world.screen other :=
    World.screen_enter hanswer
  exact ⟨hsame id ▸ h.1, fun other hother => (hsame other).trans (h.2 other hother)⟩

/-- Whatever becomes of a slot, the screens of the others stay and its own is sound. What is left of
    the slot has the policy that it remembers. -/
theorem Fate.screened {slot : Slot} {left : Option Slot} {state state' : σ}
    {screens : SlotId → Option Screen} (hfate : Fate machine egress permit vacant slot state left state')
    (hmachine : machine.Within view (World.replies hazard))
    (h : Screened slot.id screens slot (view state)) :
    Screened.Kept slot.id screens (view state') ∧ ∀ after, left = some after →
      ∃ policy, after.firewall = some policy ∧
        Screened.Applied slot.id screens policy after (view state') := by
  have hframe := Screened.frame hazard slot.id egress screens
  cases hfate with
  | @prepared policy after state' hpermit hrun =>
    have happlied : Screened.Applied slot.id screens policy after (view state') :=
      (Screened.prepare hazard egress policy).run hmachine h hrun
    refine ⟨⟨happlied.1.sound, happlied.1.others⟩, ?_⟩
    intro other hsame
    obtain rfl : after = other := Option.some.inj hsame
    exact ⟨policy, (Slot.prepare_run_ok hrun).2, happlied⟩
  | @unprepared policy failure after state' hpermit hrun =>
    have hfailed : Screened slot.id screens after (view state') :=
      (Screened.prepare hazard egress policy).run hmachine h hrun
    exact ⟨⟨hfailed.sound, hfailed.others⟩, fun _ hnone => nomatch hnone⟩
  | @released after state' hpermit hrun =>
    have happlied : Screened.Applied slot.id screens .allowed after (view state') :=
      (Screened.release hazard egress).run hmachine h hrun
    refine ⟨⟨happlied.1.sound, happlied.1.others⟩, ?_⟩
    intro other hsame
    obtain rfl : after = other := Option.some.inj hsame
    exact ⟨.allowed, (Slot.release_run_ok hrun).2.2, happlied⟩
  | @unreleased failure after state' hpermit hrun =>
    have hfailed : Screened slot.id screens after (view state') :=
      (Screened.release hazard egress).run hmachine h hrun
    exact ⟨⟨hfailed.sound, hfailed.others⟩, fun _ hnone => nomatch hnone⟩
  | @removed result after state' hpermit hrun =>
    have hremoved : Screened slot.id screens after (view state') := by
      have hresult := (Screened.remove hazard egress).run hmachine h hrun
      cases result <;> exact hresult
    exact ⟨⟨hremoved.sound, hremoved.others⟩, fun _ hnone => nomatch hnone⟩
  | killed hpermit hdone hrun =>
    refine ⟨?_, fun _ hnone => nomatch hnone⟩
    have hinv (origin : Handle) (world : World) (result : Except NetworkError Unit) (world' : World)
        (hreply : World.replies hazard (.enterNamespace origin) [] world result world') :
        Screened.Kept slot.id screens world → Screened.Kept slot.id screens world' :=
      Screened.kept_enter hreply
    cases hdone with
    | prepare policy => exact (Screened.prepare hazard egress policy).crash hmachine hinv h hrun
    | release => exact (Screened.release hazard egress).crash hmachine hinv h hrun
    | remove => exact (Screened.remove hazard egress).crash hmachine hinv h hrun
  | dropped hvacant => exact ⟨⟨h.sound, h.others⟩, fun _ hnone => nomatch hnone⟩

namespace Ledger

/-- Every slot there is has the policy that it remembers, and every screen is sound. -/
structure Screened (ledger : Ledger) (world : World) : Prop where
  home : ∀ slot ∈ ledger.slots, ∀ handle, slot.handle = some handle →
    handle.label = slot.id.namespaceName
  policy : ∀ slot ∈ ledger.slots, ∀ policy, slot.firewall = some policy →
    world.screen slot.id = some (slot.id.standing policy)
  sound : ∀ id screen, world.screen id = some screen → screen.Sound id

variable {ledger before after : Ledger} {world world' : World}

theorem Screened.perm (h : before.Screened world) (hslots : after.slots.Perm before.slots) :
    after.Screened world where
  home slot hmem := h.home slot (hslots.mem_iff.mp hmem)
  policy slot hmem := h.policy slot (hslots.mem_iff.mp hmem)
  sound := h.sound

/-- The slot that a job is done for, with all others as they are. -/
theorem Screened.slot {slot : Slot} (h : ledger.Screened world) (hmem : slot ∈ ledger.slots) :
    SlotPool.Screened slot.id world.screen slot world where
  id_eq := rfl
  home := h.home slot hmem
  sound := h.sound slot.id
  hooked hhas := by
    obtain ⟨policy, hpolicy⟩ := Option.isSome_iff_exists.mp hhas
    exact ⟨_, h.policy slot hmem policy hpolicy, Screen.standing_hooked policy⟩
  others _ _ := rfl

/-- A job for one slot leaves what the others have on their screens, since those lie in other namespaces. -/
theorem Screened.rest {slot : Slot} {rest : List Slot} (h : before.Screened world)
    (hbefore : before.slots.Perm (slot :: rest)) (hids : before.ids.Nodup)
    (hkept : Screened.Kept slot.id world.screen world') (hafter : after.slots.Perm rest) :
    after.Screened world' where
  home other hmem := h.home other (hbefore.mem_iff.mpr (List.mem_cons_of_mem _ (hafter.mem_iff.mp hmem)))
  policy other hmem policy hpolicy := by
    have hrest := hafter.mem_iff.mp hmem
    have hnodup : (slot.id :: rest.map Slot.id).Nodup :=
      (List.Perm.nodup_iff (hbefore.map Slot.id)).mp (List.nodup_append.mp hids).1
    have hother : other.id ≠ slot.id := fun heq =>
      (List.nodup_cons.mp hnodup).1 (heq ▸ List.mem_map_of_mem hrest)
    rw [hkept.2 other.id hother]
    exact h.policy other (hbefore.mem_iff.mpr (List.mem_cons_of_mem _ hrest)) policy hpolicy
  sound id screen hscreen := by
    by_cases hid : id = slot.id
    · subst hid
      exact hkept.1 screen hscreen
    · rw [hkept.2 id hid] at hscreen
      exact h.sound id screen hscreen

end Ledger

/-- Every effect keeps the policies, whatever fails. After a job the slot has what the job ensures of its
    screen, and if it could not be kept, nothing is asked of it any more. -/
theorem Effect.screened {before after : Ledger} {state state' : σ}
    (heffect : Effect machine egress permit vacant before state after state')
    (hmachine : machine.Within view (World.replies hazard)) (hids : before.ids.Nodup)
    (h : before.Screened (view state)) : after.Screened (view state') := by
  cases heffect with
  | keep hallocator hslots hbare => exact h.perm hslots
  | @acquire choice id after hacquire hslots hbare =>
    refine ⟨fun slot hmem handle hhandle => ?_, fun slot hmem policy hpolicy => ?_, h.sound⟩
    · rcases List.mem_cons.mp (hslots.mem_iff.mp hmem) with rfl | hold
      · cases hhandle
      · exact h.home slot hold handle hhandle
    · rcases List.mem_cons.mp (hslots.mem_iff.mp hmem) with rfl | hold
      · cases hpolicy
      · exact h.policy slot hold policy hpolicy
  | @change slot slot' rest after state' hfate hallocator hbefore hslots hbare =>
    have hslot := h.slot (hbefore.mem_iff.mpr (List.mem_cons_self ..))
    obtain ⟨hkept, hleft⟩ := hfate.screened hmachine hslot
    obtain ⟨policy, hpolicy, happlied⟩ := hleft slot' rfl
    have hrest : Ledger.Screened ⟨after.allocator, rest, after.bare⟩ (view state') :=
      h.rest hbefore hids hkept (.refl _)
    refine ⟨fun other hmem handle hhandle => ?_, fun other hmem wanted hwanted => ?_, hrest.sound⟩
    · rcases List.mem_cons.mp (hslots.mem_iff.mp hmem) with rfl | hold
      · rw [happlied.1.id_eq]
        exact happlied.1.home handle hhandle
      · exact hrest.home other hold handle hhandle
    · rcases List.mem_cons.mp (hslots.mem_iff.mp hmem) with rfl | hold
      · obtain rfl : policy = wanted := Option.some.inj (hpolicy.symm.trans hwanted)
        rw [happlied.1.id_eq]
        exact happlied.2
      · exact hrest.policy other hold wanted hwanted
  | @lose slot rest after state' hfate hallocator hbefore hslots hbare =>
    have hslot := h.slot (hbefore.mem_iff.mpr (List.mem_cons_self ..))
    exact h.rest hbefore hids (hfate.screened hmachine hslot).1 hslots
  | release hallocator hslots hbare => exact h.perm hslots
  | discard hallocator hslots hbare =>
    refine ⟨fun slot hmem => ?_, fun slot hmem => ?_, h.sound⟩
    · exact h.home slot (hslots.mem_iff.mpr (List.mem_cons_of_mem _ hmem))
    · exact h.policy slot (hslots.mem_iff.mpr (List.mem_cons_of_mem _ hmem))

/-- On a machine on which nothing is made, opening a pool makes nothing. All that it does there is to look for
    the interface that leads outside. -/
theorem Pool.openWith_view {config : Config} {cancelled : Bool} {registry registry' : Registry}
    {state state' : σ} {pool : Pool} (hmachine : machine.Within view (World.replies hazard))
    (hopen : openWith machine config cancelled registry state =
      (.ok (.ok pool), registry', state')) : view state' = view state := by
  obtain ⟨-, egress, hegress, -⟩ := openWith_ok hopen
  unfold egressFor at hegress
  split at hegress
  · obtain ⟨-, rfl⟩ := by simpa using hegress
    rfl
  · have hpost : (Program.perform .egressInterface).Ensures (World.replies hazard) (fun _ => True)
        (fun _ world => world = view state) (view state) := by
      refine ⟨trivial, fun result world hreply => ?_⟩
      have hbefore : (fun world => world = view state) (view state) := rfl
      exact World.replies_keeps hreply hbefore fun _ hanswer => (congrArg Prod.snd hanswer).symm
    have hsame := Program.Ensures.run hmachine hpost hegress
    exact hsame

/-- A namespace in which a policy is in force: what the tap device forwards goes through the chain, and
    the chain has just the rules of the policy. -/
def World.Enforces (world : World) (id : SlotId) (policy : Internet) : Prop :=
  ∃ ns, world.namespaces[id.namespaceName]? = some ns ∧
    ns.rules.filter Rule.isHook = [id.hookRule] ∧ ns.chains = [(.filter, egressChain)] ∧
    ns.rules.filter Rule.inChain = policy.rules

/-- A policy is enforced in a slot's namespace just when the screen of that namespace is the slot's standing
    policy. -/
theorem World.enforces_iff {world : World} {id : SlotId} {policy : Internet} :
    world.Enforces id policy ↔ world.screen id = some (id.standing policy) := by
  simp only [Enforces, screen, Option.map_eq_some_iff, Namespace.screen, SlotId.standing,
    Screen.mk.injEq]
  constructor
  · rintro ⟨ns, hns, hhooks, hchains, hrules⟩
    exact ⟨ns, hns, hhooks, hrules, hchains⟩
  · rintro ⟨ns, hns, hhooks, hrules, hchains⟩
    exact ⟨ns, hns, hhooks, hchains, hrules⟩

theorem World.fresh_screen (id : SlotId) : World.fresh.screen id = none := by
  simp only [screen, fresh, Std.ExtTreeMap.getElem?_insert, Std.LawfulEqCmp.compare_eq_iff_eq]
  rw [if_neg SlotId.namespaceName_ne_host.symm]
  rfl

namespace Service

variable {config : Config} {cancelled : Bool} {registry registry' : Registry} {state state' : σ}
  {pool : Pool} {service : Service σ}

/-- A pool that was just opened on a fresh machine has no slot whose policy could be wrong. -/
theorem opened_screened {start : σ} (hfresh : view start = .fresh) :
    (opened (Pool.opened config egress cancelled) start).ledger.Screened (view start) where
  home := by simp [opened_slots]
  policy := by simp [opened_slots]
  sound id screen hscreen := by
    rw [hfresh, World.fresh_screen] at hscreen
    cases hscreen

/-- Whatever has happened and whatever has failed, every slot has the policy that it remembers. -/
theorem Reaches.screened {start : Service σ} {size : Nat}
    (hmachine : machine.Within view (World.replies hazard)) (hconserved : start.Conserved size)
    (hstrays : start.strays = []) (hscreened : start.ledger.Screened (view start.machine))
    (hreaches : Reaches machine OwnSlots start service) :
    service.ledger.Screened (view service.machine) := by
  induction hreaches with
  | start => exact hscreened
  | step hreaches hown hstep ih =>
    have hbefore := (hreaches.sparesStrays hstrays).conserved hconserved
    have heffect := (hbefore.step_effect hown (hreaches.noStrays hstrays) hstep (permits_any _) fun _ => trivial).1
    exact heffect.screened hmachine hbefore.balanced.nodup ih

/-- Policies are in force. Whatever calls fail, also those by which the thread is taken back, every slot
    that a caller has from a request is under the policy that it asked for, and every slot that waits
    for reuse is open. What the slot remembers is the same. -/
theorem Reaches.policies (hmachine : machine.Within view (World.replies .any))
    (hfresh : view state = .fresh)
    (hopen : Pool.openWith machine config cancelled registry state =
      (.ok (.ok pool), registry', state'))
    (hreaches : Reaches machine OwnSlots (opened pool state') service) :
    (∀ client slot, (client, slot) ∈ service.held → ∃ policy, (client, policy) ∈ service.asked ∧
      (∀ other, (client, other) ∈ service.asked → other = policy) ∧
      slot.firewall = some policy ∧ (view service.machine).Enforces slot.id policy) ∧
    ∀ slot ∈ service.pool.reusedQueue,
      slot.firewall = some .allowed ∧ (view service.machine).Enforces slot.id .allowed := by
  have hstart : view state' = .fresh := (Pool.openWith_view hmachine hopen).trans hfresh
  obtain ⟨hvalid, egress, -, rfl⟩ := Pool.openWith_ok hopen
  have hconserved : (opened (Pool.opened config egress cancelled) state').Conserved config.maxSlots :=
    opened_conserved (Config.maxSlots_le_of_validate hvalid)
  have hscreened := hreaches.screened hmachine hconserved rfl (opened_screened hstart)
  have hfiled := hreaches.filed hconserved.filed
  constructor
  · intro client slot hheld
    obtain ⟨policy, hasked, hpolicy⟩ := hfiled.callers client slot (.inl hheld)
    have hmem : slot ∈ service.ledger.slots := List.mem_append_right _
      (List.mem_map_of_mem (f := (·.2)) (List.mem_append_left _ hheld))
    refine ⟨policy, hasked, fun other hother => ?_, hpolicy,
      World.enforces_iff.mpr (hscreened.policy slot hmem policy hpolicy)⟩
    exact congrArg Prod.snd (List.inj_on_of_nodup_map hfiled.asked hother hasked rfl)
  · intro slot hslot
    have hopen := hfiled.pool.reusedQueue slot hslot
    have hmem : slot ∈ service.ledger.slots := by
      simp [ledger, Ledger.add, Pool.ledgerWith, Pool.stock, hslot]
    exact ⟨hopen, World.enforces_iff.mpr (hscreened.policy slot hmem .allowed hopen)⟩

/-- A rehearsal in which the thread is not taken back after the first policy was applied. -/
def strandedRehearsal : Rehearsal World :=
  (Rehearsal.start World.fresh).order ⟨"enter_namespace", 5, 1, some (.command "setns" "failed")⟩

/-- Even where a guard fails to take the thread back, so that this stands in a slot's namespace, the slot that
    was given out has the policy that was asked for. -/
theorem policies_strandedRehearsal : ∃ service,
    (opened (Pool.opened .small "eth0" false) strandedRehearsal).run
      (Rehearsal.rehearsing World.machine) (firstRequest .blocked) = some service ∧
    service.held.map (·.1) = ["first"] ∧ service.machine.machine.current = "ns-0" ∧
    ∀ client slot, (client, slot) ∈ service.held → ∃ policy, (client, policy) ∈ service.asked ∧
      (∀ other, (client, other) ∈ service.asked → other = policy) ∧
      slot.firewall = some policy ∧ service.machine.machine.Enforces slot.id policy := by
  obtain ⟨service, hrun, hheld⟩ := Option.map_eq_some_iff.mp
    (show ((opened (Pool.opened .small "eth0" false) strandedRehearsal).run
      (Rehearsal.rehearsing World.machine) (firstRequest .blocked)).map (fun service =>
        (service.held.map (·.1), service.machine.machine.current)) =
        some (["first"], "ns-0") by decide +kernel)
  have hreaches : Reaches (Rehearsal.rehearsing World.machine) OwnSlots
      (opened (Pool.opened .small "eth0" false) strandedRehearsal) service :=
    Reaches.start.run (by simp [firstRequest, OwnSlots]) hrun
  have hpolicies := Reaches.policies Rehearsal.rehearsing_within rfl (Pool.openWith_small _ _) hreaches
  exact ⟨service, hrun, congrArg Prod.fst hheld, congrArg Prod.snd hheld, hpolicies.1⟩

end Service
end SlotPool
