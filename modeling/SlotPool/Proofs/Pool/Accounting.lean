import SlotPool.Proofs.Pool.Connected
import SlotPool.Proofs.Pool.Trace
import SlotPool.Proofs.Pool.Untroubled
/-!
A pool whose calls may fail, but not while the thread is taken back or a network is undone, and whose worker
lives. Whenever such a pool is settled, the machine has the networks of the slots that callers have, have
lost, or that wait for reuse, and nothing else.
-/

namespace SlotPool

variable {σ : Type} {machine : Machine σ} {view : σ → World} {egress : String}

namespace Pool

variable {pool : Pool} {client : Client} {stage : Stage} {state : σ}

/-- A task that cannot go on is a closing. It waits for the filling task to end, or for everybody in line to
    leave. -/
theorem advance_none (h : pool.advance machine client state stage = none) :
    stage = .awaitingPopulate ∧ pool.populate ≠ .stopped ∨
      ∃ failures, stage = .draining .new failures ∧ pool.waiting ≠ [] := by
  cases stage with
  | awaitingPopulate =>
    simp only [advance] at h
    split at h
    · cases h
    · rename_i hpopulate
      exact .inl ⟨rfl, hpopulate⟩
  | draining source failures =>
    simp only [advance] at h
    split at h
    · cases h
    · split at h
      · cases h
      · rename_i hline
        exact .inr ⟨failures, rfl, hline⟩
    · cases h
  | preparing slot policy | resetting slot | offering slot | removing slot purpose =>
    simp only [advance] at h
    split at h <;> cases h
  | _ => cases h

/-- A pool is settled while it waits for callers to hand something back. No request has a task, the filling task
    has nothing to take, and for whoever is in line there is no slot. -/
theorem settled_of_exhausted (htasks : pool.tasks = []) (hpopulate : pool.populate = .acquiring)
    (hgoing : pool.cancelled = false) (havailable : pool.allocator.available = 0)
    (hline : ∀ waiter ∈ pool.waiting, waiter.cancelled = false ∧ pool.newQueue = [] ∧ pool.reusedQueue = []) :
    pool.Settled machine state := by
  intro move
  cases move with
  | task client => simp [step, htasks]
  | populate choice =>
    simp [step, stepPopulate, hpopulate, hgoing, Allocator.acquire?_eq_none_iff, havailable]
  | waiter client =>
    simp only [step, stepWaiter, Option.map_eq_none_iff]
    split
    · rfl
    · rename_i waiter hfind
      obtain ⟨hwanted, hnew, hreused⟩ := hline waiter (List.mem_of_find?_eq_some hfind)
      simp [hwanted, hgoing, serve, queue, hnew, hreused]

/-- A pool without a request is settled while it waits for an identity. -/
theorem settled_of_idle (htasks : pool.tasks = []) (hwaiting : pool.waiting = [])
    (hpopulate : pool.populate = .acquiring) (hcancelled : pool.cancelled = false)
    (havailable : pool.allocator.available = 0) : pool.Settled machine state :=
  settled_of_exhausted htasks hpopulate hcancelled havailable (by simp [hwaiting])

/-- Nobody is in line in a settled pool whose lifetime is over. -/
theorem Settled.waiting (h : pool.Settled machine state) (hover : pool.cancelled = true) : pool.waiting = [] := by
  cases hline : pool.waiting with
  | nil => rfl
  | cons waiter behind =>
    have hstuck := h (.waiter waiter.client)
    simp only [step, Option.map_eq_none_iff, stepWaiter, hline, List.find?_cons, decide_true] at hstuck
    split at hstuck
    · cases hstuck
    · simp [hover] at hstuck

/-- When a pool is settled, nothing is under way. A closing that waits has ended the pool's lifetime, so that the
    filling task ends and everybody in line leaves. -/
theorem Settled.tasks (h : pool.Settled machine state) (hshutting : pool.Shutting) : pool.tasks = [] := by
  cases htasks : pool.tasks with
  | nil => rfl
  | cons task rest =>
    obtain ⟨client, stage⟩ := task
    have hstuck := h (.task client)
    simp only [step, htasks, List.find?_cons, decide_true] at hstuck
    have hbrought := hshutting.phases (client, stage) (htasks ▸ List.mem_cons_self ..)
    rcases advance_none hstuck with ⟨rfl, hpopulate⟩ | ⟨failures, rfl, hline⟩
    · have hover := (hbrought .waiting rfl).cancelled (by simp)
      have hfilling := h (.populate 0)
      simp only [step, Option.map_eq_none_iff, stepPopulate] at hfilling
      cases hstands : pool.populate with
      | stopped => exact (hpopulate hstands).elim
      | _ => simp [hstands, hover] at hfilling
    · exact (hline (h.waiting ((hbrought (.draining .new) rfl).cancelled (by simp)))).elim

end Pool

namespace Service

/-- Callers hand back only what they were given, the worker lives, and when a job is begun, no call of it
    fails by which the thread is taken back or the network of a slot is undone. -/
def Gentle (machine : Machine σ) (view : σ → World) (service : Service σ) (event : Event) : Prop :=
  OwnSlots service event ∧ service.pool.workerAlive = true ∧
    service.Permits (.spared machine view service.pool.egress) event

variable {service applied after : Service σ} {event : Event} {size : Nat}
  {outcomes : List (Client × Outcome)}

/-- What a task has is in the ledger. -/
theorem mem_ledger {client : Client} {stage : Stage} (hnone : service.strays = [])
    (hmem : (client, stage) ∈ service.pool.tasks) :
    (∀ slot ∈ stage.slots, slot ∈ service.ledger.slots) ∧ ∀ id ∈ stage.bare, id ∈ service.ledger.bare := by
  have hown : (client, stage) ∈ service.ownTasks := List.mem_filter.mpr ⟨hmem, by simp [hnone]⟩
  constructor
  · intro slot hslot
    refine List.mem_append_left _ (List.mem_append_left _ ?_)
    exact List.mem_flatMap.mpr ⟨_, hown, hslot⟩
  · intro id hid
    exact List.mem_append_left _ (List.mem_flatMap.mpr ⟨_, hown, hid⟩)

/-- A firewall is only reset where there is one. -/
theorem permits_accountable (htasks : ∀ task ∈ service.pool.tasks, task.2.Untroubled)
    (h : service.Permits (.spared machine view egress) event) :
    service.Permits (.accountable machine view egress) event := by
  intro client stage job slot hevent hmem hjob halive
  refine ⟨h client stage job slot hevent hmem hjob halive, ?_⟩
  rintro rfl
  cases stage with
  | resetting other =>
    obtain ⟨-, rfl⟩ := by simpa [Stage.job?] using hjob
    exact htasks _ hmem
  | _ => cases hjob

/-- No event causes trouble, if those do not by which the pool goes on. A slot that is handed back has a firewall,
    since its caller was given it with one. -/
theorem Applied.untroubled (happlied : Applied machine service event applied)
    (htasks : ∀ task ∈ service.pool.tasks, task.2.Untroubled)
    (hfinished : service.pool.finished = []) (hfiled : service.Filed) (hown : OwnSlots service event)
    (hmoves : ∀ move, event = .move move →
      Pool.Stepping machine service.pool service.machine move applied.pool applied.machine →
      applied.pool.Untroubled) : applied.pool.Untroubled := by
  have hidle {pool : Pool} (htasks' : pool.tasks = service.pool.tasks)
      (hfinished' : pool.finished = service.pool.finished) : pool.Untroubled :=
    ⟨htasks' ▸ htasks, fun ended hmem => by rw [hfinished', hfinished] at hmem; cases hmem⟩
  cases happlied with
  | @move move pool state hstepping => exact hmoves move rfl hstepping
  | @stray client id => exact (hown client id rfl).elim
  | @get client policy cancelled pool hasking =>
    cases hasking with
    | take => exact .follow htasks hfinished trivial
    | decline =>
      refine .finish htasks hfinished ⟨?_, ?_⟩
      · cases cancelled <;> trivial
      · cases cancelled <;> simp [PoolError.slot?]
    | join => exact hidle rfl rfl
  | @handBack event client entry given held lost hgives hcallers =>
    obtain rfl := hgives.own hown
    have hentry : entry ∈ service.held ++ service.lost := hcallers.mem_iff.mpr (List.mem_cons_self ..)
    obtain ⟨policy, -, hfirewall⟩ := hfiled.callers entry.1 entry.2 (List.mem_append.mp hentry)
    refine .follow htasks hfinished ?_
    rw [Stage.Untroubled, Slot.hasFirewall, hfirewall]
    rfl
  | close hasking =>
    cases hasking with
    | first => exact .follow htasks hfinished trivial
    | again => exact .finish htasks hfinished trivial
  | lose | cancel | cancelLifetime => exact hidle rfl rfl

section

variable (h : service.Conserved size) (hnone : service.strays = []) (hfinished : service.pool.finished = [])
  (haccounted : Accounted service.pool.egress service.ledger.slots (view service.machine))
  (htasks : ∀ task ∈ service.pool.tasks, task.2.Untroubled) (hgentle : Gentle machine view service event)
include h hnone hfinished haccounted htasks hgentle

/-- What the pool does by itself causes no trouble. A task that is given to the worker has a slot of the ledger, and
    one that is to release an identity has one that is held. -/
theorem stepping_untroubled {move : Pool.Move} {pool : Pool} {state : σ} (hevent : event = .move move)
    (hstepping : Pool.Stepping machine service.pool service.machine move pool state) : pool.Untroubled := by
  obtain ⟨-, halive, hpermits⟩ := hgentle
  have haccountable := permits_accountable htasks hpermits
  subst hevent
  cases hstepping with
  | @task client stage pool' state' hfind hadvance =>
    have hmem : (client, stage) ∈ service.pool.tasks := List.mem_of_find?_eq_some hfind
    obtain ⟨hslots, hbare⟩ := mem_ledger hnone hmem
    have hids : (service.ledger.slots.map Slot.id).Nodup := (List.nodup_append.mp h.balanced.nodup).1
    let others := { service.pool with tasks := service.pool.tasks.eraseP (·.1 = client) }
    have hothers : ∀ task ∈ others.tasks, task.2.Untroubled := fun task hold =>
      htasks task (List.mem_of_mem_eraseP hold)
    have hnothing : others.finished = [] := hfinished
    refine hadvance.untroubled hothers hnothing halive (htasks _ hmem) (fun job slot hjob => ?_)
      fun id hid => ?_
    · have hslot : slot ∈ service.ledger.slots := hslots slot (by
        cases stage <;> simp_all [Stage.job?, Stage.slots])
      have hperm := List.perm_cons_erase hslot
      exact (haccounted.perm hperm.symm).smooth ((hperm.map Slot.id).nodup_iff.mp hids)
        (haccountable client stage job slot rfl hmem hjob halive)
    · exact h.balanced.held.mem_iff.mpr (List.mem_map_of_mem (List.mem_append_right _ (hbare id hid)))
  | populate hstocking =>
    refine ⟨hstocking.tasks ▸ htasks, fun ended hmem => ?_⟩
    rw [hstocking.finished, hfinished] at hmem
    cases hmem
  | waiter hwaiting => exact hwaiting.untroubled htasks hfinished

/-- A turn causes no trouble. -/
theorem step_untroubled (hstep : service.step machine event = some (outcomes, after)) :
    (∀ task ∈ after.pool.tasks, task.2.Untroubled) ∧
      ∀ ended ∈ outcomes, ended.2.Untroubled after.pool.allocator.free := by
  obtain ⟨-, applied, happlied, rfl, rfl⟩ := step_cases hstep
  have hnoted : ∀ task ∈ (service.note event).pool.tasks, task.2.Untroubled := htasks
  have hpool : applied.pool.Untroubled :=
    happlied.untroubled hnoted hfinished h.filed.note hgentle.1 fun move hevent hstepping =>
      stepping_untroubled h hnone hfinished haccounted htasks hgentle hevent hstepping
  exact ⟨hpool.tasks, fun ended hmem => hpool.finished ended (List.mem_reverse.mp hmem)⟩

end

/-- What holds of a service that goes on gently. -/
structure InOrder (view : σ → World) (egress : String) (service : Service σ) : Prop where
  outside : service.pool.egress = egress
  accounted : Accounted egress service.ledger.slots (view service.machine)
  tasks : ∀ task ∈ service.pool.tasks, task.2.Untroubled

/-- A pool that was just opened on a fresh machine is in order: there is no slot to account for, and no request
    that could be in trouble. -/
theorem opened_inOrder {config : Config} {cancelled : Bool} {state : σ} (hempty : view state = .fresh) :
    (opened (Pool.opened config egress cancelled) state).InOrder view egress where
  outside := rfl
  accounted := by
    rw [opened_slots]
    exact ⟨fun slot hmem => (by cases hmem), [], .refl _, hempty⟩
  tasks task hmem := by cases hmem

/-- Whatever happens while the calls fail gently, the pool stays in order. Every step keeps the account of the
    slots and leaves no request in trouble, so the run does by induction on its steps. -/
theorem Reaches.inOrder {start : Service σ} (hconserved : start.Conserved size)
    (hstrays : start.strays = []) (hfinished : start.pool.finished = []) (hstart : start.InOrder view egress)
    (hreaches : Reaches machine (Gentle machine view) start service) : service.InOrder view egress := by
  induction hreaches with
  | start => exact hstart
  | step hreaches hgentle hstep ih =>
    have hown := hreaches.mono fun _ _ h => h.1
    have hnone := hown.noStrays hstrays
    have hbefore := (hown.sparesStrays hstrays).conserved hconserved
    have haccountable := permits_accountable ih.tasks hgentle.2.2
    obtain ⟨heffect, hkept⟩ := hbefore.step_effect hgentle.1 hnone hstep haccountable
      fun hdead => by simp [hgentle.2.1] at hdead
    refine ⟨hkept.trans ih.outside, ?_, (step_untroubled hbefore hnone (hreaches.finished hfinished)
      (ih.outside ▸ ih.accounted) ih.tasks hgentle hstep).1⟩
    exact (ih.outside ▸ heffect).accounted hbefore.balanced.nodup ih.accounted

section

variable (h : service.InOrder view egress) (hconserved : service.Conserved size)
include h hconserved

/-- Where no call fails, a slot with a free identity is made ready. -/
theorem InOrder.completes_free {id : SlotId} (policy : Internet)
    (hfree : id.val ∈ service.pool.allocator.free) :
    ∃ made world, ((Slot.prepare egress policy).run.run (.fresh id)).run World.machine
      (view service.machine) = (some (.ok (), made), world) := by
  refine (Accounted.cons_fresh.mpr h.accounted).completes (List.nodup_cons.mpr ⟨fun hmem => ?_,
    (List.nodup_append.mp hconserved.balanced.nodup).1⟩)
  have hheld : id.val ∈ service.ledger.allocator.held := hconserved.balanced.held.mem_iff.mpr
    (List.mem_map_of_mem (List.mem_append_left _ hmem))
  exact (List.nodup_append.mp hconserved.balanced.complete.nodup).2.2 _ hheld _ hfree rfl

/-- Where no call fails, a slot for a request is made ready. -/
theorem InOrder.completes_task {client : Client} {slot : Slot} {policy : Internet}
    (hnone : service.strays = []) (hmem : (client, .preparing slot policy) ∈ service.pool.tasks) :
    ∃ made world, ((Slot.prepare egress policy).run.run slot).run World.machine (view service.machine) =
      (some (.ok (), made), world) := by
  have hperm := List.perm_cons_erase ((mem_ledger hnone hmem).1 slot (List.mem_singleton_self _))
  have hids := (List.nodup_append.mp hconserved.balanced.nodup).1
  exact (h.accounted.perm hperm.symm).completes ((hperm.map Slot.id).nodup_iff.mp hids)

/-- A settled service has networks for the slots that callers have or have lost or that wait for reuse, each
    under the policy that its slot remembers, and nothing else is on the machine. In a settled service no other
    place has a slot that stands. -/
theorem InOrder.settled (hfinished : service.pool.finished = []) (hshutting : service.pool.Shutting)
    (hsettled : service.pool.Settled machine service.machine) :
    ∃ entries, view service.machine = World.laid egress entries ∧
      (entries.map fun entry => (entry.1, some entry.2)).Perm
        ((service.callerSlots ++ service.pool.reusedQueue).map fun slot => (slot.id, slot.firewall)) := by
  obtain ⟨entries, hentries, hworld⟩ := h.accounted.laid
  have hfiled := hconserved.filed
  have htasks : service.ownTasks = [] := by
    rw [ownTasks, hsettled.tasks hshutting, List.filter_nil]
  have hslots : service.ledger.slots.Perm
      ((service.pool.newQueue ++ service.pool.populate.slots) ++
        (service.callerSlots ++ service.pool.reusedQueue)) := by
    simp only [ledger, Ledger.add, Pool.ledgerWith, Pool.stock, htasks, Pool.slotsWith, hfinished,
      Pool.slotsAmong, List.flatMap_nil, List.filterMap_nil, List.map_nil, List.append_nil, List.nil_append]
    grind
  have hfresh : ∀ slot ∈ service.pool.newQueue ++ service.pool.populate.slots, slot = .fresh slot.id :=
    fun slot hmem => (List.mem_append.mp hmem).elim (hfiled.pool.newQueue slot) (hfiled.pool.hand slot)
  have hstanding : ∀ slot ∈ service.callerSlots ++ service.pool.reusedQueue, slot.firewall ≠ none := by
    intro slot hmem
    rcases List.mem_append.mp hmem with hcaller | hreused
    · obtain ⟨⟨client, held⟩, hentry, rfl⟩ := List.mem_map.mp hcaller
      obtain ⟨policy, -, hpolicy⟩ := hfiled.callers client held (List.mem_append.mp hentry)
      simp [hpolicy]
    · simp [hfiled.pool.reusedQueue slot hreused]
  refine ⟨entries, hworld, ((hentries.trans (hslots.filterMap _)).map _).trans ?_⟩
  rw [List.filterMap_append, filterMap_entry?_fresh hfresh, List.nil_append, map_filterMap_entry? hstanding]

end

variable {config : Config} {cancelled : Bool} {registry registry' : Registry} {state state' : σ} {pool : Pool}

/-- While no guard fails and nothing fails that is undone, the machine has, whenever the pool is settled, the
    complete networks of the slots that callers have, have lost, or that wait for reuse, under the policies of
    these slots, and nothing else. A request that fails tells no more than its cause, and the identity of its
    slot is free, so that the slot can be made ready. -/
theorem Reaches.accounting (hmachine : machine.Within view (World.replies .any))
    (hfresh : view state = .fresh)
    (hopen : Pool.openWith machine config cancelled registry state = (.ok (.ok pool), registry', state'))
    (hreaches : Reaches machine (Gentle machine view) (opened pool state') service) :
    (service.pool.Settled machine service.machine →
      (view service.machine).current = hostNamespace ∧
      (∃ entries, view service.machine = World.laid pool.egress entries ∧
        (entries.map fun entry => (entry.1, some entry.2)).Perm
          ((service.callerSlots ++ service.pool.reusedQueue).map fun slot => (slot.id, slot.firewall))) ∧
      (∀ client slot, (client, slot) ∈ service.held ++ service.lost →
        ∃ policy, (client, policy) ∈ service.asked ∧ slot.firewall = some policy) ∧
      ∀ slot ∈ service.pool.reusedQueue, slot.firewall = some .allowed) ∧
    (∀ event outcomes after, Gentle machine view service event →
      service.step machine event = some (outcomes, after) →
      ∀ client error, (client, .failed error) ∈ outcomes → error.Unburdened ∧
        ∀ identity, error.slot? = some identity → identity ∈ after.pool.allocator.free ∧
          ∃ id : SlotId, id.val = identity ∧ ∀ policy, ∃ made world,
            ((Slot.prepare pool.egress policy).run.run (.fresh id)).run World.machine (view after.machine) =
              (some (.ok (), made), world)) ∧
    ∀ client slot policy, (client, .preparing slot policy) ∈ service.pool.tasks → ∃ made world,
      ((Slot.prepare pool.egress policy).run.run slot).run World.machine (view service.machine) =
        (some (.ok (), made), world) := by
  have hempty : view state' = .fresh := (Pool.openWith_view hmachine hopen).trans hfresh
  obtain ⟨hvalid, egress, -, rfl⟩ := Pool.openWith_ok hopen
  have hstart : (opened (Pool.opened config egress cancelled) state').Conserved config.maxSlots :=
    opened_conserved (Config.maxSlots_le_of_validate hvalid)
  have hconserved {service : Service σ} (hreaches : Reaches machine (Gentle machine view) _ service) :
      service.strays = [] ∧ service.Conserved config.maxSlots :=
    have hown := hreaches.mono fun _ _ h => h.1
    ⟨hown.noStrays rfl, (hown.sparesStrays rfl).conserved hstart⟩
  have hinOrder {service : Service σ} (hreaches : Reaches machine (Gentle machine view) _ service) :
      service.InOrder view egress := hreaches.inOrder hstart rfl rfl (opened_inOrder hempty)
  obtain ⟨hnone, hbalanced⟩ := hconserved hreaches
  have hfinished := hreaches.finished rfl
  refine ⟨fun hsettled => ?_, fun event outcomes after hgentle hstep client error hfailed => ?_,
    fun client slot policy hmem => (hinOrder hreaches).completes_task hbalanced hnone hmem⟩
  · have hshutting := hreaches.shutting hstart (Pool.opened_shutting ..)
    obtain ⟨entries, hworld, hentries⟩ := (hinOrder hreaches).settled hbalanced hfinished hshutting hsettled
    exact ⟨by rw [hworld, World.laid_current], ⟨entries, hworld, hentries⟩, fun client slot hmem =>
      hbalanced.filed.callers client slot (List.mem_append.mp hmem), hbalanced.filed.pool.reusedQueue⟩
  · have horder := hinOrder hreaches
    have hafter := hreaches.step hgentle hstep
    obtain ⟨-, houtcomes⟩ := step_untroubled hbalanced hnone hfinished
      (horder.outside ▸ horder.accounted) horder.tasks hgentle hstep
    obtain ⟨hunburdened, hfree⟩ := houtcomes _ hfailed
    refine ⟨hunburdened, fun identity hidentity => ⟨hfree identity hidentity, ?_⟩⟩
    have hplan := (hconserved hafter).2.inPlan identity (hfree identity hidentity)
    exact ⟨⟨identity, hplan⟩, rfl, fun policy =>
      (hinOrder hafter).completes_free (hconserved hafter).2 policy (hfree identity hidentity)⟩

/-- Nothing fails but, perhaps, the look for the namespace of a slot that is to be made ready. -/
def Harmless (service : Service (Rehearsal World)) : Prop :=
  service.pool.workerAlive = true ∧ (service.machine.Honest ∨ service.machine.Blinded ∧
    ∀ task ∈ service.pool.tasks, ∀ begun ∈ task.2.job?, begun.1 = .prepare .allowed)

instance {service : Service (Rehearsal World)} : Decidable service.Harmless :=
  inferInstanceAs (Decidable (_ ∧ _))

/-- When no fault is ordered that could hit a call by which the thread is taken back or a network is undone,
    every job that is begun is spared, so callers and machine keep to what a gentle run allows. -/
theorem Harmless.gentle {service : Service (Rehearsal World)} {event : Event} (h : service.Harmless)
    (hown : OwnSlots service event) :
    Gentle (Rehearsal.rehearsing World.machine) (·.machine) service event := by
  refine ⟨hown, h.1, fun client stage job slot _ hmem hjob _ => ?_⟩
  rintro α program hdone
  rcases h.2 with hhonest | ⟨hblinded, hjobs⟩
  · exact hhonest.spared
  · obtain rfl : job = .prepare .allowed := hjobs _ hmem (job, slot) hjob
    cases hdone
    exact hblinded.spared

/-- A service with a single slot, on a machine on which the first look for a namespace fails. -/
def blindedService : Service (Rehearsal World) :=
  opened (Pool.opened { Config.small with maxSlots := 1 } "eth0" false)
    ((Rehearsal.start World.fresh).order ⟨"namespace_exists", 0, 1, some (.command "stat" "failed")⟩)

/-- The run in which the first look for a namespace fails is a gentle one: a look is neither a way back for the
    thread nor a part of undoing a network. -/
theorem gentle_blindedService {passed : List Event} {event : Event} {between : Service (Rehearsal World)}
    (hpassed : passed ++ [event] <+: secondRequest)
    (hrun : blindedService.run (Rehearsal.rehearsing World.machine) passed = some between) :
    Gentle (Rehearsal.rehearsing World.machine) (·.machine) between event := by
  have hcourse : ∀ passed ∈ secondRequest.inits, ∀ between ∈
      blindedService.run (Rehearsal.rehearsing World.machine) passed, between.Harmless := by decide +kernel
  have hinits : passed ∈ secondRequest.inits :=
    (List.mem_inits _ _).mpr ((List.prefix_append passed [event]).trans hpassed)
  refine (hcourse passed hinits between hrun).gentle fun client id heq => ?_
  have hmem := hpassed.subset (List.mem_append_right passed (List.mem_singleton_self event))
  simp [heq, secondRequest, firstRequest] at hmem

/-- The first request fails as its namespace cannot be looked for, and its identity comes back. The second
    request gets the same slot, and the machine has one network. -/
theorem accounting_secondRequest :
    (∃ service, blindedService.run (Rehearsal.rehearsing World.machine) secondRequest = some service ∧
      service.held = [("second", .standing 0 .allowed)] ∧
      service.machine.machine = World.laid "eth0" [(0, .allowed)]) ∧
    ∃ service outcomes after error,
      blindedService.run (Rehearsal.rehearsing World.machine) (firstRequest .allowed) = some service ∧
      service.step (Rehearsal.rehearsing World.machine) (.move (.task "first")) = some (outcomes, after) ∧
      ("first", .failed error) ∈ outcomes ∧ error.slot? = some 0 ∧ error.Unburdened ∧
      0 ∈ after.pool.allocator.free := by
  have hopen : Pool.openWith (Rehearsal.rehearsing World.machine) { Config.small with maxSlots := 1 } false
      .empty blindedService.machine =
        (.ok (.ok blindedService.pool), ⟨[("host", 0)], [("host", 0)]⟩, blindedService.machine) := rfl
  have haccounting {events : List Event} {service : Service (Rehearsal World)}
      (hevents : events <+: secondRequest)
      (hrun : blindedService.run (Rehearsal.rehearsing World.machine) events = some service) :=
    Reaches.accounting Rehearsal.rehearsing_within rfl hopen (Reaches.start.run_each
      (fun _ _ hpassed _ hbetween => gentle_blindedService (hpassed.trans hevents) hbetween) hrun)
  constructor
  · obtain ⟨service, hrun, hfacts⟩ := Option.map_eq_some_iff.mp
      (show (blindedService.run (Rehearsal.rehearsing World.machine) secondRequest).map (fun service =>
        (service.held, service.callerSlots ++ service.pool.reusedQueue,
          decide (service.pool.tasks.isEmpty ∧ service.pool.waiting = [] ∧
            service.pool.populate = .acquiring ∧ service.pool.cancelled = false ∧
            service.pool.allocator.available = 0))) =
        some ([("second", .standing 0 .allowed)], [.standing 0 .allowed], true) by decide +kernel)
    simp only [Prod.mk.injEq, decide_eq_true_eq, List.isEmpty_iff] at hfacts
    obtain ⟨hheld, hslots, htasks, hwaiting, hpopulate, hcancelled, havailable⟩ := hfacts
    obtain ⟨-, ⟨entries, hworld, hentries⟩, -⟩ := (haccounting (List.prefix_refl _) hrun).1
      (Pool.settled_of_idle htasks hwaiting hpopulate hcancelled havailable)
    rw [hslots, List.map_singleton, List.perm_singleton, List.map_eq_singleton_iff] at hentries
    obtain ⟨⟨id, policy⟩, rfl, hentry⟩ := hentries
    obtain ⟨rfl, hpolicy⟩ := Prod.mk.inj hentry
    obtain rfl : policy = .allowed := Option.some.inj hpolicy
    exact ⟨service, hrun, hheld, hworld⟩
  · obtain ⟨service, hrun, hfacts⟩ := Option.bind_eq_some_iff.mp
      (show (blindedService.run (Rehearsal.rehearsing World.machine) (firstRequest .allowed)).bind
        (fun service => (service.step (Rehearsal.rehearsing World.machine) (.move (.task "first"))).map
          fun next => next.1.map fun ended => (ended.1, ended.2.error?.bind PoolError.slot?)) =
        some [("first", some 0)] by decide +kernel)
    obtain ⟨⟨outcomes, after⟩, hstep, hended⟩ := Option.map_eq_some_iff.mp hfacts
    obtain ⟨⟨client, outcome⟩, houtcomes, hsole⟩ := List.map_eq_singleton_iff.mp hended
    obtain rfl : outcomes = [(client, outcome)] := houtcomes
    obtain ⟨rfl, hslot⟩ := Prod.mk.inj hsole
    obtain ⟨error, hfailed, hslot⟩ := Option.bind_eq_some_iff.mp hslot
    obtain rfl : outcome = .failed error := Outcome.error?_eq_some.mp hfailed
    have hafter : firstRequest .allowed ++ [.move (.task "first")] <+: secondRequest :=
      ⟨[.move (.populate 0), .move (.populate 0), .move (.populate 0), .get "second" .allowed false,
        .move (.waiter "second"), .move (.task "second"), .move (.task "second")], rfl⟩
    obtain ⟨hunburdened, hfree⟩ := (haccounting ((List.prefix_append _ _).trans hafter) hrun).2.1 _ _ _
      (gentle_blindedService hafter hrun) hstep "first" error (List.mem_singleton_self _)
    exact ⟨service, _, after, error, hrun, hstep, List.mem_singleton_self _, hslot, hunburdened,
      (hfree 0 hslot).1⟩

end Service
end SlotPool
