import SlotPool.Proofs.Pool.Accounting
import SlotPool.Proofs.Pool.Inherited
import SlotPool.Proofs.Pool.Underway
/-!
Pools that are opened one after the other on one machine. A pool that is dropped leaves the networks of its
slots, and the next one knows nothing of them. It takes over what it finds, slot by slot, and it can take it
away as if it had made it.
-/

namespace SlotPool

variable {σ : Type} {machine : Machine σ} {view : σ → World} {egress : String}

theorem Outcome.ofExcept_ne_slot {result : Except PoolError Unit} {made : Slot} :
    Outcome.ofExcept result ≠ .slot made := by
  cases result <;> simp [Outcome.ofExcept]

namespace Pool

variable {pool pool' : Pool} {client name : Client} {stage : Stage} {state state' : σ} {made : Slot}

/-- Only a request whose slot was made ready is given one, in the step in which the worker answers that it is
    ready. -/
theorem Advance.gives (hadvance : Advance machine client pool state stage pool' state')
    (hfinished : pool.finished = []) (hmem : (name, .slot made) ∈ pool'.finished) :
    name = client ∧ ∃ slot policy, stage = .preparing slot policy := by
  rcases hadvance.ending with hsame | ⟨outcome, hending, hsame⟩
  · simp [hsame, hfinished] at hmem
  · obtain ⟨rfl, rfl⟩ : name = client ∧ outcome = .slot made := by
      rw [hsame, hfinished] at hmem
      simpa [eq_comm] using hmem
    generalize hgiven : Outcome.slot made = outcome at hending
    cases hending with
    | prepare => exact ⟨rfl, _, _, rfl⟩
    | settle | endClose => exact (Outcome.ofExcept_ne_slot hgiven.symm).elim
    | _ => cases hgiven

/-- A job whose run is known is not left unanswered. -/
theorem Unanswered.not_run {α : Type} {program : SlotProgram α} {slot : Slot} {result : α × Slot} {after : σ}
    (h : Unanswered machine program slot pool state pool' state') (halive : pool.workerAlive = true)
    (hrun : (program.run slot).run machine state = (some result, after)) : False := by
  cases h with
  | gone hdead => simp [halive] at hdead
  | dies halive hdies => simp [hrun] at hdies

section

variable {slot : Slot} {policy : Internet} {after : σ}

/-- A request whose slot was made ready is over with that slot. -/
theorem Advance.prepared
    (hadvance : Advance machine client pool state (.preparing slot policy) pool' state')
    (halive : pool.workerAlive = true)
    (hrun : ((Slot.prepare pool.egress policy).run.run slot).run machine state = (some (.ok (), made), after)) :
    pool' = pool.finish client (.slot made) ∧ state' = after := by
  cases hadvance with
  | prepare hran =>
    obtain ⟨rfl, rfl⟩ := by simpa using hran.symm.trans hrun
    exact ⟨rfl, rfl⟩
  | prepareFails hran => simp [hrun] at hran
  | prepareStops hstops => exact (hstops.not_run halive hrun).elim

/-- A request that hands back a slot goes on to queue it when the firewall was reset. -/
theorem Advance.reopened
    (hadvance : Advance machine client pool state (.resetting slot) pool' state')
    (halive : pool.workerAlive = true)
    (hrun : ((Slot.release pool.egress).run.run slot).run machine state = (some (.ok (), made), after)) :
    pool' = pool.follow client (.returning made) ∧ state' = after := by
  cases hadvance with
  | reset hran =>
    obtain ⟨rfl, rfl⟩ := by simpa using hran.symm.trans hrun
    exact ⟨rfl, rfl⟩
  | resetFails hran => simp [hrun] at hran
  | resetStops hstops => exact (hstops.not_run halive hrun).elim

/-- A request or a closing whose slot was removed goes on to release the identity, with no failure to tell. -/
theorem Advance.cleared {purpose : Purpose}
    (hadvance : Advance machine client pool state (.removing slot purpose) pool' state')
    (halive : pool.workerAlive = true)
    (hrun : ((Slot.remove pool.egress).run.run slot).run machine state = (some (.ok (), made), after)) :
    pool' = pool.follow client (.removed slot.id [] purpose) ∧ state' = after := by
  cases hadvance with
  | remove hran =>
    obtain ⟨⟨rfl, -⟩, rfl⟩ := by simpa using hran.symm.trans hrun
    exact ⟨rfl, rfl⟩
  | removeStops hstops => exact (hstops.not_run halive hrun).elim

end

end Pool

namespace Service

variable {service start after : Service σ} {event : Event} {outcomes : List (Client × Outcome)}
  {client : Client} {stage : Stage} {size : Nat}

/-- The task that goes on in a turn, if it is the turn of a task. -/
def Turn.task? (turn : Turn σ) : Option (Client × Stage) :=
  match turn.event with
  | .move (.task client) => turn.before.pool.tasks.find? (·.1 = client)
  | _ => none

/-- A turn is that of a task just when the event is a move of its client, who has the task then. -/
theorem Turn.task?_eq_some {turn : Turn σ} (h : turn.task? = some (client, stage)) :
    turn.event = .move (.task client) ∧
      turn.before.pool.tasks.find? (·.1 = client) = some (client, stage) := by
  unfold Turn.task? at h
  split at h
  · rename_i mover hevent
    obtain rfl : client = mover := by simpa using List.find?_some h
    exact ⟨hevent, h⟩
  · cases h

/-- What comes of a request in a turn comes of its task, or of its being in line. -/
theorem step_ended {outcome : Outcome} (hfinished : service.pool.finished = [])
    (hstep : service.step machine event = some (outcomes, after)) (hmem : (client, outcome) ∈ outcomes) :
    ∃ applied, Ended machine (service.note event) event client outcome applied := by
  obtain ⟨-, applied, happlied, rfl, -⟩ := step_cases hstep
  exact ⟨applied, happlied.ended hfinished (List.mem_reverse.mp hmem)⟩

/-- Only jobs change the machine. Everything else that can happen to a service is a matter of its pool and its
    callers. -/
theorem step_rests (hstep : service.step machine event = some (outcomes, after))
    (hidle : ∀ client stage, (⟨service, event, outcomes, after⟩ : Turn σ).task? = some (client, stage) →
      stage.job? = none) : after.machine = service.machine := by
  obtain ⟨pool, hturned, -, -⟩ := step_turned hstep
  generalize after.machine = state at hturned
  cases hturned with
  | move hstepping =>
    cases hstepping with
    | task hfind hadvance =>
      have hnoJob := hidle _ _ hfind
      cases hadvance with
      | prepare | prepareFails | prepareStops | reset | resetFails | resetStops | remove | removeStops =>
        simp [Stage.job?] at hnoJob
      | _ => rfl
    | populate | waiter => rfl
  | _ => rfl

/-- What a turn makes of the networks on the machine when nothing fails. -/
structure Turn.Handles (view : σ → World) (egress : String) (turn : Turn σ) : Prop where
  /-- only a request whose slot is made ready is given one -/
  given : ∀ client made, (client, .slot made) ∈ turn.outcomes →
    ∃ slot policy, turn.task? = some (client, .preparing slot policy)
  /-- that slot has its full network under the policy that was asked for. If its namespace was there already, no
      handle is opened. -/
  prepares : ∀ client slot policy, turn.task? = some (client, .preparing slot policy) →
    (client, policy) ∈ turn.before.asked ∧
    turn.outcomes = [(client, .slot (.outfitted slot.id
      (if slot.id.namespaceName ∈ (view turn.before.machine).namespaces then slot.handle else some slot.id.handle)
      policy))] ∧
    World.Resettles slot.id egress (some policy) (view turn.before.machine) (view turn.after.machine)
  /-- a slot that is handed back is opened for reuse -/
  resets : ∀ client slot, turn.task? = some (client, .resetting slot) →
    (client, .returning (.outfitted slot.id slot.handle .allowed)) ∈ turn.after.pool.tasks ∧
    World.Resettles slot.id egress (some .allowed) (view turn.before.machine) (view turn.after.machine)
  /-- a slot that is removed leaves nothing, whoever has made its network -/
  removes : ∀ client slot purpose, turn.task? = some (client, .removing slot purpose) →
    (client, .removed slot.id [] purpose) ∈ turn.after.pool.tasks ∧
    World.Resettles slot.id egress none (view turn.before.machine) (view turn.after.machine)
  /-- all other turns leave the machine as it is -/
  rests : (∀ client stage, turn.task? = some (client, stage) → stage.job? = none) →
    turn.after.machine = turn.before.machine
  /-- no request fails but one that is sent away, from the line or before it joins the line -/
  fails : ∀ client error, (client, .failed error) ∈ turn.outcomes → (Outcome.failed error).SentAway ∧
    (turn.event = .move (.waiter client) ∨ ∃ policy cancelled, turn.event = .get client policy cancelled)

/-- Callers hand back only what they were given, the worker lives, and when a job is begun, no call of it
    fails. -/
def Flawless (machine : Machine σ) (view : σ → World) (service : Service σ) (event : Event) : Prop :=
  OwnSlots service event ∧ service.pool.workerAlive = true ∧
    service.Permits (.flawless machine view service.pool.egress) event

/-- What holds of a service that goes on without failures. -/
structure Unfailing (view : σ → World) (egress : String) (service : Service σ) : Prop where
  outside : service.pool.egress = egress
  inherited : ∃ entries, Inherited egress service.ledger entries (view service.machine)
  tasks : ∀ task ∈ service.pool.tasks, task.2.Sound

/-- A firewall is only reset where there is one. -/
theorem permits_sound (htasks : ∀ task ∈ service.pool.tasks, task.2.Sound)
    (h : service.Permits (.flawless machine view egress) event) :
    service.Permits (.sound machine view egress) event := by
  intro client stage job slot hevent hmem hjob halive
  refine ⟨h client stage job slot hevent hmem hjob halive, ?_⟩
  rintro rfl
  cases stage with
  | resetting other =>
    obtain ⟨-, rfl⟩ := by simpa [Stage.job?] using hjob
    exact htasks _ hmem
  | _ => cases hjob

section

variable (h : service.Unfailing view egress) (hconserved : service.Conserved size)
  (hnone : service.strays = []) (hfinished : service.pool.finished = [])
  (hflawless : Flawless machine view service event)
include h hconserved hnone hfinished hflawless

/-- A task goes on soundly, or its request is over and has not failed. For this its job must succeed, which it
    does on a machine that has what is known of the slot. -/
theorem Unfailing.advance {pool : Pool} {state : σ} (hevent : event = .move (.task client))
    (hfind : service.pool.tasks.find? (·.1 = client) = some (client, stage))
    (hadvance : Pool.Advance machine client
      { service.pool with tasks := service.pool.tasks.eraseP (·.1 = client) } service.machine stage pool state) :
    (∃ next, pool.tasks = (client, next) :: service.pool.tasks.eraseP (·.1 = client) ∧ next.Sound ∧
      pool.finished = []) ∨
      ∃ outcome, pool.tasks = service.pool.tasks.eraseP (·.1 = client) ∧ pool.finished = [(client, outcome)] ∧
        outcome.error? = none := by
  obtain ⟨-, halive, hpermits⟩ := hflawless
  obtain ⟨entries, hinherited⟩ := h.inherited
  have hmem : (client, stage) ∈ service.pool.tasks := List.mem_of_find?_eq_some hfind
  obtain ⟨hslots, hbare⟩ := mem_ledger hnone hmem
  have hsound := hadvance.sound halive (h.tasks _ hmem) (fun job slot hjob => ?_) fun id hid => ?_
  · rwa [hfinished] at hsound
  · have hslot : slot ∈ service.ledger.slots := hslots slot (by
      cases stage <;> simp_all [Stage.job?, Stage.slots])
    have hpermit := permits_sound h.tasks hpermits client stage job slot hevent hmem hjob halive
    rw [h.outside] at hpermit ⊢
    exact (hinherited.known slot hslot).succeeds hinherited.nodup hinherited.world_eq hpermit
  · exact hconserved.balanced.held.mem_iff.mpr (List.mem_map_of_mem (List.mem_append_right _ (hbare id hid)))

/-- A turn without failures keeps all tasks sound, the worker alive and the machine in order. It takes the
    turn's own job apart from the rest, and the other tasks are as they were. -/
theorem Unfailing.step (hstep : service.step machine event = some (outcomes, after)) :
    after.Unfailing view egress := by
  obtain ⟨entries, hinherited⟩ := h.inherited
  obtain ⟨heffect, hegress⟩ := hconserved.step_effect hflawless.1 hnone hstep
    (permits_sound h.tasks hflawless.2.2) fun hdead => by simp [hflawless.2.1] at hdead
  refine ⟨hegress.trans h.outside,
    (h.outside ▸ heffect).inherited hconserved.balanced.nodup hinherited, ?_⟩
  obtain ⟨-, applied, happlied, -, rfl⟩ := step_cases hstep
  change ∀ task ∈ applied.pool.tasks, task.2.Sound
  cases happlied with
  | @move move pool state hstepping =>
    cases hstepping with
    | @task client stage pool state hfind hadvance =>
      have hothers : ∀ task ∈ service.pool.tasks.eraseP (·.1 = client), task.2.Sound := fun task hold =>
        h.tasks task (List.mem_of_mem_eraseP hold)
      rcases h.advance hconserved hnone hfinished hflawless rfl hfind hadvance with
        ⟨next, htasks, hnext, -⟩ | ⟨outcome, htasks, -, -⟩
      · intro task hmem
        rcases List.mem_cons.mp (htasks ▸ hmem) with rfl | hold
        · exact hnext
        · exact hothers task hold
      · exact htasks ▸ hothers
    | populate hstocking => exact hstocking.tasks ▸ h.tasks
    | waiter hwaiting =>
      cases hwaiting with
      | giveUp hwaiter hclient => exact h.tasks
      | sendAway hwaiter hclient => exact h.tasks
      | @serve waiter source slot rest hwaiter hclient hqueue =>
        cases source <;> exact List.forall_mem_cons.mpr ⟨trivial, h.tasks⟩
  | get hasking =>
    cases hasking with
    | take => exact List.forall_mem_cons.mpr ⟨trivial, h.tasks⟩
    | decline | join => exact h.tasks
  | @handBack event client entry given held lost hgives hcallers =>
    -- the slot that is handed back is one that a caller was given, so it has its firewall
    obtain rfl := hgives.own hflawless.1
    have hentry := hcallers.mem_iff.mpr (List.mem_cons_self ..)
    obtain ⟨policy, -, hfirewall⟩ := hconserved.filed.callers entry.1 entry.2 (List.mem_append.mp hentry)
    have hsound : (Stage.resetting entry.2).Sound := by
      change entry.2.hasFirewall = true
      rw [Slot.hasFirewall, hfirewall]
      rfl
    exact List.forall_mem_cons.mpr ⟨hsound, h.tasks⟩
  | @stray client id => exact (hflawless.1 client id rfl).elim
  | close hasking =>
    cases hasking with
    | first => exact List.forall_mem_cons.mpr ⟨trivial, h.tasks⟩
    | again => exact h.tasks
  | cancel | lose | cancelLifetime => exact h.tasks

/-- No request fails but one that is sent away: from the line, in a turn of its own, or at once, when it finds
    the pool closed. It is not failed for its slot, for there is no failure that could be told. -/
theorem Unfailing.fails {error : PoolError} (hstep : service.step machine event = some (outcomes, after))
    (hmem : (client, .failed error) ∈ outcomes) : (Outcome.failed error).SentAway ∧
      (event = .move (.waiter client) ∨ ∃ policy cancelled, event = .get client policy cancelled) := by
  obtain ⟨applied, hended⟩ := step_ended hfinished hstep hmem
  cases hended with
  | task hstage hending =>
    obtain ⟨stage, pool, hfind, hadvance, -, rfl⟩ := step_task hstep
    rcases h.advance hconserved hnone hfinished hflawless rfl hfind hadvance with
      ⟨next, -, -, hnothing⟩ | ⟨outcome, -, hsole, herror⟩
    · simp [hnothing] at hmem
    · obtain rfl : Outcome.failed error = outcome := by simpa [hsole] using hmem
      cases herror
  | sent hwaits hsent => exact ⟨hsent, .inl rfl⟩
  | declined hsent => exact ⟨hsent, .inr ⟨_, _, rfl⟩⟩

end

section

variable {slot : Slot} (h : service.Unfailing view egress) (hnone : service.strays = [])
  (hflawless : Flawless machine view service (.move (.task client)))
  (hstep : service.step machine (.move (.task client)) = some (outcomes, after))
include h hnone hflawless

/-- What is known of the slot of a job that is begun. -/
theorem Unfailing.known {job : Job} (hmem : (client, stage) ∈ service.pool.tasks)
    (hbegun : stage.job? = some (job, slot)) :
    ∃ entries, (entries.map Prod.fst).Nodup ∧ view service.machine = World.laid egress entries ∧
      slot.Known entries ∧ Permit.sound machine view egress job slot service.machine := by
  obtain rfl := h.outside
  obtain ⟨entries, hinherited⟩ := h.inherited
  have hslot : slot ∈ stage.slots := by cases stage <;> simp_all [Stage.job?, Stage.slots]
  exact ⟨entries, hinherited.nodup, hinherited.world_eq, hinherited.known slot ((mem_ledger hnone hmem).1 slot hslot),
    permits_sound h.tasks hflawless.2.2 client stage job slot rfl hmem hbegun hflawless.2.1⟩

include hstep

/-- Where nothing fails, a request whose slot is made ready gets it with the policy that it asked for, and the
    slot's network is resettled under that policy. A handle is opened just when the namespace was not there yet.
    -/
theorem Unfailing.prepares {policy : Internet} (hfinished : service.pool.finished = [])
    (hfind : service.pool.tasks.find? (·.1 = client) = some (client, .preparing slot policy)) :
    outcomes = [(client, .slot (.outfitted slot.id
      (if slot.id.namespaceName ∈ (view service.machine).namespaces then slot.handle else some slot.id.handle)
      policy))] ∧
    World.Resettles slot.id egress (some policy) (view service.machine) (view after.machine) := by
  obtain ⟨stage, pool, hfind', hadvance, -, rfl⟩ := step_task hstep
  obtain rfl : .preparing slot policy = stage := by simpa using hfind.symm.trans hfind'
  obtain ⟨entries, hnodup, hview, hknown, hpermit⟩ := h.known hnone hflawless (List.mem_of_find?_eq_some hfind) rfl
  obtain ⟨value, made, state, hrun, rfl, entries', hresettled, hworld⟩ :=
    (prepare_settles hnodup hview hknown).succeeds (hpermit.1 (.prepare policy))
  obtain ⟨rfl, rfl⟩ := hadvance.prepared hflawless.2.1 (h.outside ▸ hrun)
  refine ⟨?_, ?_⟩
  · simp only [Pool.finish, hfinished, List.reverse_singleton]
  · rw [hview, hworld]
    exact hresettled.resettles hnodup

/-- Where nothing fails, a slot that is handed back keeps its network and is opened for whoever comes next. What
    policy it had makes no difference then. -/
theorem Unfailing.resets
    (hfind : service.pool.tasks.find? (·.1 = client) = some (client, .resetting slot)) :
    (client, .returning (.outfitted slot.id slot.handle .allowed)) ∈ after.pool.tasks ∧
    World.Resettles slot.id egress (some .allowed) (view service.machine) (view after.machine) := by
  obtain ⟨stage, pool, hfind', hadvance, hafter, -⟩ := step_task hstep
  obtain rfl : .resetting slot = stage := by simpa using hfind.symm.trans hfind'
  obtain ⟨entries, hnodup, hview, hknown, hpermit⟩ := h.known hnone hflawless (List.mem_of_find?_eq_some hfind) rfl
  obtain ⟨policy, hentry, hkeeps⟩ := hknown.keeps (hpermit.2 rfl)
  obtain ⟨value, made, state, hrun, rfl, entries', hresettled, hworld⟩ :=
    (release_settles hnodup hview hentry hkeeps).succeeds (hpermit.1 .release)
  obtain ⟨rfl, rfl⟩ := hadvance.reopened hflawless.2.1 (h.outside ▸ hrun)
  refine ⟨?_, ?_⟩
  · rw [hafter]
    exact List.mem_cons_self ..
  · rw [hview, hworld]
    exact hresettled.resettles hnodup

/-- Where nothing fails, a slot that is removed leaves nothing on the machine, and no failure is told. -/
theorem Unfailing.removes {purpose : Purpose}
    (hfind : service.pool.tasks.find? (·.1 = client) = some (client, .removing slot purpose)) :
    (client, .removed slot.id [] purpose) ∈ after.pool.tasks ∧
    World.Resettles slot.id egress none (view service.machine) (view after.machine) := by
  obtain ⟨stage, pool, hfind', hadvance, hafter, -⟩ := step_task hstep
  obtain rfl : .removing slot purpose = stage := by simpa using hfind.symm.trans hfind'
  obtain ⟨entries, hnodup, hview, hknown, hpermit⟩ := h.known hnone hflawless (List.mem_of_find?_eq_some hfind) rfl
  obtain ⟨value, made, state, hrun, entries', hresettled, hworld⟩ :=
    (remove_settles hnodup hview hknown).succeeds (hpermit.1 .remove)
  obtain ⟨rfl, rfl⟩ := hadvance.cleared hflawless.2.1 (h.outside ▸ hrun)
  refine ⟨?_, ?_⟩
  · rw [hafter]
    exact List.mem_cons_self ..
  · rw [hview, hworld]
    exact hresettled.resettles hnodup

end

/-- What each turn of a pool without failures makes of the networks. The slot of a job is known, so that its run
    can be told from the machine before; where no job is run, the machine stays as it is. -/
theorem Unfailing.handles (h : service.Unfailing view egress) (hconserved : service.Conserved size)
    (hnone : service.strays = []) (hfinished : service.pool.finished = [])
    (hflawless : Flawless machine view service event)
    (hstep : service.step machine event = some (outcomes, after)) :
    (⟨service, event, outcomes, after⟩ : Turn σ).Handles view egress where
  given client made hmem := by
    obtain ⟨applied, hended⟩ := step_ended hfinished hstep hmem
    cases hended with
    | task hstage hending =>
      obtain ⟨stage, pool, hfind, hadvance, -, rfl⟩ := step_task hstep
      obtain ⟨-, slot, policy, rfl⟩ := hadvance.gives hfinished (List.mem_reverse.mp hmem)
      exact ⟨slot, policy, hfind⟩
    | sent hwaits hsent | declined hsent => exact hsent.elim
  prepares client slot policy htask := by
    obtain ⟨rfl, hfind⟩ := Turn.task?_eq_some htask
    exact ⟨hconserved.filed.pool.tasks _ _ (List.mem_of_find?_eq_some hfind),
      h.prepares hnone hflawless hstep hfinished hfind⟩
  resets client slot htask := by
    obtain ⟨rfl, hfind⟩ := Turn.task?_eq_some htask
    exact h.resets hnone hflawless hstep hfind
  removes client slot purpose htask := by
    obtain ⟨rfl, hfind⟩ := Turn.task?_eq_some htask
    exact h.removes hnone hflawless hstep hfind
  rests hidle := step_rests hstep hidle
  fails client error hmem := h.fails hconserved hnone hfinished hflawless hstep hmem

/-- The slots that callers have have their full networks. -/
theorem Unfailing.kept (h : service.Unfailing view egress) (hconserved : service.Conserved size)
    {slot : Slot} (hmem : (client, slot) ∈ service.held ++ service.lost) :
    ∃ policy, (client, policy) ∈ service.asked ∧ slot.firewall = some policy ∧
      (view service.machine).Complete slot.id egress policy := by
  obtain ⟨entries, hinherited⟩ := h.inherited
  obtain ⟨policy, hasked, hfirewall⟩ := hconserved.filed.callers client slot (List.mem_append.mp hmem)
  have hslot : slot ∈ service.ledger.slots := List.mem_append_right _ (List.mem_map_of_mem hmem)
  obtain ⟨applied, hentry, hkeeps⟩ := (hinherited.known slot hslot).keeps (by
    rw [Slot.hasFirewall, hfirewall]
    rfl)
  obtain rfl : applied = policy := Option.some.inj (hkeeps.firewall.symm.trans hfirewall)
  exact ⟨applied, hasked, hfirewall, hinherited.world_eq ▸ World.laid_complete hinherited.nodup hentry⟩

/-- Nothing is there of a slot that was removed and whose identity is still to be released. -/
theorem Unfailing.gone (h : service.Unfailing view egress) (hnone : service.strays = []) {id : SlotId}
    {failures : List PoolError} {purpose : Purpose}
    (hmem : (client, .removed id failures purpose) ∈ service.pool.tasks) :
    failures = [] ∧ (view service.machine).Clear id egress := by
  obtain ⟨entries, hinherited⟩ := h.inherited
  have hbare : id ∈ service.ledger.bare := (mem_ledger hnone hmem).2 id (List.mem_singleton_self _)
  exact ⟨(h.tasks _ hmem).1,
    hinherited.world_eq ▸ World.laid_clear hinherited.nodup (hinherited.gone id hbare)⟩

theorem opened_unfailing {config : Config} {cancelled : Bool} {state : σ} {entries : List (SlotId × Internet)}
    (hnodup : (entries.map Prod.fst).Nodup) (hview : view state = World.laid egress entries) :
    (opened (Pool.opened config egress cancelled) state).Unfailing view egress where
  outside := rfl
  inherited := ⟨entries, hnodup, hview, fun _ hmem => (by cases hmem), fun _ hmem => (by cases hmem)⟩
  tasks _ hmem := by cases hmem

theorem Flawless.own (h : Flawless machine view service event) : OwnSlots service event := h.1

/-- What holds of a pool that goes on without failures from its opening. That no identity is free when it is
    handed back follows from this too, as such a request would fail. -/
theorem Reaches.unfailing (hconserved : start.Conserved size) (hstrays : start.strays = [])
    (hfinished : start.pool.finished = []) (hstart : start.Unfailing view egress)
    (hreaches : Reaches machine (Flawless machine view) start service) :
    service.Unfailing view egress ∧ service.Conserved size ∧ service.strays = [] := by
  have hown {service : Service σ} (hreaches : Reaches machine (Flawless machine view) start service) :
      Reaches machine OwnSlots start service := hreaches.mono fun _ _ h => h.own
  refine ⟨?_, ((hown hreaches).sparesStrays hstrays).conserved hconserved, (hown hreaches).noStrays hstrays⟩
  induction hreaches with
  | start => exact hstart
  | step hreaches hflawless hstep ih =>
    have hnone := (hown hreaches).noStrays hstrays
    exact ih.step (((hown hreaches).sparesStrays hstrays).conserved hconserved) hnone
      (hreaches.finished hfinished) hflawless hstep

/-- The states in which pools leave a machine that go on without failures until they are dropped, one after
    the other. -/
inductive LeftBehind (machine : Machine σ) (view : σ → World) (egress : String) : σ → Prop
  | fresh {state : σ} (hfresh : view state = .fresh) : LeftBehind machine view egress state
  | dropped {config : Config} {cancelled : Bool} {registry registry' : Registry} {state state' : σ} {pool : Pool}
      {service : Service σ}
      (hleft : LeftBehind machine view egress state)
      (hopen : Pool.openWith machine config cancelled registry state = (.ok (.ok pool), registry', state'))
      (hegress : pool.egress = egress)
      (hreaches : Reaches machine (Flawless machine view) (opened pool state') service) :
      LeftBehind machine view egress service.machine

section

variable {config : Config} {cancelled : Bool} {registry registry' : Registry} {state state' : σ} {pool : Pool}

/-- A pool is opened on a machine with nothing but the networks of some slots. -/
theorem unfailing_of_openWith (hmachine : machine.Within view (World.replies .any))
    (hleft : ∃ entries, (entries.map Prod.fst).Nodup ∧ view state = World.laid pool.egress entries)
    (hopen : Pool.openWith machine config cancelled registry state = (.ok (.ok pool), registry', state')) :
    (opened pool state').Unfailing view pool.egress ∧ (opened pool state').Conserved config.maxSlots ∧
      pool.finished = [] := by
  have hview := Pool.openWith_view hmachine hopen
  obtain ⟨hvalid, egress, -, rfl⟩ := Pool.openWith_ok hopen
  obtain ⟨entries, hnodup, hentries⟩ := hleft
  exact ⟨opened_unfailing hnodup (hview.trans hentries), opened_conserved (Config.maxSlots_le_of_validate hvalid),
    rfl⟩

/-- What is left behind are the networks of slots. -/
theorem LeftBehind.laid (hmachine : machine.Within view (World.replies .any))
    (hleft : LeftBehind machine view egress state) :
    ∃ entries, (entries.map Prod.fst).Nodup ∧ view state = World.laid egress entries := by
  induction hleft with
  | fresh hfresh => exact ⟨[], List.nodup_nil, hfresh⟩
  | dropped hleft hopen hegress hreaches ih =>
    subst hegress
    obtain ⟨hstart, hconserved, hfinished⟩ := unfailing_of_openWith hmachine ih hopen
    obtain ⟨⟨-, ⟨entries, hinherited⟩, -⟩, -⟩ := hreaches.unfailing hconserved rfl hfinished hstart
    exact ⟨entries, hinherited.nodup, hinherited.world_eq⟩

/-- A pool that is opened on what others have left behind, and goes on without failures. Whenever a request is
    given a slot, that has one full network under the policy that was asked for, whether or not its namespace was
    there before, and so it is as long as callers have it. When a slot is removed, nothing of it is left, whether
    or not there was a handle. No other slot's network is touched by that, whoever has made it. -/
theorem Traced.adoption (hmachine : machine.Within view (World.replies .any))
    (hleft : LeftBehind machine view pool.egress state)
    (hopen : Pool.openWith machine config cancelled registry state = (.ok (.ok pool), registry', state'))
    {trace : List (Turn σ)} (htraced : Traced machine (Flawless machine view) (opened pool state') trace service) :
    (∀ turn ∈ trace, turn.Handles view pool.egress) ∧
    (∀ client slot, (client, slot) ∈ service.held ++ service.lost → ∃ policy, (client, policy) ∈ service.asked ∧
      slot.firewall = some policy ∧ (view service.machine).Complete slot.id pool.egress policy) ∧
    ∀ client id failures purpose, (client, .removed id failures purpose) ∈ service.pool.tasks →
      failures = [] ∧ (view service.machine).Clear id pool.egress := by
  obtain ⟨hstart, hconserved, hfinished⟩ := unfailing_of_openWith hmachine (hleft.laid hmachine) hopen
  have hunfailing {service : Service σ} (hreaches : Reaches machine (Flawless machine view) _ service) :=
    hreaches.unfailing hconserved rfl hfinished hstart
  obtain ⟨hends, hbalanced, hnone⟩ := hunfailing htraced.reaches
  refine ⟨fun turn hturn => ?_, fun client slot => hends.kept hbalanced,
    fun client id failures purpose => hends.gone hnone⟩
  obtain ⟨hreaches, hflawless, hstep⟩ := htraced.turn turn hturn
  obtain ⟨hbefore, hconserved, hnone⟩ := hunfailing hreaches
  exact hbefore.handles hconserved hnone (hreaches.finished hfinished) hflawless hstep

end

/-- On the machine in memory nothing fails. -/
theorem flawless_memory {service : Service World} (hown : OwnSlots service event)
    (halive : service.pool.workerAlive = true) : Flawless World.machine (fun world => world) service event := by
  refine ⟨hown, halive, fun client stage job slot _ _ _ _ => ?_⟩
  intro α program hdone
  have hanswers : ∀ c guards world, True → ∃ result world', World.machine.answer c world =
      (.returned result, world') ∧ World.replies .none c guards world result world' ∧ True :=
    fun c _ world _ => ⟨_, _, rfl, .inl rfl, trivial⟩
  exact Program.mild_of_strict hanswers (fun _ _ _ _ _ h => h) trivial

section

variable {start service after : Service World} {events : List Event}
  (hown : ∀ event ∈ events, ∀ client id, event ≠ .putBackNumber client id)
  (halive : ∀ passed ∈ events.inits, ∀ between ∈ start.run World.machine passed, between.pool.workerAlive = true)
  (hrun : start.run World.machine events = some service)
include hown halive hrun

/-- On the machine in memory, a series of events by which callers hand back only what they were given is a run
    without failures, while the worker lives. -/
theorem traced_memory : ∃ trace,
    Traced World.machine (Flawless World.machine fun world => world) start trace service ∧
      trace.map (·.event) = events := by
  refine Traced.of_run (fun passed event hpassed between hbetween => ?_) hrun
  have hmem : event ∈ events := hpassed.subset (List.mem_append_right _ (List.mem_singleton_self _))
  have hinits : passed ∈ events.inits :=
    (List.mem_inits _ _).mpr ((List.prefix_append passed [event]).trans hpassed)
  exact flawless_memory (hown event hmem) (halive passed hinits between hbetween)

/-- One turn more. -/
theorem traced_memory_last (hlast : OwnSlots service event)
    (hstep : service.step World.machine event = some (outcomes, after)) :
    ∃ trace, Traced World.machine (Flawless World.machine fun world => world) start
      (trace ++ [⟨service, event, outcomes, after⟩]) after := by
  obtain ⟨trace, htraced, -⟩ := traced_memory hown halive hrun
  have hends := halive events ((List.mem_inits _ _).mpr (List.prefix_refl _)) service hrun
  exact ⟨trace, htraced.step (flawless_memory hlast hends) hstep⟩

end

/-- A pool with two slots on a machine in memory. -/
def smallService (world : World) : Service World := opened (Pool.opened .small "eth0" false) world

/-- The events by which a first request gets a slot, that slot is handed back, and the pool is closed, until
    the slot is to be removed. -/
def fullCircle (slot : Slot) : List Event :=
  firstRequest .allowed ++ [.putBack "back" ("first", slot), .move (.task "back"),
    .move (.task "back"), .move (.task "back"), .close "end", .move (.task "end"), .move (.populate 0),
    .move (.task "end"), .move (.task "end"), .move (.task "end"), .move (.task "end"), .move (.task "end")]

/-- The slot of a tenant who was kept from the internet is taken over for one who is not, and is removed in the
    end. The second pool knows nothing of the first, and finds the network standing. -/
theorem adoption_nextTenant : ∃ first,
    (smallService .fresh).run World.machine (firstRequest .blocked) = some first ∧
    first.held = [("first", .standing 0 .blocked)] ∧
    LeftBehind World.machine (fun world => world) "eth0" first.machine ∧
    (∃ turn : Turn World, (∃ trace, Traced World.machine (Flawless World.machine fun world => world)
        (smallService first.machine) (trace ++ [turn]) turn.after) ∧
      turn.outcomes = [("first", .slot (.outfitted 0 none .allowed))] ∧
      turn.after.machine.Complete 0 "eth0" .allowed) ∧
    ∃ turn : Turn World, (∃ trace, Traced World.machine (Flawless World.machine fun world => world)
        (smallService first.machine) (trace ++ [turn]) turn.after) ∧
      (∃ purpose, turn.task? = some ("end", .removing (.outfitted 0 none .allowed) purpose)) ∧
      turn.after.machine.Clear 0 "eth0" := by
  have hwithin : World.machine.Within (fun world => world) (World.replies .any) := fun _ _ _ => .inl rfl
  obtain ⟨first, hfirst, hheld⟩ := Option.map_eq_some_iff.mp
    (show ((smallService .fresh).run World.machine (firstRequest .blocked)).map (·.held) =
      some [("first", .standing 0 .blocked)] by decide +kernel)
  have hleft : LeftBehind World.machine (fun world => world) "eth0" first.machine := by
    obtain ⟨trace, htraced, -⟩ := traced_memory (by simp [firstRequest]) (by decide +kernel) hfirst
    exact .dropped (.fresh rfl) (Pool.openWith_small _ _) rfl htraced.reaches
  let slot : Slot := .outfitted 0 none .allowed
  have hown : ∀ event ∈ fullCircle slot, ∀ client id, event ≠ .putBackNumber client id := by
    simp [fullCircle, firstRequest]
  have halive : ∀ passed ∈ (fullCircle slot).inits, ∀ between ∈ (smallService first.machine).run World.machine passed,
      between.pool.workerAlive = true := by
    have hcourse : ∀ first ∈ (smallService .fresh).run World.machine (firstRequest .blocked),
        ∀ passed ∈ (fullCircle slot).inits, ∀ between ∈ (smallService first.machine).run World.machine passed,
          between.pool.workerAlive = true := by decide +kernel
    exact hcourse first hfirst
  refine ⟨first, hfirst, hheld, hleft, ?_, ?_⟩
  · have hgiven : ∀ first ∈ (smallService .fresh).run World.machine (firstRequest .blocked),
        (((smallService first.machine).run World.machine ((fullCircle slot).take 6)).bind fun service =>
          (service.step World.machine (.move (.task "first"))).map fun next => Pool.slotsAmong next.1) =
        some [("first", .outfitted 0 none .allowed)] := by decide +kernel
    obtain ⟨service, hrun, hnext⟩ := Option.bind_eq_some_iff.mp (hgiven first hfirst)
    obtain ⟨⟨outcomes, after⟩, hstep, hslots⟩ := Option.map_eq_some_iff.mp hnext
    have hpassed : (fullCircle slot).take 6 <+: fullCircle slot := List.take_prefix 6 _
    obtain ⟨trace, htraced⟩ := traced_memory_last (fun event hmem => hown event (hpassed.subset hmem))
      (fun passed hmem => halive passed ((List.mem_inits _ _).mpr
        (((List.mem_inits _ _).mp hmem).trans hpassed))) hrun (fun client id => by simp) hstep
    have hhandles := (htraced.adoption hwithin hleft (Pool.openWith_small _ _)).1 _ (List.mem_append_right _
      (List.mem_singleton_self _))
    have hmem : ("first", .slot (.outfitted 0 none .allowed)) ∈ outcomes :=
      Pool.mem_slotsAmong.mp (by rw [hslots]; exact List.mem_singleton_self _)
    obtain ⟨slot, policy, htask⟩ := hhandles.given _ _ hmem
    obtain ⟨-, houtcomes, hresettles⟩ := hhandles.prepares _ _ _ htask
    dsimp only at houtcomes
    have hsole := List.mem_singleton.mp (houtcomes ▸ hmem)
    have hsame := Outcome.slot.inj (Prod.mk.inj hsole).2
    obtain rfl : Internet.allowed = policy := Option.some.inj (congrArg Slot.firewall hsame)
    have hid : (0 : SlotId) = slot.id := congrArg Slot.id hsame
    exact ⟨_, ⟨trace, htraced⟩, by rw [houtcomes, ← hsame], hid ▸ hresettles.own⟩
  · have hlast : ∀ first ∈ (smallService .fresh).run World.machine (firstRequest .blocked),
        (((smallService first.machine).run World.machine (fullCircle slot)).bind fun service =>
          (service.step World.machine (.move (.task "end"))).map fun _ =>
            (service.pool.tasks.find? (·.1 = "end")).map fun task => (task.1, task.2.job?)) =
        some (some ("end", some (.remove, .outfitted 0 none .allowed))) := by decide +kernel
    obtain ⟨service, hrun, hnext⟩ := Option.bind_eq_some_iff.mp (hlast first hfirst)
    obtain ⟨⟨outcomes, after⟩, hstep, hfound⟩ := Option.map_eq_some_iff.mp hnext
    obtain ⟨⟨client, stage⟩, hfind, hjob⟩ := Option.map_eq_some_iff.mp hfound
    obtain ⟨rfl, hjob⟩ := Prod.mk.inj hjob
    obtain ⟨trace, htraced⟩ := traced_memory_last hown halive hrun (fun client id => by simp) hstep
    have hhandles := (htraced.adoption hwithin hleft (Pool.openWith_small _ _)).1 _ (List.mem_append_right _
      (List.mem_singleton_self _))
    cases stage with
    | removing slot purpose =>
      obtain ⟨-, rfl⟩ := by simpa [Stage.job?] using hjob
      exact ⟨_, ⟨trace, htraced⟩, ⟨purpose, hfind⟩, (hhandles.removes _ _ purpose hfind).2.own.2⟩
    | _ => simp [Stage.job?] at hjob

end Service
end SlotPool
