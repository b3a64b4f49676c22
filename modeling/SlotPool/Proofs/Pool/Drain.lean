import SlotPool.Proofs.Pool.Gauges
import SlotPool.Proofs.Pool.Served
/-!
The draining of the queues. A closing pool takes the slots that stand in its queues one by one, first from the
new queue and then from the reused queue, removes each and releases its identity. Nobody else takes a slot from
a queue that is being drained, or puts one there.
-/

namespace SlotPool

variable {σ : Type}

namespace Stage

/-- A closing keeps others from the reused queue while it drains it. -/
theorem holdsReused_iff {stage : Stage} :
    stage.holdsReused = true ↔ stage.phase? = some (.draining .reused) := by
  cases stage with
  | draining source failures | drained slot source failures => cases source <;> simp [holdsReused, phase?]
  | removing slot purpose | removed id failures purpose =>
    cases purpose with
    | putBack => simp [holdsReused, phase?]
    | drain source failures => cases source <;> simp [holdsReused, phase?]
  | _ => simp [holdsReused, phase?]

/-- What failed in the removal that is just over. -/
def own : Stage → List PoolError
  | .removed _ own _ => own
  | _ => []

/-- What has failed in a closing so far. -/
def failures : Stage → List PoolError
  | .draining _ failures | .drained _ _ failures => failures
  | .removing _ purpose => purpose.failures
  | .removed _ own purpose => purpose.failures ++ own
  | _ => []

end Stage

namespace Pool

section

variable {machine : Machine σ} {client : Client} {pool pool' : Pool} {state state' : σ} {stage : Stage}
  {event : Service.Event}

/-- The phases of the closings that are under way. -/
def phases (pool : Pool) : List Phase := pool.tasks.filterMap (·.2.phase?)

/-- What a turn leaves as it is for a closing that is under way. -/
structure Beside (pool pool' : Pool) : Prop where
  closed : pool'.allocator.closed = pool.allocator.closed
  reusedOpen : pool'.reusedOpen = pool.reusedOpen
  queue : ∀ source, .draining source ∈ pool.phases → pool'.queue source = pool.queue source
  tasks : ∀ task ∈ pool'.tasks, task.2.phase? ≠ none → task ∈ pool.tasks
  phases : pool'.phases.Perm pool.phases
  closeAsked : pool'.closeAsked = pool.closeAsked

/-- A task that is not of the closing puts slots only into the reused queue, as long as that is open, and takes
    none out of either queue. So once both are shut they can only get shorter by the closing. -/
theorem Advance.queues (hadvance : Advance machine client pool state stage pool' state')
    (hstage : stage.phase? = none) :
    pool'.reusedOpen = pool.reusedOpen ∧ pool'.newQueue = pool.newQueue ∧
      (pool.reusedOpen = false → pool'.reusedQueue = pool.reusedQueue) := by
  have hended (released : SlotId) : (pool.release released).2.reusedOpen = pool.reusedOpen ∧
      (pool.release released).2.newQueue = pool.newQueue ∧
      (pool.reusedOpen = false → (pool.release released).2.reusedQueue = pool.reusedQueue) := by
    rw [release_snd]
    exact ⟨rfl, rfl, fun _ => rfl⟩
  cases hadvance with
  | prepareStops hstops => cases hstops <;> exact ⟨rfl, rfl, fun _ => rfl⟩
  | resetStops hstops => cases hstops <;> exact ⟨rfl, rfl, fun _ => rfl⟩
  | removeStops hstops => cases hstops <;> exact ⟨rfl, rfl, fun _ => rfl⟩
  | discard => exact hended _
  | giveUp => exact hended _
  | loseSlot => exact hended _
  | @settle released failures purpose =>
    cases purpose with
    | putBack => exact hended _
    | drain source earlier => cases hstage
  | enqueue hopen hroom => exact ⟨rfl, rfl, fun hshut => by simp [hopen] at hshut⟩
  | receive | announce | overflow =>
    cases pool
    exact ⟨rfl, rfl, fun _ => rfl⟩
  | close | await | shut | drain | turn | endClose | takeOut => cases hstage
  | _ => exact ⟨rfl, rfl, fun _ => rfl⟩

theorem Shutting.brought (h : pool.Shutting) {phase : Phase} (hphase : phase ∈ pool.phases) : Brought phase pool := by
  obtain ⟨task, hmem, hsome⟩ := List.mem_filterMap.mp hphase
  exact h.phases task hmem phase hsome

/-- What is beside a closing when it has no part in a step and the queues that it is emptying are as they were.
    New tasks may have come, but none of a closing. -/
theorem Beside.of_tasks (hclosed : pool'.allocator.closed = pool.allocator.closed)
    (hreusedOpen : pool'.reusedOpen = pool.reusedOpen)
    (hqueue : ∀ source, .draining source ∈ pool.phases → pool'.queue source = pool.queue source)
    (htasks : pool'.tasks = pool.tasks ∨ ∃ client stage, stage.phase? = none ∧
      pool'.tasks = (client, stage) :: pool.tasks) (hcloseAsked : pool'.closeAsked = pool.closeAsked) :
    pool.Beside pool' := by
  rcases htasks with hsame | ⟨client, stage, hnone, hcons⟩
  · refine ⟨hclosed, hreusedOpen, hqueue, fun task hmem _ => hsame ▸ hmem, ?_, hcloseAsked⟩
    rw [Pool.phases, hsame]
    exact .refl _
  · refine ⟨hclosed, hreusedOpen, hqueue, fun task hmem hphase => ?_, ?_, hcloseAsked⟩
    · refine (List.mem_cons.mp (hcons ▸ hmem)).resolve_left fun heq => hphase ?_
      rw [heq, hnone]
    · rw [Pool.phases, hcons, phases_cons, hnone]
      exact .refl _

/-- The filling task does nothing to a queue that is being drained: it has ended by the time at which the
    closing comes to the queues. -/
theorem Stocking.beside {choice : Nat} (hstocking : Stocking choice pool pool') (h : pool.Shutting) :
    pool.Beside pool' := by
  have hsame {kept : Pool} (hclosed : kept.allocator.closed = pool.allocator.closed)
      (hreusedOpen : kept.reusedOpen = pool.reusedOpen) (hnewQueue : kept.newQueue = pool.newQueue)
      (hreusedQueue : kept.reusedQueue = pool.reusedQueue) (htasks : kept.tasks = pool.tasks)
      (hcloseAsked : kept.closeAsked = pool.closeAsked) : pool.Beside kept :=
    .of_tasks hclosed hreusedOpen (fun source _ => by cases source; exacts [hnewQueue, hreusedQueue])
      (.inl htasks) hcloseAsked
  cases hstocking with
  | stop hpopulate hcancelled => exact hsame rfl rfl rfl rfl rfl rfl
  | acquire hpopulate hacquire hslot =>
    obtain ⟨hbefore, hafter, -⟩ := Allocator.acquire?_open hacquire
    exact hsame (hafter.trans hbefore.symm) rfl rfl rfl rfl rfl
  | outsidePlan hpopulate hacquire hslot =>
    obtain ⟨hbefore, hafter, -⟩ := Allocator.acquire?_open hacquire
    exact hsame (hafter.trans hbefore.symm) rfl rfl rfl rfl rfl
  | discard hpopulate hcancelled =>
    rw [release_snd]
    exact hsame Allocator.closed_release rfl rfl rfl rfl rfl
  | count hpopulate => exact hsame rfl rfl rfl rfl rfl rfl
  | enqueue hpopulate =>
    -- while a queue is drained, the filling task has ended
    refine .of_tasks rfl rfl (fun source hphase => ?_) (.inl rfl) rfl
    have hstopped := (h.brought hphase).stopped (by simp) (by simp)
    simp [hstopped] at hpopulate

/-- A request in line does nothing to a queue that is being drained, since the pool's lifetime is over by then
    and it can only leave. -/
theorem Waiting.beside (hwaiting : Waiting client pool pool') (h : pool.Shutting) : pool.Beside pool' := by
  cases hwaiting with
  | giveUp hwaiter hclient => exact .of_tasks rfl rfl (fun source _ => by cases source <;> rfl) (.inl rfl) rfl
  | sendAway hwaiter hclient => exact .of_tasks rfl rfl (fun source _ => by cases source <;> rfl) (.inl rfl) rfl
  | @serve waiter source slot rest hwaiter hclient hqueue hwanted hgoing =>
    -- while a queue is drained, the lifetime of the pool is over
    refine .of_tasks (by cases source <;> rfl) (by cases source <;> rfl) (fun drained hphase => ?_)
      (.inr ⟨client, .received slot source waiter.policy, rfl, by cases source <;> rfl⟩) (by cases source <;> rfl)
    have hcancelled := (h.brought hphase).cancelled (by simp)
    simp [hgoing] at hcancelled

/-- A turn that is not of the closing leaves all as it is for the closing. The cases are those of a turn: a step
    of the pool, by whomever, and what callers ask. -/
theorem Turned.beside (hturned : Turned machine pool state event pool' state') (h : pool.Shutting)
    (hother : ∀ client stage, event = .move (.task client) →
      pool.tasks.find? (·.1 = client) = some (client, stage) → stage.phase? = none)
    (hclose : ∀ client, event = .close client → pool.closeAsked = true) : pool.Beside pool' := by
  cases hturned with
  | move hstepping =>
    cases hstepping with
    | @task client stage pool' state' hfind hadvance =>
      have hnone := hother client stage rfl hfind
      have hbefore : ({ pool with tasks := pool.tasks.eraseP (·.1 = client) } : Pool).phases.Perm pool.phases := by
        refine .trans ?_ ((tasks_perm hfind).filterMap _).symm
        rw [phases_cons, hnone]
        exact .refl _
      obtain ⟨hreusedOpen, hnewQueue, hreusedQueue⟩ := hadvance.queues hnone
      have htasks : pool'.tasks = pool.tasks.eraseP (·.1 = client) ∨ ∃ owner next, Stage.phase? next = none ∧
          pool'.tasks = (owner, next) :: pool.tasks.eraseP (·.1 = client) := by
        rcases hadvance.goesOn with ⟨next, htasks, hleads⟩ | ⟨htasks, -, -⟩
        · exact .inr ⟨client, next, by simpa [hnone] using hleads.phase?_isSome, htasks⟩
        · exact .inl htasks
      have hclosed := hadvance.closed.resolve_right fun hsealing => by simp [hsealing, Stage.phase?] at hnone
      have hbeside : ({ pool with tasks := pool.tasks.eraseP (·.1 = client) } : Pool).Beside pool' := by
        refine .of_tasks hclosed hreusedOpen (fun source hphase => ?_) htasks hadvance.likewise.closeAsked
        cases source with
        | new => exact hnewQueue
        | reused =>
          exact hreusedQueue ((h.brought (hbefore.mem_iff.mp hphase)).reusedOpen rfl)
      exact ⟨hbeside.closed, hbeside.reusedOpen, fun source hphase =>
          (hbeside.queue source (hbefore.mem_iff.mpr hphase)).trans (by cases source <;> rfl),
        fun task hmem hphase => List.mem_of_mem_eraseP (hbeside.tasks task hmem hphase),
        hbeside.phases.trans hbefore, hbeside.closeAsked⟩
    | populate hstocking => exact hstocking.beside h
    | waiter hwaiting => exact hwaiting.beside h
  | @get client policy cancelled pool' hasking =>
    cases hasking with
    | take hqueue hline hfree =>
      refine .of_tasks rfl rfl (fun source hphase => ?_) (.inr ⟨client, _, rfl, rfl⟩) rfl
      cases source with
      | new => rfl
      | reused =>
        obtain ⟨task, hmem, hsome⟩ := List.mem_filterMap.mp hphase
        have hlocked := List.any_eq_false.mp hfree task hmem
        exact absurd (Stage.holdsReused_iff.mpr hsome) hlocked
    | decline | join => exact .of_tasks rfl rfl (fun source _ => by cases source <;> rfl) (.inl rfl) rfl
  | @close client pool' hasking =>
    cases hasking with
    | first hunasked => simp [hclose client rfl] at hunasked
    | again => exact .of_tasks rfl rfl (fun source _ => by cases source <;> rfl) (.inl rfl) rfl
  | putBack | putBackNumber =>
    exact .of_tasks rfl rfl (fun source _ => by cases source <;> rfl) (.inr ⟨_, _, rfl, rfl⟩) rfl
  | cancel | lose | cancelLifetime =>
    exact .of_tasks rfl rfl (fun source _ => by cases source <;> rfl) (.inl rfl) rfl

end

end Pool
end SlotPool
