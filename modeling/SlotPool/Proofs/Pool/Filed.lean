import SlotPool.Proofs.Pool.Events
import SlotPool.Proofs.Slot.Memory
/-!
What the parts of a pool have on record, whatever the machine does. Identities in the new queue are
fresh, slots in the reused queue remember that they are open, and a slot on its way to a caller
remembers the policy that the caller asked for.
-/

namespace SlotPool

variable {σ : Type}

/-- What the slots that come from a queue remember. -/
def Source.Stocks : Source → Slot → Prop
  | .new, slot => slot = .fresh slot.id
  | .reused, slot => slot.firewall = some .allowed

/-- A failure that is more than a request being sent away. -/
def PoolError.Substantial : PoolError → Prop
  | .cancelled | .closed => False
  | _ => True

/-- Failures that have a cause of their own are put together to a failure that has one. A collection is never
    the refusal of a request that was cancelled or came too late. -/
theorem PoolError.ofMany_substantial {failures : List PoolError} {failure : PoolError}
    (hfailures : ∀ failure ∈ failures, failure.Substantial)
    (hmany : PoolError.ofMany failures = .error failure) : failure.Substantial := by
  match failures with
  | [] => cases hmany
  | [single] =>
    obtain rfl : single = failure := by simpa [PoolError.ofMany] using hmany
    exact hfailures single (by simp)
  | first :: second :: rest =>
    obtain rfl : .multiple (first :: second :: rest) = failure := by
      simpa [PoolError.ofMany] using hmany
    trivial

/-- The failures so far of the closing that a slot is removed for. -/
def Purpose.failures : Purpose → List PoolError
  | .putBack => []
  | .drain _ failures => failures

/-- What is on record of a task at its stage. -/
def Stage.Filed (asked : List (Client × Internet)) (client : Client) : Stage → Prop
  | .received slot source policy => source.Stocks slot ∧ (client, policy) ∈ asked
  | .preparing _ policy => (client, policy) ∈ asked
  | .returning slot | .offering slot | .refused slot => slot.firewall = some .allowed
  | .removing _ purpose => ∀ failure ∈ purpose.failures, failure.Substantial
  | .removed _ failures purpose => ∀ failure ∈ failures ++ purpose.failures, failure.Substantial
  | .draining _ failures | .drained _ _ failures => ∀ failure ∈ failures, failure.Substantial
  | .unprepared _ _ | .resetting _ | .unreset _ _ | .lost _ | .closing | .awaitingPopulate | .sealing => True

/-- What is on record of a request that is over. -/
def Outcome.Filed (asked : List (Client × Internet)) (client : Client) : Outcome → Prop
  | .slot given => ∃ policy, (client, policy) ∈ asked ∧ given.firewall = some policy
  | _ => True

namespace Pool

/-- What is on record in a pool. -/
structure Filed (asked : List (Client × Internet)) (pool : Pool) : Prop where
  hand : ∀ slot ∈ pool.populate.slots, slot = .fresh slot.id
  newQueue : ∀ slot ∈ pool.newQueue, slot = .fresh slot.id
  reusedQueue : ∀ slot ∈ pool.reusedQueue, slot.firewall = some .allowed
  tasks : ∀ client stage, (client, stage) ∈ pool.tasks → stage.Filed asked client
  waiting : ∀ waiter ∈ pool.waiting, (waiter.client, waiter.policy) ∈ asked
  finished : ∀ client outcome, (client, outcome) ∈ pool.finished → outcome.Filed asked client

section

variable {asked : List (Client × Internet)} {pool : Pool} {client : Client}

/-- A task that goes on at a stage whose records are in order leaves the pool's records in order. It is put in
    front of the other tasks, which keep theirs. -/
theorem Filed.follow {stage : Stage} (h : pool.Filed asked)
    (hstage : stage.Filed asked client) : (pool.follow client stage).Filed asked where
  hand := h.hand
  newQueue := h.newQueue
  reusedQueue := h.reusedQueue
  tasks := by
    intro other next hmem
    rcases List.mem_cons.mp hmem with hnew | hold
    · obtain ⟨rfl, rfl⟩ : other = client ∧ next = stage := by simpa using hnew
      exact hstage
    · exact h.tasks other next hold
  waiting := h.waiting
  finished := h.finished

/-- A request that ends with an outcome whose records are in order leaves the pool's records in order. -/
theorem Filed.finish {outcome : Outcome} (h : pool.Filed asked)
    (houtcome : outcome.Filed asked client) : (pool.finish client outcome).Filed asked where
  hand := h.hand
  newQueue := h.newQueue
  reusedQueue := h.reusedQueue
  tasks := h.tasks
  waiting := h.waiting
  finished := by
    intro other next hmem
    rcases List.mem_cons.mp hmem with hnew | hold
    · obtain ⟨rfl, rfl⟩ : other = client ∧ next = outcome := by simpa using hnew
      exact houtcome
    · exact h.finished other next hold

theorem Filed.queue {source : Source} (h : pool.Filed asked) :
    ∀ slot ∈ pool.queue source, source.Stocks slot := by
  cases source with
  | new => exact h.newQueue
  | reused => exact h.reusedQueue

theorem Filed.setQueue {source : Source} {slots : List Slot} (h : pool.Filed asked)
    (hslots : ∀ slot ∈ slots, source.Stocks slot) : (pool.setQueue slots source).Filed asked := by
  cases source with
  | new => exact ⟨h.hand, hslots, h.reusedQueue, h.tasks, h.waiting, h.finished⟩
  | reused => exact ⟨h.hand, h.newQueue, hslots, h.tasks, h.waiting, h.finished⟩

theorem Filed.lower {source : Source} (h : pool.Filed asked) : (pool.lower source).Filed asked :=
  ⟨h.hand, h.newQueue, h.reusedQueue, h.tasks, h.waiting, h.finished⟩

theorem Filed.raise {source : Source} (h : pool.Filed asked) : (pool.raise source).Filed asked :=
  ⟨h.hand, h.newQueue, h.reusedQueue, h.tasks, h.waiting, h.finished⟩

theorem Filed.setAllocator (allocator : Allocator) (h : pool.Filed asked) :
    { pool with allocator }.Filed asked :=
  ⟨h.hand, h.newQueue, h.reusedQueue, h.tasks, h.waiting, h.finished⟩

theorem Filed.loseWorker (h : pool.Filed asked) : { pool with workerAlive := false }.Filed asked :=
  ⟨h.hand, h.newQueue, h.reusedQueue, h.tasks, h.waiting, h.finished⟩

theorem release_snd (id : SlotId) : (pool.release id).2 =
    { pool with allocator := (pool.allocator.release id.val).toOption.getD pool.allocator } := by
  unfold release
  split <;> simp_all [Except.toOption]

theorem Filed.release (id : SlotId) (h : pool.Filed asked) : (pool.release id).2.Filed asked := by
  rw [release_snd]
  exact h.setAllocator _

theorem Filed.cancel (h : pool.Filed asked) : { pool with cancelled := true }.Filed asked :=
  ⟨h.hand, h.newQueue, h.reusedQueue, h.tasks, h.waiting, h.finished⟩

theorem Unanswered.filed {α : Type} {machine : Machine σ} {job : SlotProgram α} {slot : Slot}
    {pool' : Pool} {state state' : σ} (h : pool.Filed asked)
    (hstops : Unanswered machine job slot pool state pool' state') : pool'.Filed asked := by
  cases hstops with
  | gone hdead => exact h
  | dies halive hrun => exact h.loseWorker

/-- When a slot was removed, either the request that handed it back ends or the closing goes on draining. The
    failures that are told are those of the removal, so the records stay in order. -/
theorem Filed.afterRemoval {failures : List PoolError} {purpose : Purpose} (h : pool.Filed asked)
    (hfailures : ∀ failure ∈ failures ++ purpose.failures, failure.Substantial) :
    (pool.afterRemoval client failures purpose).Filed asked := by
  cases purpose with
  | putBack =>
    refine h.finish ?_
    cases PoolError.ofMany failures <;> trivial
  | drain source earlier =>
    have hearlier : ∀ failure ∈ earlier, failure.Substantial := fun failure hmem =>
      hfailures failure (List.mem_append_right _ hmem)
    have hnow : ∀ failure ∈ failures, failure.Substantial := fun failure hmem =>
      hfailures failure (List.mem_append_left _ hmem)
    simp only [Pool.afterRemoval]
    split
    · exact h.follow hearlier
    · rename_i failure hmany
      refine h.follow fun other hmem => ?_
      rcases List.mem_append.mp hmem with hold | hnew
      · exact hearlier other hold
      · obtain rfl := List.mem_singleton.mp hnew
        exact PoolError.ofMany_substantial hnow hmany

/-- A task goes on with what is on record of it: the policy that was asked for, and the queue that its slot came
    from. There is a case for each step that a task can take, and each hands these on or is done with them. -/
theorem Advance.filed {machine : Machine σ} {stage : Stage} {pool' : Pool} {state state' : σ}
    (hadvance : Advance machine client pool state stage pool' state') (h : pool.Filed asked)
    (hstage : stage.Filed asked client) : pool'.Filed asked := by
  cases hadvance with
  | receive => exact h.lower.follow hstage.2
  | prepare hrun => exact h.finish ⟨_, hstage, (Slot.prepare_run_ok hrun).2⟩
  | prepareFails hrun => exact h.follow trivial
  | prepareStops hstops => exact (hstops.filed h).follow trivial
  | discard => exact (h.release _).finish trivial
  | reset hrun => exact h.follow (Slot.release_run_ok hrun).2.2
  | resetFails hrun => exact h.follow trivial
  | resetStops hstops => exact (hstops.filed h).follow trivial
  | giveUp => exact (h.release _).finish trivial
  | announce => exact h.raise.follow hstage
  | @enqueue slot hopen hroom =>
    have hqueued : { pool with reusedQueue := pool.reusedQueue ++ [slot] }.Filed asked := by
      refine ⟨h.hand, h.newQueue, fun queued hmem => ?_, h.tasks, h.waiting, h.finished⟩
      rcases List.mem_append.mp hmem with hold | hnew
      · exact h.reusedQueue queued hold
      · obtain rfl := List.mem_singleton.mp hnew
        exact hstage
    exact hqueued.finish trivial
  | refuse hfull => exact h.follow hstage
  | overflow => exact h.lower.follow (by simp [Stage.Filed, Purpose.failures])
  | loseSlot => exact (h.release _).finish trivial
  | @remove slot purpose result after state' hrun =>
    refine h.follow ?_
    intro failure hmem
    rcases List.mem_append.mp hmem with hown | hearlier
    · cases result with
      | ok value => simp [NetworkError.failure?] at hown
      | error cause =>
        obtain rfl : failure = .teardown slot.id.val cause := by
          simpa [NetworkError.failure?] using hown
        trivial
    · exact hstage failure hearlier
  | removeStops hstops =>
    refine (hstops.filed h).follow ?_
    intro failure hmem
    rcases List.mem_cons.mp hmem with rfl | hearlier
    · trivial
    · exact hstage failure hearlier
  | settle =>
    refine (h.release _).afterRemoval fun failure hmem => ?_
    simp only [List.append_assoc, List.mem_append] at hmem
    rcases hmem with hearlier | hrefused | hpurpose
    · exact hstage failure (List.mem_append_left _ hearlier)
    · simp only [Option.mem_toList, Option.map_eq_some_iff] at hrefused
      obtain ⟨refusal, -, rfl⟩ := hrefused
      trivial
    · exact hstage failure (List.mem_append_right _ hpurpose)
  | close => exact h.cancel.follow trivial
  | await hstopped => exact h.follow trivial
  | shut => exact (h.setAllocator _).follow (by simp [Stage.Filed])
  | drain hqueue =>
    exact (h.setQueue fun slot hmem => h.queue slot (by simp [hqueue, hmem])).follow hstage
  | turn hqueue =>
    have hclosed : { pool with reusedOpen := false }.Filed asked :=
      ⟨h.hand, h.newQueue, h.reusedQueue, h.tasks, h.waiting, h.finished⟩
    exact hclosed.follow hstage
  | @endClose failures hqueue =>
    refine h.finish ?_
    cases PoolError.ofMany failures <;> trivial
  | takeOut => exact h.lower.follow hstage

/-- The filling task puts only fresh slots into the new queue, and takes none from where slots have records.
    What it holds is a fresh slot as well. -/
theorem Stocking.filed {choice : Nat} {pool' : Pool} (hstocking : Stocking choice pool pool')
    (h : pool.Filed asked) : pool'.Filed asked := by
  have hset (populate : Populate) (hslots : ∀ slot ∈ populate.slots, slot = .fresh slot.id) :
      { pool with populate }.Filed asked :=
    ⟨hslots, h.newQueue, h.reusedQueue, h.tasks, h.waiting, h.finished⟩
  cases hstocking with
  | stop hpopulate hcancelled => exact hset .stopped (by simp [Populate.slots])
  | @acquire identity allocator slot hpopulate hacquire hslot =>
    refine (hset (.holding slot) fun held hmem => ?_).setAllocator allocator
    obtain rfl := List.mem_singleton.mp hmem
    exact (Slot.eq_fresh_of_ofNat? hslot).1
  | outsidePlan hpopulate hacquire hslot =>
    exact (hset .stopped (by simp [Populate.slots])).setAllocator _
  | discard hpopulate hcancelled =>
    rw [release_snd]
    exact (hset .stopped (by simp [Populate.slots])).setAllocator _
  | @count slot hpopulate =>
    refine ⟨fun held hmem => ?_, h.newQueue, h.reusedQueue, h.tasks, h.waiting, h.finished⟩
    exact h.hand held (by simpa [hpopulate, Populate.slots] using hmem)
  | @enqueue slot hpopulate =>
    refine ⟨by simp [Populate.slots], fun queued hmem => ?_, h.reusedQueue, h.tasks, h.waiting,
      h.finished⟩
    rcases List.mem_append.mp hmem with hold | hnew
    · exact h.newQueue queued hold
    · exact h.hand queued (by simpa [hpopulate, Populate.slots] using hnew)

theorem Filed.leaveLine (waiter : Waiter) (h : pool.Filed asked) :
    { pool with waiting := pool.waiting.erase waiter }.Filed asked :=
  ⟨h.hand, h.newQueue, h.reusedQueue, h.tasks,
    fun other hmem => h.waiting other (List.mem_of_mem_erase hmem), h.finished⟩

/-- A request that leaves the line takes along the policy that it asked for, and so does the slot that it takes.
    -/
theorem Waiting.filed {pool' : Pool} (hwaiting : Waiting client pool pool')
    (h : pool.Filed asked) : pool'.Filed asked := by
  cases hwaiting with
  | giveUp hwaiter hclient => exact (h.leaveLine _).finish trivial
  | sendAway hwaiter hclient => exact (h.leaveLine _).finish trivial
  | @serve waiter source slot rest hwaiter hclient hqueue =>
    refine ((h.leaveLine waiter).setQueue fun queued hmem => ?_).follow ⟨?_, ?_⟩
    · exact h.queue queued (by simp [hqueue, hmem])
    · exact h.queue slot (by simp [hqueue])
    · exact hclient ▸ h.waiting waiter hwaiter

/-- Every step of the pool keeps what is on record. -/
theorem Stepping.filed {machine : Machine σ} {move : Move} {pool' : Pool} {state state' : σ}
    (hstepping : Stepping machine pool state move pool' state') (h : pool.Filed asked) :
    pool'.Filed asked := by
  cases hstepping with
  | @task client stage pool' state' hfind hadvance =>
    have hrest : { pool with tasks := pool.tasks.eraseP (·.1 = client) }.Filed asked :=
      ⟨h.hand, h.newQueue, h.reusedQueue,
        fun other next hmem => h.tasks other next (List.mem_of_mem_eraseP hmem), h.waiting,
        h.finished⟩
    exact hadvance.filed hrest (h.tasks client stage (List.mem_of_find?_eq_some hfind))
  | populate hstocking => exact hstocking.filed h
  | waiter hwaiting => exact hwaiting.filed h

/-- A request for a slot is on record with its policy, whether it takes a reused slot at once, is sent away, or
    joins the line. -/
theorem Asking.filed {policy : Internet} {cancelled : Bool} {pool' : Pool}
    (hasking : Asking client policy cancelled pool pool') (h : pool.Filed ((client, policy) :: asked)) :
    pool'.Filed ((client, policy) :: asked) := by
  cases hasking with
  | @take slot rest hqueue =>
    have htaken : { pool with reusedQueue := rest }.Filed ((client, policy) :: asked) :=
      ⟨h.hand, h.newQueue, fun queued hmem => h.reusedQueue queued (by simp [hqueue, hmem]),
        h.tasks, h.waiting, h.finished⟩
    exact htaken.follow ⟨h.reusedQueue slot (by simp [hqueue]), List.mem_cons_self ..⟩
  | decline => exact h.finish trivial
  | join =>
    refine ⟨h.hand, h.newQueue, h.reusedQueue, h.tasks, fun waiter hmem => ?_, h.finished⟩
    rcases List.mem_append.mp hmem with hold | hnew
    · exact h.waiting waiter hold
    · obtain rfl := List.mem_singleton.mp hnew
      exact List.mem_cons_self ..

/-- Records stay in order when further requests are noted, since a record only says that some request was made.
    -/
theorem Filed.mono {asked' : List (Client × Internet)} (h : pool.Filed asked)
    (hsub : ∀ request ∈ asked, request ∈ asked') : pool.Filed asked' where
  hand := h.hand
  newQueue := h.newQueue
  reusedQueue := h.reusedQueue
  tasks := by
    intro client stage hmem
    have hstage := h.tasks client stage hmem
    cases stage with
    | received slot source policy => exact ⟨hstage.1, hsub _ hstage.2⟩
    | preparing slot policy => exact hsub _ hstage
    | _ => exact hstage
  waiting := fun waiter hmem => hsub _ (h.waiting waiter hmem)
  finished := by
    intro client outcome hmem
    have houtcome := h.finished client outcome hmem
    cases outcome with
    | slot given =>
      obtain ⟨policy, hasked, hpolicy⟩ := houtcome
      exact ⟨policy, hsub _ hasked, hpolicy⟩
    | _ => trivial

theorem Filed.giveUpWaiting (h : pool.Filed asked) : (pool.cancel client).Filed asked := by
  refine ⟨h.hand, h.newQueue, h.reusedQueue, h.tasks, fun waiter hmem => ?_, h.finished⟩
  obtain ⟨old, hold, rfl⟩ := List.mem_map.mp hmem
  have hrequest := h.waiting old hold
  split <;> exact hrequest

/-- A request to close the pool has no slot, so it changes nothing of the records. -/
theorem AskingToClose.filed {pool' : Pool} (hasking : AskingToClose client pool pool') (h : pool.Filed asked) :
    pool'.Filed asked := by
  cases hasking with
  | first =>
    have hasked : { pool with closeAsked := true }.Filed asked :=
      ⟨h.hand, h.newQueue, h.reusedQueue, h.tasks, h.waiting, h.finished⟩
    exact hasked.follow trivial
  | again => exact h.finish trivial

theorem opened_filed (config : Config) (egress : String) (cancelled : Bool) :
    (opened config egress cancelled).Filed [] := by
  constructor <;> simp [opened, Populate.slots]

end

end Pool

namespace Service

/-- What is on record of a pool and of the slots that callers have or had. -/
structure Filed (service : Service σ) : Prop where
  pool : service.pool.Filed service.asked
  callers : ∀ client slot, (client, slot) ∈ service.held ∨ (client, slot) ∈ service.lost →
    ∃ policy, (client, policy) ∈ service.asked ∧ slot.firewall = some policy
  named : ∀ client policy, (client, policy) ∈ service.asked → client ∈ service.named
  asked : (service.asked.map (·.1)).Nodup

variable {machine : Machine σ} {service after : Service σ} {event : Event}
  {outcomes : List (Client × Outcome)}

theorem Filed.note (h : service.Filed) : (service.note event).Filed :=
  ⟨h.pool, h.callers, fun client policy hmem => List.mem_append_right _ (h.named client policy hmem),
    h.asked⟩

theorem Filed.withPool {pool : Pool} (h : service.Filed) (hpool : pool.Filed service.asked) :
    (service.withPool pool).Filed :=
  ⟨hpool, h.callers, h.named, h.asked⟩

/-- Whatever happens, what is on record stays in order. A new request for a slot is put on record first, so that
    the pool can be looked at under the new record. -/
theorem Filed.apply {applied : Service σ} (h : service.Filed)
    (hfresh : ∀ client policy, (client, policy) ∈ service.asked → event.request? ≠ some client)
    (hnamed : ∀ client ∈ event.request?, client ∈ service.named)
    (happlied : Applied machine service event applied) : applied.Filed := by
  cases happlied with
  | move hstepping => exact ⟨hstepping.filed h.pool, h.callers, h.named, h.asked⟩
  | @get client policy cancelled pool hasking =>
    have hpool : service.pool.Filed ((client, policy) :: service.asked) :=
      h.pool.mono fun request hmem => List.mem_cons_of_mem _ hmem
    refine ⟨hasking.filed hpool, fun holder slot hmem => ?_, fun other wanted hmem => ?_, ?_⟩
    · obtain ⟨wanted, hasked, hpolicy⟩ := h.callers holder slot hmem
      exact ⟨wanted, List.mem_cons_of_mem _ hasked, hpolicy⟩
    · rcases List.mem_cons.mp hmem with hnew | hold
      · obtain ⟨rfl, rfl⟩ : other = client ∧ wanted = policy := by simpa using hnew
        exact hnamed other rfl
      · exact h.named other wanted hold
    · refine List.nodup_cons.mpr ⟨fun hmem => ?_, h.asked⟩
      obtain ⟨⟨other, wanted⟩, hasked, rfl⟩ := List.mem_map.mp hmem
      exact hfresh other wanted hasked rfl
  | cancel => exact h.withPool h.pool.giveUpWaiting
  | handBack hgives hcallers hheld hlost =>
    exact ⟨h.pool.follow trivial, fun holder slot hmem => h.callers holder slot
      (hmem.imp (hheld.subset ·) (hlost.subset ·)), h.named, h.asked⟩
  | stray => exact ⟨h.pool.follow trivial, h.callers, h.named, h.asked⟩
  | @lose entry hheld =>
    refine ⟨h.pool, fun holder slot hmem => h.callers holder slot ?_, h.named, h.asked⟩
    rcases hmem with hkept | hlost
    · exact .inl (List.mem_of_mem_erase hkept)
    · rcases List.mem_cons.mp hlost with rfl | hold
      · exact .inl hheld
      · exact .inr hold
  | close hasking => exact h.withPool (hasking.filed h.pool)
  | cancelLifetime => exact h.withPool h.pool.cancel

/-- When outcomes are handed over, callers get their slots with the policy that they asked for. -/
theorem Filed.deliver (h : service.Filed) : service.deliver.2.Filed := by
  refine ⟨⟨h.pool.hand, h.pool.newQueue, h.pool.reusedQueue, h.pool.tasks, h.pool.waiting, ?_⟩,
    fun client slot hmem => ?_, h.named, h.asked⟩
  · intro client outcome hmem
    cases hmem
  · rcases hmem with hheld | hlost
    · rcases List.mem_append.mp hheld with hnew | hold
      · exact h.pool.finished client _ (Pool.mem_slotsAmong.mp hnew)
      · exact h.callers client slot (.inl hold)
    · exact h.callers client slot (.inr hlost)

/-- Whatever happens, the records of the pool and of its callers stay in order. -/
theorem Filed.step (h : service.Filed) (hstep : service.step machine event = some (outcomes, after)) :
    after.Filed := by
  obtain ⟨hfresh, applied, happlied, -, rfl⟩ := step_cases hstep
  refine (h.note.apply (fun client policy hasked hrequest => ?_) (fun client hclient => ?_)
    happlied).deliver
  · exact hfresh client hrequest (h.named client policy hasked)
  · exact List.mem_append_left _ (by simpa using hclient)

/-- Whatever has happened, what is on record is in order. -/
theorem Reaches.filed {allowed : Service σ → Event → Prop} {start : Service σ}
    (hreaches : Reaches machine allowed start service) (hstart : start.Filed) : service.Filed := by
  induction hreaches with
  | start => exact hstart
  | step hreaches hallowed hstep ih => exact ih.step hstep

end Service
end SlotPool
