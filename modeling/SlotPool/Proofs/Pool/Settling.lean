import SlotPool.Proofs.Pool.Closed
/-!
How long a pool goes on by itself. Every step uses up some of what is left to do, whoever takes it and whatever
fails: a request ends in the end, and a free identity is put into the new queue once. So between two things that
callers do a pool takes a bounded number of steps, and it has settled after them.
-/

namespace SlotPool

variable {σ : Type}

/-- Stages to come when a queue is to be drained, apart from the slots in it. -/
def Source.stepsLeft : Source → Nat
  | .new => 2
  | .reused => 1

/-- How much is left to do when a task is at a stage, with what is left to do about its slot then. A slot in a
    queue counts four, which is what it takes to drain it, and an identity that is released counts seven. -/
def Stage.stepsLeft : Stage → Nat
  | .resetting _ => 13
  | .returning _ => 12
  | .offering _ => 11
  | .received .. | .refused _ => 10
  | .preparing .. | .removing _ .putBack => 9
  | .unprepared .. | .unreset .. | .lost _ | .removed _ _ .putBack => 8
  | .closing => 5
  | .awaitingPopulate => 4
  | .sealing => 3
  | .drained _ source _ => source.stepsLeft + 3
  | .removing _ (.drain source _) => source.stepsLeft + 2
  | .removed _ _ (.drain source _) => source.stepsLeft + 1
  | .draining source _ => source.stepsLeft

/-- How much is left to do for the filling task when there are some free identities. Three steps put one into the
    new queue, and it counts four there. -/
def Populate.stepsLeft (free : Nat) : Populate → Nat
  | .acquiring => 7 * free + 1
  | .holding _ => 7 * free + 7
  | .counted _ => 7 * free + 6
  | .stopped => 0

theorem Populate.stepsLeft_le_free (populate : Populate) (free : Nat) :
    populate.stepsLeft free ≤ 7 * free + 7 := by
  cases populate <;> simp only [stepsLeft] <;> omega

theorem Populate.stepsLeft_of_freed (populate : Populate) {free freed : Nat} (h : freed ≤ free + 1) :
    populate.stepsLeft freed ≤ populate.stepsLeft free + 7 := by
  cases populate <;> simp only [stepsLeft] <;> omega

/-- Only stages at which a task has an identity count more than ten. -/
theorem Stage.stepsLeft_le (stage : Stage) : stage.stepsLeft ≤ 10 + 3 * stage.ids.length := by
  cases stage with
  | draining source failures | drained slot source failures =>
    cases source <;> simp [stepsLeft, Source.stepsLeft, ids, slots, bare]
  | removing slot purpose | removed id failures purpose =>
    cases purpose with
    | putBack => simp [stepsLeft, ids, slots, bare]
    | drain source failures => cases source <;> simp [stepsLeft, Source.stepsLeft, ids, slots, bare]
  | _ => simp [stepsLeft, ids, slots, bare]

namespace Pool

variable {machine : Machine σ} {client : Client} {pool pool' : Pool} {state state' : σ} {stage : Stage}
  {choice : Nat}

/-- How much is left to do in a pool before it settles. A request in line counts seven: it takes a slot and gets
    it, or is sent away. -/
def stepsLeft (pool : Pool) : Nat :=
  pool.populate.stepsLeft pool.allocator.free.length + 4 * (pool.newQueue.length + pool.reusedQueue.length) +
    7 * pool.waiting.length + (pool.tasks.map (·.2.stepsLeft)).sum

section

variable {source : Source} {outcome : Outcome}

theorem stepsLeft_follow : (pool.follow client stage).stepsLeft = stage.stepsLeft + pool.stepsLeft := by
  simp only [stepsLeft, follow, List.map_cons, List.sum_cons]
  omega

theorem stepsLeft_finish : (pool.finish client outcome).stepsLeft = pool.stepsLeft := rfl

-- The pool is taken apart below, so that nothing ever compares the gauges.

theorem stepsLeft_lower : (pool.lower source).stepsLeft = pool.stepsLeft := by
  cases pool
  rfl

theorem stepsLeft_raise : (pool.raise source).stepsLeft = pool.stepsLeft := by
  cases pool
  rfl

/-- A slot in a queue is good for four steps of whoever takes it from there. -/
theorem stepsLeft_setQueue {slot : Slot} {rest : List Slot} (hqueue : pool.queue source = slot :: rest) :
    pool.stepsLeft = (pool.setQueue rest source).stepsLeft + 4 := by
  cases source with
  | new =>
    have hnew : pool.newQueue = slot :: rest := hqueue
    simp only [stepsLeft, setQueue, hnew, List.length_cons]
    omega
  | reused =>
    have hreused : pool.reusedQueue = slot :: rest := hqueue
    simp only [stepsLeft, setQueue, hreused, List.length_cons]
    omega

/-- Releasing an identity gives the filling task at most seven steps more to do. -/
theorem stepsLeft_release (id : SlotId) : (pool.release id).2.stepsLeft ≤ pool.stepsLeft + 7 := by
  rw [release_snd]
  have hfreed : ((pool.allocator.release id.val).toOption.getD pool.allocator).free.length ≤
      pool.allocator.free.length + 1 := Allocator.free_release
  have hpopulate := pool.populate.stepsLeft_of_freed hfreed
  simp only [stepsLeft]
  omega

/-- An identity that is released when the filling task has ended is not put into a queue again. -/
theorem stepsLeft_release_of_stopped (id : SlotId) (hstopped : pool.populate = .stopped) :
    (pool.release id).2.stepsLeft = pool.stepsLeft := by
  rw [release_snd]
  simp only [stepsLeft, hstopped, Populate.stepsLeft]

/-- The steps left to a pool are those of the task that takes the step and those of everything else. -/
theorem stepsLeft_erase (hfind : pool.tasks.find? (·.1 = client) = some (client, stage)) :
    pool.stepsLeft = stage.stepsLeft + { pool with tasks := pool.tasks.eraseP (·.1 = client) }.stepsLeft := by
  have hsum : (pool.tasks.map (·.2.stepsLeft)).sum =
      stage.stepsLeft + ((pool.tasks.eraseP (·.1 = client)).map (·.2.stepsLeft)).sum :=
    ((tasks_perm hfind).map _).sum_nat
  simp only [stepsLeft]
  omega

end

/-- Each task has at most ten steps left, and three more for every identity that it will release. -/
theorem sum_stepsLeft_le (tasks : List (Client × Stage)) :
    (tasks.map (·.2.stepsLeft)).sum ≤ 10 * tasks.length + 3 * (tasks.flatMap (·.2.ids)).length := by
  induction tasks with
  | nil => simp
  | cons task tasks ih =>
    have hstage := task.2.stepsLeft_le
    simp only [List.map_cons, List.sum_cons, List.length_cons, List.flatMap_cons, List.length_append]
    omega

theorem Unanswered.stepsLeft {α : Type} {job : SlotProgram α} {slot : Slot}
    (h : Unanswered machine job slot pool state pool' state') : pool'.stepsLeft = pool.stepsLeft := by
  cases h <;> rfl

/-- Every step of a task leaves less to do. That it is so for the draining of a queue is due to the filling task,
    which has ended by then: what is released is not queued again. -/
theorem Advance.stepsLeft (hadvance : Advance machine client pool state stage pool' state')
    (hstopped : ∀ source, stage.phase? = some (.draining source) → pool.populate = .stopped) :
    pool'.stepsLeft < stage.stepsLeft + pool.stepsLeft := by
  cases hadvance with
  | receive | overflow =>
    rw [stepsLeft_follow, stepsLeft_lower]
    exact Nat.add_lt_add_right (by simp [Stage.stepsLeft]) _
  | announce =>
    rw [stepsLeft_follow, stepsLeft_raise]
    exact Nat.add_lt_add_right (by simp [Stage.stepsLeft]) _
  | takeOut =>
    rw [stepsLeft_follow, stepsLeft_lower]
    exact Nat.add_lt_add_right (by simp [Stage.stepsLeft]) _
  | prepareStops hstops | resetStops hstops =>
    rw [stepsLeft_follow, hstops.stepsLeft]
    exact Nat.add_lt_add_right (by simp [Stage.stepsLeft]) _
  | @removeStops slot purpose pool' state' hstops =>
    rw [stepsLeft_follow, hstops.stepsLeft]
    exact Nat.add_lt_add_right (by cases purpose <;> simp [Stage.stepsLeft]) _
  | @remove slot purpose result after state' hrun =>
    rw [stepsLeft_follow]
    exact Nat.add_lt_add_right (by cases purpose <;> simp [Stage.stepsLeft]) _
  | @discard id | @giveUp id | @loseSlot id =>
    rw [stepsLeft_finish]
    have hreleased := pool.stepsLeft_release id
    simp only [Stage.stepsLeft]
    omega
  | @settle id failures purpose =>
    cases purpose with
    | putBack =>
      have hreleased := pool.stepsLeft_release id
      simp only [afterRemoval, stepsLeft_finish, Stage.stepsLeft]
      omega
    | drain source earlier =>
      have hreleased := stepsLeft_release_of_stopped id (hstopped source rfl)
      simp only [afterRemoval]
      split <;> simp only [stepsLeft_follow, hreleased, Stage.stepsLeft] <;> omega
  | prepare =>
    rw [stepsLeft_finish]
    exact Nat.lt_add_of_pos_left (by simp [Stage.stepsLeft])
  | @enqueue slot =>
    rw [stepsLeft_finish]
    simp only [Pool.stepsLeft, List.length_append, List.length_singleton, Stage.stepsLeft]
    omega
  | endClose =>
    rw [stepsLeft_finish]
    exact Nat.lt_add_of_pos_left (by simp [Stage.stepsLeft, Source.stepsLeft])
  | @drain source failures slot rest hqueue =>
    rw [stepsLeft_follow, stepsLeft_setQueue hqueue]
    simp only [Stage.stepsLeft]
    omega
  | close | shut | turn =>
    rw [stepsLeft_follow]
    exact Nat.add_lt_add_right (by simp [Stage.stepsLeft, Source.stepsLeft]) _
  | prepareFails | reset | resetFails | refuse | await =>
    rw [stepsLeft_follow]
    exact Nat.add_lt_add_right (by simp [Stage.stepsLeft]) _

/-- The filling task uses up a step of what is left. What it puts into the new queue was paid for when the
    identity was taken. -/
theorem Stocking.stepsLeft (hstocking : Stocking choice pool pool') : pool'.stepsLeft < pool.stepsLeft := by
  cases hstocking with
  | stop hpopulate | outsidePlan hpopulate =>
    simp only [Pool.stepsLeft, hpopulate, Populate.stepsLeft]
    omega
  | discard hpopulate =>
    rw [release_snd]
    simp only [Pool.stepsLeft, hpopulate, Populate.stepsLeft]
    omega
  | acquire hpopulate hacquire =>
    have hfree := Allocator.free_acquire hacquire
    simp only [Pool.stepsLeft, hpopulate, Populate.stepsLeft]
    omega
  | count hpopulate =>
    cases pool
    simp_all only [Pool.stepsLeft, raise, Populate.stepsLeft]
    omega
  | enqueue hpopulate =>
    simp only [Pool.stepsLeft, hpopulate, Populate.stepsLeft, List.length_append, List.length_singleton]
    omega

/-- A request that leaves the line uses up a step of what is left, also when it takes a slot from a queue: in
    line it counts together with that slot for more than the task that it then has. -/
theorem Waiting.stepsLeft (hwaiting : Waiting client pool pool') : pool'.stepsLeft < pool.stepsLeft := by
  have hleaves {waiter : Waiter} (hwaiter : waiter ∈ pool.waiting) :
      { pool with waiting := pool.waiting.erase waiter }.stepsLeft + 7 = pool.stepsLeft := by
    have hlength := List.length_erase_of_mem hwaiter
    have hpos := List.length_pos_of_mem hwaiter
    simp only [Pool.stepsLeft]
    omega
  cases hwaiting with
  | giveUp hwaiter | sendAway hwaiter =>
    have hleft := hleaves hwaiter
    rw [stepsLeft_finish]
    omega
  | @serve waiter source slot rest hwaiter hclient hqueue =>
    have hleft := hleaves hwaiter
    have hqueue' : { pool with waiting := pool.waiting.erase waiter }.queue source = slot :: rest := by
      cases source <;> exact hqueue
    have htaken := stepsLeft_setQueue hqueue'
    rw [stepsLeft_follow]
    simp only [Stage.stepsLeft]
    omega

/-- Every step leaves less to do. -/
theorem Stepping.stepsLeft {move : Move} (hstepping : Stepping machine pool state move pool' state')
    (h : pool.Shutting) : pool'.stepsLeft < pool.stepsLeft := by
  cases hstepping with
  | @task client stage pool' state' hfind hadvance =>
    rw [stepsLeft_erase hfind]
    refine hadvance.stepsLeft fun source hphase => ?_
    exact (h.phases _ (List.mem_of_find?_eq_some hfind) _ hphase).stopped (by simp) (by simp)
  | populate hstocking => exact hstocking.stepsLeft
  | waiter hwaiting => exact hwaiting.stepsLeft

/-- Whether the filling task can go on does not depend on which free identity it would take. -/
theorem stepPopulate_eq_none (h : pool.stepPopulate choice = none) (other : Nat) :
    pool.stepPopulate other = none := by
  cases hpopulate : pool.populate with
  | acquiring =>
    simp only [stepPopulate, hpopulate] at h ⊢
    split at h
    · cases h
    · rename_i hgoing
      rw [if_neg hgoing, Option.map_eq_none_iff, Allocator.acquire?_eq_none_iff]
      exact Allocator.acquire?_eq_none_iff.mp (Option.map_eq_none_iff.mp h)
  | holding slot | counted slot => simpa only [stepPopulate, hpopulate] using h
  | stopped => simp only [stepPopulate, hpopulate]

/-- A pool has settled when nobody of those who are tried can go on. All are tried: the tasks, those in line and
    the filling task. -/
theorem settled_of_stepAny (h : pool.stepAny machine choice state = none) : pool.Settled machine state := by
  have htried : ∀ move ∈ pool.moves choice, pool.step machine move state = none :=
    List.findSome?_eq_none_iff.mp h
  intro move
  cases move with
  | task client =>
    cases hfind : pool.tasks.find? (·.1 = client) with
    | none => simp [step, hfind]
    | some task =>
      obtain rfl : task.1 = client := by simpa using List.find?_some hfind
      refine htried _ ?_
      simp only [moves, List.mem_append, List.mem_map]
      exact .inl (.inl ⟨task, List.mem_of_find?_eq_some hfind, rfl⟩)
  | populate other =>
    have hstuck := htried (.populate choice) (by simp [moves])
    simp only [step, Option.map_eq_none_iff] at hstuck ⊢
    exact stepPopulate_eq_none hstuck other
  | waiter client =>
    cases hfind : pool.waiting.find? (·.client = client) with
    | none => simp [step, stepWaiter, hfind]
    | some waiter =>
      obtain rfl : waiter.client = client := by simpa using List.find?_some hfind
      refine htried _ ?_
      simp only [moves, List.mem_append, List.mem_map]
      exact .inr ⟨waiter, List.mem_of_find?_eq_some hfind, rfl⟩

/-- A pool has settled after as many steps as there is left to do. The induction is on the steps, and each step
    that is taken leaves less to do. -/
theorem runFor_settled {steps : Nat} (h : pool.Regular) (hsteps : pool.stepsLeft ≤ steps) :
    (pool.runFor machine choice steps state).1.Settled machine (pool.runFor machine choice steps state).2 := by
  induction steps generalizing pool state with
  | zero =>
    change pool.Settled machine state
    intro move
    rw [Option.eq_none_iff_forall_not_mem]
    rintro ⟨pool', state'⟩ hstep
    have hless := (step_cases hstep).stepsLeft h.shutting
    omega
  | succ steps ih =>
    rw [runFor]
    split
    · rename_i hstuck
      exact settled_of_stepAny hstuck
    · rename_i pool' state' hany
      obtain ⟨move, -, hstep⟩ := List.exists_of_findSome?_eq_some hany
      have hstepping := step_cases hstep
      have hless := hstepping.stepsLeft h.shutting
      exact ih (hstepping.regular h) (by omega)

end Pool

namespace Service

variable {machine : Machine σ} {service later : Service σ} {moves : List Pool.Move} {size : Nat}

/-- A pool that goes on by itself uses up what is left to do, so it cannot go on forever. -/
theorem Orderly.run_moves (h : service.Orderly size)
    (hrun : service.run machine (moves.map .move) = some later) :
    moves.length + later.pool.stepsLeft ≤ service.pool.stepsLeft := by
  induction moves generalizing service with
  | nil =>
    obtain rfl : service = later := by simpa [Service.run] using hrun
    simp
  | cons move moves ih =>
    obtain ⟨⟨outcomes, next⟩, hstep, hrest⟩ := Option.bind_eq_some_iff.mp hrun
    have hnext : next.Orderly size := h.later (.step .start (fun client id heq => by cases heq) hstep)
    have hlater := ih hnext hrest
    obtain ⟨pool, hturned, hafter, -⟩ := step_turned hstep
    generalize next.machine = state at hturned
    cases hturned with
    | move hstepping =>
      have hless := hstepping.stepsLeft h.shutting
      have hsame : next.pool.stepsLeft = pool.stepsLeft := by rw [hafter]; rfl
      rw [List.length_cons]
      omega

/-- There is less to do than the steps that are given to a pool to settle. An identity counts ten at most, whether
    it is free or a task has it. -/
theorem Orderly.stepsLeft_le (h : service.Orderly size) : service.pool.stepsLeft ≤ service.pool.stepsToSettle := by
  have htasks := Pool.sum_stepsLeft_le service.pool.tasks
  have hpopulate := service.pool.populate.stepsLeft_le_free service.pool.allocator.free.length
  have hheld : (service.pool.tasks.flatMap (·.2.ids)).length ≤ service.pool.allocator.held.length := by
    have hown : service.ownTasks = service.pool.tasks := by simp [ownTasks, h.strays]
    rw [(h.conserved.partitioned h.finished).held.length_eq, List.length_map]
    simp only [places, hown, List.flatten_cons, List.flatten_nil, List.length_append]
    omega
  have hcomplete : service.pool.allocator.Complete := h.conserved.balanced.complete
  have hcapacity := hcomplete.length_eq
  rw [List.length_append, List.length_range] at hcapacity
  simp only [Pool.stepsLeft, Pool.stepsToSettle]
  omega

/-- The pool settles by itself, in whatever order those who can go on do so: no series of moves is longer than a
    bound that is known beforehand. -/
def ComesToRest (machine : Machine σ) (service : Service σ) : Prop :=
  ∀ (moves : List Pool.Move) (later : Service σ), service.run machine (moves.map .move) = some later →
    moves.length ≤ service.pool.stepsToSettle

theorem Orderly.comesToRest (h : service.Orderly size) : service.ComesToRest machine := by
  intro moves later hrun
  have hmoves := h.run_moves hrun
  have hsteps := h.stepsLeft_le
  omega

/-- Running a pool until it is settled comes to a settled pool. -/
theorem Orderly.settle (h : service.Orderly size) (choice : Nat) :
    (service.pool.settle machine choice service.machine).1.Settled machine
      (service.pool.settle machine choice service.machine).2 :=
  Pool.runFor_settled ⟨h.shutting, fun identity hknown =>
    ((h.conserved.partitioned h.finished).slot identity hknown).1.trans_le h.conserved.plan.2⟩ h.stepsLeft_le

end Service
end SlotPool
