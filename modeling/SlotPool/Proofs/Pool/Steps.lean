import SlotPool.Pool.Run
/-!
The steps of a pool, one by one: what each step can do, under which conditions, and to what it leads.
What holds of every step can then be proved case by case without opening the definitions again.
-/

namespace SlotPool.Pool

variable {σ : Type}

/-- A job comes to nothing: the worker was gone before, or it dies of the job. -/
inductive Unanswered {α : Type} (machine : Machine σ) (job : SlotProgram α) (slot : Slot)
    (pool : Pool) (state : σ) : Pool → σ → Prop
  | gone (hdead : pool.workerAlive = false) : Unanswered machine job slot pool state pool state
  | dies {state' : σ} (halive : pool.workerAlive = true)
      (hrun : (job.run slot).run machine state = (none, state')) :
      Unanswered machine job slot pool state { pool with workerAlive := false } state'

section

variable {α : Type} {machine : Machine σ} {job : SlotProgram α} {slot : Slot} {pool pool' : Pool}
  {state state' : σ}

/-- A job has a result only when the worker lives, and then it is the result of its run on the machine. The pool
    stays as it was. -/
theorem submit_some {result : α × Slot}
    (h : pool.submit machine job slot state = (some result, pool', state')) :
    pool' = pool ∧ pool.workerAlive = true ∧
      (job.run slot).run machine state = (some result, state') := by
  unfold submit at h
  split at h
  · rename_i halive
    cases hrun : (job.run slot).run machine state with
    | mk value after =>
      cases value with
      | none => simp [hrun] at h
      | some value =>
        obtain ⟨rfl, rfl, rfl⟩ : value = result ∧ pool = pool' ∧ after = state' := by
          simpa [hrun] using h
        exact ⟨rfl, halive, rfl⟩
  · simp at h

/-- A job without a result found no worker, or the worker has died of it. In the second case the machine is left
    as it was when the job was cut off. -/
theorem submit_none (h : pool.submit machine job slot state = (none, pool', state')) :
    Unanswered machine job slot pool state pool' state' := by
  unfold submit at h
  split at h
  · rename_i halive
    cases hrun : (job.run slot).run machine state with
    | mk value after =>
      cases value with
      | some value => simp [hrun] at h
      | none =>
        obtain ⟨rfl, rfl⟩ : { pool with workerAlive := false } = pool' ∧ after = state' := by
          simpa [hrun] using h
        exact .dies halive hrun
  · rename_i hdead
    obtain ⟨rfl, rfl⟩ : pool = pool' ∧ state = state' := by simpa using h
    exact .gone (by simpa using hdead)

end

section

variable {pool : Pool} {source : Source} {client : Client} {stage : Stage} {outcome : Outcome}

theorem tasks_follow : (pool.follow client stage).tasks = (client, stage) :: pool.tasks := rfl

theorem waiting_follow : (pool.follow client stage).waiting = pool.waiting := rfl

theorem allocator_follow : (pool.follow client stage).allocator = pool.allocator := rfl

-- The pool is taken apart below, so that nothing ever compares the gauges.

theorem tasks_lower : (pool.lower source).tasks = pool.tasks := by
  cases pool
  rfl

theorem waiting_lower : (pool.lower source).waiting = pool.waiting := by
  cases pool
  rfl

theorem allocator_lower : (pool.lower source).allocator = pool.allocator := by
  cases pool
  rfl

theorem tasks_raise : (pool.raise source).tasks = pool.tasks := by
  cases pool
  rfl

theorem waiting_raise : (pool.raise source).waiting = pool.waiting := by
  cases pool
  rfl

theorem allocator_raise : (pool.raise source).allocator = pool.allocator := by
  cases pool
  rfl

end

/-- What a step of a task at a stage can lead to. The task has been taken from the list. -/
inductive Advance (machine : Machine σ) (client : Client) (pool : Pool) (state : σ) :
    Stage → Pool → σ → Prop
  | receive {slot source policy} : Advance machine client pool state (.received slot source policy)
      ((pool.lower source).follow client (.preparing slot policy)) state
  | prepare {slot policy after state'}
      (hrun : ((Slot.prepare pool.egress policy).run.run slot).run machine state =
        (some (.ok (), after), state'))
      (halive : pool.workerAlive = true) :
      Advance machine client pool state (.preparing slot policy) (pool.finish client (.slot after))
        state'
  | prepareFails {slot policy failure after state'}
      (hrun : ((Slot.prepare pool.egress policy).run.run slot).run machine state =
        (some (.error failure, after), state'))
      (halive : pool.workerAlive = true) :
      Advance machine client pool state (.preparing slot policy)
        (pool.follow client (.unprepared slot.id failure)) state'
  | prepareStops {slot policy pool' state'}
      (hstops : Unanswered machine (Slot.prepare pool.egress policy).run slot pool state pool' state') :
      Advance machine client pool state (.preparing slot policy)
        (pool'.follow client (.lost slot.id)) state'
  | discard {id failure} : Advance machine client pool state (.unprepared id failure)
      ((pool.release id).2.finish client
        (.failed (failure.toPoolError id (pool.release id).1))) state
  | reset {slot after state'}
      (hrun : ((Slot.release pool.egress).run.run slot).run machine state =
        (some (.ok (), after), state'))
      (halive : pool.workerAlive = true) :
      Advance machine client pool state (.resetting slot) (pool.follow client (.returning after))
        state'
  | resetFails {slot failure after state'}
      (hrun : ((Slot.release pool.egress).run.run slot).run machine state =
        (some (.error failure, after), state'))
      (halive : pool.workerAlive = true) :
      Advance machine client pool state (.resetting slot)
        (pool.follow client (.unreset slot.id failure)) state'
  | resetStops {slot pool' state'}
      (hstops : Unanswered machine (Slot.release pool.egress).run slot pool state pool' state') :
      Advance machine client pool state (.resetting slot) (pool'.follow client (.lost slot.id)) state'
  | giveUp {id failure} : Advance machine client pool state (.unreset id failure)
      ((pool.release id).2.finish client
        (.failed (failure.toPoolError id (pool.release id).1))) state
  | announce {slot} : Advance machine client pool state (.returning slot)
      ((pool.raise .reused).follow client (.offering slot)) state
  | enqueue {slot} (hopen : pool.reusedOpen = true)
      (hroom : pool.reusedQueue.length < pool.reusedCapacity) :
      Advance machine client pool state (.offering slot)
        ({ pool with reusedQueue := pool.reusedQueue ++ [slot] }.finish client .done) state
  | refuse {slot} (hfull : ¬ (pool.reusedOpen = true ∧
      pool.reusedQueue.length < pool.reusedCapacity)) :
      Advance machine client pool state (.offering slot) (pool.follow client (.refused slot)) state
  | overflow {slot} : Advance machine client pool state (.refused slot)
      ((pool.lower .reused).follow client (.removing slot .putBack)) state
  | loseSlot {id} : Advance machine client pool state (.lost id)
      ((pool.release id).2.finish client (.failed workerGone)) state
  | remove {slot purpose result after state'}
      (hrun : ((Slot.remove pool.egress).run.run slot).run machine state =
        (some (result, after), state'))
      (halive : pool.workerAlive = true) :
      Advance machine client pool state (.removing slot purpose)
        (pool.follow client (.removed slot.id
          ((NetworkError.failure? result).map (.teardown slot.id.val)).toList purpose)) state'
  | removeStops {slot purpose pool' state'}
      (hstops : Unanswered machine (Slot.remove pool.egress).run slot pool state pool' state') :
      Advance machine client pool state (.removing slot purpose)
        (pool'.follow client (.removed slot.id [workerGone] purpose)) state'
  | settle {id failures purpose} : Advance machine client pool state (.removed id failures purpose)
      ((pool.release id).2.afterRemoval client
        (failures ++ ((pool.release id).1.map .acquire).toList) purpose) state
  | close : Advance machine client pool state .closing
      ({ pool with cancelled := true }.follow client .awaitingPopulate) state
  | await (hstopped : pool.populate = .stopped) :
      Advance machine client pool state .awaitingPopulate (pool.follow client .sealing) state
  | shut : Advance machine client pool state .sealing
      ({ pool with allocator := pool.allocator.close }.follow client (.draining .new [])) state
  | drain {source failures slot rest} (hqueue : pool.queue source = slot :: rest) :
      Advance machine client pool state (.draining source failures)
        ((pool.setQueue rest source).follow client (.drained slot source failures)) state
  | turn {failures} (hqueue : pool.newQueue = []) (hline : pool.waiting = []) :
      Advance machine client pool state (.draining .new failures)
        ({ pool with reusedOpen := false }.follow client (.draining .reused failures)) state
  | endClose {failures} (hqueue : pool.reusedQueue = []) :
      Advance machine client pool state (.draining .reused failures)
        (pool.finish client (.ofExcept (PoolError.ofMany failures))) state
  | takeOut {slot source failures} : Advance machine client pool state (.drained slot source failures)
      ((pool.lower source).follow client (.removing slot (.drain source failures))) state

/-- Every step of a task is one of these. The cases of `Pool.advance` are gone through here once; what a step
    does to any part of the pool is read off the relation. -/
theorem advance_cases {machine : Machine σ} {client : Client} {pool pool' : Pool} {state state' : σ}
    {stage : Stage} (h : pool.advance machine client state stage = some (pool', state')) :
    Advance machine client pool state stage pool' state' := by
  cases stage with
  | received slot source policy =>
    obtain ⟨rfl, rfl⟩ := by simpa [advance] using h
    exact .receive
  | preparing slot policy =>
    simp only [advance] at h
    split at h
    · rename_i hsubmit
      obtain ⟨rfl, rfl⟩ := by simpa using h
      exact .prepareStops (submit_none hsubmit)
    · rename_i hsubmit
      obtain ⟨rfl, rfl⟩ := by simpa using h
      obtain ⟨rfl, halive, hrun⟩ := submit_some hsubmit
      exact .prepare hrun halive
    · rename_i hsubmit
      obtain ⟨rfl, rfl⟩ := by simpa using h
      obtain ⟨rfl, halive, hrun⟩ := submit_some hsubmit
      exact .prepareFails hrun halive
  | unprepared id failure =>
    obtain ⟨rfl, rfl⟩ := by simpa [advance] using h
    exact .discard
  | resetting slot =>
    simp only [advance] at h
    split at h
    · rename_i hsubmit
      obtain ⟨rfl, rfl⟩ := by simpa using h
      exact .resetStops (submit_none hsubmit)
    · rename_i hsubmit
      obtain ⟨rfl, rfl⟩ := by simpa using h
      obtain ⟨rfl, halive, hrun⟩ := submit_some hsubmit
      exact .reset hrun halive
    · rename_i hsubmit
      obtain ⟨rfl, rfl⟩ := by simpa using h
      obtain ⟨rfl, halive, hrun⟩ := submit_some hsubmit
      exact .resetFails hrun halive
  | unreset id failure =>
    obtain ⟨rfl, rfl⟩ := by simpa [advance] using h
    exact .giveUp
  | returning slot =>
    obtain ⟨rfl, rfl⟩ := by simpa [advance] using h
    exact .announce
  | offering slot =>
    simp only [advance] at h
    split at h
    · rename_i hroom
      obtain ⟨rfl, rfl⟩ := by simpa using h
      exact .enqueue hroom.1 hroom.2
    · rename_i hfull
      obtain ⟨rfl, rfl⟩ := by simpa using h
      exact .refuse hfull
  | refused slot =>
    obtain ⟨rfl, rfl⟩ := by simpa [advance] using h
    exact .overflow
  | lost id =>
    obtain ⟨rfl, rfl⟩ := by simpa [advance] using h
    exact .loseSlot
  | removing slot purpose =>
    simp only [advance] at h
    split at h
    · rename_i hsubmit
      obtain ⟨rfl, rfl⟩ := by simpa using h
      exact .removeStops (submit_none hsubmit)
    · rename_i hsubmit
      obtain ⟨rfl, rfl⟩ := by simpa using h
      obtain ⟨rfl, halive, hrun⟩ := submit_some hsubmit
      exact .remove hrun halive
    · rename_i hsubmit
      obtain ⟨rfl, rfl⟩ := by simpa using h
      obtain ⟨rfl, halive, hrun⟩ := submit_some hsubmit
      exact .remove hrun halive
  | removed id failures purpose =>
    obtain ⟨rfl, rfl⟩ := by simpa [advance] using h
    exact .settle
  | closing =>
    obtain ⟨rfl, rfl⟩ := by simpa [advance] using h
    exact .close
  | awaitingPopulate =>
    obtain ⟨hstopped, rfl, rfl⟩ := by simpa [advance] using h
    exact .await hstopped
  | sealing =>
    obtain ⟨rfl, rfl⟩ := by simpa [advance] using h
    exact .shut
  | draining source failures =>
    simp only [advance] at h
    split at h
    · rename_i hqueue
      obtain ⟨rfl, rfl⟩ := by simpa using h
      exact .drain hqueue
    · rename_i hqueue
      obtain ⟨hline, rfl, rfl⟩ := by simpa using h
      exact .turn hqueue hline
    · rename_i hqueue
      obtain ⟨rfl, rfl⟩ := by simpa using h
      exact .endClose hqueue
  | drained slot source failures =>
    obtain ⟨rfl, rfl⟩ := by simpa [advance] using h
    exact .takeOut

/-- What a step of the filling task can lead to. -/
inductive Stocking (choice : Nat) (pool : Pool) : Pool → Prop
  | stop (hpopulate : pool.populate = .acquiring) (hcancelled : pool.cancelled = true) :
      Stocking choice pool { pool with populate := .stopped }
  | acquire {identity allocator slot} (hpopulate : pool.populate = .acquiring)
      (hacquire : pool.allocator.acquire? choice = some (identity, allocator))
      (hslot : Slot.ofNat? identity = some slot) (hgoing : pool.cancelled = false) :
      Stocking choice pool { pool with allocator, populate := .holding slot }
  | outsidePlan {identity allocator} (hpopulate : pool.populate = .acquiring)
      (hacquire : pool.allocator.acquire? choice = some (identity, allocator))
      (hslot : Slot.ofNat? identity = none) (hgoing : pool.cancelled = false) :
      Stocking choice pool { pool with allocator, populate := .stopped }
  | discard {slot} (hpopulate : pool.populate = .holding slot) (hcancelled : pool.cancelled = true) :
      Stocking choice pool { (pool.release slot.id).2 with populate := .stopped }
  | count {slot} (hpopulate : pool.populate = .holding slot) (hgoing : pool.cancelled = false)
      (hroom : pool.newQueue.length < pool.newCapacity) :
      Stocking choice pool { pool.raise .new with populate := .counted slot }
  | enqueue {slot} (hpopulate : pool.populate = .counted slot) :
      Stocking choice pool
        { pool with newQueue := pool.newQueue ++ [slot], populate := .acquiring }

/-- Every step of the filling task is one of these. It takes an identity only when the allocator has a permit,
    and waits with it when the new queue is full. -/
theorem stepPopulate_cases {choice : Nat} {pool pool' : Pool}
    (h : pool.stepPopulate choice = some pool') : Stocking choice pool pool' := by
  unfold stepPopulate at h
  split at h
  · rename_i hpopulate
    split at h
    · rename_i hcancelled
      obtain rfl := by simpa using h
      exact .stop hpopulate hcancelled
    · rename_i hcancelled
      have hgoing : pool.cancelled = false := by simpa using hcancelled
      obtain ⟨⟨identity, allocator⟩, hacquire, hslot⟩ := Option.map_eq_some_iff.mp h
      cases hfound : Slot.ofNat? identity with
      | some slot =>
        simp only [hfound] at hslot
        subst hslot
        exact .acquire hpopulate hacquire hfound hgoing
      | none =>
        simp only [hfound] at hslot
        subst hslot
        exact .outsidePlan hpopulate hacquire hfound hgoing
  · rename_i slot hpopulate
    split at h
    · rename_i hcancelled
      obtain rfl := by simpa using h
      exact .discard hpopulate hcancelled
    · rename_i hcancelled
      split at h
      · rename_i hroom
        obtain rfl := by simpa using h
        exact .count hpopulate (by simpa using hcancelled) hroom
      · cases h
  · rename_i slot hpopulate
    obtain rfl := by simpa using h
    exact .enqueue hpopulate
  · cases h

/-- What a step of a request in line can lead to. -/
inductive Waiting (client : Client) (pool : Pool) : Pool → Prop
  | giveUp {waiter} (hwaiter : waiter ∈ pool.waiting) (hclient : waiter.client = client)
      (hcancelled : waiter.cancelled = true) :
      Waiting client pool
        ({ pool with waiting := pool.waiting.erase waiter }.finish client (.failed .cancelled))
  | sendAway {waiter} (hwaiter : waiter ∈ pool.waiting) (hclient : waiter.client = client)
      (hwanted : waiter.cancelled = false) (hover : pool.cancelled = true) :
      Waiting client pool
        ({ pool with waiting := pool.waiting.erase waiter }.finish client (.failed .closed))
  | serve {waiter source slot rest} (hwaiter : waiter ∈ pool.waiting)
      (hclient : waiter.client = client) (hqueue : pool.queue source = slot :: rest)
      (hwanted : waiter.cancelled = false) (hgoing : pool.cancelled = false)
      (hfirst : pool.waiting.head? = some waiter) (hreused : source = .new → pool.reusedQueue = []) :
      Waiting client pool
        (({ pool with waiting := pool.waiting.erase waiter }.setQueue rest source).follow client
          (.received slot source waiter.policy))

/-- Every step of a request in line is one of these. A cancelled request leaves before the end of the pool's
    lifetime is looked at, and a slot is taken from the new queue only when none waits for reuse. -/
theorem stepWaiter_cases {client : Client} {pool pool' : Pool}
    (h : pool.stepWaiter client = some pool') : Waiting client pool pool' := by
  unfold stepWaiter at h
  split at h
  · cases h
  · rename_i waiter hfind
    have hwaiter := List.mem_of_find?_eq_some hfind
    have hclient : waiter.client = client := by simpa using List.find?_some hfind
    have hserved {source : Source}
        (hserve : { pool with waiting := pool.waiting.erase waiter }.serve waiter source =
          some pool') : ∃ slot rest, pool.queue source = slot :: rest ∧
        pool' = ({ pool with waiting := pool.waiting.erase waiter }.setQueue rest source).follow
          waiter.client (.received slot source waiter.policy) := by
      unfold serve at hserve
      split at hserve
      · cases hserve
      · rename_i slot rest hqueue
        refine ⟨slot, rest, hqueue ▸ ?_, by simpa using hserve.symm⟩
        cases source <;> rfl
    dsimp only at h
    split at h
    · rename_i hcancelled
      obtain rfl := by simpa using h
      exact .giveUp hwaiter hclient hcancelled
    · rename_i hcancelled
      have hwanted : waiter.cancelled = false := by simpa using hcancelled
      split at h
      · rename_i hover
        obtain rfl := by simpa using h
        exact .sendAway hwaiter hclient hwanted hover
      · rename_i hgoing
        split at h
        · rename_i hfirst
          cases hreused : serve waiter .reused { pool with waiting := pool.waiting.erase waiter } with
          | some served =>
            obtain rfl : served = pool' := by simpa [hreused] using h
            obtain ⟨slot, rest, hqueue, rfl⟩ := hserved hreused
            exact hclient ▸ .serve hwaiter rfl hqueue hwanted (by simpa using hgoing) hfirst (by simp)
          | none =>
            have hempty : pool.reusedQueue = [] := by
              unfold serve at hreused
              split at hreused
              · assumption
              · cases hreused
            have hnew : serve waiter .new { pool with waiting := pool.waiting.erase waiter } = some pool' := by
              simpa [hreused] using h
            obtain ⟨slot, rest, hqueue, rfl⟩ := hserved hnew
            exact hclient ▸ .serve hwaiter rfl hqueue hwanted (by simpa using hgoing) hfirst fun _ => hempty
        · cases h

/-- What a request for a slot can lead to. It takes a reused slot at once, or there is none for it: then it is
    sent away at once if it is cancelled already or the pool's lifetime is over, and waits its turn if not. -/
inductive Asking (client : Client) (policy : Internet) (cancelled : Bool) (pool : Pool) : Pool → Prop
  | take {slot rest} (hqueue : pool.reusedQueue = slot :: rest) (hline : pool.waiting = [])
      (hfree : pool.tasks.any (·.2.holdsReused) = false) :
      Asking client policy cancelled pool
        ({ pool with reusedQueue := rest }.follow client (.received slot .reused policy))
  | decline (hnone : pool.reusedLocked = true ∨ pool.reusedQueue = [])
      (hover : cancelled = false → pool.cancelled = true) :
      Asking client policy cancelled pool
        (pool.finish client (.failed (if cancelled then .cancelled else .closed)))
  | join (hnone : pool.reusedLocked = true ∨ pool.reusedQueue = []) (hwanted : cancelled = false)
      (hgoing : pool.cancelled = false) :
      Asking client policy cancelled pool { pool with waiting := pool.waiting ++ [⟨client, policy, false⟩] }

/-- Every request for a slot comes to one of these. None is cancelled or refused before a reused slot was looked
    for. -/
theorem get_cases (client : Client) (policy : Internet) (cancelled : Bool) (pool : Pool) :
    Asking client policy cancelled pool (pool.get client policy cancelled) := by
  unfold Pool.get
  split
  · rename_i slot rest hlocked hqueue
    simp only [reusedLocked, Bool.or_eq_false_iff, Bool.not_eq_false', List.isEmpty_iff] at hlocked
    exact .take hqueue hlocked.1 hlocked.2
  · rename_i hnone
    have hnone' : pool.reusedLocked = true ∨ pool.reusedQueue = [] := by
      cases hlocked : pool.reusedLocked with
      | true => exact .inl rfl
      | false =>
        cases hqueue : pool.reusedQueue with
        | nil => exact .inr rfl
        | cons slot rest => exact (hnone slot rest hlocked hqueue).elim
    cases cancelled with
    | true => exact .decline hnone' (by simp)
    | false =>
      rw [if_neg (by simp)]
      split
      · rename_i hover
        exact .decline hnone' fun _ => hover
      · rename_i hgoing
        exact .join hnone' rfl (by simpa using hgoing)

/-- What a request to close the pool can lead to. Only the first one begins the closing. -/
inductive AskingToClose (client : Client) (pool : Pool) : Pool → Prop
  | first (hunasked : pool.closeAsked = false) :
      AskingToClose client pool ({ pool with closeAsked := true }.follow client .closing)
  | again (hasked : pool.closeAsked = true) : AskingToClose client pool (pool.finish client .done)

/-- Every request to close the pool comes to one of these. -/
theorem close_cases (client : Client) (pool : Pool) : AskingToClose client pool (pool.close client) := by
  unfold Pool.close
  split
  · rename_i hasked
    exact .again hasked
  · rename_i hunasked
    exact .first (by simpa using hunasked)

/-- What a step of the pool can lead to, by who takes it. -/
inductive Stepping (machine : Machine σ) (pool : Pool) (state : σ) : Move → Pool → σ → Prop
  | task {client stage pool' state'}
      (hfind : pool.tasks.find? (·.1 = client) = some (client, stage))
      (hadvance : Advance machine client { pool with tasks := pool.tasks.eraseP (·.1 = client) }
        state stage pool' state') :
      Stepping machine pool state (.task client) pool' state'
  | populate {choice pool'} (hstocking : Stocking choice pool pool') :
      Stepping machine pool state (.populate choice) pool' state
  | waiter {client pool'} (hwaiting : Waiting client pool pool') :
      Stepping machine pool state (.waiter client) pool' state

/-- Every step of the pool is one of these, and each tells who takes it: a task, the filling task or a request
    in line. -/
theorem step_cases {machine : Machine σ} {move : Move} {pool pool' : Pool} {state state' : σ}
    (h : pool.step machine move state = some (pool', state')) :
    Stepping machine pool state move pool' state' := by
  cases move with
  | task client =>
    simp only [step] at h
    split at h
    · cases h
    · rename_i found stage hfind
      obtain rfl : found = client := by simpa using List.find?_some hfind
      exact .task hfind (advance_cases h)
  | populate choice =>
    obtain ⟨stocked, hstep, heq⟩ := Option.map_eq_some_iff.mp h
    obtain ⟨rfl, rfl⟩ : stocked = pool' ∧ state = state' := by simpa using heq
    exact .populate (stepPopulate_cases hstep)
  | waiter client =>
    obtain ⟨served, hstep, heq⟩ := Option.map_eq_some_iff.mp h
    obtain ⟨rfl, rfl⟩ : served = pool' ∧ state = state' := by simpa using heq
    exact .waiter (stepWaiter_cases hstep)

/-- The task that takes a step is taken from the list, wherever it stands. Order among tasks means nothing. -/
theorem tasks_perm {tasks : List (Client × Stage)} {client : Client} {stage : Stage}
    (hfind : tasks.find? (·.1 = client) = some (client, stage)) :
    tasks.Perm ((client, stage) :: tasks.eraseP (·.1 = client)) := by
  induction tasks with
  | nil => cases hfind
  | cons task tasks ih =>
    by_cases hfirst : task.1 = client
    · simp only [List.find?_cons, hfirst, decide_true, Option.some.injEq] at hfind
      subst hfind
      simp
    · simp only [List.find?_cons, hfirst, decide_false] at hfind
      simp only [List.eraseP_cons, hfirst, decide_false]
      exact ((ih hfind).cons task).trans (.swap ..)

end SlotPool.Pool
