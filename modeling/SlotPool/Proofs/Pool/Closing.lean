import SlotPool.Proofs.Pool.Drain
/-!
What a closing has done, turn by turn: which slots stood in the queues when these were shut, which slots were
given to the worker for removal and what failed then, and which identities were released.
-/

namespace SlotPool

variable {σ : Type}

namespace Pool

variable {machine : Machine σ} {client : Client} {pool pool' : Pool} {state state' : σ} {slot : Slot}

/-- What fails when a slot is given to the worker for removal. -/
def teardown (machine : Machine σ) (pool : Pool) (state : σ) (slot : Slot) : List PoolError :=
  match (pool.submit machine (Slot.remove pool.egress).run slot state).1 with
  | none => [workerGone]
  | some (result, _) => ((NetworkError.failure? result).map (.teardown slot.id.val)).toList

theorem length_teardown_le : (pool.teardown machine state slot).length ≤ 1 := by
  unfold teardown
  split
  · exact Nat.le_refl 1
  · rename_i result after hresult
    cases result <;> simp [NetworkError.failure?]

/-- A slot that is given to the worker for removal leaves its identity, with what has failed in its teardown.
    Whether the worker is alive makes no difference here: without one the failure is that of the worker. -/
theorem Advance.torn {purpose : Purpose}
    (hadvance : Advance machine client { pool with tasks := pool.tasks.eraseP (·.1 = client) } state
      (.removing slot purpose) pool' state') :
    pool'.tasks = (client, .removed slot.id (pool.teardown machine state slot) purpose) ::
      pool.tasks.eraseP (·.1 = client) := by
  cases hadvance with
  | remove hrun halive =>
    have halive' : pool.workerAlive = true := halive
    have hrun' : ((Slot.remove pool.egress).run.run slot).run machine state = _ := hrun
    simp only [tasks_follow, teardown, submit, halive', if_true, hrun']
  | removeStops hstops =>
    cases hstops with
    | gone hdead =>
      have hdead' : pool.workerAlive = false := hdead
      simp [tasks_follow, teardown, submit, hdead']
    | dies halive hrun =>
      have halive' : pool.workerAlive = true := halive
      have hrun' : ((Slot.remove pool.egress).run.run slot).run machine state = _ := hrun
      simp only [tasks_follow, teardown, submit, halive', if_true, hrun']

/-- The removal of a slot leaves everything else as it is. -/
theorem Advance.removing {purpose : Purpose}
    (hadvance : Advance machine client pool state (.removing slot purpose) pool' state') :
    pool'.allocator = pool.allocator ∧ pool'.reusedOpen = pool.reusedOpen ∧
      ∀ source, pool'.queue source = pool.queue source := by
  cases hadvance with
  | remove hrun halive => exact ⟨rfl, rfl, fun source => by cases source <;> rfl⟩
  | removeStops hstops => cases hstops <;> exact ⟨rfl, rfl, fun source => by cases source <;> rfl⟩

/-- When a slot of a queue is gone, its identity is released and what has failed is noted. The release cannot be
    refused, since the identity is held. -/
theorem Advance.settled {id : SlotId} {own earlier : List PoolError} {source : Source}
    (hadvance : Advance machine client pool state (.removed id own (.drain source earlier)) pool' state')
    (hheld : id.val ∈ pool.allocator.held) (hown : own.length ≤ 1) :
    pool' = { pool with
      allocator := { pool.allocator with
        free := id.val :: pool.allocator.free
        held := pool.allocator.held.erase id.val
        available := pool.allocator.available + 1 } }.follow client (.draining source (earlier ++ own)) := by
  cases hadvance
  rw [(release_of_held hheld).1, release_snd, Allocator.release_of_mem hheld, Option.map_none, Option.toList_none,
    List.append_nil]
  match own, hown with
  | [], _ => simp [afterRemoval, PoolError.ofMany, Except.toOption]
  | [failure], _ => simp [afterRemoval, PoolError.ofMany, Except.toOption]

/-- There is no other closing beside one. -/
theorem Shutting.alone {stage : Stage} (h : pool.Shutting)
    (hfind : pool.tasks.find? (·.1 = client) = some (client, stage)) (hphase : stage.phase?.isSome) :
    (pool.tasks.eraseP (·.1 = client)).filterMap (·.2.phase?) = [] := by
  have hlength := ((tasks_perm hfind).filterMap (·.2.phase?)).length_eq
  obtain ⟨phase, hsome⟩ := Option.isSome_iff_exists.mp hphase
  rw [phases_cons, hsome] at hlength
  have honce := h.once
  refine List.eq_nil_of_length_eq_zero ?_
  simp only [List.length_append, Option.toList_some, List.length_singleton] at hlength
  omega

/-- Whoever closes the pool has been asked to. -/
theorem Shutting.asked {stage : Stage} (h : pool.Shutting) (hmem : (client, stage) ∈ pool.tasks)
    (hphase : stage.phase?.isSome) : pool.closeAsked = true := by
  by_contra hunasked
  obtain ⟨phase, hsome⟩ := Option.isSome_iff_exists.mp hphase
  have hsole : phase ∈ pool.tasks.filterMap (·.2.phase?) := List.mem_filterMap.mpr ⟨_, hmem, hsome⟩
  rw [h.unasked (by simpa using hunasked)] at hsole
  cases hsole

end Pool

namespace Service

/-- The stage at which a closing is when a turn is its own. -/
def Turn.closing? (turn : Turn σ) : Option Stage :=
  match turn.event with
  | .move (.task client) =>
    ((turn.before.pool.tasks.find? (·.1 = client)).map (·.2)).filter (·.phase?.isSome)
  | _ => none

/-- The slots that stand in a queue when it is shut: in the new queue when the allocator is closed, and in the
    reused queue when slots can no longer be queued for reuse. -/
def Turn.shelvedIn (turn : Turn σ) : Source → List Slot
  | .new => if turn.after.pool.allocator.closed = turn.before.pool.allocator.closed then []
      else turn.after.pool.newQueue
  | .reused => if turn.after.pool.reusedOpen = turn.before.pool.reusedOpen then []
      else turn.after.pool.reusedQueue

def Turn.shelved (turn : Turn σ) : List Slot := turn.shelvedIn .new ++ turn.shelvedIn .reused

/-- The slot that a closing gives to the worker for removal, with what fails then. -/
def Turn.torn (machine : Machine σ) (turn : Turn σ) : List (Slot × List PoolError) :=
  match turn.closing? with
  | some (.removing slot _) => [(slot, turn.before.pool.teardown machine turn.before.machine slot)]
  | _ => []

/-- The identities that a closing releases. -/
def Turn.freed (turn : Turn σ) : List Nat :=
  if turn.closing?.isSome then
    turn.before.pool.allocator.held.filter (· ∉ turn.after.pool.allocator.held)
  else []

section

variable {turn : Turn σ} {machine : Machine σ} {stage : Stage}

theorem Turn.closing?_eq {client : Client} (hevent : turn.event = .move (.task client))
    (hfind : turn.before.pool.tasks.find? (·.1 = client) = some (client, stage)) (hstage : stage.phase?.isSome) :
    turn.closing? = some stage := by
  simp [closing?, hevent, hfind, hstage]

theorem Turn.shelved_same (hclosed : turn.after.pool.allocator.closed = turn.before.pool.allocator.closed)
    (hreusedOpen : turn.after.pool.reusedOpen = turn.before.pool.reusedOpen) : turn.shelved = [] := by
  simp [shelved, shelvedIn, hclosed, hreusedOpen]

theorem Turn.freed_same (hheld : turn.after.pool.allocator.held = turn.before.pool.allocator.held) :
    turn.freed = [] := by
  simp [freed, hheld]

/-- What is no longer held when one identity is released. -/
theorem filter_released {held : List Nat} {id : Nat} (honce : held.Nodup) (hmem : id ∈ held) :
    held.filter (· ∉ held.erase id) = [id] := by
  have hfilter : held.filter (· ∉ held.erase id) = held.filter (· == id) := by
    refine List.filter_congr fun identity hin => ?_
    simp only [honce.mem_erase_iff, hin, and_true, ne_eq, not_not]
    by_cases heq : identity = id <;> simp [heq]
  rw [hfilter, List.filter_beq, List.count_eq_one_of_mem honce hmem]
  rfl

/-- A closing that releases an identity frees just that one. -/
theorem Turn.freed_release {id : Nat} (hclosing : turn.closing?.isSome)
    (hheld : turn.after.pool.allocator.held = turn.before.pool.allocator.held.erase id)
    (honce : turn.before.pool.allocator.held.Nodup) (hmem : id ∈ turn.before.pool.allocator.held) :
    turn.freed = [id] := by
  rw [freed, if_pos hclosing, hheld]
  exact filter_released honce hmem

end

/-- A closing has not yet come to the queues. -/
structure Untouched (machine : Machine σ) (trace : List (Turn σ)) (pool : Pool) : Prop where
  closed : pool.allocator.closed = false
  reusedOpen : pool.reusedOpen = true
  shelved : trace.flatMap Turn.shelved = []
  torn : trace.flatMap (Turn.torn machine) = []
  freed : trace.flatMap Turn.freed = []

/-- How far a closing has come with a queue. What was in the queues has been given to the worker, or the
    closing has it in hand, or it is still there. -/
structure Drained (machine : Machine σ) (trace : List (Turn σ)) (pool : Pool) (source : Source)
    (stage : Stage) : Prop where
  reusedOpen : source = .new → pool.reusedOpen = true
  shelved : trace.flatMap Turn.shelved =
    (trace.flatMap (Turn.torn machine)).map Prod.fst ++ (stage.slots ++ pool.queue source)
  freed : (trace.flatMap (Turn.torn machine)).map (·.1.id.val) =
    trace.flatMap Turn.freed ++ stage.bare.map Fin.val
  failures : (trace.flatMap (Turn.torn machine)).flatMap Prod.snd = stage.failures
  own : stage.own.length ≤ 1

/-- How far the closing of a pool has come. -/
structure Progress (machine : Machine σ) (trace : List (Turn σ)) (service : Service σ) : Prop where
  unasked : service.pool.closeAsked = false → Untouched machine trace service.pool
  begun : ∀ phase ∈ service.pool.phases, (∀ source, phase ≠ .draining source) →
    Untouched machine trace service.pool
  draining : ∀ task ∈ service.pool.tasks, ∀ source, task.2.phase? = some (.draining source) →
    Drained machine trace service.pool source task.2
  /-- once it is over, every slot of the queues was removed and its identity released -/
  completed : service.pool.closeAsked = true → service.pool.phases = [] →
    trace.flatMap Turn.shelved = (trace.flatMap (Turn.torn machine)).map Prod.fst ∧
      trace.flatMap Turn.freed = (trace.flatMap (Turn.torn machine)).map (·.1.id.val)

section

variable {machine : Machine σ} {trace : List (Turn σ)} {service after : Service σ} {event : Event}
  {outcomes : List (Client × Outcome)} {size : Nat} {turn : Turn σ}

/-- A turn adds nothing to what a closing has done. -/
structure Turn.Idle (machine : Machine σ) (turn : Turn σ) : Prop where
  shelved : turn.shelved = []
  torn : turn.torn machine = []
  freed : turn.freed = []

theorem Turn.idle_of_beside (hclosing : turn.closing? = none) (hbeside : turn.before.pool.Beside turn.after.pool) :
    turn.Idle machine :=
  ⟨shelved_same hbeside.closed hbeside.reusedOpen, by rw [torn, hclosing], by simp [freed, hclosing]⟩

/-- A turn in which the closing does nothing leaves it where it is, as long as neither the allocator nor the
    reused queue is shut by it. -/
theorem Untouched.idle {pool pool' : Pool} (h : Untouched machine trace pool) (hidle : turn.Idle machine)
    (hclosed : pool'.allocator.closed = pool.allocator.closed) (hreusedOpen : pool'.reusedOpen = pool.reusedOpen) :
    Untouched machine (trace ++ [turn]) pool' := by
  refine ⟨hclosed.trans h.closed, hreusedOpen.trans h.reusedOpen, ?_, ?_, ?_⟩
  · simp [List.flatMap_append, h.shelved, hidle.shelved]
  · simp [List.flatMap_append, h.torn, hidle.torn]
  · simp [List.flatMap_append, h.freed, hidle.freed]

theorem opened_progress (config : Config) (egress : String) (cancelled : Bool) (state : σ) :
    Progress machine [] (opened (Pool.opened config egress cancelled) state) := by
  refine ⟨fun _ => ⟨rfl, rfl, rfl, rfl, rfl⟩, fun phase hphase => ?_, fun task hmem => ?_, fun hasked => ?_⟩
  · cases hphase
  · cases hmem
  · cases hasked

/-- A turn beside the closing leaves it where it is. Such a turn takes no slot off a queue that is being emptied
    and puts none into it. -/
theorem Progress.beside (h : Progress machine trace service) (hclosing : turn.closing? = none)
    (hbefore : turn.before = service) (hbeside : service.pool.Beside turn.after.pool) :
    Progress machine (trace ++ [turn]) turn.after := by
  subst hbefore
  have hidle : turn.Idle machine := Turn.idle_of_beside hclosing hbeside
  have hshelved : (trace ++ [turn]).flatMap Turn.shelved = trace.flatMap Turn.shelved := by
    simp [List.flatMap_append, hidle.shelved]
  have htorn : (trace ++ [turn]).flatMap (Turn.torn machine) = trace.flatMap (Turn.torn machine) := by
    simp [List.flatMap_append, hidle.torn]
  have hfreed : (trace ++ [turn]).flatMap Turn.freed = trace.flatMap Turn.freed := by
    simp [List.flatMap_append, hidle.freed]
  refine ⟨fun hunasked => ?_, fun phase hphase hearly => ?_, fun task hmem source hdraining => ?_,
    fun hasked hnone => ?_⟩
  · exact (h.unasked (hbeside.closeAsked ▸ hunasked)).idle hidle hbeside.closed hbeside.reusedOpen
  · exact (h.begun phase (hbeside.phases.mem_iff.mp hphase) hearly).idle hidle hbeside.closed hbeside.reusedOpen
  · have hbefore := hbeside.tasks task hmem (by rw [hdraining]; simp)
    have hdrained := h.draining task hbefore source hdraining
    have hqueue := hbeside.queue source (List.mem_filterMap.mpr ⟨task, hbefore, hdraining⟩)
    refine ⟨fun hnew => hbeside.reusedOpen.trans (hdrained.reusedOpen hnew), ?_, ?_, ?_, hdrained.own⟩
    · rw [hshelved, htorn, hqueue, hdrained.shelved]
    · rw [htorn, hfreed, hdrained.freed]
    · rw [htorn, hdrained.failures]
  · rw [hshelved, htorn, hfreed]
    exact h.completed (hbeside.closeAsked ▸ hasked) (List.perm_nil.mp (hnone ▸ hbeside.phases.symm))

/-- The first request to close a pool begins the closing. Nothing has been torn down for it before. -/
theorem Progress.ask {client : Client} (h : Progress machine trace service) (hshutting : service.pool.Shutting)
    (hunasked : service.pool.closeAsked = false) (hbefore : turn.before = service)
    (hevent : turn.event = .close client)
    (hpool : turn.after.pool = { service.pool with closeAsked := true, finished := [] }.follow client .closing) :
    Progress machine (trace ++ [turn]) turn.after := by
  subst hbefore
  have hnone : turn.before.pool.phases = [] := hshutting.unasked hunasked
  have hphases : turn.after.pool.phases = [.asked] := by
    rw [Pool.phases, hpool, Pool.tasks_follow, Pool.phases_cons]
    exact congrArg (Pool.Phase.asked :: ·) hnone
  have hidle : turn.Idle machine :=
    have hclosing : turn.closing? = none := by simp [Turn.closing?, hevent]
    ⟨Turn.shelved_same (by rw [hpool]; rfl) (by rw [hpool]; rfl), by rw [Turn.torn, hclosing],
      by simp [Turn.freed, hclosing]⟩
  have huntouched : Untouched machine (trace ++ [turn]) turn.after.pool :=
    (h.unasked hunasked).idle hidle (by rw [hpool]; rfl) (by rw [hpool]; rfl)
  refine ⟨fun _ => huntouched, fun _ _ _ => huntouched, fun task hmem source hdraining => ?_, fun _ hover => ?_⟩
  · have hphase : Pool.Phase.draining source ∈ turn.after.pool.phases :=
      List.mem_filterMap.mpr ⟨task, hmem, hdraining⟩
    simp [hphases] at hphase
  · rw [hphases] at hover
    cases hover

/-- What is left to show of the closing's own turn, when it goes on to another stage: the account of the queue
    that is then being emptied. -/
theorem Progress.of_next {client : Client} (next : Stage) {rest : List (Client × Stage)}
    (htasks : after.pool.tasks = (client, next) :: rest) (hrest : rest.filterMap (·.2.phase?) = [])
    (hasked : after.pool.closeAsked = true) (hphase : next.phase?.isSome)
    (hbegun : (∀ source, next.phase? ≠ some (.draining source)) → Untouched machine trace after.pool)
    (hdraining : ∀ source, next.phase? = some (.draining source) → Drained machine trace after.pool source next) :
    Progress machine trace after := by
  have hphases : after.pool.phases = next.phase?.toList := by
    rw [Pool.phases, htasks, Pool.phases_cons, hrest, List.append_nil]
  refine ⟨fun hunasked => by simp [hasked] at hunasked, fun phase hmem hearly => hbegun fun source heq => ?_,
    fun task hmem source hdrains => ?_, fun _ hover => ?_⟩
  · rw [hphases, heq] at hmem
    exact hearly source (by simpa using hmem)
  · rcases List.mem_cons.mp (htasks ▸ hmem) with rfl | hold
    · exact hdraining source hdrains
    · have hphase : Pool.Phase.draining source ∈ rest.filterMap (·.2.phase?) :=
        List.mem_filterMap.mpr ⟨task, hold, hdrains⟩
      simp [hrest] at hphase
  · rw [hphases] at hover
    cases hnone : next.phase? <;> simp [hnone] at hphase hover

/-- What is left to show when the closing goes on to drain a queue. -/
theorem Progress.of_drained {client : Client} (next : Stage) {source : Source} {rest : List (Client × Stage)}
    (htasks : after.pool.tasks = (client, next) :: rest) (hrest : rest.filterMap (·.2.phase?) = [])
    (hasked : after.pool.closeAsked = true) (hphase : next.phase? = some (.draining source))
    (hdrained : Drained machine trace after.pool source next) : Progress machine trace after := by
  refine .of_next next htasks hrest hasked (by rw [hphase]; rfl) (fun hearly => (hearly source hphase).elim)
    fun other hdrains => ?_
  obtain rfl : source = other := by simpa [hphase] using hdrains
  exact hdrained

/-- What is left to show when the closing is over: all that stood in the queues was torn down, and the outcome
    tells of every failure in order. -/
theorem Progress.of_completed {rest : List (Client × Stage)} (htasks : after.pool.tasks = rest)
    (hrest : rest.filterMap (·.2.phase?) = []) (hasked : after.pool.closeAsked = true)
    (hshelved : trace.flatMap Turn.shelved = (trace.flatMap (Turn.torn machine)).map Prod.fst)
    (hfreed : trace.flatMap Turn.freed = (trace.flatMap (Turn.torn machine)).map (·.1.id.val)) :
    Progress machine trace after := by
  have hphases : after.pool.phases = [] := by rw [Pool.phases, htasks, hrest]
  refine ⟨fun hunasked => by simp [hasked] at hunasked, fun phase hphase => ?_, fun task hmem source hdrains => ?_,
    fun _ _ => ⟨hshelved, hfreed⟩⟩
  · rw [hphases] at hphase
    cases hphase
  · have hphase : Pool.Phase.draining source ∈ after.pool.phases := List.mem_filterMap.mpr ⟨task, hmem, hdrains⟩
    rw [hphases] at hphase
    cases hphase

/-- A turn that removes nothing keeps the account of what was in a queue. A slot may have gone from the queue to
    the stage, but the two together are the same. -/
theorem Drained.next {pool pool' : Pool} {source : Source} {stage next : Stage}
    (h : Drained machine trace pool source stage) (hidle : turn.Idle machine)
    (hreusedOpen : pool'.reusedOpen = pool.reusedOpen)
    (hslots : next.slots ++ pool'.queue source = stage.slots ++ pool.queue source) (hbare : next.bare = stage.bare)
    (hfailures : next.failures = stage.failures) (hown : next.own = []) :
    Drained machine (trace ++ [turn]) pool' source next where
  reusedOpen hnew := hreusedOpen.trans (h.reusedOpen hnew)
  shelved := by
    rw [hslots]
    simpa [List.flatMap_append, hidle.shelved, hidle.torn] using h.shelved
  freed := by
    rw [hbare]
    simpa [List.flatMap_append, hidle.torn, hidle.freed] using h.freed
  failures := by
    rw [hfailures]
    simpa [List.flatMap_append, hidle.torn] using h.failures
  own := by simp [hown]

end

section

variable {machine : Machine σ} {trace : List (Turn σ)} {size : Nat} {turn : Turn σ} {client : Client}
  {stage : Stage} {pool : Pool} {state : σ}

/-- A turn of the closing that removes nothing and releases nothing. -/
theorem Turn.idle_of_closing (hclosing : turn.closing? = some stage)
    (hallocator : turn.after.pool.allocator = turn.before.pool.allocator)
    (hreusedOpen : turn.after.pool.reusedOpen = turn.before.pool.reusedOpen)
    (htorn : ∀ slot purpose, stage ≠ .removing slot purpose) : turn.Idle machine := by
  refine ⟨shelved_same (by rw [hallocator]) hreusedOpen, ?_, freed_same (by rw [hallocator])⟩
  rw [torn, hclosing]
  cases stage with
  | removing slot purpose => exact (htorn slot purpose rfl).elim
  | _ => rfl

section

variable {source : Source} {slot : Slot} {rest : List Slot} {earlier own : List PoolError} {id : SlotId}
  (hclosing : turn.closing? = some stage)
  (hadvance : Pool.Advance machine client
    { turn.before.pool with tasks := turn.before.pool.tasks.eraseP (·.1 = client) } turn.before.machine stage
    pool state)
  (hafter : turn.after.pool = { pool with finished := [] })
include hclosing hadvance hafter

/-- The allocator is closed, and what stands in the new queue from then on is to be removed. Nothing is put into
    the new queue any more, since the filling task has ended. -/
theorem Untouched.seal (h : Untouched machine trace turn.before.pool) (hstage : stage = .sealing) :
    turn.after.pool.tasks = (client, .draining .new []) :: turn.before.pool.tasks.eraseP (·.1 = client) ∧
      Drained machine (trace ++ [turn]) turn.after.pool .new (.draining .new []) := by
  subst hstage
  cases hadvance
  have hshelved : turn.shelved = turn.after.pool.newQueue := by
    simp [Turn.shelved, Turn.shelvedIn, hafter, h.closed, Pool.follow, Allocator.close]
  have htorn : turn.torn machine = [] := by rw [Turn.torn, hclosing]
  have hfreed : turn.freed = [] := Turn.freed_same (by rw [hafter]; rfl)
  refine ⟨by rw [hafter]; rfl, fun _ => by rw [hafter]; exact h.reusedOpen, ?_, ?_, ?_, Nat.zero_le _⟩
  · simp [List.flatMap_append, h.shelved, h.torn, hshelved, htorn, Stage.slots, Pool.queue]
  · simp [List.flatMap_append, h.freed, h.torn, hfreed, htorn, Stage.bare]
  · simp [List.flatMap_append, h.torn, htorn, Stage.failures]

/-- The new queue is empty, and what stands in the reused queue when that is shut is to be removed. The account
    of the first queue is closed with this, and that of the second one begins. -/
theorem Drained.switch (h : Drained machine trace turn.before.pool .new stage)
    (hstage : stage = .draining .new earlier) (hempty : turn.before.pool.newQueue = []) :
    turn.after.pool.tasks = (client, .draining .reused earlier) :: turn.before.pool.tasks.eraseP (·.1 = client) ∧
      Drained machine (trace ++ [turn]) turn.after.pool .reused (.draining .reused earlier) := by
  subst hstage
  cases hadvance with
  | drain hqueue =>
    have hqueue' : turn.before.pool.newQueue = _ := hqueue
    simp [hempty] at hqueue'
  | turn hqueue =>
    have hshelved : turn.shelved = turn.after.pool.reusedQueue := by
      simp [Turn.shelved, Turn.shelvedIn, hafter, h.reusedOpen rfl, Pool.follow]
    have htorn : turn.torn machine = [] := by rw [Turn.torn, hclosing]
    have hfreed : turn.freed = [] := Turn.freed_same (by rw [hafter]; rfl)
    refine ⟨by rw [hafter]; rfl, by simp, ?_, ?_, ?_, Nat.zero_le _⟩
    · simp [List.flatMap_append, h.shelved, hshelved, htorn, Stage.slots, hempty, Pool.queue]
    · simpa [List.flatMap_append, htorn, hfreed, Stage.bare] using h.freed
    · simpa [List.flatMap_append, htorn, Stage.failures] using h.failures

/-- A slot is taken out of the queue, and its gauge is still to be lowered. It is counted with the stage now. -/
theorem Drained.take (h : Drained machine trace turn.before.pool source stage)
    (hstage : stage = .draining source earlier) (hqueue : turn.before.pool.queue source = slot :: rest) :
    turn.after.pool.tasks = (client, .drained slot source earlier) :: turn.before.pool.tasks.eraseP (·.1 = client) ∧
      Drained machine (trace ++ [turn]) turn.after.pool source (.drained slot source earlier) := by
  subst hstage
  cases hadvance with
  | @drain _ _ taken left hfirst =>
    have hsame : turn.before.pool.queue source = taken :: left := by cases source <;> exact hfirst
    obtain ⟨rfl, rfl⟩ := List.cons.inj (hqueue.symm.trans hsame)
    have hidle : turn.Idle machine := Turn.idle_of_closing hclosing (by rw [hafter]; cases source <;> rfl)
      (by rw [hafter]; cases source <;> rfl) (by simp)
    refine ⟨by rw [hafter]; cases source <;> rfl,
      h.next hidle (by rw [hafter]; cases source <;> rfl) ?_ rfl rfl rfl⟩
    rw [hqueue, hafter]
    cases source <;> rfl
  | turn hempty =>
    have hnone : turn.before.pool.queue .new = [] := hempty
    simp [hqueue] at hnone
  | endClose hempty =>
    have hnone : turn.before.pool.queue .reused = [] := hempty
    simp [hqueue] at hnone

/-- The slot that was taken out is the next to be removed. -/
theorem Drained.give (h : Drained machine trace turn.before.pool source stage)
    (hstage : stage = .drained slot source earlier) :
    turn.after.pool.tasks = (client, .removing slot (.drain source earlier)) ::
        turn.before.pool.tasks.eraseP (·.1 = client) ∧
      Drained machine (trace ++ [turn]) turn.after.pool source (.removing slot (.drain source earlier)) := by
  subst hstage
  cases hadvance
  have hidle : turn.Idle machine :=
    Turn.idle_of_closing hclosing (by rw [hafter]; rfl) (by rw [hafter]; rfl) (by simp)
  refine ⟨by rw [hafter]; rfl, h.next hidle (by rw [hafter]; rfl) ?_ rfl rfl rfl⟩
  rw [hafter]
  cases source <;> rfl

/-- When the reused queue is empty too, the closing is over. What was torn down is all that stood in either
    queue, in this order, and what was released are its identities. -/
theorem Drained.finish (h : Drained machine trace turn.before.pool .reused stage)
    (hstage : stage = .draining .reused earlier) (hempty : turn.before.pool.reusedQueue = []) :
    turn.after.pool.tasks = turn.before.pool.tasks.eraseP (·.1 = client) ∧
      (trace ++ [turn]).flatMap Turn.shelved = ((trace ++ [turn]).flatMap (Turn.torn machine)).map Prod.fst ∧
      (trace ++ [turn]).flatMap Turn.freed = ((trace ++ [turn]).flatMap (Turn.torn machine)).map (·.1.id.val) := by
  subst hstage
  cases hadvance with
  | drain hqueue =>
    have hqueue' : turn.before.pool.reusedQueue = _ := hqueue
    simp [hempty] at hqueue'
  | endClose =>
    have hidle : turn.Idle machine :=
      Turn.idle_of_closing hclosing (by rw [hafter]; rfl) (by rw [hafter]; rfl) (by simp)
    refine ⟨by rw [hafter]; rfl, ?_, ?_⟩
    · simpa [List.flatMap_append, hidle.shelved, hidle.torn, Pool.queue, hempty, Stage.slots] using h.shelved
    · simpa [List.flatMap_append, hidle.freed, hidle.torn, Stage.bare] using h.freed.symm

/-- The slot in hand is given to the worker for removal. What comes of it is what the worker makes of it on this
    machine, and that is put on the account. -/
theorem Drained.remove (h : Drained machine trace turn.before.pool source stage)
    (hstage : stage = .removing slot (.drain source earlier)) :
    ∃ own, turn.after.pool.tasks =
        (client, .removed slot.id own (.drain source earlier)) :: turn.before.pool.tasks.eraseP (·.1 = client) ∧
      Drained machine (trace ++ [turn]) turn.after.pool source (.removed slot.id own (.drain source earlier)) := by
  subst hstage
  obtain ⟨hallocator, hreusedOpen, hqueue⟩ := hadvance.removing
  have hshelved : turn.shelved = [] :=
    Turn.shelved_same (by rw [hafter]; exact congrArg _ hallocator) (by rw [hafter]; exact hreusedOpen)
  have hfreed : turn.freed = [] := Turn.freed_same (by rw [hafter]; exact congrArg _ hallocator)
  have htorn : turn.torn machine =
      [(slot, turn.before.pool.teardown machine turn.before.machine slot)] := by rw [Turn.torn, hclosing]
  have hqueue' : turn.after.pool.queue source = turn.before.pool.queue source := by
    rw [hafter]
    cases source
    exacts [hqueue .new, hqueue .reused]
  refine ⟨turn.before.pool.teardown machine turn.before.machine slot, by rw [hafter]; exact hadvance.torn,
    fun hnew => by rw [hafter]; exact hreusedOpen.trans (h.reusedOpen hnew), ?_, ?_, ?_, Pool.length_teardown_le⟩
  · simp [List.flatMap_append, hshelved, htorn, h.shelved, Stage.slots, hqueue']
  · simpa [List.flatMap_append, hfreed, htorn, Stage.bare] using h.freed
  · simpa [List.flatMap_append, htorn, Stage.failures, Purpose.failures] using h.failures

/-- The identity of a slot that was removed is released, and its failure joins the earlier ones. -/
theorem Drained.settle (h : Drained machine trace turn.before.pool source stage)
    (hstage : stage = .removed id own (.drain source earlier))
    (hheld : id.val ∈ turn.before.pool.allocator.held) (honce : turn.before.pool.allocator.held.Nodup) :
    turn.after.pool.tasks = (client, .draining source (earlier ++ own)) ::
        turn.before.pool.tasks.eraseP (·.1 = client) ∧
      Drained machine (trace ++ [turn]) turn.after.pool source (.draining source (earlier ++ own)) := by
  subst hstage
  obtain rfl := hadvance.settled hheld h.own
  have hshelved : turn.shelved = [] := Turn.shelved_same (by rw [hafter]; rfl) (by rw [hafter]; rfl)
  have htorn : turn.torn machine = [] := by rw [Turn.torn, hclosing]
  have hfreed : turn.freed = [id.val] :=
    Turn.freed_release (by rw [hclosing]; rfl) (by rw [hafter]; rfl) honce hheld
  have hqueue : turn.after.pool.queue source = turn.before.pool.queue source := by
    rw [hafter]
    cases source <;> rfl
  refine ⟨by rw [hafter]; rfl, fun hnew => by rw [hafter]; exact h.reusedOpen hnew, ?_, ?_, ?_, Nat.zero_le _⟩
  · simpa [List.flatMap_append, hshelved, htorn, hqueue, Stage.slots] using h.shelved
  · simpa [List.flatMap_append, hfreed, htorn, Stage.bare] using h.freed
  · simpa [List.flatMap_append, htorn, Stage.failures, Purpose.failures] using h.failures

end

/-- The closing's own turn takes it one step further. There is one case for each stage of a closing, in the
    order in which they are passed, and each moves the account along. -/
theorem Progress.advance (h : Progress machine trace turn.before) (hshutting : turn.before.pool.Shutting)
    (hconserved : turn.before.Conserved size) (hstrays : turn.before.strays = [])
    (hevent : turn.event = .move (.task client))
    (hfind : turn.before.pool.tasks.find? (·.1 = client) = some (client, stage)) (hphase : stage.phase?.isSome)
    (hadvance : Pool.Advance machine client
      { turn.before.pool with tasks := turn.before.pool.tasks.eraseP (·.1 = client) } turn.before.machine stage
      pool state)
    (hafter : turn.after.pool = { pool with finished := [] }) :
    Progress machine (trace ++ [turn]) turn.after := by
  have hclosing := Turn.closing?_eq hevent hfind hphase
  have hmem : (client, stage) ∈ turn.before.pool.tasks := List.mem_of_find?_eq_some hfind
  have hin {phase : Pool.Phase} (hstage : stage.phase? = some phase) : phase ∈ turn.before.pool.phases :=
    List.mem_filterMap.mpr ⟨_, hmem, hstage⟩
  have hrest := hshutting.alone hfind hphase
  have hasked : turn.after.pool.closeAsked = true := by
    rw [hafter]
    exact hadvance.likewise.closeAsked.trans (hshutting.asked hmem hphase)
  cases stage with
  | closing =>
    cases hadvance
    have hidle : turn.Idle machine :=
      Turn.idle_of_closing hclosing (by rw [hafter]; rfl) (by rw [hafter]; rfl) (by simp)
    refine .of_next .awaitingPopulate (by rw [hafter]; rfl) hrest hasked rfl (fun _ => ?_)
      (fun source hdrains => by cases hdrains)
    exact (h.begun .asked (hin rfl) (by simp)).idle hidle (by rw [hafter]; rfl) (by rw [hafter]; rfl)
  | awaitingPopulate =>
    cases hadvance
    have hidle : turn.Idle machine :=
      Turn.idle_of_closing hclosing (by rw [hafter]; rfl) (by rw [hafter]; rfl) (by simp)
    refine .of_next .sealing (by rw [hafter]; rfl) hrest hasked rfl (fun _ => ?_)
      (fun source hdrains => by cases hdrains)
    exact (h.begun .waiting (hin rfl) (by simp)).idle hidle (by rw [hafter]; rfl) (by rw [hafter]; rfl)
  | sealing =>
    obtain ⟨htasks, hdrained⟩ := (h.begun .sealing (hin rfl) (by simp)).seal hclosing hadvance hafter rfl
    exact .of_drained _ htasks hrest hasked rfl hdrained
  | draining source failures =>
    have hdrained := h.draining _ hmem source rfl
    cases hqueue : turn.before.pool.queue source with
    | cons slot rest =>
      obtain ⟨htasks, htaken⟩ := hdrained.take hclosing hadvance hafter rfl hqueue
      exact .of_drained _ htasks hrest hasked rfl htaken
    | nil =>
      cases source with
      | new =>
        obtain ⟨htasks, hturned⟩ := hdrained.switch hclosing hadvance hafter rfl hqueue
        exact .of_drained _ htasks hrest hasked rfl hturned
      | reused =>
        obtain ⟨htasks, hshelved, hfreed⟩ := hdrained.finish hclosing hadvance hafter rfl hqueue
        exact .of_completed htasks hrest hasked hshelved hfreed
  | drained slot source failures =>
    obtain ⟨htasks, hgiven⟩ := (h.draining _ hmem source rfl).give hclosing hadvance hafter rfl
    exact .of_drained _ htasks hrest hasked rfl hgiven
  | removing slot purpose =>
    cases purpose with
    | putBack => cases hphase
    | drain source failures =>
      obtain ⟨own, htasks, hdrained⟩ := (h.draining _ hmem source rfl).remove hclosing hadvance hafter rfl
      exact .of_drained _ htasks hrest hasked rfl hdrained
  | removed id own purpose =>
    cases purpose with
    | putBack => cases hphase
    | drain source earlier =>
      have hheld : id.val ∈ turn.before.pool.allocator.held := hconserved.balanced.held.mem_iff.mpr
        (List.mem_map_of_mem (List.mem_append_right _ ((mem_ledger hstrays hmem).2 id (List.mem_singleton_self _))))
      have honce : turn.before.pool.allocator.held.Nodup :=
        (List.nodup_append.mp hconserved.balanced.complete.nodup).1
      obtain ⟨htasks, hdrained⟩ :=
        (h.draining _ hmem source rfl).settle hclosing hadvance hafter rfl hheld honce
      exact .of_drained _ htasks hrest hasked rfl hdrained
  | _ => cases hphase

/-- A closing's own turn is a step of its task. -/
theorem Turn.closing?_cases (h : turn.closing? = some stage) :
    ∃ client, turn.event = .move (.task client) ∧
      turn.before.pool.tasks.find? (·.1 = client) = some (client, stage) ∧ stage.phase?.isSome := by
  unfold closing? at h
  split at h
  · rename_i client hevent
    obtain ⟨hmap, hphase⟩ := Option.filter_eq_some_iff.mp h
    obtain ⟨⟨owner, found⟩, hfind, rfl⟩ := Option.map_eq_some_iff.mp hmap
    obtain rfl : owner = client := by simpa using List.find?_some hfind
    exact ⟨owner, hevent, hfind, hphase⟩
  · cases h

/-- Every turn keeps the account of the closing: one of its own takes it a step further, and any other is beside
    it. That the pool is asked twice to close changes nothing. -/
theorem Progress.step {service after : Service σ} {event : Event} {outcomes : List (Client × Outcome)}
    (h : Progress machine trace service) (hshutting : service.pool.Shutting) (hconserved : service.Conserved size)
    (hstrays : service.strays = []) (hstep : service.step machine event = some (outcomes, after)) :
    Progress machine (trace ++ [⟨service, event, outcomes, after⟩]) after := by
  obtain ⟨pool, hturned, hafter, -⟩ := step_turned hstep
  generalize hturn : (⟨service, event, outcomes, after⟩ : Turn σ) = turn
  obtain ⟨rfl, rfl, rfl⟩ : service = turn.before ∧ event = turn.event ∧ after = turn.after := by simp [← hturn]
  cases hclosing : turn.closing? with
  | some stage =>
    obtain ⟨client, hevent, hfind, hphase⟩ := Turn.closing?_cases hclosing
    rw [hevent] at hturned
    cases hturned with
    | move hstepping =>
      cases hstepping with
      | task hfound hadvance =>
        obtain rfl : _ = stage := (Prod.mk.inj (Option.some.inj (hfound.symm.trans hfind))).2
        exact h.advance hshutting hconserved hstrays hevent hfind hphase hadvance hafter
  | none =>
    have hother (client : Client) (stage : Stage) (hevent : turn.event = .move (.task client))
        (hfind : turn.before.pool.tasks.find? (·.1 = client) = some (client, stage)) : stage.phase? = none := by
      by_contra hphase
      rw [Turn.closing?_eq hevent hfind (Option.isSome_iff_ne_none.mpr hphase)] at hclosing
      cases hclosing
    by_cases hfirst : (∃ client, turn.event = .close client) ∧ turn.before.pool.closeAsked = false
    · obtain ⟨⟨client, hevent⟩, hunasked⟩ := hfirst
      rw [hevent] at hturned
      generalize hstate : turn.after.machine = state at hturned
      cases hturned with
      | close hasking =>
        cases hasking with
        | first => exact h.ask hshutting hunasked rfl hevent hafter
        | again hasked => simp [hunasked] at hasked
    · have hbeside := hturned.beside hshutting hother fun client hevent => by
        by_contra hunasked
        exact hfirst ⟨⟨client, hevent⟩, by simpa using hunasked⟩
      refine h.beside hclosing rfl ?_
      rw [hafter]
      exact ⟨hbeside.closed, hbeside.reusedOpen, fun source hphase => (hbeside.queue source hphase ▸ by
        cases source <;> rfl), hbeside.tasks, hbeside.phases, hbeside.closeAsked⟩

end

/-- The reused queue is not shut before the allocator is closed. So whoever finds the queue shut finds
    everything shut. -/
theorem Progress.closed_of_shut {machine : Machine σ} {trace : List (Turn σ)} {service : Service σ}
    (h : Progress machine trace service) (hshutting : service.pool.Shutting)
    (hshut : service.pool.reusedOpen = false) : service.pool.allocator.closed = true := by
  by_cases hasked : service.pool.closeAsked = true
  · cases hphases : service.pool.phases with
    | nil => exact (hshutting.completed hasked hphases).1.closed .reused rfl
    | cons phase rest =>
      have hphase : phase ∈ service.pool.phases := hphases ▸ List.mem_cons_self ..
      by_cases hearly : ∀ source, phase ≠ .draining source
      · simp [(h.begun phase hphase hearly).reusedOpen] at hshut
      · obtain ⟨source, rfl⟩ := not_forall_not.mp hearly
        exact (hshutting.brought hphase).closed source rfl
  · simp [(h.unasked (by simpa using hasked)).reusedOpen] at hshut

/-- If the reused queue is not shut before the allocator is closed, what stood in the new queue is removed
    first. -/
theorem Traced.shelved {machine : Machine σ} {allowed : Service σ → Event → Prop} {start service : Service σ}
    {trace : List (Turn σ)} (htraced : Traced machine allowed start trace service)
    (hclosed : ∀ turn ∈ trace, turn.before.pool.reusedOpen = false → turn.before.pool.allocator.closed = true) :
    trace.flatMap Turn.shelved = trace.flatMap (·.shelvedIn .new) ++ trace.flatMap (·.shelvedIn .reused) ∧
      (service.pool.reusedOpen = true → trace.flatMap (·.shelvedIn .reused) = []) := by
  induction htraced with
  | start => exact ⟨rfl, fun _ => rfl⟩
  | @step trace service after event outcomes htraced hallowed hstep ih =>
    obtain ⟨hshelved, hopen⟩ := ih fun turn hmem => hclosed turn (List.mem_append_left _ hmem)
    have hlater := step_later hstep
    simp only [List.flatMap_append, List.flatMap_singleton, hshelved]
    by_cases hshut : service.pool.reusedOpen = true
    · refine ⟨by simp [hopen hshut, Turn.shelved], fun hstill => ?_⟩
      rw [hopen hshut, List.nil_append, Turn.shelvedIn, if_pos (hstill.trans hshut.symm)]
    · have hshut' : service.pool.reusedOpen = false := by simpa using hshut
      have hbefore : service.pool.allocator.closed = true :=
        hclosed ⟨service, event, outcomes, after⟩ (by simp) hshut'
      have hnone : (⟨service, event, outcomes, after⟩ : Turn σ).shelvedIn .new = [] := by
        simp [Turn.shelvedIn, hbefore, hlater.closed hbefore]
      refine ⟨by simp [Turn.shelved, hnone], fun hstill => ?_⟩
      simp [hlater.reusedOpen hshut'] at hstill

/-- In every run the closing, if there is one, accounts for what it has done. -/
theorem Traced.progress {machine : Machine σ} {start service : Service σ} {trace : List (Turn σ)} {size : Nat}
    (hconserved : start.Conserved size) (hstrays : start.strays = []) (hshutting : start.pool.Shutting)
    (hstart : Progress machine [] start) (htraced : Traced machine OwnSlots start trace service) :
    Progress machine trace service := by
  induction htraced with
  | start => exact hstart
  | step htraced hown hstep ih =>
    have hreaches := htraced.reaches
    exact ih.step (hreaches.shutting hconserved hshutting) ((hreaches.sparesStrays hstrays).conserved hconserved)
      (hreaches.noStrays hstrays) hstep

end Service
end SlotPool
