import SlotPool.Proofs.Pool.Line
/-!
What comes about in a pool for good, and what a closing pool has come to. A closing goes through its phases
one after the other, and what one of them has brought about is not undone by anybody.
-/

namespace SlotPool

variable {σ : Type}

section

variable {allocator allocator' : Allocator} {identity choice : Nat}

/-- Releasing an identity, whether it is held or not, neither opens an allocator nor closes it. -/
theorem Allocator.closed_release :
    ((allocator.release identity).toOption.getD allocator).closed = allocator.closed := by
  by_cases hheld : identity ∈ allocator.held
  · rw [release_of_mem hheld]
    rfl
  · rw [release_of_not_mem hheld]
    rfl

/-- An identity is taken only while the allocator is open and there is a permit, and it takes the permit with
    it. -/
theorem Allocator.acquire?_open (h : allocator.acquire? choice = some (identity, allocator')) :
    allocator.closed = false ∧ allocator'.closed = false ∧ 0 < allocator.available ∧
      allocator'.available = allocator.available - 1 := by
  unfold acquire? at h
  split at h
  · cases h
  · rename_i hopen
    obtain ⟨permitted, hpermit, hpick⟩ := Option.bind_eq_some_iff.mp h
    obtain ⟨havailable, rfl⟩ := takePermit?_eq_some_iff.mp hpermit
    simp only [pick] at hpick
    split at hpick
    · cases hpick
    · obtain ⟨-, rfl⟩ := by simpa [Except.toOption] using hpick
      exact ⟨by simpa using hopen, by simpa using hopen, havailable, rfl⟩

end

namespace Pool

/-- What has come about in a pool is so later. -/
structure Later (pool pool' : Pool) : Prop where
  cancelled : pool.cancelled = true → pool'.cancelled = true
  stopped : pool.populate = .stopped → pool'.populate = .stopped
  closed : pool.allocator.closed = true → pool'.allocator.closed = true
  newQueue : pool.populate = .stopped → pool.newQueue = [] → pool'.newQueue = []
  reusedOpen : pool.reusedOpen = false → pool'.reusedOpen = false
  reusedQueue : pool.reusedOpen = false → pool.reusedQueue = [] → pool'.reusedQueue = []
  closeAsked : pool.closeAsked = true → pool'.closeAsked = true
  /-- nobody joins the line when the pool's lifetime is over -/
  line : pool.cancelled = true → pool.waiting = [] → pool'.waiting = []

theorem Later.refl (pool : Pool) : pool.Later pool := ⟨id, id, id, fun _ => id, id, fun _ => id, id, fun _ => id⟩

/-- Nothing of this has changed. -/
theorem Later.of_same {pool pool' : Pool} (hcancelled : pool'.cancelled = pool.cancelled)
    (hpopulate : pool'.populate = pool.populate) (hallocator : pool'.allocator = pool.allocator)
    (hnewQueue : pool'.newQueue = pool.newQueue) (hreusedOpen : pool'.reusedOpen = pool.reusedOpen)
    (hreusedQueue : pool'.reusedQueue = pool.reusedQueue) (hcloseAsked : pool'.closeAsked = pool.closeAsked)
    (hwaiting : pool'.waiting = pool.waiting) : pool.Later pool' :=
  ⟨hcancelled.trans, hpopulate.trans, fun hclosed => hallocator ▸ hclosed, fun _ => hnewQueue.trans,
    hreusedOpen.trans, fun _ => hreusedQueue.trans, hcloseAsked.trans, fun _ => hwaiting.trans⟩

/-- What has come about for good in one pool and then in another has come about in the end. -/
theorem Later.trans {first second third : Pool} (h : first.Later second) (h' : second.Later third) :
    first.Later third where
  cancelled hcancelled := h'.cancelled (h.cancelled hcancelled)
  stopped hstopped := h'.stopped (h.stopped hstopped)
  closed hclosed := h'.closed (h.closed hclosed)
  newQueue hstopped hempty := h'.newQueue (h.stopped hstopped) (h.newQueue hstopped hempty)
  reusedOpen hshut := h'.reusedOpen (h.reusedOpen hshut)
  reusedQueue hshut hempty := h'.reusedQueue (h.reusedOpen hshut) (h.reusedQueue hshut hempty)
  closeAsked hasked := h'.closeAsked (h.closeAsked hasked)
  line hover hempty := h'.line (h.cancelled hover) (h.line hover hempty)

section

variable {machine : Machine σ} {client : Client} {pool pool' : Pool} {state state' : σ} {stage : Stage}

theorem later_release (released : SlotId) : pool.Later (pool.release released).2 := by
  rw [release_snd]
  exact ⟨id, id, fun hclosed => by rwa [Allocator.closed_release], fun _ => id, id, fun _ => id, id, fun _ => id⟩

/-- Taking the first slot from a queue undoes nothing. In particular a queue that was empty for good is not the
    one it is taken from. -/
theorem later_setQueue {source : Source} {slot : Slot} {rest : List Slot}
    (hqueue : pool.queue source = slot :: rest) : pool.Later (pool.setQueue rest source) := by
  cases source with
  | new =>
    have hnew : pool.newQueue = slot :: rest := hqueue
    exact ⟨id, id, id, fun _ hempty => by simp [hempty] at hnew, id, fun _ => id, id, fun _ => id⟩
  | reused =>
    have hreused : pool.reusedQueue = slot :: rest := hqueue
    exact ⟨id, id, id, fun _ => id, id, fun _ hempty => by simp [hempty] at hreused, id, fun _ => id⟩

/-- Putting a task at a stage changes nothing of this, and neither does the end of a request. -/
theorem Later.follow (h : pool.Later pool') : pool.Later (pool'.follow client stage) :=
  ⟨h.cancelled, h.stopped, h.closed, h.newQueue, h.reusedOpen, h.reusedQueue, h.closeAsked,
    h.line⟩

theorem Later.finish {outcome : Outcome} (h : pool.Later pool') : pool.Later (pool'.finish client outcome) :=
  ⟨h.cancelled, h.stopped, h.closed, h.newQueue, h.reusedOpen, h.reusedQueue, h.closeAsked,
    h.line⟩

theorem later_lower {source : Source} : pool.Later (pool.lower source) :=
  ⟨id, id, id, fun _ => id, id, fun _ => id, id, fun _ => id⟩

theorem later_raise {source : Source} : pool.Later (pool.raise source) :=
  ⟨id, id, id, fun _ => id, id, fun _ => id, id, fun _ => id⟩

theorem Unanswered.later {α : Type} {job : SlotProgram α} {slot : Slot}
    (h : Unanswered machine job slot pool state pool' state') : pool.Later pool' := by
  cases h <;> exact ⟨id, id, id, fun _ => id, id, fun _ => id, id, fun _ => id⟩

/-- However a task goes on after a removal, it undoes nothing. -/
theorem Later.afterRemoval {failures : List PoolError} {purpose : Purpose} (h : pool.Later pool') :
    pool.Later (pool'.afterRemoval client failures purpose) := by
  cases purpose with
  | putBack => exact h.finish
  | drain source earlier =>
    simp only [Pool.afterRemoval]
    split <;> exact h.follow

/-- No step of a task undoes what has come about: what is closed or cancelled stays so, and a filling task that
    has ended does not begin again. -/
theorem Advance.later (hadvance : Advance machine client pool state stage pool' state') :
    pool.Later pool' := by
  cases hadvance with
  | receive => exact later_lower.follow
  | prepareStops hstops => exact hstops.later.follow
  | discard => exact (later_release _).finish
  | resetStops hstops => exact hstops.later.follow
  | giveUp => exact (later_release _).finish
  | announce => exact later_raise.follow
  | enqueue hopen hroom =>
    exact ⟨id, id, id, fun _ => id, id, fun hshut => by simp [hopen] at hshut, id, fun _ => id⟩
  | overflow => exact later_lower.follow
  | loseSlot => exact (later_release _).finish
  | removeStops hstops => exact hstops.later.follow
  | settle => exact (later_release _).afterRemoval
  | close => exact ⟨fun _ => rfl, id, id, fun _ => id, id, fun _ => id, id, fun _ => id⟩
  | shut => exact ⟨id, id, fun _ => rfl, fun _ => id, id, fun _ => id, id, fun _ => id⟩
  | drain hqueue => exact (later_setQueue hqueue).follow
  | turn hqueue => exact ⟨id, id, id, fun _ => id, fun _ => rfl, fun _ => id, id, fun _ => id⟩
  | takeOut => exact later_lower.follow
  | prepare | endClose => exact (Later.refl pool).finish
  | _ => exact (Later.refl pool).follow

/-- The filling task takes no step once it has ended, and opens nothing that was closed. -/
theorem Stocking.later {choice : Nat} (hstocking : Stocking choice pool pool') : pool.Later pool' := by
  cases hstocking with
  | stop hpopulate hcancelled => exact ⟨id, fun _ => rfl, id, fun _ => id, id, fun _ => id, id, fun _ => id⟩
  | acquire hpopulate hacquire hslot =>
    have hopen := (Allocator.acquire?_open hacquire).1
    exact ⟨id, fun hstopped => by simp [hstopped] at hpopulate, fun hclosed => by simp [hclosed] at hopen,
      fun _ => id, id, fun _ => id, id, fun _ => id⟩
  | outsidePlan hpopulate hacquire hslot =>
    have hopen := (Allocator.acquire?_open hacquire).1
    exact ⟨id, fun _ => rfl, fun hclosed => by simp [hclosed] at hopen, fun _ => id, id, fun _ => id, id,
      fun _ => id⟩
  | @discard slot hpopulate hcancelled =>
    have hreleased : pool.Later (pool.release slot.id).2 := later_release slot.id
    exact ⟨hreleased.cancelled, fun _ => rfl, hreleased.closed, hreleased.newQueue, hreleased.reusedOpen,
      hreleased.reusedQueue, hreleased.closeAsked, hreleased.line⟩
  | count hpopulate =>
    exact ⟨id, fun hstopped => by simp [hstopped] at hpopulate, id, fun _ => id, id, fun _ => id, id, fun _ => id⟩
  | enqueue hpopulate =>
    exact ⟨id, fun hstopped => by simp [hstopped] at hpopulate, id,
      fun hstopped => by simp [hstopped] at hpopulate, id, fun _ => id, id, fun _ => id⟩

/-- A request that leaves the line undoes nothing of what has come about, whether it is sent away or takes a
    slot. -/
theorem Waiting.later (hwaiting : Waiting client pool pool') : pool.Later pool' := by
  have hleaves (waiter : Waiter) : pool.Later { pool with waiting := pool.waiting.erase waiter } :=
    ⟨id, id, id, fun _ => id, id, fun _ => id, id, fun _ hempty => by rw [hempty]; rfl⟩
  cases hwaiting with
  | giveUp hwaiter hclient => exact (hleaves _).finish
  | sendAway hwaiter hclient => exact (hleaves _).finish
  | @serve waiter source slot rest hwaiter hclient hqueue =>
    have hleft : { pool with waiting := pool.waiting.erase waiter }.queue source = slot :: rest := by
      cases source <;> exact hqueue
    exact ((hleaves waiter).trans (later_setQueue hleft)).follow

/-- No step of the pool undoes anything of what a closing has brought about. -/
theorem Stepping.later {move : Move} (hstepping : Stepping machine pool state move pool' state') :
    pool.Later pool' := by
  cases hstepping with
  | task hfind hadvance =>
    have hadvanced := hadvance.later
    exact ⟨hadvanced.cancelled, hadvanced.stopped, hadvanced.closed, hadvanced.newQueue,
      hadvanced.reusedOpen, hadvanced.reusedQueue, hadvanced.closeAsked, hadvanced.line⟩
  | populate hstocking => exact hstocking.later
  | waiter hwaiting => exact hwaiting.later

/-- A request for a slot undoes nothing. In particular it does not join the line of a pool whose lifetime is
    over. -/
theorem Asking.later {policy : Internet} {cancelled : Bool} (hasking : Asking client policy cancelled pool pool') :
    pool.Later pool' := by
  cases hasking with
  | @take slot rest hqueue =>
    have hreused : pool.queue .reused = slot :: rest := hqueue
    exact (later_setQueue hreused).follow
  | decline => exact (Later.refl pool).finish
  | join hnone hwanted hgoing =>
    exact ⟨id, id, id, fun _ => id, id, fun _ => id, id, fun hover => by simp [hgoing] at hover⟩

theorem AskingToClose.later (hasking : AskingToClose client pool pool') : pool.Later pool' := by
  cases hasking with
  | first => exact Later.follow ⟨id, id, id, fun _ => id, id, fun _ => id, fun _ => rfl, fun _ => id⟩
  | again => exact (Later.refl pool).finish

/-- The phases of a closing, in the order in which they come. -/
inductive Phase
  | asked
  | waiting
  | sealing
  | draining (source : Source)
  deriving DecidableEq

/-- What a closing has brought about when it has come to a phase. -/
structure Brought (phase : Phase) (pool : Pool) : Prop where
  cancelled : phase ≠ .asked → pool.cancelled = true
  stopped : phase ≠ .asked → phase ≠ .waiting → pool.populate = .stopped
  closed : ∀ source, phase = .draining source → pool.allocator.closed = true
  newQueue : phase = .draining .reused → pool.newQueue = []
  reusedOpen : phase = .draining .reused → pool.reusedOpen = false
  line : phase = .draining .reused → pool.waiting = []

/-- What a phase of the closing has brought about is still so later. -/
theorem Brought.later {phase : Phase} (h : Brought phase pool) (hlater : pool.Later pool') :
    Brought phase pool' where
  cancelled hphase := hlater.cancelled (h.cancelled hphase)
  stopped hasked hwaiting := hlater.stopped (h.stopped hasked hwaiting)
  closed source hphase := hlater.closed (h.closed source hphase)
  newQueue hphase := by
    subst hphase
    exact hlater.newQueue (h.stopped (by simp) (by simp)) (h.newQueue rfl)
  reusedOpen hphase := hlater.reusedOpen (h.reusedOpen hphase)
  line hphase := by
    subst hphase
    exact hlater.line (h.cancelled (by simp)) (h.line rfl)

/-- What two pools have in common that no step of a task sets apart. -/
structure Likewise (pool pool' : Pool) : Prop where
  populate : pool'.populate = pool.populate
  newCapacity : pool'.newCapacity = pool.newCapacity
  reusedCapacity : pool'.reusedCapacity = pool.reusedCapacity
  closeAsked : pool'.closeAsked = pool.closeAsked

theorem likewise_release (released : SlotId) : pool.Likewise (pool.release released).2 := by
  rw [release_snd]
  exact ⟨rfl, rfl, rfl, rfl⟩

/-- A step of a task leaves the filling task alone, and whether the pool was asked to close. What it may change
    of all that a closing brings about is for its own stage to say. -/
theorem Advance.likewise (hadvance : Advance machine client pool state stage pool' state') :
    pool.Likewise pool' := by
  have hended (released : SlotId) (outcome : Outcome) :
      pool.Likewise ((pool.release released).2.finish client outcome) :=
    have h := likewise_release released
    ⟨h.populate, h.newCapacity, h.reusedCapacity, h.closeAsked⟩
  cases hadvance with
  | prepareStops hstops => cases hstops <;> exact ⟨rfl, rfl, rfl, rfl⟩
  | resetStops hstops => cases hstops <;> exact ⟨rfl, rfl, rfl, rfl⟩
  | removeStops hstops => cases hstops <;> exact ⟨rfl, rfl, rfl, rfl⟩
  | discard => exact hended _ _
  | giveUp => exact hended _ _
  | loseSlot => exact hended _ _
  | @settle released failures purpose =>
    cases purpose with
    | putBack => exact hended _ _
    | drain source earlier =>
      have h : pool.Likewise (pool.release released).2 := likewise_release released
      simp only [Pool.afterRemoval]
      split <;> exact ⟨h.populate, h.newCapacity, h.reusedCapacity, h.closeAsked⟩
  | @drain source failures slot rest hqueue => cases source <;> exact ⟨rfl, rfl, rfl, rfl⟩
  | receive | announce | overflow | takeOut =>
    cases pool
    exact ⟨rfl, rfl, rfl, rfl⟩
  | _ => exact ⟨rfl, rfl, rfl, rfl⟩

end

end Pool

namespace Stage

/-- The stages to which a step can bring a task that is not over then. -/
inductive Leads : Stage → Stage → Prop
  | prepare {slot source policy} : Leads (.received slot source policy) (.preparing slot policy)
  | prepareFails {slot policy failure} : Leads (.preparing slot policy) (.unprepared slot.id failure)
  | prepareStops {slot policy} : Leads (.preparing slot policy) (.lost slot.id)
  | reset {slot after} (hid : after.id = slot.id) : Leads (.resetting slot) (.returning after)
  | resetFails {slot failure} : Leads (.resetting slot) (.unreset slot.id failure)
  | resetStops {slot} : Leads (.resetting slot) (.lost slot.id)
  | announce {slot} : Leads (.returning slot) (.offering slot)
  | refuse {slot} : Leads (.offering slot) (.refused slot)
  | overflow {slot} : Leads (.refused slot) (.removing slot .putBack)
  | remove {slot purpose failures} : Leads (.removing slot purpose) (.removed slot.id failures purpose)
  | settle {id failures source earlier later} :
      Leads (.removed id failures (.drain source earlier)) (.draining source later)
  | close : Leads .closing .awaitingPopulate
  | await : Leads .awaitingPopulate .sealing
  | shut : Leads .sealing (.draining .new [])
  | drain {slot source failures} : Leads (.draining source failures) (.drained slot source failures)
  | turn {failures} : Leads (.draining .new failures) (.draining .reused failures)
  | takeOut {slot source failures} :
      Leads (.drained slot source failures) (.removing slot (.drain source failures))

/-- The stages at which a task can end. -/
inductive Ends : Stage → Prop
  | prepared {slot policy} : Ends (.preparing slot policy)
  | unprepared {id failure} : Ends (.unprepared id failure)
  | unreset {id failure} : Ends (.unreset id failure)
  | queued {slot} : Ends (.offering slot)
  | lost {id} : Ends (.lost id)
  | removed {id failures} : Ends (.removed id failures .putBack)
  | drained {failures} : Ends (.draining .reused failures)

/-- The phase of the closing that a task is at. -/
def phase? : Stage → Option Pool.Phase
  | .closing => some .asked
  | .awaitingPopulate => some .waiting
  | .sealing => some .sealing
  | .draining source _ | .drained _ source _ | .removing _ (.drain source _)
  | .removed _ _ (.drain source _) => some (.draining source)
  | _ => none

theorem Leads.phase?_isSome {stage next : Stage} (h : stage.Leads next) :
    next.phase?.isSome = stage.phase?.isSome := by
  cases h with
  | @remove slot purpose failures => cases purpose <;> rfl
  | _ => rfl

end Stage

namespace Pool

section

variable {machine : Machine σ} {client : Client} {pool pool' : Pool} {state state' : σ} {stage : Stage}

/-- A task that takes a step goes on to another stage, or it is over and has come to something. It has never
    more than one task after it. -/
theorem Advance.goesOn (hadvance : Advance machine client pool state stage pool' state') :
    (∃ next, pool'.tasks = (client, next) :: pool.tasks ∧ stage.Leads next) ∨
      pool'.tasks = pool.tasks ∧ stage.Ends ∧ ∃ outcome, (client, outcome) ∈ pool'.finished := by
  -- a request whose identity was released
  have hended (released : SlotId) (outcome : Outcome) :
      ((pool.release released).2.finish client outcome).tasks = pool.tasks ∧
        ∃ outcome', (client, outcome') ∈ ((pool.release released).2.finish client outcome).finished :=
    ⟨tasks_release _, outcome, List.mem_cons_self ..⟩
  cases hadvance with
  | receive => exact .inl ⟨_, by rw [tasks_follow, tasks_lower], .prepare⟩
  | prepare hrun halive => exact .inr ⟨rfl, .prepared, _, List.mem_cons_self ..⟩
  | prepareFails hrun halive => exact .inl ⟨_, rfl, .prepareFails⟩
  | prepareStops hstops => exact .inl ⟨_, by rw [tasks_follow, hstops.unchanged.1], .prepareStops⟩
  | discard => exact .inr ⟨(hended _ _).1, .unprepared, (hended _ _).2⟩
  | reset hrun halive => exact .inl ⟨_, rfl, .reset (Slot.release_run_ok hrun).2.1⟩
  | resetFails hrun halive => exact .inl ⟨_, rfl, .resetFails⟩
  | resetStops hstops => exact .inl ⟨_, by rw [tasks_follow, hstops.unchanged.1], .resetStops⟩
  | giveUp => exact .inr ⟨(hended _ _).1, .unreset, (hended _ _).2⟩
  | announce => exact .inl ⟨_, by rw [tasks_follow, tasks_raise], .announce⟩
  | enqueue hopen hroom => exact .inr ⟨rfl, .queued, _, List.mem_cons_self ..⟩
  | refuse hfull => exact .inl ⟨_, rfl, .refuse⟩
  | overflow => exact .inl ⟨_, by rw [tasks_follow, tasks_lower], .overflow⟩
  | loseSlot => exact .inr ⟨(hended _ _).1, .lost, (hended _ _).2⟩
  | remove hrun halive => exact .inl ⟨_, rfl, .remove⟩
  | removeStops hstops => exact .inl ⟨_, by rw [tasks_follow, hstops.unchanged.1], .remove⟩
  | @settle id failures purpose =>
    cases purpose with
    | putBack => exact .inr ⟨(hended _ _).1, .removed, (hended _ _).2⟩
    | drain source earlier =>
      simp only [Pool.afterRemoval]
      split <;> exact .inl ⟨_, by rw [tasks_follow, tasks_release], .settle⟩
  | close => exact .inl ⟨_, rfl, .close⟩
  | await hstopped => exact .inl ⟨_, rfl, .await⟩
  | shut => exact .inl ⟨_, rfl, .shut⟩
  | @drain source failures slot rest hqueue =>
    exact .inl ⟨_, by cases source <;> exact tasks_follow, .drain⟩
  | turn hqueue => exact .inl ⟨_, rfl, .turn⟩
  | endClose hqueue => exact .inr ⟨rfl, .drained, _, List.mem_cons_self ..⟩
  | takeOut => exact .inl ⟨_, by rw [tasks_follow, tasks_lower], .takeOut⟩

/-- A task of the closing brings about what its next phase takes: the lifetime is over, the filling task has
    ended, the allocator is closed, the queues are empty and shut. Each phase waits for what the next one counts
    on. -/
theorem Advance.brought {next : Stage}
    (hadvance : Advance machine client pool state stage pool' state')
    (htasks : pool'.tasks = (client, next) :: pool.tasks) (hleads : stage.Leads next)
    (hbrought : ∀ phase ∈ stage.phase?, Brought phase pool) : ∀ phase ∈ next.phase?, Brought phase pool' := by
  have hlater := hadvance.later
  intro phase hphase
  cases hleads with
  | close =>
    obtain rfl : Phase.waiting = phase := Option.some.inj hphase
    cases hadvance
    exact ⟨fun _ => rfl, by simp, by simp, by simp, by simp, by simp⟩
  | await =>
    obtain rfl : Phase.sealing = phase := Option.some.inj hphase
    have hbefore := hbrought .waiting rfl
    cases hadvance with
    | await hstopped => exact ⟨fun _ => hbefore.cancelled (by simp), fun _ _ => hstopped, by simp, by simp, by simp,
      by simp⟩
  | shut =>
    obtain rfl : Phase.draining .new = phase := Option.some.inj hphase
    have hbefore := hbrought .sealing rfl
    cases hadvance
    exact ⟨fun _ => hbefore.cancelled (by simp), fun _ _ => hbefore.stopped (by simp) (by simp),
      fun _ _ => rfl, by simp, by simp, by simp⟩
  | @turn failures =>
    obtain rfl : Phase.draining .reused = phase := Option.some.inj hphase
    have hbefore := hbrought (.draining .new) rfl
    cases hadvance with
    | turn hqueue hline =>
      exact ⟨fun _ => hbefore.cancelled (by simp), fun _ _ => hbefore.stopped (by simp) (by simp),
        fun _ _ => hbefore.closed .new rfl, fun _ => hqueue, fun _ => rfl, fun _ => hline⟩
    | drain hqueue => simp [tasks_follow] at htasks
  | @remove slot purpose failures =>
    cases purpose with
    | putBack => cases hphase
    | drain source earlier => exact (hbrought phase hphase).later hlater
  | settle | drain | takeOut => exact (hbrought phase hphase).later hlater
  | _ => cases hphase

/-- What a pool that is to be closed, or that was closed, has come to. -/
structure Shutting (pool : Pool) : Prop where
  populate : pool.populate = .stopped → pool.cancelled = true
  closed : pool.allocator.closed = true → pool.cancelled = true
  phases : ∀ task ∈ pool.tasks, ∀ phase ∈ task.2.phase?, Brought phase pool
  /-- there is one closing at most -/
  once : (pool.tasks.filterMap (·.2.phase?)).length ≤ 1
  unasked : pool.closeAsked = false → pool.tasks.filterMap (·.2.phase?) = []
  /-- a closing that is over has done everything -/
  completed : pool.closeAsked = true → pool.tasks.filterMap (·.2.phase?) = [] →
    Brought (.draining .reused) pool ∧ pool.reusedQueue = []

theorem opened_shutting (config : Config) (egress : String) (cancelled : Bool) :
    (opened config egress cancelled).Shutting := by
  constructor <;> simp [opened, Allocator.ofCapacity]

/-- The same tasks are at the closing, and the rest is as before or has come about since. This is all that there
    is to show of a step that is not the closing's own. -/
theorem Shutting.goOn (h : pool.Shutting) (hlater : pool.Later pool')
    (hpopulate : pool'.populate = .stopped → pool'.cancelled = true)
    (hclosed : pool'.allocator.closed = true → pool'.cancelled = true)
    (htasks : ∀ task ∈ pool'.tasks, task.2.phase? ≠ none → task ∈ pool.tasks)
    (hphases : pool'.tasks.filterMap (·.2.phase?) = pool.tasks.filterMap (·.2.phase?))
    (hasked : pool'.closeAsked = pool.closeAsked) : pool'.Shutting where
  populate := hpopulate
  closed := hclosed
  phases task hmem phase hphase :=
    (h.phases task (htasks task hmem (by rw [hphase]; simp)) phase hphase).later hlater
  once := hphases ▸ h.once
  unasked hunasked := hphases ▸ h.unasked (hasked ▸ hunasked)
  completed hover hnone := by
    obtain ⟨hbrought, hempty⟩ := h.completed (hasked ▸ hover) (hphases ▸ hnone)
    exact ⟨hbrought.later hlater, hlater.reusedQueue (hbrought.reusedOpen rfl) hempty⟩

/-- What a task does to the allocator: it releases an identity, or it is the closing and closes the allocator. -/
theorem Advance.allocator (hadvance : Advance machine client pool state stage pool' state') :
    pool'.allocator = pool.allocator ∨ (stage = .sealing ∧ pool'.allocator = pool.allocator.close) ∨
      ∃ id : SlotId, pool'.allocator = (pool.allocator.release id.val).toOption.getD pool.allocator := by
  have hreleased (id : SlotId) : (pool.release id).2.allocator =
      (pool.allocator.release id.val).toOption.getD pool.allocator := by rw [release_snd]
  cases hadvance with
  | shut => exact .inr (.inl ⟨rfl, rfl⟩)
  | receive => exact .inl (by rw [allocator_follow, allocator_lower])
  | announce => exact .inl (by rw [allocator_follow, allocator_raise])
  | overflow => exact .inl (by rw [allocator_follow, allocator_lower])
  | takeOut => exact .inl (by rw [allocator_follow, allocator_lower])
  | prepareStops hstops => exact .inl (by rw [allocator_follow, hstops.unchanged.2.2])
  | resetStops hstops => exact .inl (by rw [allocator_follow, hstops.unchanged.2.2])
  | removeStops hstops => exact .inl (by rw [allocator_follow, hstops.unchanged.2.2])
  | discard => exact .inr (.inr ⟨_, hreleased _⟩)
  | giveUp => exact .inr (.inr ⟨_, hreleased _⟩)
  | loseSlot => exact .inr (.inr ⟨_, hreleased _⟩)
  | @settle id failures purpose =>
    refine .inr (.inr ⟨id, ?_⟩)
    cases purpose with
    | putBack => exact hreleased id
    | drain source earlier =>
      simp only [Pool.afterRemoval]
      split <;> exact hreleased id
  | @drain source failures slot rest hqueue => cases source <;> exact .inl rfl
  | _ => exact .inl rfl

/-- Only the closing closes the allocator. -/
theorem Advance.closed (hadvance : Advance machine client pool state stage pool' state') :
    pool'.allocator.closed = pool.allocator.closed ∨ stage = .sealing := by
  rcases hadvance.allocator with hsame | ⟨hsealing, -⟩ | ⟨id, hreleased⟩
  · exact .inl (congrArg _ hsame)
  · exact .inr hsealing
  · exact .inl (hreleased ▸ Allocator.closed_release)

theorem phases_cons (task : Client × Stage) (tasks : List (Client × Stage)) :
    (task :: tasks).filterMap (·.2.phase?) =
      task.2.phase?.toList ++ tasks.filterMap (·.2.phase?) := by
  rw [List.filterMap_cons]
  cases task.2.phase? <;> rfl

/-- A step of a task keeps the closing on its way. If it is a step of the closing, that goes on to the next
    phase, or is over, and has brought about what belongs to it; there is no other closing beside it. If it is a
    step of another task, the closing stays in its phase, and what has been brought about is not undone. -/
theorem Advance.shutting (hadvance : Advance machine client
    { pool with tasks := pool.tasks.eraseP (·.1 = client) } state stage pool' state')
    (hfind : pool.tasks.find? (·.1 = client) = some (client, stage)) (h : pool.Shutting) : pool'.Shutting := by
  have hbrought := h.phases _ (List.mem_of_find?_eq_some hfind)
  have hphases : (pool.tasks.filterMap (·.2.phase?)).Perm (stage.phase?.toList ++
      (pool.tasks.eraseP (·.1 = client)).filterMap (·.2.phase?)) := by
    rw [← phases_cons (client, stage)]
    exact (tasks_perm hfind).filterMap _
  have hlater : pool.Later pool' :=
    have hadvanced := hadvance.later
    ⟨hadvanced.cancelled, hadvanced.stopped, hadvanced.closed, hadvanced.newQueue, hadvanced.reusedOpen,
      hadvanced.reusedQueue, hadvanced.closeAsked, hadvanced.line⟩
  have hlike := hadvance.likewise
  have hpopulate : pool'.populate = .stopped → pool'.cancelled = true := fun hstopped =>
    hlater.cancelled (h.populate (hlike.populate ▸ hstopped))
  have hclosed : pool'.allocator.closed = true → pool'.cancelled = true := fun hclosed =>
    hlater.cancelled (hadvance.closed.elim (fun hsame => h.closed (hsame ▸ hclosed)) fun hsealing =>
      (hbrought .sealing (by rw [hsealing]; rfl)).cancelled (by simp))
  have hothers : ∀ task ∈ pool.tasks.eraseP (·.1 = client), ∀ phase ∈ task.2.phase?, Brought phase pool' :=
    fun task hmem phase hphase => (h.phases task (List.mem_of_mem_eraseP hmem) phase hphase).later hlater
  rcases hadvance.goesOn with ⟨next, htasks, hleads⟩ | ⟨hended, hends, -⟩
  · have hsome : next.phase?.toList.length = stage.phase?.toList.length := by
      have hsame := hleads.phase?_isSome
      cases hnext : next.phase? <;> cases hstage : stage.phase? <;> simp_all
    have hafter : pool'.tasks.filterMap (·.2.phase?) = next.phase?.toList ++
        (pool.tasks.eraseP (·.1 = client)).filterMap (·.2.phase?) := htasks ▸ phases_cons (client, next) _
    have hlength : (pool'.tasks.filterMap (·.2.phase?)).length =
        (pool.tasks.filterMap (·.2.phase?)).length := by
      rw [hafter, hphases.length_eq, List.length_append, List.length_append, hsome]
    refine ⟨hpopulate, hclosed, fun task hmem => ?_, hlength ▸ h.once, fun hunasked => ?_, fun hover hnone => ?_⟩
    · rcases List.mem_cons.mp (htasks ▸ hmem) with rfl | hold
      · exact hadvance.brought htasks hleads fun phase hphase =>
          (hbrought phase hphase).later ⟨id, id, id, fun _ => id, id, fun _ => id, id, fun _ => id⟩
      · exact hothers task hold
    · refine List.eq_nil_of_length_eq_zero (hlength.trans ?_)
      rw [h.unasked (hlike.closeAsked ▸ hunasked), List.length_nil]
    · have hbefore : pool.tasks.filterMap (·.2.phase?) = [] :=
        List.eq_nil_of_length_eq_zero (hlength.symm.trans (by rw [hnone, List.length_nil]))
      obtain ⟨hdone, hempty⟩ := h.completed (hlike.closeAsked ▸ hover) hbefore
      exact ⟨hdone.later hlater, hlater.reusedQueue (hdone.reusedOpen rfl) hempty⟩
  · have htasks : pool'.tasks = pool.tasks.eraseP (·.1 = client) := hended
    have hafter : pool'.tasks.filterMap (·.2.phase?) =
        (pool.tasks.eraseP (·.1 = client)).filterMap (·.2.phase?) := by rw [htasks]
    have hlength := hphases.length_eq
    rw [List.length_append, ← hafter] at hlength
    refine ⟨hpopulate, hclosed, fun task hmem => hothers task (htasks ▸ hmem), ?_, fun hunasked => ?_,
      fun hover hnone => ?_⟩
    · have honce := h.once
      omega
    · have hnone := h.unasked (hlike.closeAsked ▸ hunasked)
      rw [hnone, List.length_nil] at hlength
      exact List.eq_nil_of_length_eq_zero (by omega)
    · cases hends with
      | @drained failures =>
        cases hadvance with
        | drain hqueue => simp [setQueue, follow] at htasks
        | endClose hqueue => exact ⟨(hbrought (.draining .reused) rfl).later hlater, hqueue⟩
      | _ =>
        have hbefore : pool.tasks.filterMap (·.2.phase?) = [] := by
          rw [hafter] at hnone
          rw [hnone] at hphases
          exact List.perm_nil.mp hphases
        obtain ⟨hdone, hempty⟩ := h.completed (hlike.closeAsked ▸ hover) hbefore
        exact ⟨hdone.later hlater, hlater.reusedQueue (hdone.reusedOpen rfl) hempty⟩

/-- The filling task ends only when the pool's lifetime is over. It has room in the new queue by the gauge, and
    an identity that it takes is in the plan. -/
theorem Stocking.shutting {choice : Nat} (hstocking : Stocking choice pool pool')
    (hplan : ∀ identity ∈ pool.allocator.free, identity < planSize) (h : pool.Shutting) : pool'.Shutting := by
  have hlater := hstocking.later
  cases hstocking with
  | stop hpopulate hcancelled =>
    exact h.goOn hlater (fun _ => hcancelled) h.closed (fun _ hmem _ => hmem) rfl rfl
  | acquire hpopulate hacquire hslot =>
    refine h.goOn hlater (fun hstopped => by cases hstopped) (fun hclosed => ?_) (fun _ hmem _ => hmem) rfl rfl
    have hopen := (Allocator.acquire?_open hacquire).2.1
    exact absurd hclosed (by simp [hopen])
  | outsidePlan hpopulate hacquire hslot => exact (not_outsidePlan hplan hacquire hslot).elim
  | @discard slot hpopulate hcancelled =>
    rw [release_snd] at hlater ⊢
    exact h.goOn hlater (fun _ => hcancelled) (fun _ => hcancelled) (fun _ hmem _ => hmem) rfl rfl
  | count hpopulate =>
    exact h.goOn hlater (fun hstopped => by cases hstopped) h.closed (fun _ hmem _ => hmem) rfl rfl
  | enqueue hpopulate =>
    exact h.goOn hlater (fun hstopped => by cases hstopped) h.closed (fun _ hmem _ => hmem) rfl rfl

/-- A request that leaves the line, whether it is sent away or begins a task, leaves the closing in its phase.
    -/
theorem Waiting.shutting (hwaiting : Waiting client pool pool') (h : pool.Shutting) : pool'.Shutting := by
  have hlater := hwaiting.later
  cases hwaiting with
  | giveUp hwaiter hclient => exact h.goOn hlater h.populate h.closed (fun _ hmem _ => hmem) rfl rfl
  | sendAway hwaiter hclient => exact h.goOn hlater h.populate h.closed (fun _ hmem _ => hmem) rfl rfl
  | @serve waiter source slot rest hwaiter hclient hqueue =>
    cases source with
    | new => exact h.goOn hlater h.populate h.closed (fun task hmem hphase =>
        (List.mem_cons.mp hmem).resolve_left fun heq => hphase (by rw [heq]; rfl)) rfl rfl
    | reused => exact h.goOn hlater h.populate h.closed (fun task hmem hphase =>
        (List.mem_cons.mp hmem).resolve_left fun heq => hphase (by rw [heq]; rfl)) rfl rfl

theorem Stepping.shutting {move : Move} (hstepping : Stepping machine pool state move pool' state')
    (hplan : ∀ identity ∈ pool.allocator.free, identity < planSize) (h : pool.Shutting) : pool'.Shutting := by
  cases hstepping with
  | task hfind hadvance => exact hadvance.shutting hfind h
  | populate hstocking => exact hstocking.shutting hplan h
  | waiter hwaiting => exact hwaiting.shutting h

/-- No step brings in identities or loses any. The allocator always knows the same ones, held or free. -/
theorem Stepping.known {move : Move} (hstepping : Stepping machine pool state move pool' state') :
    pool'.allocator.known.Perm pool.allocator.known := by
  cases hstepping with
  | task hfind hadvance =>
    rcases hadvance.allocator with hsame | ⟨-, hclosed⟩ | ⟨id, hreleased⟩
    · rw [hsame]
    · rw [hclosed]
      exact .refl _
    · rw [hreleased]
      exact Allocator.known_release
  | populate hstocking =>
    cases hstocking with
    | acquire hpopulate hacquire | outsidePlan hpopulate hacquire => exact Allocator.known_acquire hacquire
    | discard =>
      rw [release_snd]
      exact Allocator.known_release
    | count =>
      cases pool
      exact .refl _
    | stop | enqueue => exact .refl _
  | waiter hwaiting =>
    cases hwaiting with
    | @serve waiter source => cases source <;> exact .refl _
    | giveUp | sendAway => exact .refl _

/-- What keeps a pool on its way: a closing has done things in their order, and every identity has a slot. -/
structure Regular (pool : Pool) : Prop where
  shutting : pool.Shutting
  plan : ∀ identity ∈ pool.allocator.known, identity < planSize

theorem Stepping.regular {move : Move} (hstepping : Stepping machine pool state move pool' state')
    (h : pool.Regular) : pool'.Regular where
  shutting := hstepping.shutting (fun identity hfree => h.plan identity (List.mem_append_right _ hfree)) h.shutting
  plan identity hknown := h.plan identity (hstepping.known.mem_iff.mp hknown)

end

end Pool
end SlotPool
