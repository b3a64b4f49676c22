import SlotPool.Proofs.Pool.Trace
/-!
A pool whose worker is dead. Whatever happens to such a pool happens without a call to the machine, so it stays
without a worker, and it would go on in the same way on any other machine.
-/

namespace SlotPool

variable {σ : Type}

namespace Pool

variable {α : Type} {machine other : Machine σ} {client : Client} {pool pool' : Pool} {state state' : σ}
  {stage : Stage} {slot : Slot} {job : SlotProgram α} {event : Service.Event}

/-- A job that is given to a dead worker is not begun. -/
theorem submit_vacant (hdead : pool.workerAlive = false) :
    pool.submit machine job slot state = (none, pool, state) := by
  rw [submit, hdead]
  rfl

/-- A task of such a pool goes on, if it can, without a call. -/
theorem advance_vacant (hdead : pool.workerAlive = false) :
    pool.advance machine client state stage = pool.advance other client state stage := by
  cases stage with
  | preparing | resetting | removing => simp only [advance, submit_vacant hdead]
  | _ => rfl

/-- A pool without a worker takes the same steps on every machine: the only step that would call one is a job,
    and that finds no worker. -/
theorem step_vacant {move : Move} (hdead : pool.workerAlive = false) (machine other : Machine σ) :
    pool.step machine move state = pool.step other move state := by
  cases move with
  | task client =>
    simp only [step]
    split
    · rfl
    · exact advance_vacant hdead
  | populate | waiter => rfl

section

variable {source : Source} {outcome : Outcome}

theorem workerAlive_follow : (pool.follow client stage).workerAlive = pool.workerAlive := rfl

theorem workerAlive_finish : (pool.finish client outcome).workerAlive = pool.workerAlive := rfl

theorem workerAlive_release (id : SlotId) : (pool.release id).2.workerAlive = pool.workerAlive := by
  rw [release_snd]

theorem workerAlive_lower : (pool.lower source).workerAlive = pool.workerAlive := by
  cases pool
  rfl

theorem workerAlive_raise : (pool.raise source).workerAlive = pool.workerAlive := by
  cases pool
  rfl

end

/-- No task revives the worker, and without a worker none changes the machine. A job that finds no worker makes
    no call at all. -/
theorem Advance.vacant (hadvance : Advance machine client pool state stage pool' state')
    (hdead : pool.workerAlive = false) : pool'.workerAlive = false ∧ state' = state := by
  have halive {P : Prop} (halive : pool.workerAlive = true) : P := by simp [hdead] at halive
  cases hadvance with
  | prepare hrun hlives | prepareFails hrun hlives | reset hrun hlives | resetFails hrun hlives
  | remove hrun hlives => exact halive hlives
  | prepareStops hstops | resetStops hstops | removeStops hstops =>
    cases hstops with
    | gone => exact ⟨hdead, rfl⟩
    | dies hlives => exact halive hlives
  | receive | overflow | takeOut => exact ⟨by rw [workerAlive_follow, workerAlive_lower, hdead], rfl⟩
  | announce => exact ⟨by rw [workerAlive_follow, workerAlive_raise, hdead], rfl⟩
  | discard | giveUp | loseSlot => exact ⟨by rw [workerAlive_finish, workerAlive_release, hdead], rfl⟩
  | @settle id failures purpose =>
    refine ⟨?_, rfl⟩
    cases purpose with
    | putBack => exact (workerAlive_finish.trans (workerAlive_release id)).trans hdead
    | drain source earlier =>
      simp only [afterRemoval]
      split <;> exact (workerAlive_release id).trans hdead
  | @drain source failures slot rest hqueue => cases source <;> exact ⟨hdead, rfl⟩
  | _ => exact ⟨hdead, rfl⟩

/-- A step of a pool without a worker leaves it without one, and leaves the machine alone. -/
theorem Stepping.vacant {move : Move} (hstepping : Stepping machine pool state move pool' state')
    (hdead : pool.workerAlive = false) : pool'.workerAlive = false ∧ state' = state := by
  cases hstepping with
  | task hfind hadvance => exact hadvance.vacant hdead
  | populate hstocking =>
    refine ⟨?_, rfl⟩
    cases hstocking with
    | discard => exact (workerAlive_release _).trans hdead
    | count => exact (workerAlive_raise : (pool.raise .new).workerAlive = _).trans hdead
    | _ => exact hdead
  | waiter hwaiting =>
    refine ⟨?_, rfl⟩
    cases hwaiting with
    | @serve waiter source slot rest => cases source <;> exact hdead
    | _ => exact hdead

/-- Whatever happens to a pool without a worker leaves it without one, and leaves the machine alone. -/
theorem Turned.vacant (hturned : Turned machine pool state event pool' state') (hdead : pool.workerAlive = false) :
    pool'.workerAlive = false ∧ state' = state := by
  cases hturned with
  | move hstepping => exact hstepping.vacant hdead
  | get hasking => exact ⟨by cases hasking <;> exact hdead, rfl⟩
  | close hasking => exact ⟨by cases hasking <;> exact hdead, rfl⟩
  | _ => exact ⟨hdead, rfl⟩

end Pool

namespace Service

variable {machine : Machine σ} {allowed : Service σ → Event → Prop} {start service after : Service σ}
  {event : Event} {outcomes : List (Client × Outcome)} {trace : List (Turn σ)}

/-- A turn in which no call is made: the machine is as before, and any other machine would do as well. -/
structure Turn.Silent (turn : Turn σ) : Prop where
  vacant : turn.after.pool.workerAlive = false
  machine : turn.after.machine = turn.before.machine
  anyMachine : ∀ other : Machine σ, turn.before.step other turn.event = some (turn.outcomes, turn.after)

/-- A turn of a service without a worker makes no call, and would go on in the same way on any other machine. So
    what is on the machine can no longer be told from what the service does. -/
theorem step_silent (hdead : service.pool.workerAlive = false)
    (hstep : service.step machine event = some (outcomes, after)) :
    (⟨service, event, outcomes, after⟩ : Turn σ).Silent := by
  obtain ⟨pool, hturned, hafter, -⟩ := step_turned hstep
  obtain ⟨hvacant, hmachine⟩ := hturned.vacant hdead
  refine ⟨by rw [hafter]; exact hvacant, hmachine, fun other => ?_⟩
  have hsame : (service.note event).apply other event = (service.note event).apply machine event := by
    cases event with
    | move move =>
      have hmove : (service.note (.move move)).pool.workerAlive = false := hdead
      simp only [Service.apply, Pool.step_vacant hmove machine other]
    | _ => rfl
  rw [← hstep, Service.step, Service.step, hsame]

/-- Once the worker is dead, no call is ever made, and the machine stays as the worker's last job left it. -/
theorem Traced.silent (htraced : Traced machine allowed start trace service)
    (hdead : start.pool.workerAlive = false) :
    service.pool.workerAlive = false ∧ service.machine = start.machine ∧
      ∀ turn ∈ trace, turn.Silent ∧ turn.after.machine = start.machine := by
  induction htraced with
  | start => exact ⟨hdead, rfl, by simp⟩
  | @step trace service after event outcomes htraced hallowed hstep ih =>
    obtain ⟨hvacant, hmachine, hturns⟩ := ih
    have hsilent := step_silent hvacant hstep
    have hafter : after.machine = start.machine := hsilent.machine.trans hmachine
    refine ⟨hsilent.vacant, hafter, fun turn hturn => ?_⟩
    rcases List.mem_append.mp hturn with hold | hnew
    · exact hturns turn hold
    · obtain rfl := List.mem_singleton.mp hnew
      exact ⟨hsilent, hafter⟩

end Service
end SlotPool
