import Mathlib.Data.List.Induction
import SlotPool.Proofs.Pool.Later
/-!
The turns of a service: what an event makes of the pool, and what has happened turn by turn.
-/

namespace SlotPool

variable {σ : Type}

namespace Pool

variable {machine : Machine σ} {client : Client} {pool pool' : Pool} {state state' : σ} {event : Service.Event}

/-- Whatever happens to a pool, what has come about in it for good is not undone. -/
theorem Turned.later (h : Turned machine pool state event pool' state') : pool.Later pool' := by
  cases h with
  | move hstepping => exact hstepping.later
  | get hasking => exact hasking.later
  | cancel => exact ⟨id, id, id, fun _ => id, id, fun _ => id, id, fun _ hempty => by simp [Pool.cancel, hempty]⟩
  | putBack | putBackNumber => exact (Later.refl pool).follow
  | lose => exact .refl pool
  | close hasking => exact hasking.later
  | cancelLifetime => exact ⟨fun _ => rfl, id, id, fun _ => id, id, fun _ => id, id, fun _ => id⟩

/-- A new task that is not of the closing leaves the phases of the closing as they are. -/
theorem Shutting.followed {stage : Stage} (h : pool'.Shutting)
    (hstage : stage.phase? = none) : (pool'.follow client stage).Shutting := by
  refine h.goOn (Later.refl pool').follow h.populate h.closed (fun (task : Client × Stage) hmem hphase => ?_) ?_ rfl
  · refine (List.mem_cons.mp hmem).resolve_left fun heq => hphase ?_
    rw [heq, hstage]
  · rw [tasks_follow, phases_cons, hstage]
    rfl

/-- A request for a slot is not of the closing. -/
theorem Asking.shutting {policy : Internet} {cancelled : Bool} (hasking : Asking client policy cancelled pool pool')
    (h : pool.Shutting) : pool'.Shutting := by
  have hlater := hasking.later
  cases hasking with
  | @take slot rest hqueue =>
    have htaken : pool.Later (pool.setQueue rest .reused) := later_setQueue hqueue
    have hgoesOn : { pool with reusedQueue := rest }.Shutting :=
      h.goOn htaken h.populate h.closed (fun _ hmem _ => hmem) rfl rfl
    exact hgoesOn.followed rfl
  | decline | join => exact h.goOn hlater h.populate h.closed (fun _ hmem _ => hmem) rfl rfl

/-- The first request to close the pool begins a closing, which has brought about nothing yet. A later one does
    nothing. -/
theorem AskingToClose.shutting (hasking : AskingToClose client pool pool') (h : pool.Shutting) :
    pool'.Shutting := by
  cases hasking with
  | first hunasked =>
    have hnone := h.unasked hunasked
    have hphases : (({ pool with closeAsked := true } : Pool).follow client .closing).tasks.filterMap
        (·.2.phase?) = [Phase.asked] := by
      rw [tasks_follow, phases_cons, hnone]
      rfl
    refine ⟨h.populate, h.closed, fun task hmem phase hphase => ?_, by rw [hphases]; simp, by simp [follow],
      fun _ hover => ?_⟩
    · rcases List.mem_cons.mp hmem with rfl | hold
      · obtain rfl : Phase.asked = phase := Option.some.inj hphase
        exact ⟨by simp, by simp, by simp, by simp, by simp, by simp⟩
      · have hsome : phase ∈ pool.tasks.filterMap (·.2.phase?) := List.mem_filterMap.mpr ⟨task, hold, hphase⟩
        simp [hnone] at hsome
    · rw [hphases] at hover
      cases hover
  | again => exact h.goOn (Later.refl pool).finish h.populate h.closed (fun _ hmem _ => hmem) rfl rfl

/-- Whatever happens to a pool, a closing does things in their order and every identity has a slot. -/
theorem Turned.regular (hturned : Turned machine pool state event pool' state') (h : pool.Regular) :
    pool'.Regular := by
  have hlater := hturned.later
  cases hturned with
  | move hstepping => exact hstepping.regular h
  | get hasking => exact ⟨hasking.shutting h.shutting, by cases hasking <;> exact h.plan⟩
  | cancel =>
    exact ⟨h.shutting.goOn hlater h.shutting.populate h.shutting.closed (fun _ hmem _ => hmem) rfl rfl, h.plan⟩
  | putBack | putBackNumber => exact ⟨h.shutting.followed rfl, h.plan⟩
  | lose => exact h
  | close hasking => exact ⟨hasking.shutting h.shutting, by cases hasking <;> exact h.plan⟩
  | cancelLifetime =>
    exact ⟨h.shutting.goOn hlater (fun _ => rfl) (fun _ => rfl) (fun _ hmem _ => hmem) rfl rfl, h.plan⟩

end Pool

namespace Service

variable {machine : Machine σ} {allowed : Service σ → Event → Prop} {start service after : Service σ}
  {event : Event} {outcomes : List (Client × Outcome)} {size : Nat}

/-- What a task makes of its turn. -/
theorem step_task {client : Client} (hstep : service.step machine (.move (.task client)) = some (outcomes, after)) :
    ∃ stage pool, service.pool.tasks.find? (·.1 = client) = some (client, stage) ∧
      Pool.Advance machine client { service.pool with tasks := service.pool.tasks.eraseP (·.1 = client) }
        service.machine stage pool after.machine ∧
      after.pool = { pool with finished := [] } ∧ outcomes = pool.finished.reverse := by
  obtain ⟨pool, hturned, hafter, houtcomes⟩ := step_turned hstep
  generalize after.machine = state at hturned
  cases hturned with
  | move hstepping =>
    cases hstepping with
    | task hfind hadvance => exact ⟨_, pool, hfind, hadvance, hafter, houtcomes⟩

/-- A turn undoes nothing of what has come about for good. Handing over the outcomes does not matter to that. -/
theorem step_later (hstep : service.step machine event = some (outcomes, after)) :
    service.pool.Later after.pool := by
  obtain ⟨pool, hturned, hafter, -⟩ := step_turned hstep
  have hlater := hturned.later
  rw [hafter]
  exact ⟨hlater.cancelled, hlater.stopped, hlater.closed, hlater.newQueue, hlater.reusedOpen,
    hlater.reusedQueue, hlater.closeAsked, hlater.line⟩

/-- Whatever happens, a closing does things in their order. That callers make up slots does not matter, since no
    identity comes in by that. -/
theorem Reaches.regular (hstart : start.pool.Regular) (hreaches : Reaches machine allowed start service) :
    service.pool.Regular := by
  induction hreaches with
  | start => exact hstart
  | step hreaches hallowed hstep ih =>
    obtain ⟨pool, hturned, hafter, -⟩ := step_turned hstep
    have hregular := hturned.regular ih
    rw [hafter]
    exact ⟨hregular.shutting.goOn (Pool.Later.of_same rfl rfl rfl rfl rfl rfl rfl rfl) hregular.shutting.populate
      hregular.shutting.closed (fun _ hmem _ => hmem) rfl rfl, hregular.plan⟩

theorem Reaches.shutting (hconserved : start.Conserved size) (hshutting : start.pool.Shutting)
    (hreaches : Reaches machine allowed start service) : service.pool.Shutting :=
  (hreaches.regular ⟨hshutting, hconserved.known_lt⟩).shutting

/-- What has come about in a pool is so in all that it becomes. -/
theorem Reaches.later (hreaches : Reaches machine allowed start service) : start.pool.Later service.pool := by
  induction hreaches with
  | start => exact .refl _
  | step hreaches hallowed hstep ih => exact ih.trans (step_later hstep)

/-- One turn of a service. -/
structure Turn (σ : Type) where
  before : Service σ
  event : Event
  outcomes : List (Client × Outcome)
  after : Service σ

/-- The turns by which a service has become what it is, the first one first. -/
inductive Traced (machine : Machine σ) (allowed : Service σ → Event → Prop) (start : Service σ) :
    List (Turn σ) → Service σ → Prop
  | start : Traced machine allowed start [] start
  | step {trace : List (Turn σ)} {service after : Service σ} {event : Event}
      {outcomes : List (Client × Outcome)} (htraced : Traced machine allowed start trace service)
      (hallowed : allowed service event) (hstep : service.step machine event = some (outcomes, after)) :
      Traced machine allowed start (trace ++ [⟨service, event, outcomes, after⟩]) after

theorem Traced.reaches {trace : List (Turn σ)} (htraced : Traced machine allowed start trace service) :
    Reaches machine allowed start service := by
  induction htraced with
  | start => exact .start
  | step htraced hallowed hstep ih => exact ih.step hallowed hstep

/-- Whatever can be reached has a trace by which it was. -/
theorem Reaches.traced (hreaches : Reaches machine allowed start service) :
    ∃ trace, Traced machine allowed start trace service := by
  induction hreaches with
  | start => exact ⟨[], .start⟩
  | step hreaches hallowed hstep ih =>
    obtain ⟨trace, htraced⟩ := ih
    exact ⟨_, htraced.step hallowed hstep⟩

/-- Every turn of a trace was taken where the turns before it had led. -/
theorem Traced.turn {trace : List (Turn σ)} (htraced : Traced machine allowed start trace service) :
    ∀ turn ∈ trace, Reaches machine allowed start turn.before ∧ allowed turn.before turn.event ∧
      turn.before.step machine turn.event = some (turn.outcomes, turn.after) := by
  induction htraced with
  | start => simp
  | step htraced hallowed hstep ih =>
    intro turn hmem
    rcases List.mem_append.mp hmem with hold | hnew
    · exact ih turn hold
    · obtain rfl := List.mem_singleton.mp hnew
      exact ⟨htraced.reaches, hallowed, hstep⟩

/-- A trace of events that are allowed is one where more is allowed. -/
theorem Traced.mono {allowed' : Service σ → Event → Prop} {trace : List (Turn σ)}
    (htraced : Traced machine allowed start trace service)
    (hallowed : ∀ service event, allowed service event → allowed' service event) :
    Traced machine allowed' start trace service := by
  induction htraced with
  | start => exact .start
  | step htraced hevent hstep ih => exact ih.step (hallowed _ _ hevent) hstep

/-- The last turn of a trace was taken where the others had led, and led to the end. -/
theorem Traced.last {trace : List (Turn σ)} {turn : Turn σ}
    (htraced : Traced machine allowed start (trace ++ [turn]) service) :
    Traced machine allowed start trace turn.before ∧ allowed turn.before turn.event ∧
      turn.before.step machine turn.event = some (turn.outcomes, turn.after) ∧ turn.after = service := by
  generalize hwhole : trace ++ [turn] = whole at htraced
  cases htraced with
  | start => simp at hwhole
  | step htraced hallowed hstep =>
    obtain ⟨rfl, heq⟩ := List.append_inj' hwhole rfl
    obtain rfl := List.singleton_inj.mp heq
    exact ⟨htraced, hallowed, hstep, rfl⟩

/-- A trace can be cut at any of its turns: what came before it, the turn itself, and what came after it are
    each a trace or a step of the service. -/
theorem Traced.cut {earlier later : List (Turn σ)} {turn : Turn σ}
    (htraced : Traced machine allowed start (earlier ++ turn :: later) service) :
    Traced machine allowed start earlier turn.before ∧ allowed turn.before turn.event ∧
      turn.before.step machine turn.event = some (turn.outcomes, turn.after) ∧
      Traced machine allowed turn.after later service := by
  induction later using List.reverseRecOn generalizing service with
  | nil =>
    obtain ⟨hbefore, hallowed, hstep, rfl⟩ := htraced.last
    exact ⟨hbefore, hallowed, hstep, .start⟩
  | append_singleton later last ih =>
    rw [← List.cons_append, ← List.append_assoc] at htraced
    obtain ⟨hshorter, hallowedLast, hlast, rfl⟩ := htraced.last
    obtain ⟨hbefore, hallowed, hstep, hlater⟩ := ih hshorter
    exact ⟨hbefore, hallowed, hstep, hlater.step hallowedLast hlast⟩

/-- Two series of events in a row lead where the second one leads from the end of the first. -/
theorem run_append (earlier later : List Event) (start : Service σ) :
    start.run machine (earlier ++ later) = (start.run machine earlier).bind (·.run machine later) := by
  induction earlier generalizing start with
  | nil => rfl
  | cons event earlier ih =>
    simp only [List.cons_append, Service.run, ih]
    cases start.step machine event <;> rfl

/-- A service becomes by the events of a trace what the trace tells. -/
theorem Traced.run {trace : List (Turn σ)} (htraced : Traced machine allowed start trace service) :
    start.run machine (trace.map (·.event)) = some service := by
  induction htraced with
  | start => rfl
  | step htraced hallowed hstep ih => simp [run_append, ih, Service.run, hstep]

/-- Where every event of a series is allowed after those before it, the series has a trace, with these events in
    this order. -/
theorem Traced.of_run {events : List Event}
    (hallowed : ∀ passed event, passed ++ [event] <+: events → ∀ between,
      start.run machine passed = some between → allowed between event)
    (hrun : start.run machine events = some service) :
    ∃ trace, Traced machine allowed start trace service ∧ trace.map (·.event) = events := by
  induction events using List.reverseRecOn generalizing service with
  | nil =>
    obtain rfl : start = service := by simpa [Service.run] using hrun
    exact ⟨[], .start, rfl⟩
  | append_singleton events event ih =>
    rw [run_append] at hrun
    obtain ⟨between, hbetween, hlast⟩ := Option.bind_eq_some_iff.mp hrun
    obtain ⟨⟨outcomes, after⟩, hstep, hafter⟩ := Option.bind_eq_some_iff.mp hlast
    obtain rfl : after = service := by simpa [Service.run] using hafter
    obtain ⟨trace, htraced, hevents⟩ := ih
      (fun passed other hpassed => hallowed passed other (hpassed.trans (List.prefix_append _ _))) hbetween
    exact ⟨_, htraced.step (hallowed events event (List.prefix_refl _) between hbetween) hstep, by simp [hevents]⟩

end Service
end SlotPool
