import SlotPool.Proofs.Pool.Closed
import SlotPool.Proofs.Pool.Vacant
/-!
Requests of a pool whose worker is dead. Whoever needs the worker then, or still has to be told that it is gone,
fails, and the identity of the slot, which is lost with the worker, is released once.
-/

namespace SlotPool

variable {σ : Type}

/-- The stages of a request that needs the worker for a slot with the given identity, or that knows the worker to
    be gone. -/
def Stage.Doomed (id : SlotId) : Stage → Prop
  | .received slot _ _ | .preparing slot _ | .resetting slot | .refused slot | .removing slot .putBack =>
    slot.id = id
  | .lost other => other = id
  | .removed other failures .putBack => other = id ∧ failures = [Pool.workerGone]
  | _ => False

/-- A request that is bound to fail with the worker has still the identity that it is to release. -/
theorem Stage.Doomed.mem_ids {id : SlotId} {stage : Stage} (h : stage.Doomed id) : id ∈ stage.ids := by
  cases stage with
  | received | preparing | resetting | refused | lost => exact h ▸ List.mem_singleton_self _
  | removing slot purpose =>
    cases purpose with
    | putBack => exact h ▸ List.mem_singleton_self _
    | drain => exact h.elim
  | removed other failures purpose =>
    cases purpose with
    | putBack => exact h.1 ▸ List.mem_singleton_self _
    | drain => exact h.elim
  | _ => exact h.elim

namespace Pool

variable {machine : Machine σ} {client : Client} {pool pool' : Pool} {state state' : σ} {stage : Stage} {id : SlotId}
  {event : Service.Event}

/-- Without a worker, such a request goes on to the next such stage, or it fails and its identity is released. -/
theorem Advance.doomed (hadvance : Advance machine client pool state stage pool' state')
    (hdead : pool.workerAlive = false) (hheld : id.val ∈ pool.allocator.held) (h : stage.Doomed id) :
    (∃ next, next.Doomed id ∧ pool'.tasks = (client, next) :: pool.tasks ∧ pool'.allocator = pool.allocator ∧
      pool'.finished = pool.finished) ∨ pool' = (pool.release id).2.finish client (.failed workerGone) := by
  have halive {P : Prop} (halive : pool.workerAlive = true) : P := by simp [hdead] at halive
  cases hadvance with
  | @receive slot source policy =>
    exact .inl ⟨.preparing slot policy, h, by rw [tasks_follow, tasks_lower],
      by rw [allocator_follow, allocator_lower], by rw [finished_follow, finished_lower]⟩
  | @overflow slot =>
    exact .inl ⟨.removing slot .putBack, h, by rw [tasks_follow, tasks_lower],
      by rw [allocator_follow, allocator_lower], by rw [finished_follow, finished_lower]⟩
  | prepare hrun hlives | prepareFails hrun hlives | reset hrun hlives | resetFails hrun hlives
  | remove hrun hlives => exact halive hlives
  | prepareStops hstops =>
    cases hstops with
    | gone => exact .inl ⟨.lost _, h, rfl, rfl, rfl⟩
    | dies hlives => exact halive hlives
  | resetStops hstops =>
    cases hstops with
    | gone => exact .inl ⟨.lost _, h, rfl, rfl, rfl⟩
    | dies hlives => exact halive hlives
  | @removeStops slot purpose pool' state' hstops =>
    cases purpose with
    | drain => exact h.elim
    | putBack =>
      cases hstops with
      | gone => exact .inl ⟨.removed slot.id [workerGone] .putBack, ⟨h, rfl⟩, rfl, rfl, rfl⟩
      | dies hlives => exact halive hlives
  | loseSlot =>
    obtain rfl := h
    exact .inr rfl
  | @settle other failures purpose =>
    cases purpose with
    | drain => exact h.elim
    | putBack =>
      obtain ⟨rfl, rfl⟩ := h
      refine .inr ?_
      rw [(release_of_held hheld).1]
      rfl
  | _ => exact h.elim

/-- Every request has one task at most, also after a turn. A task goes on under its own name, and whoever gets a
    new one comes out of the line or was not there before. -/
theorem Turned.single (hturned : Turned machine pool state event pool' state')
    (hnew : ∀ name ∈ event.request?, name ∉ pool.tasks.map (·.1))
    (hapart : ∀ waiter ∈ pool.waiting, waiter.client ∉ pool.tasks.map (·.1)) (h : (pool.tasks.map (·.1)).Nodup) :
    (pool'.tasks.map (·.1)).Nodup := by
  cases hturned with
  | move hstepping =>
    cases hstepping with
    | @task mover stage pool' state' hfind hadvance =>
      have hsplit : (pool.tasks.map (·.1)).Perm (mover :: (pool.tasks.eraseP (·.1 = mover)).map (·.1)) :=
        (tasks_perm hfind).map _
      have hrest := hsplit.nodup_iff.mp h
      rcases hadvance.goesOn with ⟨next, htasks, -⟩ | ⟨htasks, -, -⟩
      · rw [htasks]
        exact hrest
      · rw [htasks]
        exact (List.nodup_cons.mp hrest).2
    | populate hstocking => exact hstocking.tasks ▸ h
    | waiter hwaiting =>
      cases hwaiting with
      | giveUp hwaiter hclient => exact h
      | sendAway hwaiter hclient => exact h
      | @serve waiter source slot rest hwaiter hclient hqueue =>
        have hname := hclient ▸ hapart waiter hwaiter
        cases source <;> exact List.nodup_cons.mpr ⟨hname, h⟩
  | @get client policy cancelled pool' hasking =>
    cases hasking with
    | take => exact List.nodup_cons.mpr ⟨hnew client rfl, h⟩
    | decline | join => exact h
  | @close client pool' hasking =>
    cases hasking with
    | first => exact List.nodup_cons.mpr ⟨hnew client rfl, h⟩
    | again => exact h
  | @putBack client => exact List.nodup_cons.mpr ⟨hnew client rfl, h⟩
  | @putBackNumber client => exact List.nodup_cons.mpr ⟨hnew client rfl, h⟩
  | cancel | lose | cancelLifetime => exact h

end Pool

namespace Service

variable {machine : Machine σ} {allowed : Service σ → Event → Prop} {service after start : Service σ}
  {event : Event} {outcomes : List (Client × Outcome)} {client : Client} {kind : Stage → Prop}
  {trace : List (Turn σ)} {turn : Turn σ} {outcome : Outcome} {id : SlotId} {size : Nat}

/-- No turn gives a second task to a request. A new task belongs to a request whose name is new, or to one that
    leaves the line. -/
theorem step_single (horderly : service.Orderly size) (h : (service.pool.tasks.map (·.1)).Nodup)
    (hstep : service.step machine event = some (outcomes, after)) : (after.pool.tasks.map (·.1)).Nodup := by
  obtain ⟨hfresh, -⟩ := step_cases hstep
  obtain ⟨pool, hturned, hafter, -⟩ := step_turned hstep
  have hsingle := hturned.single (fun name hname hmem => ?_) (fun waiter hwaits hmem => ?_) h
  · rw [hafter]
    exact hsingle
  · obtain ⟨task, htask, rfl⟩ := List.mem_map.mp hmem
    exact hfresh _ hname (horderly.conserved.running task htask)
  · exact horderly.queued.apart waiter hwaits (List.mem_append_left _ (List.mem_append_left _ hmem))

/-- In an orderly service every request has one task at most. -/
theorem Reaches.single (horderly : start.Orderly size) (h : (start.pool.tasks.map (·.1)).Nodup)
    (hreaches : Reaches machine OwnSlots start service) : (service.pool.tasks.map (·.1)).Nodup := by
  induction hreaches with
  | start => exact h
  | step hreaches hown hstep ih => exact step_single (horderly.later hreaches) ih hstep

/-- What a turn answers to a request. -/
def Turn.answersTo (client : Client) (turn : Turn σ) : List (Client × Outcome) :=
  turn.outcomes.filter (·.1 = client)

/-- The identities that the task of a request releases in a turn. -/
def Turn.freedBy (client : Client) (turn : Turn σ) : List Nat :=
  match turn.event with
  | .move (.task mover) =>
    if mover = client then turn.before.pool.allocator.held.filter (· ∉ turn.after.pool.allocator.held) else []
  | _ => []

theorem Turn.freedBy_other (hother : turn.event ≠ .move (.task client)) : turn.freedBy client = [] := by
  unfold freedBy
  split
  · rename_i mover hevent
    exact if_neg fun hmover => hother (by rw [hevent, hmover])
  · rfl

theorem Turn.freedBy_own (hevent : turn.event = .move (.task client)) :
    turn.freedBy client = turn.before.pool.allocator.held.filter (· ∉ turn.after.pool.allocator.held) := by
  simp [freedBy, hevent]

theorem answersTo_eq_nil (h : ∀ outcome, (client, outcome) ∉ turn.outcomes) : turn.answersTo client = [] := by
  refine List.filter_eq_nil_iff.mpr fun answer hmem hclient => h answer.2 ?_
  obtain rfl : answer.1 = client := by simpa using hclient
  exact hmem

/-- A turn that is not a step of its task leaves a request that is under way as it is: with its task, if it has
    one, and without an outcome. -/
theorem Underway.aside (h : service.Underway client kind) (hfinished : service.pool.finished = [])
    (hstep : service.step machine event = some (outcomes, after)) (hother : event ≠ .move (.task client)) :
    after.Underway client kind ∧
      ((∃ stage, (client, stage) ∈ service.pool.tasks) → ∃ stage, (client, stage) ∈ after.pool.tasks) ∧
      ∀ outcome, (client, outcome) ∉ outcomes := by
  have hsilent : ∀ outcome, (client, outcome) ∉ outcomes := by
    intro outcome hended
    obtain ⟨-, -, -, hevent, -⟩ := h.returns hfinished hstep hended
    exact hother hevent
  obtain ⟨hnamed, haway, htasks⟩ := h.turn hstep
  refine ⟨⟨hnamed, haway, fun next hmem => ?_⟩, fun ⟨stage, hmem⟩ => ?_, hsilent⟩
  · exact h.stages next ((htasks next hmem).resolve_right fun ⟨_, hevent, _⟩ => hother hevent)
  · obtain ⟨pool, hturned, hafter, rfl⟩ := step_turned hstep
    rw [hafter]
    exact (hturned.keeps hmem).resolve_right fun ⟨outcome, hended⟩ => hsilent outcome (List.mem_reverse.mpr hended)

/-- A step of the task of a doomed request. It goes on to a stage at which it is doomed as well and has its
    identity in hand, or it is over: then it has failed with the worker, and its identity is released in this
    turn. -/
theorem Underway.doomed (h : service.Underway client (Stage.Doomed id)) (horderly : service.Orderly size)
    (hsingle : (service.pool.tasks.map (·.1)).Nodup) (hdead : service.pool.workerAlive = false)
    (hstep : service.step machine (.move (.task client)) = some (outcomes, after)) :
    (after.Underway client (Stage.Doomed id) ∧ (∃ stage, (client, stage) ∈ after.pool.tasks) ∧ outcomes = [] ∧
        after.pool.allocator = service.pool.allocator) ∨
      after.Underway client (fun _ => False) ∧ outcomes = [(client, .failed Pool.workerGone)] ∧
        (⟨service, .move (.task client), outcomes, after⟩ : Turn σ).Releases id := by
  obtain ⟨hnamed, haway, -⟩ := h.turn hstep
  obtain ⟨stage, pool, hfind, hadvance, hafter, rfl⟩ := step_task hstep
  have hstage : (client, stage) ∈ service.pool.tasks := List.mem_of_find?_eq_some hfind
  have hdoomed := h.stages stage hstage
  have hheld := horderly.held hstage hdoomed.mem_ids
  rcases hadvance.doomed hdead hheld hdoomed with ⟨next, hnext, htasks, hallocator, hfinished⟩ | rfl
  · have htasks' : after.pool.tasks = (client, next) :: service.pool.tasks.eraseP (·.1 = client) := by
      rw [hafter]
      exact htasks
    refine .inl ⟨⟨hnamed, haway, fun other hmem => ?_⟩, ⟨next, htasks' ▸ List.mem_cons_self ..⟩, ?_, ?_⟩
    · rcases List.mem_cons.mp (htasks' ▸ hmem) with heq | hold
      · exact (Prod.mk.inj heq).2 ▸ hnext
      · exact h.stages other (List.mem_of_mem_eraseP hold)
    · rw [hfinished]
      exact congrArg List.reverse horderly.finished
    · rw [hafter]
      exact hallocator
  · have htasks : after.pool.tasks = service.pool.tasks.eraseP (·.1 = client) := by
      rw [hafter, Pool.release_snd]
      rfl
    refine .inr ⟨⟨hnamed, haway, fun other hmem => ?_⟩, ?_, .of_release hheld ?_⟩
    · -- there was no other task of the request
      have hsplit : (service.pool.tasks.map (·.1)).Perm
          (client :: (service.pool.tasks.eraseP (·.1 = client)).map (·.1)) := (Pool.tasks_perm hfind).map _
      exact (List.nodup_cons.mp (hsplit.nodup_iff.mp hsingle)).1 (List.mem_map_of_mem (htasks ▸ hmem))
    · rw [Pool.finish, Pool.finished_release, horderly.finished]
      rfl
    · rw [hafter, Pool.release_snd]
      rfl

/-- How a request stands that was doomed when a series of turns began. Either nothing has come of it and it is
    doomed still, or it is over: it has failed, and its identity was released. -/
inductive Lot (client : Client) (id : SlotId) (trace : List (Turn σ)) (service : Service σ) : Prop
  | waits (hunderway : service.Underway client (Stage.Doomed id))
      (htask : ∃ stage, (client, stage) ∈ service.pool.tasks) (hanswers : trace.flatMap (·.answersTo client) = [])
      (hfreed : trace.flatMap (·.freedBy client) = [])
  | settled (hunderway : service.Underway client fun _ => False)
      (hanswers : trace.flatMap (·.answersTo client) = [(client, .failed Pool.workerGone)])
      (hfreed : trace.flatMap (·.freedBy client) = [id.val])

theorem flatMap_snoc {β : Type} (f : Turn σ → List β) : (trace ++ [turn]).flatMap f = trace.flatMap f ++ f turn := by
  rw [List.flatMap_append, List.flatMap_singleton]

/-- A turn that is not the request's own adds nothing to what has come of it. -/
theorem Lot.aside (h : Lot client id trace service) (horderly : service.Orderly size)
    (hstep : service.step machine event = some (outcomes, after)) (hother : event ≠ .move (.task client)) :
    Lot client id (trace ++ [⟨service, event, outcomes, after⟩]) after ∧ ∀ outcome, (client, outcome) ∉ outcomes := by
  let turn : Turn σ := ⟨service, event, outcomes, after⟩
  have hfreed : turn.freedBy client = [] := Turn.freedBy_other hother
  have hanswer (hsilent : ∀ outcome, (client, outcome) ∉ outcomes) : turn.answersTo client = [] :=
    answersTo_eq_nil hsilent
  cases h with
  | waits hunderway htask hanswers hnone =>
    obtain ⟨hafter, hkeeps, hsilent⟩ := hunderway.aside horderly.finished hstep hother
    refine ⟨.waits hafter (hkeeps htask) ?_ ?_, hsilent⟩
    · rw [flatMap_snoc, hanswers, hanswer hsilent, List.append_nil]
    · rw [flatMap_snoc, hnone, hfreed, List.append_nil]
  | settled hunderway hanswers hreleased =>
    obtain ⟨hafter, -, hsilent⟩ := hunderway.aside horderly.finished hstep hother
    refine ⟨.settled hafter ?_ ?_, hsilent⟩
    · rw [flatMap_snoc, hanswers, hanswer hsilent, List.append_nil]
    · rw [flatMap_snoc, hreleased, hfreed, List.append_nil]

/-- A step of its own takes a doomed request further, or ends it, and then its identity is released by it. -/
theorem Lot.own (h : Lot client id trace service) (horderly : service.Orderly size)
    (hsingle : (service.pool.tasks.map (·.1)).Nodup) (hdead : service.pool.workerAlive = false)
    (hstep : service.step machine (.move (.task client)) = some (outcomes, after)) :
    Lot client id (trace ++ [⟨service, .move (.task client), outcomes, after⟩]) after ∧
      ∀ outcome, (client, outcome) ∈ outcomes →
        (⟨service, .move (.task client), outcomes, after⟩ : Turn σ).Releases id := by
  let turn : Turn σ := ⟨service, .move (.task client), outcomes, after⟩
  have hown : turn.freedBy client =
      service.pool.allocator.held.filter (· ∉ after.pool.allocator.held) := Turn.freedBy_own rfl
  cases h with
  | waits hunderway htask hanswers hnone =>
    rcases hunderway.doomed horderly hsingle hdead hstep with ⟨hafter, htask, rfl, hsame⟩ | ⟨hafter, rfl, hreleases⟩
    · refine ⟨.waits hafter htask ?_ ?_, by simp⟩
      · rw [flatMap_snoc, hanswers]
        rfl
      · rw [flatMap_snoc, hnone, hown, hsame]
        simp
    · have honce : service.pool.allocator.held.Nodup :=
        (List.nodup_append.mp horderly.conserved.balanced.complete.nodup).1
      have hheld : after.pool.allocator.held = service.pool.allocator.held.erase id.val :=
        congrArg Allocator.held hreleases.2
      refine ⟨.settled hafter ?_ ?_, fun _ _ => hreleases⟩
      · rw [flatMap_snoc, hanswers]
        simp [Turn.answersTo]
      · rw [flatMap_snoc, hnone, hown, hheld, filter_released honce hreleases.1, List.nil_append]
  | settled hunderway hanswers hreleased =>
    -- a request that is over has no task
    obtain ⟨stage, pool, hfind, -⟩ := step_task hstep
    exact (hunderway.stages stage (List.mem_of_find?_eq_some hfind)).elim

/-- Whoever is doomed stays so until it is over, and it is over once. The induction is on the turns after the
    death of the worker, and a turn is the request's own or is beside it. -/
theorem Traced.lot (horderly : start.Orderly size) (hsingle : (start.pool.tasks.map (·.1)).Nodup)
    (hdead : start.pool.workerAlive = false) (hbegun : Lot client id [] start)
    (htraced : Traced machine OwnSlots start trace service) :
    Lot client id trace service ∧
      ∀ turn ∈ trace, ∀ outcome, (client, outcome) ∈ turn.outcomes → turn.Releases id := by
  induction htraced with
  | start => exact ⟨hbegun, by simp⟩
  | @step trace service after event outcomes htraced hown hstep ih =>
    obtain ⟨hlot, hreleases⟩ := ih
    have hbefore := horderly.later htraced.reaches
    have hnext : Lot client id (trace ++ [⟨service, event, outcomes, after⟩]) after ∧
        ∀ outcome, (client, outcome) ∈ outcomes →
          (⟨service, event, outcomes, after⟩ : Turn σ).Releases id := by
      by_cases hother : event ≠ .move (.task client)
      · obtain ⟨hafter, hsilent⟩ := hlot.aside hbefore hstep hother
        exact ⟨hafter, fun outcome hmem => (hsilent outcome hmem).elim⟩
      · obtain rfl : event = .move (.task client) := not_not.mp hother
        exact hlot.own hbefore (htraced.reaches.single horderly hsingle) (htraced.silent hdead).1 hstep
    refine ⟨hnext.1, fun turn hturn => ?_⟩
    rcases List.mem_append.mp hturn with hold | hnew
    · exact hreleases turn hold
    · obtain rfl := List.mem_singleton.mp hnew
      exact hnext.2

/-- An identity that was released can be acquired. -/
theorem Turn.Releases.acquire (h : turn.Releases id) (hopen : turn.after.pool.allocator.closed = false) :
    ∃ choice allocator, turn.after.pool.allocator.acquire? choice = some (id.val, allocator) := by
  have hbefore : turn.before.pool.allocator.closed = false := by simpa [h.2] using hopen
  refine ⟨0, { turn.before.pool.allocator with held := id.val :: turn.before.pool.allocator.held.erase id.val }, ?_⟩
  simp [h.2, Allocator.acquire?, hbefore, Allocator.takePermit?, Allocator.pick, Except.toOption]

/-- What comes of a request that needs a dead worker. When the pool has settled, it has failed; it has been told so
    once, and once the identity of its slot was released, so that it can be acquired again. -/
structure Forsaken (machine : Machine σ) (client : Client) (id : SlotId) (trace : List (Turn σ))
    (service : Service σ) : Prop where
  settled : service.pool.Settled machine service.machine → Answered client trace
  told : Answered client trace → trace.flatMap (·.answersTo client) = [(client, .failed Pool.workerGone)]
  freed : Answered client trace → trace.flatMap (·.freedBy client) = [id.val]
  releases : ∀ turn ∈ trace, ∀ outcome, (client, outcome) ∈ turn.outcomes → turn.Releases id ∧
    (turn.after.pool.allocator.closed = false →
      ∃ choice allocator, turn.after.pool.allocator.acquire? choice = some (id.val, allocator))

/-- The only task of a request is at one stage. -/
theorem Orderly.begun {stage : Stage} (h : start.Orderly size) (hsingle : (start.pool.tasks.map (·.1)).Nodup)
    (hmem : (client, stage) ∈ start.pool.tasks) (hdoomed : stage.Doomed id) : Lot client id [] start := by
  refine .waits ⟨h.conserved.running _ hmem, fun hline => ?_, fun other hother => ?_⟩ ⟨stage, hmem⟩ rfl rfl
  · obtain ⟨waiter, hwaits, rfl⟩ := List.mem_map.mp hline
    exact h.queued.apart waiter hwaits
      (List.mem_append_left _ (List.mem_append_left _ (List.mem_map_of_mem hmem)))
  · obtain rfl : other = stage := (Prod.mk.inj (List.inj_on_of_nodup_map hsingle hother hmem rfl)).2
    exact hdoomed

/-- A forsaken request that was answered has had one answer, namely that the worker is gone, and has released
    its identity once. -/
theorem Lot.answered (h : Lot client id trace service) (hanswered : Answered client trace) :
    trace.flatMap (·.answersTo client) = [(client, .failed Pool.workerGone)] ∧
      trace.flatMap (·.freedBy client) = [id.val] := by
  cases h with
  | settled hunderway hanswers hfreed => exact ⟨hanswers, hfreed⟩
  | waits hunderway htask hanswers hnone =>
    obtain ⟨turn, hturn, outcome, hmem⟩ := hanswered
    have htold : (client, outcome) ∈ trace.flatMap (·.answersTo client) :=
      List.mem_flatMap.mpr ⟨turn, hturn, List.mem_filter.mpr ⟨hmem, by simp⟩⟩
    rw [hanswers] at htold
    cases htold

/-- Whoever needs a dead worker is forsaken. -/
theorem Traced.forsaken {stage : Stage} (horderly : start.Orderly size)
    (hsingle : (start.pool.tasks.map (·.1)).Nodup) (hdead : start.pool.workerAlive = false)
    (htraced : Traced machine OwnSlots start trace service) (hmem : (client, stage) ∈ start.pool.tasks)
    (hdoomed : stage.Doomed id) : Forsaken machine client id trace service := by
  obtain ⟨hlot, hreleases⟩ := htraced.lot horderly hsingle hdead (horderly.begun hsingle hmem hdoomed)
  refine ⟨htraced.answers hmem (horderly.later htraced.reaches), fun hanswered => (hlot.answered hanswered).1,
    fun hanswered => (hlot.answered hanswered).2, fun turn hturn outcome hended => ?_⟩
  have hreleased := hreleases turn hturn outcome hended
  exact ⟨hreleased, hreleased.acquire⟩

end Service
end SlotPool
