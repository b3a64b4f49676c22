import SlotPool.Proofs.Pool.Forsaken
import SlotPool.Proofs.Pool.Shutdown
import SlotPool.Proofs.Primitive.Panics
/-!
The death of the worker. A job panics at one of its calls, whichever that is, and takes the worker with it. From
then on the machine is left alone, whoever needs the worker is told that it is gone, and the pool can still be
closed.
-/

namespace SlotPool

variable {σ : Type}

/-- Where a request stands whose job is not done, as its worker is gone. -/
def Stage.vacated : Stage → Stage
  | .preparing slot _ | .resetting slot => .lost slot.id
  | .removing slot purpose => .removed slot.id [Pool.workerGone] purpose
  | stage => stage

namespace Pool

variable {machine : Machine σ} {client : Client} {pool pool' : Pool} {state state' after : σ} {stage : Stage}
  {job : Job} {slot : Slot}

/-- A job that panics takes the worker with it. The slot goes with the job, and its identity is what is left in
    hand. -/
theorem Advance.dies {α : Type} {program : SlotProgram α}
    (hadvance : Advance machine client pool state stage pool' state') (hjob : stage.job? = some (job, slot))
    (hdone : job.Done pool.egress program) (halive : pool.workerAlive = true)
    (hrun : (program.run slot).run machine state = (none, after)) :
    pool' = { pool with workerAlive := false }.follow client stage.vacated ∧ state' = after := by
  -- what the run of the same program has come to, when it was begun at all
  have hstops {β : Type} {same : SlotProgram β} {left : Pool} {end' : σ}
      (hstops : Unanswered machine same slot pool state left end')
      (hsame : (same.run slot).run machine state = (none, after)) :
      left = { pool with workerAlive := false } ∧ end' = after := by
    cases hstops with
    | gone hdead => simp [halive] at hdead
    | dies _ hended => exact ⟨rfl, (Prod.mk.inj (hended.symm.trans hsame)).2⟩
  cases hadvance with
  | prepare hended | prepareFails hended | reset hended | resetFails hended | remove hended =>
    obtain ⟨rfl, rfl⟩ := Prod.mk.inj (Option.some.inj hjob)
    cases hdone
    simp [hended] at hrun
  | prepareStops hunanswered | resetStops hunanswered | removeStops hunanswered =>
    obtain ⟨rfl, rfl⟩ := Prod.mk.inj (Option.some.inj hjob)
    cases hdone
    obtain ⟨rfl, rfl⟩ := hstops hunanswered hrun
    exact ⟨rfl, rfl⟩
  | _ => cases hjob

/-- A slot that is given to a worker that is dead, or that dies of it, is not removed. -/
theorem teardown_eq (h : (pool.submit machine (Slot.remove pool.egress).run slot state).1 = none) :
    pool.teardown machine state slot = [workerGone] := by
  rw [teardown, h]

end Pool

namespace Service

variable {machine : Machine σ} {service start : Service σ} {client : Client} {trace : List (Turn σ)}
  {turn dying : Turn σ} {slot : Slot} {call : Call} {guards : List Handle} {between : σ} {size : Nat}

/-- A turn in which the worker dies: it does a job on a slot for a request, and the job panics at a call. -/
structure Turn.Dies (machine : Machine σ) (turn : Turn σ) (client : Client) (slot : Slot) (call : Call)
    (guards : List Handle) (between : σ) : Prop where
  alive : turn.before.pool.workerAlive = true
  panics : ∃ stage job, turn.task? = some (client, stage) ∧ stage.job? = some (job, slot) ∧
    ∃ (α : Type) (program : SlotProgram α), job.Done turn.before.pool.egress program ∧
      (program.run slot).Panics machine turn.before.machine call guards between

/-- What a turn leaves in which the worker dies. The guards have taken the thread back, and the request will be told
    that the worker is gone. A closing notes it. -/
structure Turn.Buried (machine : Machine σ) (turn : Turn σ) (client : Client) (slot : Slot) (guards : List Handle)
    (between : σ) : Prop where
  vacant : turn.after.pool.workerAlive = false
  restored : turn.after.machine = Program.restore machine guards between
  outcomes : turn.outcomes = []
  request : turn.closing? = none → ∃ stage, (client, stage) ∈ turn.after.pool.tasks ∧ stage.Doomed slot.id
  closing : turn.closing? ≠ none → turn.torn machine = [(slot, [Pool.workerGone])]

/-- What the death of the worker leaves behind. The job has made its calls up to the one at which it panicked,
    its guards have taken the thread back as far as that was possible, and the request is left with nothing but
    the identity of its slot. -/
theorem Turn.Dies.buried (h : turn.Dies machine client slot call guards between)
    (hfinished : turn.before.pool.finished = [])
    (hstep : turn.before.step machine turn.event = some (turn.outcomes, turn.after)) :
    turn.Buried machine client slot guards between := by
  obtain ⟨stage, job, htask, hjob, α, program, hdone, hpanics⟩ := h.panics
  obtain ⟨hevent, hfind⟩ := Turn.task?_eq_some htask
  obtain ⟨found, pool, hfound, hadvance, hafter, houtcomes⟩ := step_task (hevent ▸ hstep)
  obtain rfl : stage = found := (Prod.mk.inj (Option.some.inj (hfind.symm.trans hfound))).2
  obtain ⟨rfl, hmachine⟩ := hadvance.dies hjob hdone h.alive hpanics.run_eq
  have htasks : (client, stage.vacated) ∈ turn.after.pool.tasks := by
    rw [hafter]
    exact List.mem_cons_self ..
  have hvacant : turn.after.pool.workerAlive = false := by
    rw [hafter]
    rfl
  have hsilent : turn.outcomes = [] := by
    rw [houtcomes]
    exact congrArg List.reverse hfinished
  have hidle (hphase : stage.phase? = none) : turn.closing? = none := by
    simp [Turn.closing?, hevent, hfind, hphase]
  cases stage with
  | preparing | resetting =>
    obtain ⟨rfl, rfl⟩ := Prod.mk.inj (Option.some.inj hjob)
    exact ⟨hvacant, hmachine, hsilent, fun _ => ⟨_, htasks, rfl⟩, fun hsome => (hsome (hidle rfl)).elim⟩
  | removing given purpose =>
    obtain ⟨rfl, rfl⟩ := Prod.mk.inj (Option.some.inj hjob)
    cases purpose with
    | putBack =>
      exact ⟨hvacant, hmachine, hsilent, fun _ => ⟨_, htasks, rfl, rfl⟩, fun hsome => (hsome (hidle rfl)).elim⟩
    | drain source failures =>
      have hclosing : turn.closing? = some (.removing given (.drain source failures)) :=
        Turn.closing?_eq hevent hfind rfl
      refine ⟨hvacant, hmachine, hsilent, fun hnone => by simp [hclosing] at hnone, fun _ => ?_⟩
      cases hdone
      have hsubmit : (turn.before.pool.submit machine (Slot.remove turn.before.pool.egress).run given
          turn.before.machine).1 = none := by
        rw [Pool.submit, if_pos h.alive, hpanics.run_eq]
      rw [Turn.torn, hclosing]
      simp only [Pool.teardown_eq hsubmit]
  | _ => cases hjob

/-- What happens in a service whose worker is dead. No call is ever made. Whoever needs the worker at some moment is
    forsaken: a request that then has a slot for which it needs the worker, a request that takes a slot from a
    queue, and a request that hands back a slot. A closing notes for each slot that the worker is gone. -/
structure Vacated (machine : Machine σ) (start : Service σ) (trace : List (Turn σ)) (service : Service σ) : Prop where
  silent : ∀ turn ∈ trace, turn.Silent ∧ turn.after.machine = start.machine
  doomed : ∀ passed moment rest, trace = passed ++ rest → Traced machine OwnSlots start passed moment →
    Traced machine OwnSlots moment rest service → ∀ client stage id, (client, stage) ∈ moment.pool.tasks →
      stage.Doomed id → Forsaken machine client id rest service
  gets : ∀ passed turn rest, trace = passed ++ turn :: rest → ∀ client source, (client, source) ∈ turn.taken →
    ∃ slot policy, (client, .received slot source policy) ∈ turn.after.pool.tasks ∧
      Forsaken machine client slot.id rest service
  returns : ∀ passed turn rest, trace = passed ++ turn :: rest → ∀ client entry,
    turn.event = .putBack client entry → Forsaken machine client entry.2.id rest service
  torn : ∀ turn ∈ trace, ∀ torn ∈ turn.torn machine, torn.2 = [Pool.workerGone]

/-- Whoever has taken a slot has it. -/
theorem exists_received {pool : Pool} {source : Source} (h : (client, source) ∈ pool.taking) :
    ∃ slot policy, (client, .received slot source policy) ∈ pool.tasks := by
  obtain ⟨⟨name, stage⟩, hmem, hsome⟩ := List.mem_filterMap.mp h
  obtain ⟨found, htaken, heq⟩ := Option.map_eq_some_iff.mp hsome
  obtain ⟨rfl, rfl⟩ := Prod.mk.inj heq
  cases stage with
  | received slot origin policy =>
    obtain rfl := Option.some.inj htaken
    exact ⟨slot, policy, hmem⟩
  | _ => cases htaken

/-- From the death of the worker on no call is made to the machine, whatever happens, and whoever needs the
    worker is told that it is gone. -/
theorem Traced.vacated (horderly : start.Orderly size) (hsingle : (start.pool.tasks.map (·.1)).Nodup)
    (hdead : start.pool.workerAlive = false) (htraced : Traced machine OwnSlots start trace service) :
    Vacated machine start trace service := by
  -- a request that is doomed at some moment of the series
  have hdoomed {passed rest : List (Turn σ)} {moment : Service σ} {name : Client} {stage : Stage} {id : SlotId}
      (hpassed : Traced machine OwnSlots start passed moment) (hrest : Traced machine OwnSlots moment rest service)
      (hmem : (name, stage) ∈ moment.pool.tasks) (hdoomed : stage.Doomed id) :
      Forsaken machine name id rest service :=
    hrest.forsaken (horderly.later hpassed.reaches) (hpassed.reaches.single horderly hsingle)
      (hpassed.silent hdead).1 hmem hdoomed
  refine ⟨(htraced.silent hdead).2.2, fun passed moment rest _ hpassed hrest name stage id => hdoomed hpassed hrest,
    ?_, ?_, fun turn hturn torn htorn => ?_⟩
  · rintro passed turn rest rfl name source htaken
    obtain ⟨hpassed, hown, hstep, hrest⟩ := htraced.cut
    obtain ⟨given, policy, hmem⟩ := exists_received (List.mem_of_mem_filter htaken)
    exact ⟨given, policy, hmem, hdoomed (hpassed.step hown hstep) hrest hmem rfl⟩
  · rintro passed turn rest rfl name entry hevent
    obtain ⟨hpassed, hown, hstep, hrest⟩ := htraced.cut
    obtain ⟨-, hmem⟩ := putBack_begins (horderly.later hpassed.reaches).conserved (hevent ▸ hstep)
    exact hdoomed (hpassed.step hown hstep) hrest hmem rfl
  · obtain ⟨hreaches, -⟩ := htraced.turn turn hturn
    obtain ⟨passed, hpassed⟩ := hreaches.traced
    have hvacant := (hpassed.silent hdead).1
    rw [Turn.torn] at htorn
    split at htorn
    · obtain rfl := List.mem_singleton.mp htorn
      exact Pool.teardown_eq (by rw [Pool.submit_vacant hvacant])
    · cases htorn

/-- A closing is over when the pool has settled, and then the queues are empty and the filling task has ended. -/
theorem Traced.closing {earlier later : List (Turn σ)} {asking : Turn σ} (hstart : start.Orderly size)
    (hbegun : Progress machine [] start)
    (htraced : Traced machine OwnSlots start (earlier ++ asking :: later) service)
    (hasking : asking.event = .close client) (hfirst : asking.before.pool.closeAsked = false) :
    (service.pool.Settled machine service.machine → Answered client later) ∧
    ∀ passed turn rest outcome, later = passed ++ turn :: rest → (client, outcome) ∈ turn.outcomes →
      service.Emptied ∧ Disposed machine (earlier ++ asking :: (passed ++ [turn])) outcome := by
  obtain ⟨hearlier, hown, hstep, hafter⟩ := htraced.cut
  have horderly := hstart.later htraced.reaches
  obtain ⟨hunderway, htask⟩ := close_begins (hstart.later hearlier.reaches).conserved hfirst (hasking ▸ hstep)
  refine ⟨hafter.answers htask horderly, ?_⟩
  rintro passed turn rest outcome rfl hended
  have hwhole : earlier ++ asking :: (passed ++ turn :: rest) = (earlier ++ asking :: passed) ++ turn :: rest := by
    simp
  obtain ⟨hbefore, hownTurn, hstepTurn, hrest⟩ := (hwhole ▸ htraced).cut
  have hends := hunderway.later (fun _ _ h hleads => hleads.closes h) hafter.cut.1.reaches
  obtain ⟨-, hemptied, hdisposed⟩ := hends.closed hstart hbegun (hbefore.step hownTurn hstepTurn) hended
  exact ⟨horderly.emptied (hemptied.shut.later hrest.reaches.later), by simpa using hdisposed⟩

/-- The death of the worker, in whatever state of the pool, and at whatever call a job panics. The guards that are
    alive at the call take the thread back, and then no call is ever made again. Every request that needs the worker
    then or later fails as the worker is gone, and the identity of its slot is released once. The pool still comes
    to rest, and it can be closed before or after: its queues are emptied then, and its filling task ends. -/
theorem Traced.workerDeath {config : Config} {cancelled : Bool} {registry registry' : Registry} {state state' : σ}
    {pool : Pool} {earlier later : List (Turn σ)}
    (hopen : Pool.openWith machine config cancelled registry state = (.ok (.ok pool), registry', state'))
    (htraced : Traced machine OwnSlots (opened pool state') (earlier ++ dying :: later) service)
    (hdies : dying.Dies machine client slot call guards between) :
    dying.Buried machine client slot guards between ∧ Vacated machine dying.after later service ∧
    service.ComesToRest machine ∧
    ∀ front asking behind name, earlier ++ dying :: later = front ++ asking :: behind →
      asking.event = .close name → asking.before.pool.closeAsked = false →
      (service.pool.Settled machine service.machine → Answered name behind) ∧
      ∀ passed turn rest outcome, behind = passed ++ turn :: rest → (name, outcome) ∈ turn.outcomes →
        service.Emptied ∧ Disposed machine (front ++ asking :: (passed ++ [turn])) outcome := by
  obtain ⟨hvalid, egress, -, rfl⟩ := Pool.openWith_ok hopen
  have hstart : (opened (Pool.opened config egress cancelled) state').Orderly config.maxSlots :=
    opened_orderly (Config.maxSlots_le_of_validate hvalid)
  obtain ⟨hbefore, hown, hstep, hlater⟩ := htraced.cut
  have hburied := hdies.buried (hstart.later hbefore.reaches).finished hstep
  have hafter := hbefore.step hown hstep
  refine ⟨hburied, ?_, (hstart.later htraced.reaches).comesToRest, ?_⟩
  · exact hlater.vacated (hstart.later hafter.reaches) (hafter.reaches.single hstart List.nodup_nil) hburied.vacant
  · intro front asking behind name hwhole hasking hfirst
    exact (hwhole ▸ htraced).closing hstart (opened_progress ..) hasking hfirst

/-- A service on a machine that kills the worker when it makes its first tap. -/
def deadlyService : Service (Rehearsal World) :=
  opened (Pool.opened .small "eth0" false) ((Rehearsal.start World.fresh).order ⟨"add_tap", 0, 1, none⟩)

/-- The events by which a slot is about to be made ready for a request, and another slot is queued. -/
def aboutToPrepare : List Event := (firstRequest .allowed).dropLast ++ List.replicate 3 (.move (.populate 0))

/-- The worker of such a service dies as it prepares the first slot, in the namespace of the slot. That the job
    has no result is computed, and a run without a result ends at a call that has killed the thread. -/
theorem dies_deadlyService {turn : Turn (Rehearsal World)}
    (hrun : deadlyService.run (Rehearsal.rehearsing World.machine) aboutToPrepare = some turn.before)
    (hevent : turn.event = .move (.task "first")) :
    ∃ call guards between, turn.Dies (Rehearsal.rehearsing World.machine) "first" (.fresh 0) call guards between := by
  obtain ⟨halive, hfind, hegress, hrun⟩ :=
    (by decide +kernel : ∀ service ∈ deadlyService.run (Rehearsal.rehearsing World.machine) aboutToPrepare,
      service.pool.workerAlive = true ∧
      (service.pool.tasks.find? (·.1 = "first")).map (fun task => (task.1, task.2.job?)) =
        some ("first", some (.prepare .allowed, .fresh 0)) ∧ service.pool.egress = "eth0" ∧
      (((Slot.prepare "eth0" .allowed).run.run (.fresh 0)).run (Rehearsal.rehearsing World.machine)
        service.machine).1.isNone = true) _ hrun
  obtain ⟨⟨client, stage⟩, hfound, heq⟩ := Option.map_eq_some_iff.mp hfind
  obtain ⟨rfl, hjob⟩ := Prod.mk.inj heq
  obtain ⟨call, guards, between, hpanics, -⟩ := Program.exists_panics (Prod.ext (Option.isNone_iff_eq_none.mp hrun) rfl)
  refine ⟨call, guards, between, halive, stage, _, ?_, hjob, _, _, hegress ▸ .prepare .allowed, hpanics⟩
  rw [Turn.task?, hevent]
  exact hfound

/-- The worker of such a service dies, the request for which it has died goes on, and then the pool is closed. -/
theorem deadlyService_course : ∃ earlier dying telling asking passed ending service,
    Traced (Rehearsal.rehearsing World.machine) OwnSlots deadlyService
      (earlier ++ dying :: telling :: asking :: (passed ++ [ending])) service ∧
    earlier.map (·.event) = aboutToPrepare ∧ dying.event = .move (.task "first") ∧
    telling.event = .move (.task "first") ∧ asking.event = .close "end" ∧
    passed.map (·.event) = closingMoves ∧ ending.event = .move (.task "end") := by
  let events : List Event := aboutToPrepare ++ .move (.task "first") :: .move (.task "first") :: .close "end" ::
    (closingMoves ++ [.move (.task "end")])
  obtain ⟨service, hrun⟩ := Option.isSome_iff_exists.mp
    (show (deadlyService.run (Rehearsal.rehearsing World.machine) events).isSome by decide +kernel)
  have hown : ∀ passed event, passed ++ [event] <+: events → ∀ between : Service (Rehearsal World),
      deadlyService.run (Rehearsal.rehearsing World.machine) passed = some between → OwnSlots between event := by
    intro passed event hpassed between _ client id heq
    have hmem := hpassed.subset (List.mem_append_right passed (List.mem_singleton_self event))
    simp [heq, events, aboutToPrepare, closingMoves, firstRequest] at hmem
  obtain ⟨trace, htraced, hevents⟩ := Traced.of_run hown hrun
  obtain ⟨earlier, rest, rfl, hearlier, hrest⟩ := List.map_eq_append_iff.mp hevents
  obtain ⟨dying, rest, rfl, hdying, hrest⟩ := List.map_eq_cons_iff.mp hrest
  obtain ⟨telling, rest, rfl, htelling, hrest⟩ := List.map_eq_cons_iff.mp hrest
  obtain ⟨asking, rest, rfl, hasking, hrest⟩ := List.map_eq_cons_iff.mp hrest
  obtain ⟨passed, rest, rfl, hpassed, hrest⟩ := List.map_eq_append_iff.mp hrest
  obtain ⟨ending, rest, rfl, hending, hnil⟩ := List.map_eq_cons_iff.mp hrest
  obtain rfl := List.map_eq_nil_iff.mp hnil
  exact ⟨earlier, dying, telling, asking, passed, ending, service, htraced, hearlier, hdying, htelling, hasking,
    hpassed, hending⟩

/-- In that course the request is told of the death, the closing is the first one, and it is over in the end.
    These are the conditions under which the general statement speaks of the pool after the death. -/
theorem deadlyService_told {earlier passed : List (Turn (Rehearsal World))}
    {dying telling asking ending : Turn (Rehearsal World)} {service : Service (Rehearsal World)}
    (htraced : Traced (Rehearsal.rehearsing World.machine) OwnSlots deadlyService
      (earlier ++ dying :: telling :: asking :: (passed ++ [ending])) service)
    (hearlier : earlier.map (·.event) = aboutToPrepare) (hdying : dying.event = .move (.task "first"))
    (htelling : telling.event = .move (.task "first")) (hasking : asking.event = .close "end")
    (hpassed : passed.map (·.event) = closingMoves) (hending : ending.event = .move (.task "end")) :
    dying.closing? = none ∧ (∃ outcome, ("first", outcome) ∈ telling.outcomes) ∧
      asking.before.pool.closeAsked = false ∧ ∃ result, ("end", result) ∈ ending.outcomes := by
  refine ⟨?_, ?_, ?_, ?_⟩
  · rw [Turn.closing?, hdying]
    exact (by decide +kernel : ∀ service ∈ deadlyService.run (Rehearsal.rehearsing World.machine) aboutToPrepare,
      (((service.pool.tasks.find? (·.1 = "first")).map (·.2)).filter (·.phase?.isSome)) = none) _
        (hearlier ▸ htraced.cut.1.run)
  · have hcourse : (earlier ++ [dying]).map (·.event) = aboutToPrepare ++ [.move (.task "first")] := by
      simp [hearlier, hdying]
    have hcut : earlier ++ dying :: telling :: asking :: (passed ++ [ending]) =
        (earlier ++ [dying]) ++ telling :: asking :: (passed ++ [ending]) := by simp
    exact (hcut ▸ htraced).handsOver hcourse htelling (by decide +kernel)
  · have hcourse : (earlier ++ [dying, telling]).map (·.event) =
        aboutToPrepare ++ [.move (.task "first"), .move (.task "first")] := by simp [hearlier, hdying, htelling]
    have hcut : earlier ++ dying :: telling :: asking :: (passed ++ [ending]) =
        (earlier ++ [dying, telling]) ++ asking :: (passed ++ [ending]) := by simp
    exact (by decide +kernel : ∀ service ∈ deadlyService.run (Rehearsal.rehearsing World.machine)
      (aboutToPrepare ++ [.move (.task "first"), .move (.task "first")]), service.pool.closeAsked = false) _
        (hcourse ▸ (hcut ▸ htraced).cut.1.run)
  · have hcourse : (earlier ++ dying :: telling :: asking :: passed).map (·.event) =
        aboutToPrepare ++ .move (.task "first") :: .move (.task "first") :: .close "end" :: closingMoves := by
      simp [hearlier, hdying, htelling, hasking, hpassed]
    have hcut : earlier ++ dying :: telling :: asking :: (passed ++ [ending]) =
        (earlier ++ dying :: telling :: asking :: passed) ++ [ending] := by simp
    exact (hcut ▸ htraced).handsOver hcourse hending (by decide +kernel)

/-- After the death of the worker, the request for which it has died fails, and the pool is closed with a slot in
    its queues. -/
theorem workerDeath_oneQueued : ∃ earlier dying later service call guards between,
    Traced (Rehearsal.rehearsing World.machine) OwnSlots deadlyService (earlier ++ dying :: later) service ∧
    dying.Dies (Rehearsal.rehearsing World.machine) "first" (.fresh 0) call guards between ∧
    dying.after.machine = Program.restore (Rehearsal.rehearsing World.machine) guards between ∧
    later.flatMap (·.answersTo "first") = [("first", .failed Pool.workerGone)] ∧
    later.flatMap (·.freedBy "first") = [0] ∧ service.Emptied := by
  obtain ⟨earlier, dying, telling, asking, passed, ending, service, htraced, hearlier, hdying, htelling, hasking,
    hpassed, hending⟩ := deadlyService_course
  obtain ⟨hnone, ⟨outcome, htold⟩, hfirst, result, hover⟩ :=
    deadlyService_told htraced hearlier hdying htelling hasking hpassed hending
  obtain ⟨hbefore, -, -, hlater⟩ := htraced.cut
  obtain ⟨call, guards, between, hdies⟩ := dies_deadlyService (hearlier ▸ hbefore.run) hdying
  obtain ⟨hburied, hvacated, -, hcloses⟩ := htraced.workerDeath (Pool.openWith_small _ _) hdies
  -- the request for which the worker has died
  obtain ⟨stage, hmem, hdoomed⟩ := hburied.request hnone
  have hforsaken := hvacated.doomed [] dying.after _ rfl .start hlater "first" stage 0 hmem hdoomed
  have hanswered : Answered "first" (telling :: asking :: (passed ++ [ending])) :=
    ⟨telling, List.mem_cons_self .., outcome, htold⟩
  -- the closing
  have hwhole : earlier ++ dying :: telling :: asking :: (passed ++ [ending]) =
      (earlier ++ [dying, telling]) ++ asking :: (passed ++ [ending]) := by simp
  have hemptied := ((hcloses _ asking _ "end" hwhole hasking hfirst).2 passed ending [] result rfl hover).1
  exact ⟨earlier, dying, _, service, call, guards, between, htraced, hdies, hburied.restored, hforsaken.told hanswered,
    hforsaken.freed hanswered, hemptied⟩

end Service
end SlotPool
