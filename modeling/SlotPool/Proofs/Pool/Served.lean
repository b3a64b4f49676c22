import SlotPool.Proofs.Pool.Stock
/-!
Who is served, turn by turn. Requests for a slot are served in the order in which they were made: whoever
takes a slot is first in line, and a request that gives up leaves the others where they are.
-/

namespace SlotPool

variable {σ : Type}

/-- The queue from which a request has just taken a slot, at the stage it then is at. -/
def Stage.taken? : Stage → Option Source
  | .received _ source _ => some source
  | _ => none

theorem Stage.Leads.taken? {stage next : Stage} (h : stage.Leads next) : next.taken? = none := by
  cases h <;> rfl

/-- The request for a slot that an event makes. -/
def Service.Event.asks? : Service.Event → Option Client
  | .get client _ _ => some client
  | _ => none

namespace Pool

/-- The requests in line, the first one first. -/
def line (pool : Pool) : List Client := pool.waiting.map (·.client)

/-- The requests that have just taken a slot, and from which queue. -/
def taking (pool : Pool) : List (Client × Source) :=
  pool.tasks.filterMap fun task => task.2.taken?.map (task.1, ·)

variable {machine : Machine σ} {client : Client} {pool pool' : Pool} {state state' : σ} {stage : Stage}
  {event : Service.Event}

theorem mem_taking {source : Source} (h : (client, source) ∈ pool.taking) :
    ∃ task ∈ pool.tasks, task.1 = client := by
  obtain ⟨task, hmem, hsome⟩ := List.mem_filterMap.mp h
  obtain ⟨found, -, heq⟩ := Option.map_eq_some_iff.mp hsome
  exact ⟨task, hmem, congrArg Prod.fst heq⟩

/-- A task that goes on takes no slot from a queue. -/
theorem Advance.taking (hadvance : Advance machine client pool state stage pool' state') :
    pool'.taking = pool.taking := by
  rcases hadvance.goesOn with ⟨next, htasks, hleads⟩ | ⟨htasks, -, -⟩
  · rw [Pool.taking, htasks, List.filterMap_cons_none (by rw [hleads.taken?]; rfl), Pool.taking]
  · rw [Pool.taking, htasks, Pool.taking]

/-- What a turn does to the line, and what comes of a request that leaves it. -/
inductive Lines (pool : Pool) (event : Service.Event) (outcomes : List (Client × Outcome)) (pool' : Pool) : Prop
  /-- nobody leaves the line, and only a new request joins it -/
  | stays (htaking : pool'.taking.Sublist pool.taking) (hline : pool'.line = pool.line ++ event.asks?.toList)
  /-- a request is sent away, wherever it stands -/
  | leaves {waiter} (hwaits : waiter ∈ pool.waiting) (hover : waiter.cancelled = false → pool.cancelled = true)
      (houtcomes : outcomes = [(waiter.client, .failed (if waiter.cancelled then .cancelled else .closed))])
      (htaking : pool'.taking = pool.taking) (hwaiting : pool'.waiting = pool.waiting.erase waiter)
      (hevent : event = .move (.waiter waiter.client))
  /-- a new request that would have to wait is sent away before it joins the line -/
  | declines {client policy cancelled} (hevent : event = .get client policy cancelled)
      (hover : cancelled = false → pool.cancelled = true)
      (houtcomes : outcomes = [(client, .failed (if cancelled then .cancelled else .closed))])
      (htaking : pool'.taking = pool.taking) (hwaiting : pool'.waiting = pool.waiting)
  /-- whoever is first takes a slot, a reused one if there is one -/
  | takes {client source} (hnew : ∀ other, (client, other) ∉ pool.taking)
      (htaking : pool'.taking = (client, source) :: pool.taking)
      (hline : pool.line ++ event.asks?.toList = client :: pool'.line)
      (hsource : source = .new → pool.reusedQueue = []) (hgoing : pool.waiting ≠ [] → pool.cancelled = false)

/-- A step of a request in line sends it away, wherever it stands, or serves it, if it is first. The others stay
    in their order. -/
theorem Waiting.lines (hwaiting : Waiting client pool pool') (hfinished : pool.finished = [])
    (hnew : ∀ name ∈ pool.line, ∀ source, (name, source) ∉ pool.taking) :
    Lines pool (.move (.waiter client)) pool'.finished.reverse { pool' with finished := [] } := by
  cases hwaiting with
  | @giveUp waiter hwaiter hclient hcancelled =>
    refine .leaves hwaiter (by simp [hcancelled]) ?_ rfl rfl (by rw [hclient])
    simp [finish, hfinished, hclient, hcancelled]
  | @sendAway waiter hwaiter hclient hwanted hover =>
    refine .leaves hwaiter (fun _ => hover) ?_ rfl rfl (by rw [hclient])
    simp [finish, hfinished, hclient, hwanted]
  | @serve waiter source slot rest hwaiter hclient hqueue hwanted hgoing hfirst hreused =>
    subst hclient
    obtain ⟨behind, hline⟩ := List.head?_eq_some_iff.mp hfirst
    have hleft : pool.waiting.erase waiter = behind := by rw [hline, List.erase_cons_head]
    have hname : waiter.client ∈ pool.line := List.mem_map_of_mem hwaiter
    refine .takes (hnew _ hname) (by cases source <;> rfl) ?_ hreused fun _ => hgoing
    cases source <;> simp [line, setQueue, follow, hline, Service.Event.asks?]

/-- What an event does to the line. Only a request that is new or stands in line can take a slot, and none of
    these has just taken one. -/
theorem Turned.lines (hturned : Turned machine pool state event pool' state') (hfinished : pool.finished = [])
    (hnew : ∀ name ∈ pool.line ++ event.asks?.toList, ∀ source, (name, source) ∉ pool.taking) :
    Lines pool event pool'.finished.reverse { pool' with finished := [] } := by
  -- the line as it was, for an event that is no request for a slot
  have hsame {taken : Pool} (hasks : event.asks? = none) (htaking : taken.taking.Sublist pool.taking)
      (hwaiting : taken.waiting.map (·.client) = pool.waiting.map (·.client)) :
      Lines pool event taken.finished.reverse { taken with finished := [] } :=
    .stays htaking (by rw [hasks]; exact hwaiting.trans (List.append_nil _).symm)
  cases hturned with
  | move hstepping =>
    cases hstepping with
    | @task client stage pool' state' hfind hadvance =>
      refine hsame rfl ?_ (congrArg _ hadvance.waiting)
      rw [hadvance.taking]
      exact List.eraseP_sublist.filterMap _
    | populate hstocking =>
      refine hsame rfl ?_ (congrArg _ hstocking.waiting)
      rw [taking, hstocking.tasks, taking]
    | waiter hwaiting => exact hwaiting.lines hfinished fun name hname => hnew name (List.mem_append_left _ hname)
  | @get client policy cancelled pool' hasking =>
    cases hasking with
    | take hqueue hline =>
      refine .takes (hnew client (by simp [Service.Event.asks?])) rfl ?_ (by simp) (by simp [hline])
      simp [line, follow, hline, Service.Event.asks?]
    | decline hnone hover => exact .declines rfl hover (by simp [finish, hfinished]) rfl rfl
    | join => exact .stays (List.Sublist.refl _) List.map_append
  | cancel =>
    refine hsame rfl (List.Sublist.refl _) ?_
    simp only [Pool.cancel, List.map_map]
    exact List.map_congr_left fun waiter _ => by simp only [Function.comp]; split <;> rfl
  | close hasking => cases hasking <;> exact hsame rfl (List.Sublist.refl _) rfl
  | putBack | putBackNumber | lose | cancelLifetime => exact hsame rfl (List.Sublist.refl _) rfl

/-- A request is found and erased by its name wherever it stands in line, since nobody else there has that name.
    -/
theorem erase_middle (ahead behind : List Waiter) (waiter : Waiter)
    (honce : ((ahead ++ waiter :: behind).map (·.client)).Nodup) :
    (ahead ++ waiter :: behind).find? (·.client = waiter.client) = some waiter ∧
      (ahead ++ waiter :: behind).erase waiter = ahead ++ behind := by
  have hahead : ∀ other ∈ ahead, other.client ≠ waiter.client := by
    rw [List.map_append, List.map_cons] at honce
    intro other hmem heq
    exact (List.nodup_append.mp honce).2.2 _ (List.mem_map_of_mem hmem) _ (List.mem_cons_self ..) heq
  constructor
  · rw [List.find?_append, List.find?_eq_none.mpr (by simpa using hahead), List.find?_cons]
    simp
  · rw [List.erase_append_right _ fun hmem => hahead waiter hmem rfl, List.erase_cons_head]

/-- Cancelling a request changes nothing of the others: it keeps its place until it goes by itself. -/
theorem cancel_middle {ahead behind : List Waiter} {waiter : Waiter}
    (hline : pool.waiting = ahead ++ waiter :: behind) (honce : (pool.waiting.map (·.client)).Nodup) :
    (pool.cancel waiter.client).waiting = ahead ++ { waiter with cancelled := true } :: behind := by
  rw [hline, List.map_append, List.map_cons] at honce
  have hothers := List.nodup_append.mp honce
  have hkeep (others : List Waiter) (hapart : ∀ other ∈ others, other.client ≠ waiter.client) :
      others.map (fun other => if other.client = waiter.client then { other with cancelled := true } else other) =
        others := by
    conv_rhs => rw [← List.map_id others]
    exact List.map_congr_left fun other hmem => if_neg (hapart other hmem)
  simp only [Pool.cancel, hline, List.map_append, List.map_cons, if_true]
  rw [hkeep ahead fun other hmem heq => hothers.2.2 _ (List.mem_map_of_mem hmem) _ (List.mem_cons_self ..) heq,
    hkeep behind fun other hmem heq => (List.nodup_cons.mp hothers.2.1).1 (heq ▸ List.mem_map_of_mem hmem)]

/-- A request that is cancelled, or whose pool's lifetime is over, can be sent away wherever it stands. -/
theorem stepWaiter_over {ahead behind : List Waiter} {waiter : Waiter}
    (hline : pool.waiting = ahead ++ waiter :: behind) (honce : (pool.waiting.map (·.client)).Nodup)
    (hover : waiter.cancelled = false → pool.cancelled = true) :
    pool.stepWaiter waiter.client = some ({ pool with waiting := ahead ++ behind }.finish waiter.client
      (.failed (if waiter.cancelled then .cancelled else .closed))) := by
  rw [hline] at honce
  obtain ⟨hfind, herase⟩ := erase_middle ahead behind waiter honce
  simp only [stepWaiter, hline, hfind, herase]
  cases hcancelled : waiter.cancelled with
  | true => rfl
  | false => simp [hover hcancelled]

end Pool

namespace Service

variable {machine : Machine σ} {allowed : Service σ → Event → Prop} {start service after : Service σ}
  {event : Event} {outcomes : List (Client × Outcome)} {size : Nat} {trace : List (Turn σ)}

/-- The requests that take a slot in a turn, and from which queue. -/
def Turn.taken (turn : Turn σ) : List (Client × Source) :=
  turn.after.pool.taking.filter (· ∉ turn.before.pool.taking)

/-- Only the request that is new among those that have just taken a slot takes one in a turn. -/
theorem Turn.taken_eq {turn : Turn σ} {client : Client} {source : Source}
    (hnew : ∀ other, (client, other) ∉ turn.before.pool.taking)
    (htaking : turn.after.pool.taking = (client, source) :: turn.before.pool.taking) :
    turn.taken = [(client, source)] := by
  rw [Turn.taken, htaking, List.filter_cons_of_pos (by simpa using hnew source)]
  exact congrArg _ (List.filter_eq_nil_iff.mpr fun entry hmem => by simpa using hmem)

/-- What a turn does to the line. -/
def Turn.Lines (turn : Turn σ) : Prop := turn.before.pool.Lines turn.event turn.outcomes turn.after.pool

/-- What a turn does to the line. A request in line has no task, so whoever takes a slot by the turn is told
    from all that have just taken one before. -/
theorem step_lines (hconserved : service.Conserved size) (hqueued : service.Queued)
    (hfinished : service.pool.finished = []) (hstep : service.step machine event = some (outcomes, after)) :
    service.pool.Lines event outcomes after.pool := by
  obtain ⟨hfresh, -⟩ := step_cases hstep
  obtain ⟨pool, hturned, hafter, rfl⟩ := step_turned hstep
  rw [hafter]
  refine hturned.lines hfinished fun name hname source htaking => ?_
  obtain ⟨task, hmem, rfl⟩ := Pool.mem_taking htaking
  rcases List.mem_append.mp hname with hwaits | hasks
  · obtain ⟨waiter, hwaits, hclient⟩ := List.mem_map.mp hwaits
    refine hqueued.apart waiter hwaits (List.mem_append_left _ (List.mem_append_left _ ?_))
    exact hclient ▸ List.mem_map_of_mem hmem
  · refine hfresh task.1 ?_ (hconserved.running task hmem)
    cases event with
    | get => simpa [Event.asks?, Event.request?, eq_comm] using hasks
    | _ => cases hasks

/-- Whoever takes a slot in a turn is first, and nobody gets ahead of anybody else. Those who took a slot and
    those who are left are, in this order, some of those who were in line, with a new one at the end. -/
theorem Turn.Lines.order {turn : Turn σ} (h : turn.Lines) :
    (turn.taken.map Prod.fst ++ turn.after.pool.line).Sublist
      (turn.before.pool.line ++ turn.event.asks?.toList) := by
  have hnone (htaking : ∀ entry ∈ turn.after.pool.taking, entry ∈ turn.before.pool.taking) :
      turn.taken = [] := List.filter_eq_nil_iff.mpr fun entry hmem => by simpa using htaking entry hmem
  cases h with
  | stays htaking hline => rw [hnone fun entry hmem => htaking.subset hmem, hline]; exact List.Sublist.refl _
  | leaves hwaits hover houtcomes htaking hwaiting hevent =>
    rw [hnone fun entry hmem => htaking ▸ hmem, Pool.line, hwaiting]
    exact (List.erase_sublist.map _).trans (List.sublist_append_left _ _)
  | declines hevent hover houtcomes htaking hwaiting =>
    rw [hnone fun entry hmem => htaking ▸ hmem, Pool.line, hwaiting]
    exact List.sublist_append_left _ _
  | @takes client source hnew htaking hline =>
    rw [Turn.taken_eq hnew htaking, hline]
    exact List.Sublist.refl _

/-- An event notes whether its request asks for a slot. -/
theorem Applied.asked {applied : Service σ} (happlied : Applied machine service event applied) :
    applied.asked.map Prod.fst = event.asks?.toList ++ service.asked.map Prod.fst := by
  cases happlied with
  | handBack hgives => cases hgives <;> rfl
  | _ => rfl

/-- A turn notes the name of the request that it makes, and whether it asks for a slot. -/
theorem step_records (hstep : service.step machine event = some (outcomes, after)) :
    after.named = event.request?.toList ++ service.named ∧
      after.asked.map Prod.fst = event.asks?.toList ++ service.asked.map Prod.fst := by
  obtain ⟨-, applied, happlied, -, rfl⟩ := step_cases hstep
  exact ⟨happlied.named, happlied.asked⟩

/-- In a run from an empty line, all that took a slot and all that wait stand in the order in which they
    asked. -/
theorem Traced.order (htraced : Traced machine allowed start trace service) (hline : start.pool.line = [])
    (hlines : ∀ turn ∈ trace, turn.Lines) :
    ((trace.flatMap Turn.taken).map Prod.fst ++ service.pool.line).Sublist
      (service.asked.reverse.map Prod.fst) := by
  induction htraced with
  | start => rw [hline]; exact List.nil_sublist _
  | @step trace service after event outcomes htraced hallowed hstep ih =>
    have hbefore := ih fun turn hmem => hlines turn (List.mem_append_left _ hmem)
    have hturn := (hlines ⟨service, event, outcomes, after⟩ (by simp)).order
    have hasked : after.asked.reverse.map Prod.fst =
        service.asked.reverse.map Prod.fst ++ event.asks?.toList := by
      rw [List.map_reverse, (step_records hstep).2, List.reverse_append, List.map_reverse]
      cases event.asks? <;> rfl
    have htaken (turn : Turn σ) : ((trace ++ [turn]).flatMap Turn.taken).map Prod.fst =
        (trace.flatMap Turn.taken).map Prod.fst ++ turn.taken.map Prod.fst := by
      simp [List.flatMap_append]
    rw [hasked, htaken, List.append_assoc]
    have hjoined := hbefore.append_right event.asks?.toList
    rw [List.append_assoc] at hjoined
    exact (hturn.append_left _).trans hjoined

/-- A request that is sent away leaves the line, and nothing else changes. -/
theorem step_over {ahead behind : List Waiter} {waiter : Waiter} (hfinished : service.pool.finished = [])
    (hline : service.pool.waiting = ahead ++ waiter :: behind)
    (honce : (service.pool.waiting.map (·.client)).Nodup)
    (hover : waiter.cancelled = false → service.pool.cancelled = true) :
    service.step machine (.move (.waiter waiter.client)) =
      some ([(waiter.client, .failed (if waiter.cancelled then .cancelled else .closed))],
        service.withPool { service.pool with waiting := ahead ++ behind }) := by
  simp [Service.step, Event.request?, Service.apply, Service.note, Service.deliver, withPool, Pool.slotsAmong,
    Pool.step, Pool.stepWaiter_over hline honce hover, Pool.finish, hfinished]

/-- A request in line that is cancelled leaves it, and nothing else changes: no slot is taken and nobody else is
    moved. -/
theorem Queued.cancelled {ahead behind : List Waiter} {waiter : Waiter} (hqueued : service.Queued)
    (hfinished : service.pool.finished = []) (hline : service.pool.waiting = ahead ++ waiter :: behind) :
    ∃ between, service.step machine (.cancel waiter.client) = some ([], between) ∧
      between.step machine (.move (.waiter waiter.client)) = some ([(waiter.client, .failed .cancelled)],
        service.withPool { service.pool with waiting := ahead ++ behind }) := by
  let between := service.withPool (service.pool.cancel waiter.client)
  have hcancelled : between.pool.waiting = ahead ++ { waiter with cancelled := true } :: behind :=
    Pool.cancel_middle hline hqueued.once
  have honce : (between.pool.waiting.map (·.client)).Nodup := by
    have hbefore := hqueued.once
    rw [hline] at hbefore
    simpa [hcancelled] using hbefore
  have hsent : between.step machine (.move (.waiter waiter.client)) =
      some ([(waiter.client, .failed .cancelled)],
        between.withPool { between.pool with waiting := ahead ++ behind }) :=
    have hnone : between.pool.finished = [] := hfinished
    step_over hnone hcancelled honce (by simp)
  refine ⟨between, ?_, hsent⟩
  simp [between, Service.step, Event.request?, Service.apply, Service.note, Service.deliver, withPool,
    Pool.cancel, hfinished, Pool.slotsAmong]

/-- No request waits beside a slot that could be given to it, and requests are served in order. A settled pool
    whose lifetime is not over is stocked; whoever takes a slot is first in line, and takes it from the new
    queue only when none waits for reuse; all that took a slot and all that wait stand in the order in which
    they asked; and a request that is cancelled leaves the others where they are. -/
theorem Traced.steady {config : Config} {cancelled : Bool} {registry registry' : Registry} {state state' : σ}
    {pool : Pool}
    (hopen : Pool.openWith machine config cancelled registry state = (.ok (.ok pool), registry', state'))
    (htraced : Traced machine OwnSlots (opened pool state') trace service) :
    (service.pool.Settled machine service.machine → service.pool.cancelled = false →
        service.Stocked config.maxSlots config.newQueueCapacity) ∧
      (∀ turn ∈ trace, turn.Lines) ∧
      ((trace.flatMap Turn.taken).map Prod.fst ++ service.pool.line).Sublist
        (service.asked.reverse.map Prod.fst) ∧
      ∀ ahead waiter behind, service.pool.waiting = ahead ++ waiter :: behind →
        ∃ between, service.step machine (.cancel waiter.client) = some ([], between) ∧
          between.step machine (.move (.waiter waiter.client)) = some ([(waiter.client, .failed .cancelled)],
            service.withPool { service.pool with waiting := ahead ++ behind }) := by
  obtain ⟨hvalid, egress, -, rfl⟩ := Pool.openWith_ok hopen
  have hstart : (opened (Pool.opened config egress cancelled) state').Conserved config.maxSlots :=
    opened_conserved (Config.maxSlots_le_of_validate hvalid)
  have hreaches := htraced.reaches
  have hspares := hreaches.sparesStrays rfl
  have hlines : ∀ turn ∈ trace, turn.Lines := by
    intro turn hmem
    obtain ⟨hbefore, -, hstep⟩ := htraced.turn turn hmem
    have hbeforeSpares := hbefore.sparesStrays rfl
    exact step_lines (hbeforeSpares.conserved hstart) (hbeforeSpares.queued hstart (opened_queued ..) rfl)
      (hbefore.finished rfl) hstep
  refine ⟨fun hsettled hgoing => ?_, hlines, htraced.order rfl hlines, fun ahead waiter behind hline => ?_⟩
  · exact (hspares.conserved hstart).stocked (hreaches.finished rfl) hsettled hgoing
      (hreaches.shutting hstart (Pool.opened_shutting ..))
      (hreaches.matched hstart rfl (Allocator.ofCapacity_matched _)) (hreaches.roomy (Pool.opened_roomy ..))
  · exact (hspares.queued hstart (opened_queued ..) rfl).cancelled (hreaches.finished rfl) hline

/-- Two requests get both slots of a small pool, and a third one waits. -/
def threeRequests : List Event :=
  firstRequest .blocked ++ [.move (.populate 0), .move (.populate 0), .move (.populate 0),
    .get "second" .allowed false, .move (.waiter "second"), .move (.task "second"), .move (.task "second"),
    .get "third" .blocked false]

/-- Two callers have both slots of a small pool, and a third one waits. The pool has settled, and it is stocked:
    both queues are empty. -/
theorem steady_threeRequests : ∃ trace service,
    Traced (Rehearsal.rehearsing World.machine) OwnSlots
      (opened (Pool.opened .small "eth0" false) (Rehearsal.start World.fresh)) trace service ∧
    service.pool.line = ["third"] ∧ service.Stocked 2 1 := by
  obtain ⟨service, hrun, hstands⟩ := Option.map_eq_some_iff.mp
    (show ((opened (Pool.opened .small "eth0" false) (Rehearsal.start World.fresh)).run
      (Rehearsal.rehearsing World.machine) threeRequests).map (fun service =>
        ((service.pool.waiting, service.pool.tasks.isEmpty, service.pool.populate, service.pool.cancelled),
          (service.pool.allocator.available, service.pool.newQueue, service.pool.reusedQueue))) =
        some (([⟨"third", .blocked, false⟩], true, .acquiring, false), (0, [], [])) by decide +kernel)
  simp only [Prod.mk.injEq, List.isEmpty_iff] at hstands
  obtain ⟨⟨hwaiting, htasks, hpopulate, hgoing⟩, havailable, hnew, hreused⟩ := hstands
  have hreaches : Reaches (Rehearsal.rehearsing World.machine) OwnSlots
      (opened (Pool.opened .small "eth0" false) (Rehearsal.start World.fresh)) service :=
    Reaches.start.run (by simp [threeRequests, firstRequest, OwnSlots]) hrun
  obtain ⟨trace, htraced⟩ := hreaches.traced
  have hsettled : service.pool.Settled (Rehearsal.rehearsing World.machine) service.machine :=
    Pool.settled_of_exhausted htasks hpopulate hgoing havailable (by simp [hwaiting, hnew, hreused])
  have hsteady := htraced.steady (Pool.openWith_small _ _)
  exact ⟨trace, service, htraced, by rw [Pool.line, hwaiting]; rfl, hsteady.1 hsettled hgoing⟩

end Service
end SlotPool
