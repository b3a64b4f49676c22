import SlotPool.Proofs.Pool.Closing
import SlotPool.Proofs.Pool.Underway
/-!
A closed pool. When the first request to close a pool is over, nothing is left in its queues and nobody is in line,
and it will stay so: whoever asks for a slot is sent away at once, and the identity of a slot that is handed back
is released.
-/

namespace SlotPool

variable {σ : Type}

namespace Stage

/-- The stages of a closing. -/
def Closes (stage : Stage) : Prop := stage.phase?.isSome = true

/-- The stages of a request that hands back a slot with the given identity. -/
def Returns (id : SlotId) : Stage → Prop
  | .resetting slot | .returning slot | .offering slot | .refused slot | .removing slot .putBack => slot.id = id
  | .unreset other _ | .lost other | .removed other _ .putBack => other = id
  | _ => False

theorem Leads.closes {stage next : Stage} (h : stage.Closes) (hleads : stage.Leads next) : next.Closes :=
  hleads.phase?_isSome.trans h

/-- A request that hands back a slot with some identity goes on doing just that, with the same identity, until
    it is over. -/
theorem Leads.returns {id : SlotId} {stage next : Stage} (h : stage.Returns id) (hleads : stage.Leads next) :
    next.Returns id := by
  cases hleads with
  | reset hid => exact hid.trans h
  | @remove slot purpose failures =>
    cases purpose with
    | putBack => exact h
    | drain source earlier => exact h.elim
  | resetFails | resetStops | announce | refuse | overflow => exact h
  | _ => exact h.elim

end Stage

namespace Pool

variable {machine : Machine σ} {pool pool' : Pool} {state state' : σ} {client : Client} {stage : Stage}

/-- A pool of which nothing is left to be closed. Its lifetime is over, the filling task has ended, the queues are
    empty, and nobody is in line. -/
structure Shut (pool : Pool) : Prop where
  cancelled : pool.cancelled = true
  waiting : pool.waiting = []
  populate : pool.populate = .stopped
  closed : pool.allocator.closed = true
  newQueue : pool.newQueue = []
  reusedOpen : pool.reusedOpen = false
  reusedQueue : pool.reusedQueue = []
  closeAsked : pool.closeAsked = true

/-- A pool that is shut remains so. -/
theorem Shut.later (h : pool.Shut) (hlater : pool.Later pool') : pool'.Shut where
  cancelled := hlater.cancelled h.cancelled
  waiting := hlater.line h.cancelled h.waiting
  populate := hlater.stopped h.populate
  closed := hlater.closed h.closed
  newQueue := hlater.newQueue h.populate h.newQueue
  reusedOpen := hlater.reusedOpen h.reusedOpen
  reusedQueue := hlater.reusedQueue h.reusedOpen h.reusedQueue
  closeAsked := hlater.closeAsked h.closeAsked

/-- A pool is shut when its closing is over. -/
theorem Shutting.shut (h : pool.Shutting) (hasked : pool.closeAsked = true) (hover : pool.phases = []) :
    pool.Shut := by
  obtain ⟨hbrought, hempty⟩ := h.completed hasked hover
  exact ⟨hbrought.cancelled (by simp), hbrought.line rfl, hbrought.stopped (by simp) (by simp),
    hbrought.closed .reused rfl, hbrought.newQueue rfl, hbrought.reusedOpen rfl, hempty, hasked⟩

/-- A request that hands back a slot ends with the release of its identity, when slots can no longer be queued
    for reuse. -/
theorem Advance.released {id : SlotId} {outcome : Outcome}
    (hadvance : Advance machine client pool state stage pool' state') (hreturns : stage.Returns id)
    (hshut : pool.reusedOpen = false) (hending : Ending machine pool state stage outcome state')
    (hended : (client, outcome) ∈ pool'.finished) (hfinished : pool.finished = []) :
    pool' = (pool.release id).2.finish client outcome := by
  have hsole {other : SlotId} {given : Outcome}
      (hmem : (client, outcome) ∈ ((pool.release other).2.finish client given).finished) : outcome = given := by
    have hnone : (pool.release other).2.finished = [] := (finished_release other).trans hfinished
    simpa [finish, hnone] using hmem
  cases hending with
  | enqueue =>
    cases hadvance with
    | enqueue hopen => simp [hshut] at hopen
    | refuse => simp [follow, hfinished] at hended
  | giveUp =>
    obtain rfl := hreturns
    cases hadvance
    rfl
  | loseSlot =>
    obtain rfl := hreturns
    cases hadvance
    rfl
  | settle =>
    obtain rfl := hreturns
    cases hadvance
    rfl
  | _ => exact hreturns.elim

end Pool

namespace Service

variable {machine : Machine σ} {allowed : Service σ → Event → Prop} {service after start : Service σ}
  {event : Event} {outcomes : List (Client × Outcome)} {client : Client} {trace : List (Turn σ)} {turn : Turn σ}
  {outcome : Outcome} {size : Nat}

/-- What holds of a service at every time, as long as callers hand back only what they were given. -/
structure Orderly (size : Nat) (service : Service σ) : Prop where
  conserved : service.Conserved size
  queued : service.Queued
  strays : service.strays = []
  finished : service.pool.finished = []
  shutting : service.pool.Shutting
  gauged : service.pool.Gauged

theorem opened_orderly {config : Config} {egress : String} {cancelled : Bool} {state : σ}
    (hsize : config.maxSlots ≤ planSize) :
    (opened (Pool.opened config egress cancelled) state).Orderly config.maxSlots :=
  ⟨opened_conserved hsize, opened_queued .., rfl, rfl, Pool.opened_shutting .., Pool.opened_gauged _ _ _⟩

theorem Orderly.later (h : start.Orderly size) (hreaches : Reaches machine OwnSlots start service) :
    service.Orderly size := by
  have hspares := hreaches.sparesStrays h.strays
  exact ⟨hspares.conserved h.conserved, hspares.queued h.conserved h.queued h.finished,
    hreaches.noStrays h.strays, hreaches.finished h.finished, hreaches.shutting h.conserved h.shutting,
    hreaches.gauged h.gauged⟩

/-- What holds of the line in every turn, as long as callers hand back only what they were given. -/
theorem Orderly.lines (h : start.Orderly size) (htraced : Traced machine OwnSlots start trace service) :
    ∀ turn ∈ trace, turn.Lines := by
  intro turn hmem
  obtain ⟨hreaches, -, hstep⟩ := htraced.turn turn hmem
  have hbefore := h.later hreaches
  exact step_lines hbefore.conserved hbefore.queued hbefore.finished hstep

/-- A request that has a task is answered when the pool has settled. -/
theorem Traced.answers {allowed : Service σ → Event → Prop} {stage : Stage}
    (htraced : Traced machine allowed start trace service) (hmem : (client, stage) ∈ start.pool.tasks)
    (horderly : service.Orderly size) (hsettled : service.pool.Settled machine service.machine) :
    Answered client trace := by
  refine (htraced.keeps hmem).resolve_left ?_
  rintro ⟨stage, hstill⟩
  rw [hsettled.tasks horderly.shutting] at hstill
  cases hstill

/-- What stood in the new queue when that was shut comes first. -/
theorem Orderly.shelved (h : start.Orderly size) (hstart : Progress machine [] start)
    (htraced : Traced machine OwnSlots start trace service) :
    trace.flatMap Turn.shelved = trace.flatMap (·.shelvedIn .new) ++ trace.flatMap (·.shelvedIn .reused) := by
  refine (htraced.shelved fun turn hturn hshut => ?_).1
  obtain ⟨hreaches, -⟩ := htraced.turn turn hturn
  obtain ⟨earlier, hearlier⟩ := hreaches.traced
  exact (hearlier.progress h.conserved h.strays h.shutting hstart).closed_of_shut (h.later hreaches).shutting hshut

/-- A request that has just begun with a task of its own is under way. Its name is new, so it is in no line and
    has no second task. -/
theorem Underway.begin {kind : Stage → Prop} {stage : Stage} (hconserved : service.Conserved size)
    (hclient : event.request? = some client) (hstep : service.step machine event = some (outcomes, after))
    (hline : after.pool.line = service.pool.line)
    (htasks : after.pool.tasks = (client, stage) :: service.pool.tasks) (hkind : kind stage) :
    after.Underway client kind ∧ (client, stage) ∈ after.pool.tasks := by
  obtain ⟨hfresh, -⟩ := step_cases hstep
  have hnew : client ∉ service.named := hfresh client hclient
  refine ⟨⟨?_, fun hmem => ?_, fun next hmem => ?_⟩, htasks ▸ List.mem_cons_self ..⟩
  · rw [(step_records hstep).1, hclient]
    exact List.mem_cons_self ..
  · obtain ⟨waiter, hwaits, rfl⟩ := List.mem_map.mp (hline ▸ hmem)
    exact hnew (hconserved.waiting waiter hwaits).1
  · rcases List.mem_cons.mp (htasks ▸ hmem) with heq | hold
    · obtain rfl : next = stage := (Prod.mk.inj heq).2
      exact hkind
    · exact (hnew (hconserved.running _ hold)).elim

/-- The first request to close the pool begins the closing. -/
theorem close_begins (hconserved : service.Conserved size) (hfirst : service.pool.closeAsked = false)
    (hstep : service.step machine (.close client) = some (outcomes, after)) :
    after.Underway client Stage.Closes ∧ (client, .closing) ∈ after.pool.tasks := by
  obtain ⟨pool, hturned, hafter, -⟩ := step_turned hstep
  generalize after.machine = state at hturned
  cases hturned with
  | close hasking =>
    cases hasking with
    | first =>
      have htasks : after.pool.tasks = (client, .closing) :: service.pool.tasks := by rw [hafter]; rfl
      exact Underway.begin hconserved rfl hstep (by rw [hafter]; rfl) htasks rfl
    | again hasked => simp [hfirst] at hasked

/-- Handing back a slot begins a request that is under way with that slot's identity. Its name is new, so it has
    no other task and does not stand in line. -/
theorem putBack_begins {entry : Client × Slot} (hconserved : service.Conserved size)
    (hstep : service.step machine (.putBack client entry) = some (outcomes, after)) :
    after.Underway client (Stage.Returns entry.2.id) ∧ (client, .resetting entry.2) ∈ after.pool.tasks := by
  obtain ⟨pool, hturned, hafter, -⟩ := step_turned hstep
  generalize after.machine = state at hturned
  cases hturned with
  | putBack =>
    have htasks : after.pool.tasks = (client, .resetting entry.2) :: service.pool.tasks := by rw [hafter]; rfl
    exact Underway.begin hconserved rfl hstep (by rw [hafter]; rfl) htasks rfl

/-- What a closing has come to when it is over. Every slot that stood in a queue when that was shut was given to
    the worker for removal once, those of the new queue first, and its identity was released. The outcome tells
    what has failed in these removals, in the same order. -/
structure Disposed (machine : Machine σ) (trace : List (Turn σ)) (outcome : Outcome) : Prop where
  torn : (trace.flatMap (Turn.torn machine)).map Prod.fst =
    trace.flatMap (·.shelvedIn .new) ++ trace.flatMap (·.shelvedIn .reused)
  freed : trace.flatMap Turn.freed = (trace.flatMap (Turn.torn machine)).map (·.1.id.val)
  told : outcome = .ofExcept (PoolError.ofMany ((trace.flatMap (Turn.torn machine)).flatMap Prod.snd))

/-- What a pool shows of itself when it is closed. The gauges show slots, and the allocator holds identities,
    only of requests that are still under way. -/
structure Emptied (service : Service σ) : Prop where
  shut : service.pool.Shut
  gauges : service.pool.gauges.Shows fun source => (service.pool.tasks.map (·.2.shown source)).sum
  held : service.pool.allocator.held.Perm
    (((service.pool.tasks.flatMap (·.2.ids)) ++ service.callerSlots.map Slot.id).map Fin.val)
  /-- when no request is under way, the gauges are at zero, and what is held are the identities that callers
      have or have lost -/
  idle : service.pool.tasks = [] → service.pool.gauges = .zero ∧
    service.pool.allocator.held.Perm (service.callerSlots.map (·.id.val))

/-- In a pool that is shut nothing is left to show or to hold but what the requests under way and the callers
    have. The queues are empty and the filling task has ended, so these are the only places left. -/
theorem Orderly.emptied (h : service.Orderly size) (hshut : service.pool.Shut) : service.Emptied := by
  have hgauges : service.pool.gauges.Shows fun source => (service.pool.tasks.map (·.2.shown source)).sum := by
    refine h.gauged.congr fun source => ?_
    cases source <;>
      simp [Pool.shown, Pool.queue, hshut.newQueue, hshut.reusedQueue, hshut.populate, Populate.shown,
        Populate.counting]
  have hheld : service.pool.allocator.held.Perm
      (((service.pool.tasks.flatMap (·.2.ids)) ++ service.callerSlots.map Slot.id).map Fin.val) := by
    have hplaces := (h.conserved.partitioned h.finished).held
    have hown : service.ownTasks = service.pool.tasks := by simp [ownTasks, h.strays]
    simpa [places, hshut.newQueue, hshut.reusedQueue, hshut.populate, Populate.slots, hown, callerSlots,
      List.map_append, List.map_map, Function.comp_def] using hplaces
  refine ⟨hshut, hgauges, hheld, fun hidle => ⟨?_, ?_⟩⟩
  · have hnew := hgauges .new
    have hreused := hgauges .reused
    rw [hidle] at hnew hreused
    cases hshown : service.pool.gauges with
    | mk new reused =>
      rw [hshown] at hnew hreused
      simp only [Gauges.zero, Gauges.mk.injEq]
      exact ⟨hnew, hreused⟩
  · simpa [hidle, List.map_map, Function.comp_def] using hheld

/-- The end of a closing. No other closing is under way then, the pool is shut, and the outcome tells what has failed
    in the removals, of which there was one for every slot that was queued. -/
theorem Underway.closed (h : turn.before.Underway client Stage.Closes) (hstart : start.Orderly size)
    (hbegun : Progress machine [] start) (htraced : Traced machine OwnSlots start (trace ++ [turn]) turn.after)
    (hmem : (client, outcome) ∈ turn.outcomes) :
    turn.after.pool.phases = [] ∧ turn.after.Emptied ∧ Disposed machine (trace ++ [turn]) outcome := by
  obtain ⟨hbefore, -, hstep, -⟩ := htraced.last
  have horderly := hstart.later hbefore.reaches
  have horderly' := hstart.later htraced.reaches
  have hprogress := hbefore.progress hstart.conserved hstart.strays hstart.shutting hbegun
  have hprogress' := htraced.progress hstart.conserved hstart.strays hstart.shutting hbegun
  obtain ⟨stage, pool, hcloses, hevent, hfind, hending, hadvance, hended, hafter⟩ :=
    h.returns horderly.finished hstep hmem
  have hstage : (client, stage) ∈ turn.before.pool.tasks := List.mem_of_find?_eq_some hfind
  have hclosing : turn.closing? = some stage := Turn.closing?_eq hevent hfind hcloses
  have hrest := horderly.shutting.alone hfind hcloses
  have hasked := horderly.shutting.asked hstage hcloses
  generalize turn.after.machine = state at hending hadvance
  cases hending with
  | @endClose failures =>
    cases hadvance with
    | drain hqueue => simp [Pool.follow, Pool.setQueue, horderly.finished] at hended
    | endClose hqueue =>
      have hasked' : turn.after.pool.closeAsked = true := by rw [hafter]; exact hasked
      have hover : turn.after.pool.phases = [] := by rw [hafter]; exact hrest
      have htorn : turn.torn machine = [] := by rw [Turn.torn, hclosing]
      have hfailures := (hprogress.draining _ hstage .reused rfl).failures
      obtain ⟨hshelved, hfreed⟩ := hprogress'.completed hasked' hover
      refine ⟨hover, horderly'.emptied (horderly'.shutting.shut hasked' hover), ?_, hfreed, ?_⟩
      · exact hshelved.symm.trans (hstart.shelved hbegun htraced)
      · rw [List.flatMap_append, List.flatMap_singleton, htorn, List.append_nil, hfailures]
        rfl
  | _ => cases hcloses

/-- A turn in which a request is sent away from the line. -/
def Turn.SendsAway (turn : Turn σ) (client : Client) : Prop :=
  ∃ waiter ∈ turn.before.pool.waiting, waiter.client = client ∧
    turn.outcomes = [(client, .failed (if waiter.cancelled then .cancelled else .closed))]

/-- A turn in which a request in line takes a slot. The pool's lifetime is not over then. -/
def Turn.Serves (turn : Turn σ) (client : Client) : Prop :=
  turn.before.pool.cancelled = false ∧ client ∈ turn.taken.map Prod.fst

/-- Whoever is in line before a turn stays there, is sent away, or takes a slot. There is no other way out of
    the line, and nobody is lost from it. -/
theorem Turn.Lines.leaves {turn : Turn σ} (h : turn.Lines) : ∀ name ∈ turn.before.pool.line,
    name ∈ turn.after.pool.line ∨ turn.SendsAway name ∨ turn.Serves name := by
  intro name hname
  obtain ⟨waiting, hwaits, rfl⟩ := List.mem_map.mp hname
  cases h with
  | stays htaking hline => exact .inl (hline ▸ List.mem_append_left _ hname)
  | @leaves waiter hleaves hover houtcomes htaking hwaiting hevent =>
    by_cases hsame : waiting = waiter
    · exact .inr (.inl ⟨waiter, hleaves, by rw [hsame], by rw [hsame, houtcomes]⟩)
    · refine .inl ?_
      rw [Pool.line, hwaiting]
      exact List.mem_map_of_mem ((List.mem_erase_of_ne hsame).mpr hwaits)
  | declines hevent hover houtcomes htaking hwaiting =>
    rw [Pool.line, hwaiting]
    exact .inl hname
  | @takes client source hnew htaking hline hsource hgoing =>
    have hmem : waiting.client ∈ client :: turn.after.pool.line := hline ▸ List.mem_append_left _ hname
    rcases List.mem_cons.mp hmem with heq | hbehind
    · refine .inr (.inr ⟨hgoing (List.ne_nil_of_mem hwaits), ?_⟩)
      rw [Turn.taken_eq hnew htaking, heq]
      exact List.mem_singleton_self _
    · exact .inl hbehind

/-- Whoever was in line at the start is still there, or has left it in one of the turns. -/
theorem Traced.leaves (htraced : Traced machine allowed start trace service)
    (hlines : ∀ turn ∈ trace, turn.Lines) {name : Client} (hname : name ∈ start.pool.line) :
    name ∈ service.pool.line ∨ ∃ turn ∈ trace, turn.SendsAway name ∨ turn.Serves name := by
  induction htraced with
  | start => exact .inl hname
  | @step trace service after event outcomes htraced hallowed hstep ih =>
    have hlast := hlines ⟨service, event, outcomes, after⟩ (by simp)
    rcases ih fun turn hmem => hlines turn (List.mem_append_left _ hmem) with hstays | ⟨turn, hturn, hleft⟩
    · rcases hlast.leaves name hstays with hstill | hleft
      · exact .inl hstill
      · exact .inr ⟨_, List.mem_append_right _ (List.mem_singleton_self _), hleft⟩
    · exact .inr ⟨turn, List.mem_append_left _ hturn, hleft⟩

/-- What a closed pool answers. A request for a slot is sent away at once, and nothing else changes. A request to
    close the pool is over at once and changes nothing. When the pool has settled, no request is under way. -/
structure Declines (machine : Machine σ) (service : Service σ) : Prop where
  get : ∀ client policy cancelled, client ∉ service.named →
    service.step machine (.get client policy cancelled) =
      some ([(client, .failed (if cancelled then .cancelled else .closed))],
        { service with named := client :: service.named, asked := (client, policy) :: service.asked })
  close : ∀ client, client ∉ service.named →
    service.step machine (.close client) = some ([(client, .done)], { service with named := client :: service.named })
  settled : service.pool.Settled machine service.machine → service.pool.tasks = []

/-- A pool that is shut declines every request for a slot: no slot is queued that could be taken at once, and
    nobody may join the line, since its lifetime is over. It is not closed twice. -/
theorem Orderly.declines (h : service.Orderly size) (hshut : service.pool.Shut) : service.Declines machine where
  get client policy cancelled hnew := by
    have hget : service.pool.get client policy cancelled =
        service.pool.finish client (.failed (if cancelled then .cancelled else .closed)) := by
      generalize hgot : service.pool.get client policy cancelled = pool
      cases hgot ▸ Pool.get_cases client policy cancelled service.pool with
      | take hqueue => simp [hshut.reusedQueue] at hqueue
      | decline => rfl
      | join hnone hwanted hgoing => simp [hshut.cancelled] at hgoing
    have hsame : { service.pool with finished := [] } = service.pool := by rw [← h.finished]
    simp [Service.step, Event.request?, hnew, Service.apply, Service.note, Service.deliver, withPool, hget,
      Pool.finish, h.finished, Pool.slotsAmong, hsame]
  close client hnew := by
    have hclose : service.pool.close client = service.pool.finish client .done := if_pos hshut.closeAsked
    have hsame : { service.pool with finished := [] } = service.pool := by rw [← h.finished]
    simp [Service.step, Event.request?, hnew, Service.apply, Service.note, Service.deliver, withPool, hclose,
      Pool.finish, h.finished, Pool.slotsAmong, hsame]
  settled hsettled := hsettled.tasks h.shutting

/-- A turn that releases an identity. -/
def Turn.Releases (turn : Turn σ) (id : SlotId) : Prop :=
  id.val ∈ turn.before.pool.allocator.held ∧ turn.after.pool.allocator =
    { turn.before.pool.allocator with
      free := id.val :: turn.before.pool.allocator.free
      held := turn.before.pool.allocator.held.erase id.val
      available := turn.before.pool.allocator.available + 1 }

theorem Turn.Releases.of_release {id : SlotId} (hheld : id.val ∈ turn.before.pool.allocator.held)
    (hallocator : turn.after.pool.allocator =
      (turn.before.pool.allocator.release id.val).toOption.getD turn.before.pool.allocator) : turn.Releases id := by
  refine ⟨hheld, ?_⟩
  rw [hallocator, Allocator.release_of_mem hheld]
  rfl

/-- The identity that a task has is held. -/
theorem Orderly.held {stage : Stage} {id : SlotId} (h : service.Orderly size)
    (hstage : (client, stage) ∈ service.pool.tasks) (hid : id ∈ stage.ids) :
    id.val ∈ service.pool.allocator.held := by
  refine (h.conserved.partitioned h.finished).held.mem_iff.mpr (List.mem_map_of_mem ?_)
  have hown : (client, stage) ∈ service.ownTasks := List.mem_filter.mpr ⟨hstage, by simp [h.strays]⟩
  simp only [places, List.flatten_cons, List.flatten_nil, List.append_nil, List.mem_append]
  exact .inr (.inr (.inr (.inl (List.mem_flatMap.mpr ⟨_, hown, hid⟩))))

/-- A request that hands back a slot to a closed pool ends with the release of its identity. The reused queue is
    shut, so the slot is removed, and the identity is released in the same turn in which the request is over. -/
theorem Underway.releases {id : SlotId} (h : turn.before.Underway client (Stage.Returns id))
    (hshut : turn.before.pool.Shut) (horderly : turn.before.Orderly size)
    (hstep : turn.before.step machine turn.event = some (turn.outcomes, turn.after))
    (hmem : (client, outcome) ∈ turn.outcomes) : turn.Releases id := by
  obtain ⟨stage, pool, hreturns, hevent, hfind, hending, hadvance, hended, hafter⟩ :=
    h.returns horderly.finished hstep hmem
  have hstage : (client, stage) ∈ turn.before.pool.tasks := List.mem_of_find?_eq_some hfind
  have hpool := hadvance.released hreturns hshut.reusedOpen hending hended horderly.finished
  have hid : id ∈ stage.ids := by
    generalize turn.after.machine = state at hending
    cases hending with
    | enqueue => exact hreturns ▸ List.mem_singleton_self _
    | giveUp | loseSlot | settle => exact hreturns ▸ List.mem_singleton_self _
    | _ => exact hreturns.elim
  refine .of_release (horderly.held hstage hid) ?_
  rw [hafter, hpool, Pool.release_snd]
  rfl

end Service
end SlotPool
