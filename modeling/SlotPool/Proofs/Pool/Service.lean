import SlotPool.Proofs.Pool.Places
/-!
A pool together with its callers. The pool takes its steps in any order, and between any two of them
callers may ask for slots, give up, hand slots back, lose them or close the pool. What callers have is
part of the state, so that one can say where every slot is.
-/

namespace SlotPool

/-- A pool, the machine it works on, and what its callers have. -/
structure Service (σ : Type) where
  pool : Pool
  machine : σ
  /-- the names of all requests so far -/
  named : List Client
  /-- the requests for a slot among them, with the policy that each asked for -/
  asked : List (Client × Internet)
  /-- the slots that callers have, with the requests that brought them -/
  held : List (Client × Slot)
  /-- the slots that callers have lost -/
  lost : List (Client × Slot)
  /-- the requests that handed back an identity that was free -/
  strays : List Client

namespace Service

variable {σ : Type}

/-- What can happen next. -/
inductive Event
  /-- somebody in the pool goes on -/
  | move (move : Pool.Move)
  | get (client : Client) (policy : Internet) (cancelled : Bool)
  | cancel (client : Client)
  /-- a caller hands back a slot that it has -/
  | putBack (client : Client) (entry : Client × Slot)
  /-- a caller loses a slot that it has -/
  | lose (entry : Client × Slot)
  /-- a caller hands back a slot made from a number alone: of a slot that it has or has lost, or of
      one that is free -/
  | putBackNumber (client : Client) (id : SlotId)
  | close (client : Client)
  | cancelLifetime

/-- The name of the request that an event makes. -/
def Event.request? : Event → Option Client
  | .get client _ _ | .putBack client _ | .putBackNumber client _ | .close client => some client
  | _ => none

/-- A pool that was just opened, and that nobody has asked for anything. -/
def opened (pool : Pool) (machine : σ) : Service σ := ⟨pool, machine, [], [], [], [], []⟩

/-- Changes the pool. -/
def withPool (service : Service σ) (pool : Pool) : Service σ := { service with pool }

/-- What an event changes before the outcomes of requests are handed over. An event that cannot
    happen leads to nothing. -/
def apply (machine : Machine σ) (event : Event) (service : Service σ) : Option (Service σ) :=
  match event with
  | .move move =>
    (service.pool.step machine move service.machine).map fun (pool, state) =>
      { service with pool, machine := state }
  | .get client policy cancelled =>
    some { service.withPool (service.pool.get client policy cancelled) with
      asked := (client, policy) :: service.asked }
  | .cancel client => some (service.withPool (service.pool.cancel client))
  | .putBack client entry =>
    if entry ∈ service.held then
      some { service.withPool (service.pool.putBack client entry.2) with
        held := service.held.erase entry }
    else none
  | .lose entry =>
    if entry ∈ service.held then
      some { service with held := service.held.erase entry, lost := entry :: service.lost }
    else none
  | .putBackNumber client id =>
    let handed := service.withPool (service.pool.putBack client (.fresh id))
    if id ∈ service.held.map (·.2.id) then
      some { handed with held := service.held.eraseP (·.2.id = id) }
    else if id ∈ service.lost.map (·.2.id) then
      some { handed with lost := service.lost.eraseP (·.2.id = id) }
    else if id.val ∈ service.pool.allocator.free then
      some { handed with strays := client :: service.strays }
    else none
  | .close client => some (service.withPool (service.pool.close client))
  | .cancelLifetime => some (service.withPool service.pool.cancelLifetime)

/-- Hands over what came of the requests that are over. -/
def deliver (service : Service σ) : List (Client × Outcome) × Service σ :=
  (service.pool.finished.reverse,
    { service with
      pool := { service.pool with finished := [] }
      held := Pool.slotsAmong service.pool.finished ++ service.held })

/-- Notes the name of the request that an event makes. -/
def note (event : Event) (service : Service σ) : Service σ :=
  { service with named := event.request?.toList ++ service.named }

/-- What an event leads to, with the outcomes of the requests that it ends. Every request has a name
    of its own. -/
def step (machine : Machine σ) (event : Event) (service : Service σ) :
    Option (List (Client × Outcome) × Service σ) :=
  if ∃ client ∈ event.request?, client ∈ service.named then none
  else ((service.note event).apply machine event).map deliver

/-- The services that a service can become by events that are allowed where they happen. -/
inductive Reaches (machine : Machine σ) (allowed : Service σ → Event → Prop) (start : Service σ) :
    Service σ → Prop
  | start : Reaches machine allowed start start
  | step {service after : Service σ} {event : Event} {outcomes : List (Client × Outcome)}
      (hreaches : Reaches machine allowed start service) (hallowed : allowed service event)
      (hstep : service.step machine event = some (outcomes, after)) :
      Reaches machine allowed start after

/-- What can be reached by events that are allowed can be reached where more is allowed. -/
theorem Reaches.mono {machine : Machine σ} {allowed allowed' : Service σ → Event → Prop}
    {start service : Service σ} (hreaches : Reaches machine allowed start service)
    (hallowed : ∀ service event, allowed service event → allowed' service event) :
    Reaches machine allowed' start service := by
  induction hreaches with
  | start => exact .start
  | step hreaches hevent hstep ih => exact ih.step (hallowed _ _ hevent) hstep

/-- Callers hand back only what they were given. -/
def OwnSlots (_ : Service σ) (event : Event) : Prop :=
  ∀ client id, event ≠ .putBackNumber client id

/-- The identities in requests that handed back a free one and are not over. -/
def strayIds (service : Service σ) : List SlotId :=
  (service.pool.tasks.filter (·.1 ∈ service.strays)).flatMap (·.2.ids)

/-- The filling task takes no identity while a request that handed it back as a free one is under way. Nothing in the
    pool sees to that, and no caller can: what the task takes is left to chance, and to the order of the steps. -/
def SparesStrays (machine : Machine σ) (service : Service σ) (event : Event) : Prop :=
  ∀ outcomes after slot, service.step machine event = some (outcomes, after) →
    after.pool.populate = .holding slot → slot.id ∉ service.strayIds

/-- What a series of events leads to. -/
def run (machine : Machine σ) : List Event → Service σ → Option (Service σ)
  | [], service => some service
  | event :: events, service =>
    (service.step machine event).bind fun (_, after) => after.run machine events

/-- Where every event of a series is allowed after those before it, the series leads to a service that
    can be reached. -/
theorem Reaches.run_each {machine : Machine σ} {allowed : Service σ → Event → Prop}
    {start service after : Service σ} {events : List Event}
    (hreaches : Reaches machine allowed start service)
    (hallowed : ∀ passed event, passed ++ [event] <+: events → ∀ between,
      service.run machine passed = some between → allowed between event)
    (hrun : service.run machine events = some after) : Reaches machine allowed start after := by
  induction events generalizing service with
  | nil =>
    obtain rfl : service = after := by simpa [Service.run] using hrun
    exact hreaches
  | cons event events ih =>
    obtain ⟨⟨outcomes, next⟩, hstep, hrest⟩ := Option.bind_eq_some_iff.mp hrun
    have hfirst : allowed service event := hallowed [] event ⟨events, rfl⟩ service rfl
    refine ih (hreaches.step hfirst hstep) (fun passed other hpassed between hbetween => ?_) hrest
    refine hallowed (event :: passed) other ?_ between ?_
    · exact (List.prefix_cons_inj event).mpr hpassed
    · simp only [Service.run, hstep, Option.bind_some]
      exact hbetween

/-- A series of events that are allowed wherever they happen leads to a service that can be reached. -/
theorem Reaches.run {machine : Machine σ} {allowed : Service σ → Event → Prop}
    {start service after : Service σ} {events : List Event}
    (hreaches : Reaches machine allowed start service)
    (hallowed : ∀ event ∈ events, ∀ service, allowed service event)
    (hrun : service.run machine events = some after) : Reaches machine allowed start after :=
  hreaches.run_each (fun passed event hpassed between _ =>
    hallowed event (hpassed.subset (List.mem_append_right passed (List.mem_singleton_self event)))
      between) hrun

end Service
end SlotPool
