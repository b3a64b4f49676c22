import SlotPool.Allocator.Line
import SlotPool.Pool.Config
import SlotPool.Pool.Gauge
import SlotPool.Slot.Preparation
/-!
The state of a pool. Fresh identities wait in the new queue, which a task of the pool keeps filled;
slots that were handed back wait, with their network standing, in the reused queue. Requests that
find both empty wait in line. Whatever is under way stands in a list of tasks, each at a stage
between two steps that other tasks may come between.
-/

namespace SlotPool

/-- Where the task stands that fills the new queue. -/
inductive Populate
  /-- it waits for a free identity -/
  | acquiring
  /-- it has an identity and waits for room in the queue -/
  | holding (slot : Slot)
  /-- it has room and has raised the gauge; the slot is still in its hand -/
  | counted (slot : Slot)
  /-- it has ended -/
  | stopped
  deriving DecidableEq

/-- A request for a slot that waits in line. -/
structure Waiter where
  client : Client
  policy : Internet
  cancelled : Bool
  deriving DecidableEq

/-- What a slot is removed for. -/
inductive Purpose
  /-- it was handed back and could not be queued -/
  | putBack
  /-- the pool is closing; these are the failures so far -/
  | drain (source : Source) (failures : List PoolError)

/-- Where a task stands. Each stage is left by one step. -/
inductive Stage
  /-- a request has taken a slot from a queue; the gauge is still to be lowered -/
  | received (slot : Slot) (source : Source) (policy : Internet)
  /-- the slot is to be made ready by the worker -/
  | preparing (slot : Slot) (policy : Internet)
  /-- that has failed; the identity is still to be released -/
  | unprepared (id : SlotId) (failure : PrepareFailure)
  /-- a slot was handed back and is to be reset by the worker -/
  | resetting (slot : Slot)
  /-- that has failed; the identity is still to be released -/
  | unreset (id : SlotId) (failure : ResetFailure)
  /-- the slot is reset; the gauge is still to be raised -/
  | returning (slot : Slot)
  /-- the slot is to be queued -/
  | offering (slot : Slot)
  /-- there was no room; the gauge is still to be lowered again -/
  | refused (slot : Slot)
  /-- the slot is gone with the worker; its identity is still to be released -/
  | lost (id : SlotId)
  /-- the slot is to be removed by the worker -/
  | removing (slot : Slot) (purpose : Purpose)
  /-- the slot was removed as far as possible; its identity is still to be released -/
  | removed (id : SlotId) (failures : List PoolError) (purpose : Purpose)
  /-- the pool is to be closed -/
  | closing
  /-- the pool closes and waits for the filling task to end -/
  | awaitingPopulate
  /-- the allocator is to be closed -/
  | sealing
  /-- the slots of a queue are to be removed, one by one -/
  | draining (source : Source) (failures : List PoolError)
  /-- one of them was taken from the queue; the gauge is still to be lowered -/
  | drained (slot : Slot) (source : Source) (failures : List PoolError)

/-- Whether a stage keeps others from the reused queue. -/
def Stage.holdsReused : Stage → Bool
  | .draining .reused _ | .drained _ .reused _ => true
  | .removing _ (.drain .reused _) | .removed _ _ (.drain .reused _) => true
  | _ => false

/-- What came of a request. -/
inductive Outcome
  | slot (slot : Slot)
  | done
  | failed (error : PoolError)

/-- The outcome of a request that returns nothing. -/
def Outcome.ofExcept : Except PoolError Unit → Outcome
  | .ok () => .done
  | .error error => .failed error

/-- A pool of network slots. -/
structure Pool where
  egress : String
  newCapacity : Nat
  reusedCapacity : Nat
  allocator : Allocator
  populate : Populate
  newQueue : List Slot
  reusedQueue : List Slot
  /-- whether slots may still be queued for reuse -/
  reusedOpen : Bool
  /-- requests for a slot, the first in line first -/
  waiting : List Waiter
  tasks : List (Client × Stage)
  /-- what came of the requests that are over, the latest first -/
  finished : List (Client × Outcome)
  gauges : Gauges
  /-- whether the pool's lifetime is over -/
  cancelled : Bool
  /-- whether closing was asked for -/
  closeAsked : Bool
  workerAlive : Bool

namespace Pool

/-- A pool that has just been opened. -/
def opened (config : Config) (egress : String) (cancelled : Bool) : Pool where
  egress := egress
  newCapacity := config.newQueueCapacity
  reusedCapacity := config.reusedSlots
  allocator := .ofCapacity config.maxSlots
  populate := .acquiring
  newQueue := []
  reusedQueue := []
  reusedOpen := true
  waiting := []
  tasks := []
  finished := []
  gauges := .zero
  cancelled := cancelled
  closeAsked := false
  workerAlive := true

/-- The slots in a queue. -/
def queue (pool : Pool) : Source → List Slot
  | .new => pool.newQueue
  | .reused => pool.reusedQueue

/-- Replaces the slots in a queue. -/
def setQueue (pool : Pool) (slots : List Slot) : Source → Pool
  | .new => { pool with newQueue := slots }
  | .reused => { pool with reusedQueue := slots }

/-- Puts a task at a stage. -/
def follow (pool : Pool) (client : Client) (stage : Stage) : Pool :=
  { pool with tasks := (client, stage) :: pool.tasks }

/-- Ends a request. -/
def finish (pool : Pool) (client : Client) (outcome : Outcome) : Pool :=
  { pool with finished := (client, outcome) :: pool.finished }

/-- Changes the gauge of a queue. -/
def raise (pool : Pool) (source : Source) : Pool :=
  { pool with gauges := pool.gauges.raise source }

@[inherit_doc raise]
def lower (pool : Pool) (source : Source) : Pool :=
  { pool with gauges := pool.gauges.lower source }

/-- Releases an identity. The first part is the refusal, if it was refused. -/
def release (pool : Pool) (id : SlotId) : Option AllocatorError × Pool :=
  match pool.allocator.release id.val with
  | .ok allocator => (none, { pool with allocator })
  | .error refusal => (some refusal, pool)

/-- Whether somebody keeps others from the reused queue: a request in line, or the pool closing. -/
def reusedLocked (pool : Pool) : Bool :=
  !pool.waiting.isEmpty || pool.tasks.any (·.2.holdsReused)

end Pool
end SlotPool
