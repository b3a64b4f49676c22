import SlotPool.Pool.State
/-!
The steps of a pool. A step is what happens without anything of another task coming between. A task
that cannot go on at its stage has no step. What the worker does to a slot is one step: it takes one
job at a time and ends it before it takes the next.
-/

namespace SlotPool

/-- Why a request for a slot failed whose slot could not be made ready. -/
def PrepareFailure.toPoolError (id : SlotId) (release : Option AllocatorError) :
    PrepareFailure → PoolError
  | .probe cause _ => .probe id.val cause
  | .create cause cleanup => .createNetwork id.val cause cleanup release
  | .firewall cause teardown => .firewall id.val cause (PoolError.undoing id.val teardown release)

/-- Why a slot could not be handed back that could not be reset. -/
def ResetFailure.toPoolError (id : SlotId) (release : Option AllocatorError)
    (failure : ResetFailure) : PoolError :=
  .firewall id.val failure.cause (PoolError.undoing id.val failure.teardown release)

namespace Pool

variable {α σ : Type}

/-- Gives the worker a job on a slot. There is no result when the worker is dead or dies of it. -/
def submit (machine : Machine σ) (job : SlotProgram α) (slot : Slot) (pool : Pool) (state : σ) :
    Option (α × Slot) × Pool × σ :=
  if pool.workerAlive then
    match (job.run slot).run machine state with
    | (some result, state) => (some result, pool, state)
    | (none, state) => (none, { pool with workerAlive := false }, state)
  else (none, pool, state)

/-- The failure of a job whose worker is gone. -/
def workerGone : PoolError := .worker .workerGone

/-- Goes on after a slot was removed and its identity released. -/
def afterRemoval (pool : Pool) (client : Client) (failures : List PoolError) : Purpose → Pool
  | .putBack => pool.finish client (.ofExcept (PoolError.ofMany failures))
  | .drain source earlier =>
    match PoolError.ofMany failures with
    | .ok () => pool.follow client (.draining source earlier)
    | .error failure => pool.follow client (.draining source (earlier ++ [failure]))

/-- One step of a task at the given stage. The task has been taken from the list. A closing turns to the
    reused queue behind everybody in line, since they have asked for that queue before. That it also waits for
    the first in line to let go of the new queue is left out, so that it may go on sooner here. -/
def advance (machine : Machine σ) (client : Client) (pool : Pool) (state : σ) :
    Stage → Option (Pool × σ)
  | .received slot source policy =>
    some ((pool.lower source).follow client (.preparing slot policy), state)
  | .preparing slot policy =>
    match pool.submit machine (Slot.prepare pool.egress policy).run slot state with
    | (none, pool, state) => some (pool.follow client (.lost slot.id), state)
    | (some (.ok (), slot), pool, state) => some (pool.finish client (.slot slot), state)
    | (some (.error failure, _), pool, state) =>
      some (pool.follow client (.unprepared slot.id failure), state)
  | .unprepared id failure =>
    let (refusal, pool) := pool.release id
    some (pool.finish client (.failed (failure.toPoolError id refusal)), state)
  | .resetting slot =>
    match pool.submit machine (Slot.release pool.egress).run slot state with
    | (none, pool, state) => some (pool.follow client (.lost slot.id), state)
    | (some (.ok (), slot), pool, state) => some (pool.follow client (.returning slot), state)
    | (some (.error failure, _), pool, state) =>
      some (pool.follow client (.unreset slot.id failure), state)
  | .unreset id failure =>
    let (refusal, pool) := pool.release id
    some (pool.finish client (.failed (failure.toPoolError id refusal)), state)
  | .returning slot => some ((pool.raise .reused).follow client (.offering slot), state)
  | .offering slot =>
    if pool.reusedOpen ∧ pool.reusedQueue.length < pool.reusedCapacity then
      some ({ pool with reusedQueue := pool.reusedQueue ++ [slot] }.finish client .done, state)
    else some (pool.follow client (.refused slot), state)
  | .refused slot => some ((pool.lower .reused).follow client (.removing slot .putBack), state)
  | .lost id =>
    let (_, pool) := pool.release id
    some (pool.finish client (.failed workerGone), state)
  | .removing slot purpose =>
    match pool.submit machine (Slot.remove pool.egress).run slot state with
    | (none, pool, state) => some (pool.follow client (.removed slot.id [workerGone] purpose), state)
    | (some (.ok (), _), pool, state) =>
      some (pool.follow client (.removed slot.id [] purpose), state)
    | (some (.error cause, _), pool, state) =>
      some (pool.follow client (.removed slot.id [.teardown slot.id.val cause] purpose), state)
  | .removed id failures purpose =>
    let (refusal, pool) := pool.release id
    some (pool.afterRemoval client (failures ++ (refusal.map .acquire).toList) purpose, state)
  | .closing => some ({ pool with cancelled := true }.follow client .awaitingPopulate, state)
  | .awaitingPopulate =>
    if pool.populate = .stopped then some (pool.follow client .sealing, state) else none
  | .sealing =>
    some ({ pool with allocator := pool.allocator.close }.follow client (.draining .new []), state)
  | .draining source failures =>
    match pool.queue source, source with
    | slot :: rest, _ =>
      some ((pool.setQueue rest source).follow client (.drained slot source failures), state)
    | [], .new =>
      if pool.waiting = [] then
        some ({ pool with reusedOpen := false }.follow client (.draining .reused failures), state)
      else none
    | [], .reused => some (pool.finish client (.ofExcept (PoolError.ofMany failures)), state)
  | .drained slot source failures =>
    some ((pool.lower source).follow client (.removing slot (.drain source failures)), state)

/-- One step of the task that fills the new queue. When the pool's lifetime is over, the task
    releases what it holds and ends. -/
def stepPopulate (choice : Nat) (pool : Pool) : Option Pool :=
  match pool.populate with
  | .acquiring =>
    if pool.cancelled then some { pool with populate := .stopped }
    else
      (pool.allocator.acquire? choice).map fun (identity, allocator) =>
        match Slot.ofNat? identity with
        | some slot => { pool with allocator, populate := .holding slot }
        | none => { pool with allocator, populate := .stopped }
  | .holding slot =>
    if pool.cancelled then some { (pool.release slot.id).2 with populate := .stopped }
    else if pool.newQueue.length < pool.newCapacity then
      some { pool.raise .new with populate := .counted slot }
    else none
  | .counted slot =>
    some { pool with newQueue := pool.newQueue ++ [slot], populate := .acquiring }
  | .stopped => none

/-- Takes the next slot from a queue on behalf of the first in line. -/
def serve (waiter : Waiter) (source : Source) (pool : Pool) : Option Pool :=
  match pool.queue source with
  | [] => none
  | slot :: rest =>
    some ((pool.setQueue rest source).follow waiter.client (.received slot source waiter.policy))

/-- One step of a request in line. A cancelled request ends wherever it stands, and so do all when
    the pool's lifetime is over. The first in line takes a slot, a reused one if there is one. -/
def stepWaiter (client : Client) (pool : Pool) : Option Pool :=
  match pool.waiting.find? (·.client = client) with
  | none => none
  | some waiter =>
    let left := { pool with waiting := pool.waiting.erase waiter }
    if waiter.cancelled then some (left.finish client (.failed .cancelled))
    else if pool.cancelled then some (left.finish client (.failed .closed))
    else if pool.waiting.head? = some waiter then
      left.serve waiter .reused <|> left.serve waiter .new
    else none

/-- Who goes on. -/
inductive Move
  | task (client : Client)
  | populate (choice : Nat)
  | waiter (client : Client)
  deriving DecidableEq

/-- One step of whoever goes on, if that is possible. -/
def step (machine : Machine σ) (move : Move) (pool : Pool) (state : σ) : Option (Pool × σ) :=
  match move with
  | .task client =>
    match pool.tasks.find? (·.1 = client) with
    | none => none
    | some (_, stage) =>
      advance machine client { pool with tasks := pool.tasks.eraseP (·.1 = client) } state stage
  | .populate choice => (pool.stepPopulate choice).map (·, state)
  | .waiter client => (pool.stepWaiter client).map (·, state)

/-- Asks for a slot. A reused slot is taken at once when nobody is in line, also by a request that is
    cancelled already. Whoever would have to wait is sent away at once when cancelled already or when the
    pool's lifetime is over, and joins the line else. -/
def get (client : Client) (policy : Internet) (cancelled : Bool) (pool : Pool) : Pool :=
  match pool.reusedLocked, pool.reusedQueue with
  | false, slot :: rest =>
    { pool with reusedQueue := rest }.follow client (.received slot .reused policy)
  | _, _ =>
    if cancelled then pool.finish client (.failed .cancelled)
    else if pool.cancelled then pool.finish client (.failed .closed)
    else { pool with waiting := pool.waiting ++ [⟨client, policy, false⟩] }

/-- Cancels a request that waits in line. -/
def cancel (client : Client) (pool : Pool) : Pool :=
  { pool with
    waiting := pool.waiting.map fun waiter =>
      if waiter.client = client then { waiter with cancelled := true } else waiter }

/-- Hands a slot back. -/
def putBack (client : Client) (slot : Slot) (pool : Pool) : Pool :=
  pool.follow client (.resetting slot)

/-- Asks for the pool to be closed. Only the first such request does anything. -/
def close (client : Client) (pool : Pool) : Pool :=
  if pool.closeAsked then pool.finish client .done
  else { pool with closeAsked := true }.follow client .closing

/-- Ends the pool's lifetime. -/
def cancelLifetime (pool : Pool) : Pool := { pool with cancelled := true }

end Pool
end SlotPool
