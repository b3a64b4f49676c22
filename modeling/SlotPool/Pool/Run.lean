import SlotPool.Pool.Step
/-!
Opening a pool, and running it until nobody can go on. A settled pool is one in which every task,
the filling task and every request in line wait for something that only a caller can bring about.
-/

namespace SlotPool.Pool

variable {σ : Type}

/-- The most room that a queue can be given. -/
def largestQueue : Nat := 0x1FFFFFFFFFFFFFFF

/-- Why nothing comes of the opening of a pool, not even a failure. -/
inductive Breakdown
  /-- the machine has stopped the thread that opens the pool -/
  | threadStopped
  /-- a queue is asked for that has more room than any can be given -/
  | oversizedQueue
  deriving DecidableEq

/-- What is said of a queue that is too large. -/
def oversizedQueueMessage : String :=
  s!"a semaphore may not have more than MAX_PERMITS permits ({largestQueue})"

/-- The interface that leads outside: as configured, or as the machine says. There is no result
    when the machine stops the thread that asks. -/
def egressFor (machine : Machine σ) (config : Config) (state : σ) :
    Option (Except NetworkError String) × σ :=
  match config.egressInterface with
  | some interface => (some (.ok interface), state)
  | none => (Program.perform .egressInterface).run machine state

/-- Opens a pool. The configuration is checked first, then the interface that leads outside is
    found, then the gauges are registered, then the queues are made. A failure leaves the rest
    undone. `cancelled` says that the lifetime given to the pool is over already. The machine is
    asked on the thread that opens the pool, since there is no worker yet. -/
def openWith (machine : Machine σ) (config : Config) (cancelled : Bool) (registry : Registry)
    (state : σ) : Except Breakdown (Except PoolError Pool) × Registry × σ :=
  match config.validate with
  | .error refusal => (.ok (.error (.config refusal.message)), registry, state)
  | .ok () =>
    match egressFor machine config state with
    | (none, state) => (.error .threadStopped, registry, state)
    | (some (.error cause), state) => (.ok (.error (.egress cause)), registry, state)
    | (some (.ok egress), state) =>
      match registry.register config.hostId with
      | (.error reason, registry) => (.ok (.error (.metrics reason)), registry, state)
      | (.ok (), registry) =>
        if largestQueue < max config.newQueueCapacity config.reusedSlots then
          (.error .oversizedQueue, registry, state)
        else (.ok (.ok (opened config egress cancelled)), registry, state)

/-- All who might go on, in the order in which they are tried: tasks, the filling task, the line. -/
def moves (choice : Nat) (pool : Pool) : List Move :=
  pool.tasks.map (fun task => .task task.1) ++ [.populate choice]
    ++ pool.waiting.map fun waiter => .waiter waiter.client

/-- The step of the first who can go on. -/
def stepAny (machine : Machine σ) (choice : Nat) (pool : Pool) (state : σ) : Option (Pool × σ) :=
  (pool.moves choice).findSome? fun move => pool.step machine move state

/-- Nobody can go on. -/
def Settled (machine : Machine σ) (pool : Pool) (state : σ) : Prop :=
  ∀ move, pool.step machine move state = none

/-- At most the given number of steps. -/
def runFor (machine : Machine σ) (choice : Nat) : Nat → Pool → σ → Pool × σ
  | 0, pool, state => (pool, state)
  | steps + 1, pool, state =>
    match pool.stepAny machine choice state with
    | none => (pool, state)
    | some (pool, state) => runFor machine choice steps pool state

/-- More steps than it takes to settle. Each request and each slot in stock takes part in a bounded
    number of steps, and each identity can be put in stock. -/
def stepsToSettle (pool : Pool) : Nat :=
  10 * (pool.allocator.capacity + pool.newQueue.length + pool.reusedQueue.length
    + pool.waiting.length + pool.tasks.length + 4)

/-- Runs the pool until nobody can go on. `choice` decides which free identity is taken. -/
def settle (machine : Machine σ) (choice : Nat) (pool : Pool) (state : σ) : Pool × σ :=
  pool.runFor machine choice pool.stepsToSettle state

/-- Runs the pool until nobody can go on, with room for at most the given number of identities in
    the new queue on top of those that are there. -/
def settleStocking (machine : Machine σ) (choice most : Nat) (pool : Pool) (state : σ) : Pool × σ :=
  let room := min pool.newCapacity (pool.newQueue.length + most)
  let (settled, state) := { pool with newCapacity := room }.settle machine choice state
  ({ settled with newCapacity := pool.newCapacity }, state)

end SlotPool.Pool
