import SlotPool.Pool.Run
/-!
A session: one machine, one registry of gauges, and the callers of the pools that are opened one
after the other. Callers hold the slots they were given. A pool that is replaced or dropped while
requests wait in its line lives on until these are over.
-/

namespace SlotPool

/-- What pools and their callers share. -/
structure Session (σ : Type) where
  machine : σ
  registry : Registry
  /-- whether the lifetime that all pools are opened with is over -/
  cancelled : Bool
  /-- the pool in use, with the host label of its gauges -/
  pool : Option (String × Pool)
  /-- earlier pools in whose lines requests still wait -/
  abandoned : List Pool
  /-- the slots held by callers -/
  held : List Slot

namespace Session

variable {σ : Type}

/-- A session before the first pool. -/
def start (machine : σ) : Session σ := ⟨machine, .empty, false, none, [], []⟩

/-- Changes the pool in use, if there is one. -/
def mapPool (session : Session σ) (change : Pool → Pool) : Session σ :=
  { session with pool := session.pool.map fun (host, pool) => (host, change pool) }

/-- Changes the pool in use and those in whose lines requests still wait. -/
def mapAll (session : Session σ) (change : Pool → Pool) : Session σ :=
  { session.mapPool change with abandoned := session.abandoned.map change }

/-- Stops using the pool. -/
def dropPool (session : Session σ) : Session σ :=
  match session.pool with
  | none => session
  | some (_, pool) =>
    { session with
      pool := none
      abandoned := session.abandoned ++ if pool.waiting.isEmpty then [] else [pool] }

/-- Opens a pool, which replaces the one in use. The slots held until then are dropped. A pool that
    cannot be opened replaces nothing. -/
def openPool (machine : Machine σ) (config : Config) (session : Session σ) :
    Except Pool.Breakdown (Except PoolError Unit) × Session σ :=
  match Pool.openWith machine config session.cancelled session.registry session.machine with
  | (.error breakdown, registry, state) =>
    (.error breakdown, { session with registry, machine := state })
  | (.ok (.error failure), registry, state) =>
    (.ok (.error failure), { session with registry, machine := state })
  | (.ok (.ok pool), registry, state) =>
    (.ok (.ok ()),
      { session.dropPool with
        registry, machine := state, pool := some (config.hostId, pool), held := [] })

/-- The slot of the given number that a caller holds. -/
def heldSlot? (session : Session σ) (number : Nat) : Option Slot :=
  session.held.find? (·.id.val = number)

/-- Takes the slot of the given number from its holder. -/
def takeHeld (session : Session σ) (number : Nat) : Session σ :=
  { session with held := session.held.filter (·.id.val ≠ number) }

/-- Gives a slot to a caller. -/
def hold (session : Session σ) (slot : Slot) : Session σ :=
  { session.takeHeld slot.id.val with held := session.held.filter (·.id ≠ slot.id) ++ [slot] }

/-- Ends the lifetime of all pools, also of those opened later. -/
def cancelLifetime (session : Session σ) : Session σ :=
  { session.mapAll Pool.cancelLifetime with cancelled := true }

/-- Gives the slots among the outcomes to their callers. -/
def deliver (session : Session σ) (outcomes : List (Client × Outcome)) : Session σ :=
  outcomes.foldl
    (fun session entry =>
      match entry.2 with
      | .slot slot => session.hold slot
      | _ => session)
    session

/-- The number of identities that the filling task can put into the new queue while callers wait for
    a pool to settle. A larger queue is filled over several such waits. -/
def stockedAtOnce : Nat := 4096

/-- Runs the pool in use until it is settled, publishes its gauges, and hands over what came of the
    requests that are over, in order. -/
def settlePool (machine : Machine σ) (choice : Nat) (session : Session σ) :
    List (Client × Outcome) × Session σ :=
  match session.pool with
  | none => ([], session)
  | some (host, pool) =>
    let (pool, state) := pool.settleStocking machine choice stockedAtOnce session.machine
    let outcomes := pool.finished.reverse
    let session : Session σ :=
      { session with
        machine := state
        registry := session.registry.publish host pool.gauges
        pool := some (host, { pool with finished := [] }) }
    (outcomes, session.deliver outcomes)

/-- Runs the earlier pools until they are settled, and forgets those without requests. -/
def settleAbandoned (machine : Machine σ) (choice : Nat) (session : Session σ) :
    List (Client × Outcome) × Session σ :=
  let (outcomes, pools, state) := session.abandoned.foldl
    (fun (outcomes, pools, state) pool =>
      let (pool, state) := pool.settleStocking machine choice stockedAtOnce state
      (outcomes ++ pool.finished.reverse, pools ++ [{ pool with finished := [] }], state))
    ([], [], session.machine)
  let session : Session σ :=
    { session with machine := state, abandoned := pools.filter (!·.waiting.isEmpty) }
  (outcomes, session.deliver outcomes)

/-- Runs everything until it is settled. -/
def settle (machine : Machine σ) (choice : Nat) (session : Session σ) :
    List (Client × Outcome) × Session σ :=
  let (earlier, session) := session.settleAbandoned machine choice
  let (outcomes, session) := session.settlePool machine choice
  (earlier ++ outcomes, session)

end Session
end SlotPool
