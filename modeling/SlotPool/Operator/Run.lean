import SlotPool.Address.Topology
import SlotPool.Linux.Host
import SlotPool.Operator.Arguments
import SlotPool.Pool.Session
/-!
What the operator's tool does, on any machine, and how it ends: the exit code and what it has
written. A failure is told with all the causes behind it.
-/

namespace SlotPool.Operator

/-- What the caller of the tool learns at its end. -/
inductive ExitStatus
  | code (number : Nat)
  /-- the system has stopped the tool -/
  | aborted
  deriving DecidableEq

/-- How the tool ends. -/
structure Ending where
  status : ExitStatus
  stdout : String
  stderr : String
  deriving DecidableEq

namespace Ending

/-- The end of a run that did what was asked for. -/
def success (stdout : String) : Ending := ⟨.code 0, stdout, ""⟩

/-- The end of a run that could not do what was asked for. The causes are told in one line. -/
def failure (stdout : String) (causes : List String) : Ending :=
  ⟨.code 1, stdout, "error: " ++ String.intercalate ": " causes ++ "\n"⟩

/-- The end of a run whose command line was refused. -/
def refusal (error : UsageError) : Ending :=
  ⟨.code 2, "", (if error.message = "" then "" else "error: " ++ error.message ++ "\n\n") ++ usage ++ "\n"⟩

/-- The end of a run that breaks off, as when it asks for a size that no memory can have. -/
def brokenOff : Ending := ⟨.code 101, "", ""⟩

/-- The end of a run that asks for more memory than it is given. -/
def outOfMemory : Ending := ⟨.aborted, "", ""⟩

end Ending

/-- A failure with the causes behind it. -/
abbrev Causes := List String

/-- A failed network operation with the causes behind it. -/
def networkCauses (error : NetworkError) : Causes := error.message :: error.chain

/-- A failure of the pool with the causes behind it. -/
def poolCauses (error : PoolError) : Causes := error.message :: error.chain

section

variable {σ : Type}

/-- The interface that leads outside: as configured, or as the worker finds it. -/
def egressOf (machine : Machine σ) (config : Config) (state : σ) : Except Causes String × σ :=
  match config.egressInterface with
  | some interface => (.ok interface, state)
  | none =>
    match (Program.perform .egressInterface).run machine state with
    | (none, state) => (.error (networkCauses .workerGone), state)
    | (some (.error cause), state) =>
      (.error ("failed to detect egress interface" :: networkCauses cause), state)
    | (some (.ok interface), state) => (.ok interface, state)

/-- Clears up after the given slots one after the other, whatever comes of each, and counts those
    that could not be cleared up. The death of the worker ends it. -/
def reapAll (machine : Machine σ) (egress : String) :
    List SlotId → Nat → σ → Except Causes Nat × σ
  | [], failed, state => (.ok failed, state)
  | id :: rest, failed, state =>
    match ((Slot.reap egress).run (Slot.fresh id)).run machine state with
    | (none, state) => (.error (networkCauses .workerGone), state)
    | (some (.ok (), _), state) => reapAll machine egress rest failed state
    | (some (.error _, _), state) => reapAll machine egress rest (failed + 1) state

/-- The slots numbered from `first` and below `last`, in ascending order. -/
def slotRange (first last : Nat) : List SlotId :=
  (List.range' first (last - first)).filterMap SlotId.ofNat?

/-- Clears up after a range of slots. -/
def reap (machine : Machine σ) (config : Config) (first last : Nat) (state : σ) : Ending × σ :=
  match egressOf machine config state with
  | (.error causes, state) => (.failure "" causes, state)
  | (.ok egress, state) =>
    match reapAll machine egress (slotRange first last) 0 state with
    | (.error causes, state) => (.failure "" causes, state)
    | (.ok 0, state) => (.success "", state)
    | (.ok failed, state) =>
      (.failure "" [s!"{failed} slot(s) could not be fully reaped"], state)

/-- Runs the pool until it is settled and looks up what came of one request. -/
def await (machine : Machine σ) (client : Client) (pool : Pool) (state : σ) :
    Option Outcome × Pool × σ :=
  let (pool, state) := pool.settle machine 0 state
  (pool.finished.lookup client, { pool with finished := [] }, state)

/-- Takes slots until there are enough or a request fails. There is no result when a request waits
    for ever. -/
def takeSlots (machine : Machine σ) (policy : Internet) :
    Nat → List Slot → Pool → σ → Option (Option PoolError × List Slot) × Pool × σ
  | 0, taken, pool, state => (some (none, taken.reverse), pool, state)
  | missing + 1, taken, pool, state =>
    match await machine "get" (pool.get "get" policy false) state with
    | (some (.slot slot), pool, state) => takeSlots machine policy missing (slot :: taken) pool state
    | (some (.failed error), pool, state) => (some (some error, taken.reverse), pool, state)
    | (_, pool, state) => (none, pool, state)

/-- Hands slots back. What cannot be handed back is not told. -/
def returnSlots (machine : Machine σ) (slots : List Slot) (pool : Pool) (state : σ) : Pool × σ :=
  slots.foldl
    (fun (pool, state) slot => (await machine "put back" (pool.putBack "put back" slot) state).2)
    (pool, state)

/-- How many bytes a slot takes up while it is held. -/
def slotBytes : Nat := 48

/-- The largest size that memory can have, in bytes. -/
def largestSize : Nat := 0x7FFFFFFFFFFFFFFF

/-- From how many bytes on a single piece of memory is refused. -/
def refusedBytes : Nat := 0x800000000

/-- The end of a run that cannot be given room for the slots it is to hold. -/
def refusedRoom (count : Nat) : Option Ending :=
  if largestSize < count * slotBytes then some .brokenOff
  else if refusedBytes ≤ count * slotBytes then some .outOfMemory
  else none

/-- Takes slots from a new pool, prints their plans, hands them back and closes the pool. There is
    no end when a request waits for ever. -/
def smoke (machine : Machine σ) (config : Config) (count : Nat) (allowInternet : Bool) (state : σ) :
    Option Ending × σ :=
  match Pool.openWith machine config false .empty state with
  | (.error _, _, state) => (some .brokenOff, state)
  | (.ok (.error error), _, state) =>
    (some (.failure "" ("failed to start pool" :: poolCauses error)), state)
  | (.ok (.ok pool), _, state) =>
    match refusedRoom count with
    | some ending => (some ending, state)
    | none =>
      match takeSlots machine (.ofAllowed allowInternet) count [] pool state with
      | (none, _, state) => (none, state)
      | (some (error, slots), pool, state) =>
        let stdout := Topology.renderAll (slots.map (·.id.topology)) ++ "\n"
        let (pool, state) := returnSlots machine slots pool state
        match await machine "close" (pool.close "close") state, error with
        | (some (.failed error), _, state), _ =>
          (some (.failure stdout ("failed to close pool" :: poolCauses error)), state)
        | (_, _, state), some error =>
          (some (.failure stdout ("failed to get slot" :: poolCauses error)), state)
        | (_, _, state), none => (some (.success stdout), state)

end

/-- A Linux machine, looked at through a configuration: namespaces are kept where it says. -/
def configured (config : Config) (egress : Option String) (host : Linux.Host) : Linux.Host :=
  { host with path := config.netnsDir, egress }

/-- Runs the tool on a Linux machine. There is no end when it waits for ever. -/
def run (words : List String) (env : Environment) (host : Linux.Host) :
    Option Ending × Linux.Host :=
  match parse words with
  | .error error => (some (.refusal error), host)
  | .ok (.topology id) => (some (.success (id.topology.render ++ "\n")), host)
  | .ok (.reap first last) =>
    let config := Config.ofEnvironment "" env
    let (ending, host) := reap Linux.machine config first last (configured config none host)
    (some ending, host)
  | .ok (.smoke count allowInternet) =>
    let config := Config.ofEnvironment "host" env
    smoke Linux.machine config count allowInternet
      (configured config config.egressInterface host)

end SlotPool.Operator
