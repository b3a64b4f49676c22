import SlotPool.Allocator.Basic
/-!
Clients of the allocator in a line. A client that finds no permit waits; a permit that is given back
goes to the first in line. Such a client is granted the permit before it has noticed, and may still
be cancelled then, in which case the permit goes on to the next.
-/

namespace SlotPool

/-- The name under which a request is followed. -/
abbrev Client := String

/-- An allocator with the requests that are under way. -/
structure Line where
  allocator : Allocator
  /-- those without a permit, the first in line first -/
  waiting : List Client
  /-- those whose permit has come while they waited, and who have not noticed -/
  granted : List Client
  /-- those who have taken a permit and will pick next -/
  picking : List Client
  /-- what came of the requests that are over, the latest first -/
  finished : List (Client × Except AllocatorError Nat)

namespace Line

/-- What can happen to the line. -/
inductive Event
  /-- a request is made, by a client who may have been cancelled already -/
  | start (client : Client) (cancelled : Bool)
  /-- a client notices the permit that has come -/
  | wake (client : Client)
  /-- a client with a permit picks an identity -/
  | pick (client : Client) (choice : Nat)
  /-- a client is cancelled; nothing happens to one who has gone on to pick -/
  | cancel (client : Client)
  /-- an identity is given back -/
  | release (identity : Nat)
  | close

/-- A line without requests. -/
def ofCapacity (capacity : Nat) : Line where
  allocator := .ofCapacity capacity
  waiting := []
  granted := []
  picking := []
  finished := []

/-- Ends a request. -/
def finish (line : Line) (client : Client) (result : Except AllocatorError Nat) : Line :=
  { line with finished := (client, result) :: line.finished }

/-- Gives a permit to the first in line, or to nobody if nobody waits. -/
def passPermit (line : Line) : Line :=
  match line.waiting with
  | [] => { line with allocator := line.allocator.addPermit }
  | first :: rest => { line with waiting := rest, granted := line.granted ++ [first] }

/-- A request is made. -/
def start (line : Line) (client : Client) (cancelled : Bool) : Line :=
  if cancelled then line.finish client (.error .cancelled)
  else if line.allocator.closed then line.finish client (.error .closed)
  else
    match line.allocator.takePermit? with
    | some allocator => { line with allocator, picking := line.picking ++ [client] }
    | none => { line with waiting := line.waiting ++ [client] }

/-- A client notices its permit, or that the allocator is closed. -/
def wake (line : Line) (client : Client) : Line :=
  if client ∈ line.granted then
    let line := { line with granted := line.granted.erase client }
    if line.allocator.closed then (line.finish client (.error .closed)).passPermit
    else { line with picking := line.picking ++ [client] }
  else line

/-- A client with a permit picks an identity. -/
def pick (line : Line) (client : Client) (choice : Nat) : Line :=
  if client ∈ line.picking then
    let line := { line with picking := line.picking.erase client }
    match line.allocator.pick choice with
    | .ok (identity, allocator) => { line with allocator }.finish client (.ok identity)
    | .error refusal => line.finish client (.error refusal)
  else line

/-- A client is cancelled. -/
def cancel (line : Line) (client : Client) : Line :=
  if client ∈ line.waiting then
    { line with waiting := line.waiting.erase client }.finish client (.error .cancelled)
  else if client ∈ line.granted then
    ({ line with granted := line.granted.erase client }.finish client
      (.error .cancelled)).passPermit
  else line

/-- An identity is given back, unless nobody holds it. -/
def release (line : Line) (identity : Nat) : Except AllocatorError Line :=
  (line.allocator.giveBack identity).map fun allocator => { line with allocator }.passPermit

/-- The allocator is closed. All who wait are sent away. -/
def close (line : Line) : Line :=
  line.waiting.foldl (fun line client => line.finish client (.error .closed))
    { line with allocator := line.allocator.close, waiting := [] }

/-- What an event makes of the line. A release that is refused changes nothing. -/
def apply (line : Line) : Event → Line
  | .start client cancelled => line.start client cancelled
  | .wake client => line.wake client
  | .pick client choice => line.pick client choice
  | .cancel client => line.cancel client
  | .release identity => (line.release identity).toOption.getD line
  | .close => line.close

/-- Lets every client with a permit go on to its end. `choice` decides every pick. -/
def settle (choice : Nat) (line : Line) : Line :=
  let line := line.granted.foldl wake line
  line.picking.foldl (fun line client => line.pick client choice) line

/-- Nobody can go on. -/
def Settled (line : Line) : Prop := line.granted = [] ∧ line.picking = []

end Line
end SlotPool
