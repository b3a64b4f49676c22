import SlotPool.Failure.Pool
/-!
The allocator of identities. It knows which identities below its capacity are free and which are
held, and it counts permits: a permit is the right to pick one free identity. Taking a permit and
picking are two moments, so between them there are more free identities than permits.
-/

namespace SlotPool

/-- The identities below a capacity and the permits to pick one. -/
structure Allocator where
  capacity : Nat
  free : List Nat
  held : List Nat
  /-- permits that nobody has taken -/
  available : Nat
  /-- once closed, no permit is given out -/
  closed : Bool
  deriving DecidableEq

namespace Allocator

/-- An allocator all of whose identities are free. -/
def ofCapacity (capacity : Nat) : Allocator where
  capacity := capacity
  free := List.range capacity
  held := []
  available := capacity
  closed := false

/-- Takes a permit, if there is one. -/
def takePermit? (allocator : Allocator) : Option Allocator :=
  if 0 < allocator.available then some { allocator with available := allocator.available - 1 }
  else none

/-- Puts a permit where anybody may take it. -/
def addPermit (allocator : Allocator) : Allocator :=
  { allocator with available := allocator.available + 1 }

/-- Uses up a permit that was taken: picks a free identity and holds it. Which one it is is up to
    `choice`. -/
def pick (allocator : Allocator) (choice : Nat) : Except AllocatorError (Nat × Allocator) :=
  let position := choice % allocator.free.length
  match allocator.free[position]? with
  | none => .error .closed
  | some identity =>
    .ok (identity,
      { allocator with
        free := allocator.free.eraseIdx position
        held := identity :: allocator.held })

/-- Takes a permit and picks an identity at once, unless there is no permit or the allocator is
    closed. -/
def acquire? (allocator : Allocator) (choice : Nat) : Option (Nat × Allocator) :=
  if allocator.closed then none
  else allocator.takePermit?.bind fun allocator => (allocator.pick choice).toOption

/-- Makes a held identity free again. The permit that goes with it is not yet given out. -/
def giveBack (allocator : Allocator) (identity : Nat) : Except AllocatorError Allocator :=
  if identity ∈ allocator.held then
    .ok { allocator with
      free := identity :: allocator.free
      held := allocator.held.erase identity }
  else .error (.notHeld identity)

/-- Makes a held identity free again and lets anybody take the permit. -/
def release (allocator : Allocator) (identity : Nat) : Except AllocatorError Allocator :=
  (allocator.giveBack identity).map addPermit

/-- Gives out no more permits. -/
def close (allocator : Allocator) : Allocator := { allocator with closed := true }

end Allocator
end SlotPool
