import SlotPool.Failure.Network
/-!
What can go wrong with handing out identities and with the pool.
-/

namespace SlotPool

/-- A request to the allocator of identities that was not fulfilled. -/
inductive AllocatorError
  | cancelled
  | closed
  /-- a release of an identity that nobody holds -/
  | notHeld (slot : Nat)
  deriving DecidableEq

/-- The wording of a refusal. -/
def AllocatorError.message : AllocatorError → String
  | .cancelled => "slot acquisition cancelled"
  | .closed => "slot allocator closed"
  | .notHeld slot => s!"slot {slot} is not held"

/-- A request to the pool that was not fulfilled. -/
inductive PoolError
  /-- the caller gave up waiting -/
  | cancelled
  /-- the pool is shut down -/
  | closed
  /-- the allocator refused -/
  | acquire (cause : AllocatorError)
  /-- the network of a slot could not be made; what undoing it brought stands beside the cause -/
  | createNetwork (slot : Nat) (cause : NetworkError) (cleanup : Option NetworkError)
      (release : Option AllocatorError)
  /-- the firewall of a slot could not be set -/
  | firewall (slot : Nat) (cause : NetworkError) (teardown : Option PoolError)
  /-- the resources of a slot could not all be removed -/
  | teardown (slot : Nat) (cause : NetworkError)
  /-- it could not be found out whether the slot's namespace exists -/
  | probe (slot : Nat) (cause : NetworkError)
  /-- several failures -/
  | multiple (errors : List PoolError)
  /-- the gauges could not be registered -/
  | metrics (reason : String)
  /-- the namespace worker did not answer -/
  | worker (cause : NetworkError)
  /-- the interface that leads outside could not be found -/
  | egress (cause : NetworkError)
  /-- the configuration is refused -/
  | config (reason : String)
  deriving Inhabited

namespace PoolError

/-- What is added to the wording when a removal or a release failed as well. -/
def aside (label : String) : Option String → String
  | none => ""
  | some text => s!" ({label}: {text})"

mutual

/-- The wording of a failure. -/
def message : PoolError → String
  | .cancelled => "waiting for a network slot was cancelled"
  | .closed => "network slot pool is closed"
  | .acquire cause => s!"failed to acquire slot: {cause.message}"
  | .createNetwork slot cause cleanup release =>
    s!"failed to create network for slot {slot}: {cause.message}"
      ++ aside "cleanup" (cleanup.map NetworkError.message)
      ++ aside "release" (release.map AllocatorError.message)
  | .firewall slot cause none => s!"firewall failure on slot {slot}: {cause.message}"
  | .firewall slot cause (some undo) =>
    s!"firewall failure on slot {slot}: {cause.message}" ++ aside "teardown" (some undo.message)
  | .teardown slot cause => s!"failed to tear down slot {slot}: {cause.message}"
  | .probe slot cause => s!"failed to check namespace of slot {slot}: {cause.message}"
  | .multiple errors => String.intercalate "; " (messages errors)
  | .metrics reason => s!"failed to register pool metrics: {reason}"
  | .worker cause => s!"namespace worker failed: {cause.message}"
  | .egress cause => s!"failed to detect egress interface: {cause.message}"
  | .config reason => s!"invalid pool configuration: {reason}"

/-- The wordings of several failures, in order. -/
def messages : List PoolError → List String
  | [] => []
  | error :: rest => error.message :: messages rest

end

/-- The wordings of the causes behind a failure, the nearest first. What stands beside a cause is
    not a cause. -/
def chain : PoolError → List String
  | .acquire cause => [cause.message]
  | .createNetwork _ cause _ _ => cause.message :: cause.chain
  | .firewall _ cause _ => cause.message :: cause.chain
  | .teardown _ cause => cause.message :: cause.chain
  | .probe _ cause => cause.message :: cause.chain
  | .metrics reason => [reason]
  | .worker cause => cause.message :: cause.chain
  | .egress cause => cause.message :: cause.chain
  | _ => []

/-- Success when nothing failed, the failure itself when one did, a collection otherwise. -/
def ofMany : List PoolError → Except PoolError Unit
  | [] => .ok ()
  | [error] => .error error
  | errors => .error (.multiple errors)

/-- What undoing a slot brought: a failed removal, a failed release, both, or nothing. -/
def undoing (slot : Nat) (removal : Option NetworkError) (release : Option AllocatorError) :
    Option PoolError :=
  match ofMany ((removal.map (.teardown slot)).toList ++ (release.map .acquire).toList) with
  | .ok () => none
  | .error error => some error

end PoolError
end SlotPool
