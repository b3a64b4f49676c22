import SlotPool.Slot.Removal
/-!
The jobs a pool gives to its namespace worker: make a slot ready for a tenant, and take a returned
slot back into a state in which it may wait. Both clear up after themselves when they fail, so that
only the slot's identity is left to be released.
-/

namespace SlotPool

/-- Why a slot could not be made ready, and what undoing it brought. -/
inductive PrepareFailure
  | probe (cause : NetworkError) (teardown : Option NetworkError)
  | create (cause : NetworkError) (cleanup : Option NetworkError)
  | firewall (cause : NetworkError) (teardown : Option NetworkError)

/-- Why a returned slot could not be reset, and what removing it brought. -/
structure ResetFailure where
  cause : NetworkError
  teardown : Option NetworkError

namespace Slot

open Sequence

/-- Runs a sequence. When it fails, runs another to undo it and fails as `blame` says, with the
    cause and the failure of undoing. -/
def orUndo {ε : Type} (steps undo : Sequence Unit)
    (blame : NetworkError → Option NetworkError → ε) : SequenceOf ε Unit := do
  match ← attempt steps with
  | .ok () => pure ()
  | .error cause => throw (blame cause (← failure? undo))

/-- Makes the network of a slot from nothing. Leftovers under the slot's names are cleared away
    first, as far as that goes. -/
def createAfresh (egress : String) : SequenceOf PrepareFailure Unit := do
  let _ ← failure? (reap egress)
  orUndo (create egress) (reap egress) .create

/-- Sees to it that a slot has its namespace with a firewall in it. A namespace that is on record is
    taken over, with a firewall of its own if this process has set up none. -/
def provide (egress : String) : SequenceOf PrepareFailure Unit := do
  let id := (← get).id
  match ← attempt (perform (.namespaceExists id.namespaceName)) with
  | .error cause => throw (.probe cause (← failure? (remove egress)))
  | .ok false => createAfresh egress
  | .ok true =>
    if !(← get).hasFirewall then
      orUndo (inNamespace Firewall.setUp) (remove egress) .firewall

/-- Makes a slot ready for a tenant. -/
def prepare (egress : String) (policy : Internet) : SequenceOf PrepareFailure Unit := do
  provide egress
  orUndo (inNamespace (Firewall.configure policy)) (remove egress) .firewall

/-- Takes back the policy of a tenant who is gone. -/
def release (egress : String) : SequenceOf ResetFailure Unit :=
  orUndo (inNamespace Firewall.reset) (remove egress) ResetFailure.mk

end Slot
end SlotPool
