/-!
What can go wrong with a network operation. A failure is a cause; its wording is `message`, the
causes behind it are `chain`, and `isNotFound` says whether it consists of absent things only.
-/

namespace SlotPool

/-- The kinds of system failure that are told apart. -/
inductive IoError.Kind
  | notFound
  | permissionDenied
  | alreadyExists
  | invalidInput
  | other
  deriving DecidableEq, Inhabited

/-- A failure of a file operation or of starting a program, in the system's own words. -/
structure IoError where
  kind : IoError.Kind
  message : String
  deriving DecidableEq, Inhabited

/-- A failed network operation. -/
inductive NetworkError
  /-- a program ran and reported failure -/
  | command (line : String) (stderr : String)
  /-- a program could not be started -/
  | spawn (program : String) (cause : IoError)
  /-- a system call failed with the given error number, in words -/
  | systemCall (operation : String) (errno : String)
  /-- a file operation failed -/
  | io (context : String) (cause : IoError)
  /-- the thing acted on is absent -/
  | notFound (what : String)
  /-- the slot with this number has no firewall to configure -/
  | firewallMissing (slot : Nat)
  /-- the thread that works inside namespaces has died -/
  | workerGone
  /-- a named step of a longer sequence failed -/
  | step (name : String) (cause : NetworkError)
  /-- several operations failed -/
  | multiple (errors : List NetworkError)
  deriving Inhabited

namespace NetworkError

/-- A failed file operation, in which an absent file counts as an absent thing. -/
def ofIo (context : String) (cause : IoError) : NetworkError :=
  match cause.kind with
  | .notFound => .notFound context
  | _ => .io context cause

mutual

/-- The wording of a failure. -/
def message : NetworkError → String
  | .command line stderr => "`" ++ line ++ "` failed: " ++ stderr
  | .spawn program cause => "failed to run `" ++ program ++ "`: " ++ cause.message
  | .systemCall operation errno => s!"{operation} failed: {errno}"
  | .io context cause => s!"{context}: {cause.message}"
  | .notFound what => s!"{what} not found"
  | .firewallMissing slot => s!"slot {slot} has no firewall"
  | .workerGone => "namespace worker is not running"
  | .step name cause => s!"{name}: {cause.message}"
  | .multiple errors => String.intercalate "; " (messages errors)

/-- The wordings of several failures, in order. -/
def messages : List NetworkError → List String
  | [] => []
  | error :: rest => error.message :: messages rest

end

mutual

/-- A failure that consists of absent things only. A collection has to have a member for that. -/
def isNotFound : NetworkError → Bool
  | .notFound _ => true
  | .step _ cause => cause.isNotFound
  | .multiple errors => !errors.isEmpty && allNotFound errors
  | _ => false

/-- Whether each of several failures consists of absent things only. -/
def allNotFound : List NetworkError → Bool
  | [] => true
  | error :: rest => error.isNotFound && allNotFound rest

end

/-- The wordings of the causes behind a failure, the nearest first. A collection has none. -/
def chain : NetworkError → List String
  | .spawn _ cause => [cause.message]
  | .io _ cause => [cause.message]
  | .step _ cause => cause.message :: cause.chain
  | _ => []

/-- Success when nothing failed, the failure itself when one did, a collection otherwise. -/
def ofMany : List NetworkError → Except NetworkError Unit
  | [] => .ok ()
  | [error] => .error error
  | errors => .error (.multiple errors)

/-- Names the step in which an operation failed. -/
def inStep {α : Type} (name : String) : Except NetworkError α → Except NetworkError α
  | .ok value => .ok value
  | .error cause => .error (.step name cause)

/-- Counts a removal of absent things as done. -/
def tolerateAbsent : Except NetworkError Unit → Except NetworkError Unit
  | .ok () => .ok ()
  | .error error => if error.isNotFound then .ok () else .error error

/-- The failure of an operation, if it failed. -/
def failure? {α : Type} : Except NetworkError α → Option NetworkError
  | .ok _ => none
  | .error error => some error

end NetworkError
end SlotPool
