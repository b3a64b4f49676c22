import SlotPool.Primitive.Program
/-!
Rehearsing on a machine: every call is recorded, and calls can be made to fail. A fault is ordered
for the calls of one operation and is used up as it strikes. It either makes the call fail without
reaching the machine, or kills the thread that makes the call. Besides, the machine itself can be
told to refuse an operation once or until it is healed.
-/

namespace SlotPool

/-- A failure ordered for calls of one operation. -/
structure Fault where
  /-- the name of the operation -/
  operation : String
  /-- how many calls it still lets pass -/
  skip : Nat
  /-- how often it will still strike -/
  times : Nat
  /-- how the call fails; the thread is killed when there is nothing -/
  failure : Option NetworkError

/-- What a call meets among the faults: the first that is due strikes, those before it let one call
    more pass. The first part is what strikes. -/
def Fault.strike (operation : String) : List Fault → Option (Option NetworkError) × List Fault
  | [] => (none, [])
  | fault :: rest =>
    if fault.operation ≠ operation then
      let (struck, rest) := strike operation rest
      (struck, fault :: rest)
    else if 0 < fault.skip then
      let (struck, rest) := strike operation rest
      (struck, { fault with skip := fault.skip - 1 } :: rest)
    else if 0 < fault.times then
      (some fault.failure, { fault with times := fault.times - 1 } :: rest)
    else
      let (struck, rest) := strike operation rest
      (struck, fault :: rest)

/-- How long a machine refuses an operation. -/
inductive Refusal
  | once
  | always
  deriving DecidableEq

/-- A call and what came of it. -/
structure Record where
  call : Call
  answer : Answer call.Reply

/-- A machine on which a rehearsal takes place. -/
structure Rehearsal (σ : Type) where
  machine : σ
  faults : List Fault
  /-- the operations that the machine refuses -/
  refused : List (String × Refusal)
  /-- the calls made, the latest first -/
  log : List Record

namespace Rehearsal

variable {σ : Type}

/-- A rehearsal that has not begun. -/
def start (machine : σ) : Rehearsal σ := ⟨machine, [], [], []⟩

/-- The calls made, in order. -/
def trace (rehearsal : Rehearsal σ) : List Record := rehearsal.log.reverse

/-- Forgets the calls made so far. -/
def forgetTrace (rehearsal : Rehearsal σ) : Rehearsal σ := { rehearsal with log := [] }

/-- Orders a fault, behind those ordered before. -/
def order (rehearsal : Rehearsal σ) (fault : Fault) : Rehearsal σ :=
  { rehearsal with faults := rehearsal.faults ++ [fault] }

/-- Makes the machine refuse an operation. A refusal of the same operation is replaced. -/
def refuse (rehearsal : Rehearsal σ) (operation : String) (refusal : Refusal) : Rehearsal σ :=
  { rehearsal with
    refused := (operation, refusal) :: rehearsal.refused.filter (·.1 ≠ operation) }

/-- Takes back all faults and refusals. -/
def heal (rehearsal : Rehearsal σ) : Rehearsal σ := { rehearsal with faults := [], refused := [] }

/-- The failure of a refused operation. -/
def refusalError (operation : String) : NetworkError := .command operation "injected failure"

/-- The answer of the machine itself, which may refuse. -/
def answerRefusing (inner : Machine σ) (call : Call) (rehearsal : Rehearsal σ) :
    Answer call.Reply × Rehearsal σ :=
  match rehearsal.refused.lookup call.name with
  | some .once =>
    (.returned (.error (refusalError call.name)),
      { rehearsal with refused := rehearsal.refused.filter (·.1 ≠ call.name) })
  | some .always => (.returned (.error (refusalError call.name)), rehearsal)
  | none =>
    let (answer, machine) := inner.answer call rehearsal.machine
    (answer, { rehearsal with machine })

/-- The answer to a call that may be struck by a fault. -/
def answerStruck (inner : Machine σ) (call : Call) (rehearsal : Rehearsal σ) :
    Answer call.Reply × Rehearsal σ :=
  let (struck, faults) := Fault.strike call.name rehearsal.faults
  let rehearsal := { rehearsal with faults }
  match struck with
  | some (some failure) => (.returned (.error failure), rehearsal)
  | some none => (.crashed, rehearsal)
  | none => answerRefusing inner call rehearsal

/-- A machine that meets faults and records every call. -/
def rehearsing (inner : Machine σ) : Machine (Rehearsal σ) where
  answer call rehearsal :=
    let (answer, rehearsal) := answerStruck inner call rehearsal
    (answer, { rehearsal with log := ⟨call, answer⟩ :: rehearsal.log })

end Rehearsal
end SlotPool
