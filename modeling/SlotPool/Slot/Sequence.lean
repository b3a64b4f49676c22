import SlotPool.Slot.Basic
/-!
Sequences of calls on behalf of a slot. A sequence changes what the slot remembers, and it either
stops at the first failure (`Sequence`) or goes on past failures and collects them (`attemptAll`).
-/

namespace SlotPool

/-- A program on behalf of a slot that does not stop. -/
abbrev SlotProgram := StateT Slot Program

/-- A program on behalf of a slot that stops at the first failure of type `ε`. The slot keeps what
    was remembered before the failure. -/
abbrev SequenceOf (ε : Type) := ExceptT ε SlotProgram

/-- A program on behalf of a slot that stops at the first failed network operation. -/
abbrev Sequence := SequenceOf NetworkError

namespace Sequence

variable {α ε : Type}

/-- Turns a program with a result into a sequence. -/
def ofProgram (p : Program (Except NetworkError α)) : Sequence α :=
  ExceptT.mk (StateT.lift p)

/-- Makes one call. -/
def perform (c : Call) : Sequence c.Reply := ofProgram (Program.perform c)

/-- Names the step in which a sequence failed. -/
def step (name : String) (steps : Sequence α) : Sequence α :=
  ExceptT.mk (NetworkError.inStep name <$> steps.run)

/-- Counts a removal of absent things as done. -/
def tolerant (steps : Sequence Unit) : Sequence Unit :=
  ExceptT.mk (NetworkError.tolerateAbsent <$> steps.run)

/-- Runs a sequence and goes on whatever came of it. -/
def attempt (steps : Sequence α) : SequenceOf ε (Except NetworkError α) :=
  ExceptT.mk (Except.ok <$> steps.run)

/-- The failure of a sequence, if it fails. -/
def failure? (steps : Sequence α) : SequenceOf ε (Option NetworkError) :=
  NetworkError.failure? <$> attempt steps

/-- Runs all sequences, whatever came of the earlier ones, and collects the failures in order. -/
def attemptAll : List (Sequence Unit) → SequenceOf ε (List NetworkError)
  | [] => pure []
  | steps :: rest => do
    let failure ← failure? steps
    let failures ← attemptAll rest
    pure (failure.toList ++ failures)

/-- Fails with all of several failures; succeeds if there are none. -/
def failWith (failures : List NetworkError) : Sequence Unit :=
  ExceptT.mk (pure (NetworkError.ofMany failures))

/-- Runs a sequence under a guard that takes the thread back to `origin`. -/
def guarded (origin : Handle) (steps : Sequence α) : Sequence α :=
  fun slot => (steps slot).guarded origin

/-- Opens the current namespace and runs the rest under a guard that returns to it. -/
def underGuard (capture : Sequence Handle) (steps : Handle → Sequence α) : Sequence α := do
  let origin ← capture
  guarded origin (steps origin)

/-- Runs a sequence inside the slot's namespace: through the slot's handle if it has one, else by
    name. The thread is taken back afterwards. -/
def inNamespace (steps : Sequence α) : Sequence α :=
  underGuard (perform .currentNamespace) fun _ => do
    let slot ← get
    match slot.handle with
    | some handle => perform (.enterNamespace handle)
    | none =>
      let handle ← perform (.openNamespace slot.id.namespaceName)
      perform (.enterNamespace handle)
    steps

end Sequence
end SlotPool
