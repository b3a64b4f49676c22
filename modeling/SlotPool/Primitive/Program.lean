import SlotPool.Primitive.Call
/-!
Programs of primitive calls. A program is a tree: it is finished with a value, or it makes a call
and goes on as the answer says. Nothing in a program depends on the machine that answers it, so
what holds of all answers can be said of the tree alone.

A guard remembers the namespace in which it was set and returns the thread there when its scope
ends. Every call carries the guards alive at it, innermost first, so that the thread is taken back
also when a call kills it.
-/

namespace SlotPool

/-- A program of primitive calls with a value of type `α`. -/
inductive Program (α : Type)
  | done (value : α)
  | call (call : Call) (guards : List Handle)
      (next : Except NetworkError call.Reply → Program α)

namespace Program

variable {α β σ : Type}

/-- Goes on with a second program when the first is done. -/
def bind : Program α → (α → Program β) → Program β
  | .done value, rest => rest value
  | .call c guards next, rest => .call c guards fun result => (next result).bind rest

instance : Monad Program where
  pure := .done
  bind := bind

/-- Makes one call and is done with its result. -/
def perform (c : Call) : Program (Except NetworkError c.Reply) :=
  .call c [] .done

/-- Runs a program under a guard: when it ends, the thread is taken back to `origin`. A failure to
    take it back is not reported. -/
def guarded (origin : Handle) : Program α → Program α
  | .done value => .call (.enterNamespace origin) [] fun _ => .done value
  | .call c guards next => .call c (guards ++ [origin]) fun result => (next result).guarded origin

/-- Takes the thread back through the guards that were alive when it died. -/
def restore (machine : Machine σ) (guards : List Handle) (state : σ) : σ :=
  guards.foldl (fun state origin => (machine.answer (.enterNamespace origin) state).2) state

/-- Runs a program on a machine. It has no value when a call killed the thread. -/
def run (machine : Machine σ) : Program α → σ → Option α × σ
  | .done value, state => (some value, state)
  | .call c guards next, state =>
    match machine.answer c state with
    | (.returned result, state) => (next result).run machine state
    | (.crashed, state) => (none, restore machine guards state)

@[simp]
theorem pure_eq (value : α) : (pure value : Program α) = .done value := rfl

@[simp]
theorem bind_eq (p : Program α) (f : α → Program β) : p >>= f = p.bind f := rfl

@[simp]
theorem bind_done (p : Program α) : p.bind .done = p := by
  induction p with
  | done value => rfl
  | call c guards next ih => simp only [bind, ih]

theorem bind_assoc {γ : Type} (p : Program α) (f : α → Program β) (g : β → Program γ) :
    (p.bind f).bind g = p.bind fun value => (f value).bind g := by
  induction p with
  | done value => rfl
  | call c guards next ih => simp only [bind, ih]

instance : LawfulMonad Program :=
  LawfulMonad.mk' Program
    (fun p => bind_done p)
    (fun _ _ => rfl)
    (fun p f g => bind_assoc p f g)

/-- Running two programs in a row is running the second where the first has left the machine. -/
theorem run_bind (machine : Machine σ) (p : Program α) (f : α → Program β) (state : σ) :
    (p.bind f).run machine state =
      match p.run machine state with
      | (some value, state) => (f value).run machine state
      | (none, state) => (none, state) := by
  induction p generalizing state with
  | done value => rfl
  | call c guards next ih =>
    simp only [bind, run]
    split
    · exact ih _ _
    · rfl

end Program
end SlotPool
