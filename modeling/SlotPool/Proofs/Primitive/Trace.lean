import SlotPool.Primitive.Program
import SlotPool.Rehearsal.Fault
/-!
The calls that a program makes on a machine, in order, and how guards show among them: a guard is set by a look at
the current namespace, all calls in its scope are made under it, and when it is dropped the thread is taken back by
one call that is not.
-/

namespace SlotPool

/-- A call that was made, what came of it, the guards alive at it and the state of the machine before it. -/
structure Event (σ : Type) extends Record where
  guards : List Handle
  before : σ

/-- The namespace that a call has captured: the current one, where it could be opened. -/
def Event.captured {σ : Type} (event : Event σ) : Option Handle :=
  match event.toRecord with
  | ⟨.currentNamespace, .returned (.ok origin)⟩ => some origin
  | _ => none

namespace Program

variable {α β σ : Type}

/-- The calls by which guards take the thread back when it has died. -/
def restoring (machine : Machine σ) : List Handle → σ → List (Event σ)
  | [], _ => []
  | origin :: rest, state =>
    let (answer, after) := machine.answer (.enterNamespace origin) state
    ⟨⟨.enterNamespace origin, answer⟩, [], state⟩ :: restoring machine rest after

/-- The calls that a program makes when it is run. -/
def trace (machine : Machine σ) : Program α → σ → List (Event σ)
  | .done _, _ => []
  | .call c guards next, state =>
    match machine.answer c state with
    | (.returned result, after) => ⟨⟨c, .returned result⟩, guards, state⟩ :: (next result).trace machine after
    | (.crashed, after) => ⟨⟨c, .crashed⟩, guards, state⟩ :: restoring machine guards after

variable {machine : Machine σ} {state : σ}

/-- The calls of two programs in a row. -/
theorem trace_bind {p : Program α} {f : α → Program β} :
    (p.bind f).trace machine state = p.trace machine state ++
      match p.run machine state with
      | (some value, after) => (f value).trace machine after
      | (none, _) => [] := by
  induction p generalizing state with
  | done value => rfl
  | call c guards next ih =>
    cases hanswer : machine.answer c state with
    | mk answer after =>
      cases answer with
      | returned result => simp only [bind, trace, run, hanswer, ih, List.cons_append]
      | crashed => simp only [bind, trace, run, hanswer, List.append_nil]

end Program
end SlotPool
